import ZeOS.Monitor.Steps

/-!
# Whose statistics a read returns

`readstats_read_dev` takes the record of the process with the monitored pid and does not look at
the pid in the record.  It gives the statistics of that process if the record was reset for it, and
whatever lay in its memory if not.

A process comes to be monitored when it opens the device, by `CHANGE_PROCESS`, and by being created
with the pid that is monitored.  `CHANGE_PROCESS` looks at the record and the others do not.  Reads
return what they should just when every process that comes to be monitored has a record that was
reset for it (`reads_genuine_iff`).
-/

namespace SyscallsMon

open GuardedRun

variable {N : SyscallNumbers} {m t : Monitor} {e : Event} {pid : ℤ} {p : Proc}

/-! ## The history of a record -/

/-- The record of a process after a reset and some updates by its wrappers. -/
def replay (pid : ℤ) (ups : List (CallId × Update)) : MyThread :=
  ups.foldl (fun x u => x.update u.1 u.2) (.reset pid)

lemma replay_pid (pid : ℤ) (ups : List (CallId × Update)) : (replay pid ups).pid = pid := by
  have h : ∀ (ups : List (CallId × Update)) (x : MyThread),
      (ups.foldl (fun x u => x.update u.1 u.2) x).pid = x.pid := by
    intro ups
    induction ups with
    | nil => exact fun x => rfl
    | cons u ups ih => exact fun x => ih (x.update u.1 u.2)
  exact h ups _

/-- The record is what the wrappers of the process have made of it since it was reset, if it was. -/
def Proc.FromHistory (pid : ℤ) (p : Proc) : Prop :=
  ∀ ups, p.since = some ups → p.record = replay pid ups

lemma Proc.FromHistory.resetStats : (p.resetStats pid).FromHistory pid := by
  intro ups h
  cases h
  rfl

lemma Proc.FromHistory.checkStats (h : p.FromHistory pid) : (p.checkStats pid).FromHistory pid := by
  by_cases hpid : p.record.pid = pid
  · rwa [checkStats_of_eq hpid]
  · rw [checkStats_of_ne hpid]
    exact .resetStats

lemma Proc.FromHistory.update (h : p.FromHistory pid) (k : CallId) (u : Update) :
    (p.update k u).FromHistory pid := by
  intro ups hups
  obtain ⟨ups', hs, rfl⟩ := Option.map_eq_some_iff.mp hups
  rw [replay, List.foldl_append]
  exact congrArg (MyThread.update · k u) (h ups' hs)

namespace Monitor

/-- Every process has a positive pid, and a record with its history. -/
def ProcsOk (m : Monitor) : Prop := ∀ pid p, m.proc pid = some p → 0 < pid ∧ p.FromHistory pid

lemma create_pos {record : MyThread} (h : m.create pid record = .ok t) : 0 < pid := by
  unfold create at h
  split at h
  · cases h
  · split at h
    · assumption
    · cases h

/-- A process that was not there before was created. -/
lemma exists_of_step (h : m.step N e = .ok t) {q : Proc} (hq : t.proc pid = some q) :
    (∃ p, m.proc pid = some p ∧ (q.since = none → p.since = none)) ∨
      (∃ record, e = .create pid record) ∧ q.since = none := by
  have hmap : ∀ (p : Proc) (k : CallId) (u : Update), (p.update k u).since = none →
      p.since = none := fun p k u hs => Option.map_eq_none_iff.mp hs
  have hcheck : ∀ p : Proc, (p.checkStats pid).since = none → p.since = none := by
    intro p hs
    by_cases hpid : p.record.pid = pid
    · rwa [Proc.checkStats_of_eq hpid] at hs
    · rw [Proc.checkStats_of_ne hpid] at hs
      cases hs
  have hstep := step_proc h pid
  rw [hq] at hstep
  generalize m.proc pid = x at hstep ⊢
  cases hstep with
  | before p w start _ => exact .inl ⟨p, rfl, fun hs => hcheck p (hmap _ _ _ hs)⟩
  | after p w start b c _ => exact .inl ⟨p, rfl, fun hs => hmap _ _ _ hs⟩
  | other heff =>
    cases heff with
    | same => exact .inl ⟨q, rfl, id⟩
    | created record he => exact .inr ⟨⟨record, he⟩, rfl⟩
    | entered p k _ => exact .inl ⟨p, rfl, id⟩
    | left p k _ => exact .inl ⟨p, rfl, id⟩
    | checked p => exact .inl ⟨p, rfl, hcheck p⟩
    | reset p _ => exact .inl ⟨p, rfl, fun hs => absurd hs (Option.some_ne_none [])⟩

lemma ProcsOk.step (hm : m.ProcsOk) (h : m.step N e = .ok t) : t.ProcsOk := by
  intro pid q hq
  constructor
  · obtain ⟨p, hp, -⟩ | ⟨⟨record, rfl⟩, -⟩ := exists_of_step h hq
    · exact (hm pid p hp).1
    · exact create_pos h
  · have hhist : ∀ pid p, m.proc pid = some p → p.FromHistory pid := fun pid p hp => (hm pid p hp).2
    refine step_forall_proc (I := Proc.FromHistory) ?_ ?_ ?_ ?_ ?_ ?_ ?_ hhist h pid q hq
    · exact fun _ _ ups hs => absurd hs.symm (Option.some_ne_none ups)
    · exact fun pid p w _ _ hp => hp.checkStats.update w.index .call
    · exact fun pid p w _ b c _ hp => hp.update w.index (.ret b c)
    · exact fun _ _ _ _ hp => hp
    · exact fun _ _ _ _ hp => hp
    · exact fun _ _ hp => hp.checkStats
    · exact fun _ _ _ _ _ => .resetStats

/-! ## The monitored process -/

/-- What is read is from the process with the monitored pid: its record is marked as its own, and
is what its wrappers have made of it since it was reset. -/
def ReadsGenuine (m : Monitor) : Prop :=
  ∀ r, m.reader = some r → r.lock ≠ 0 → ∀ s uncopied, (m.readstatsReadDev r s uncopied).2 ≠ [] →
    ∃ p ups, m.findTaskByPid r.procMonitored = some p ∧ p.record.pid = r.procMonitored ∧
      p.since = some ups ∧ p.record = replay r.procMonitored ups

/-- A process that comes to be monitored has a record that was reset for it: one that opens the
device, the one that `CHANGE_PROCESS` names, unless it is reset by that, the one that the device is
given back to when there is no such process; and no process is created with the monitored pid while
the device is open. -/
def ChoosesReset (m : Monitor) : Event → Prop
  | .create pid _ => ∀ r, m.reader = some r → r.lock ≠ 0 → pid ≠ r.procMonitored
  | .openDev pid uid => ∀ r p, m.reader = some r → r.lock = 0 → uid = 0 → m.proc pid = some p →
      p.since ≠ none
  | .ioctl 0 arg2 => 0 ≤ signedInt arg2 →
      (∀ p, m.proc (signedInt arg2) = some p → p.record.pid = signedInt arg2 → p.since ≠ none) ∧
        (m.proc (signedInt arg2) = none →
          ∀ r p, m.reader = some r → m.proc r.openPid = some p → p.since ≠ none)
  | _ => True

/-- The variables of the reader are in range. -/
def ReaderOk (m : Monitor) : Prop :=
  ∀ r, m.reader = some r →
    0 ≤ r.procMonitored ∧ 0 ≤ r.openPid ∧ 0 ≤ r.syscMonitored ∧ r.syscMonitored < nCalls

/-- The monitored process of an open device has a record that was reset for it. -/
def MonitoredReset (m : Monitor) : Prop :=
  ∀ r, m.reader = some r → r.lock ≠ 0 → ∀ p, m.proc r.procMonitored = some p → p.since ≠ none

lemma MonitoredReset.readsGenuine (h : m.MonitoredReset) (hp : m.ProcsOk) : m.ReadsGenuine := by
  intro r hr hl s uncopied hread
  cases hproc : m.proc r.procMonitored with
  | none =>
    refine absurd ?_ hread
    have herr : ∃ x, m.getStats r.procMonitored r.syscMonitored = .error x := by
      unfold getStats
      split
      · exact ⟨_, rfl⟩
      · split
        · exact ⟨_, rfl⟩
        · rw [findTaskByPid, hproc]
          exact ⟨_, rfl⟩
    obtain ⟨x, hx⟩ := herr
    rw [readstatsReadDev, hx]
  | some p =>
    obtain ⟨ups, hups⟩ := Option.ne_none_iff_exists'.mp (h r hr hl p hproc)
    have hrec := (hp _ p hproc).2 ups hups
    exact ⟨p, ups, hproc, by rw [hrec, replay_pid], hups, hrec⟩

lemma TInfo.bytes_length (x : TInfo) : x.bytes.length = 20 := by
  simp [TInfo.bytes, wordBytes]

/-- A read of a whole `struct t_info` shows a record that was never reset. -/
lemma ReadsGenuine.monitoredReset (h : m.ReadsGenuine) (hr : m.ReaderOk) : m.MonitoredReset := by
  intro r hread hl p hp hs
  obtain ⟨hpid, -, hc0, hc⟩ := hr r hread
  have hget : m.getStats r.procMonitored r.syscMonitored =
      .ok (p.record.stats ⟨r.syscMonitored.toNat, by omega⟩) := by
    rw [getStats, dif_neg (by omega), if_neg (not_lt.mpr hpid), findTaskByPid, hp]
  obtain ⟨q, ups, hq, -, hups, -⟩ := h r hread hl 20 0 (by
    rw [readstatsReadDev, hget]
    simp only [TInfo.bytes_length, lt_irrefl, if_false]
    intro hnil
    have hlen := congrArg List.length hnil
    rw [List.length_take, TInfo.bytes_length] at hlen
    cases hlen)
  rw [findTaskByPid, hp, Option.some.injEq] at hq
  rw [← hq, hs] at hups
  cases hups

/-! ## Steps -/

/-- Only the commands 0 and 1 change the variables of the reader. -/
lemma command_reader {r : Reader} {arg1 : ℕ} {c : ℤ} {x : ℤ × Monitor}
    (h : m.command N r arg1 c = .ok x) : x.2.reader = m.reader ∨ arg1 = 0 ∨ arg1 = 1 := by
  unfold command at h
  split at h
  · exact .inr (.inl rfl)
  · exact .inr (.inr rfl)
  · left
    cases hv : m.resetValues r.procMonitored with
    | error => rw [hv] at h; cases h
    | ok y =>
      rw [hv] at h
      cases h
      obtain ⟨-, hy⟩ | ⟨p, -, -, hy⟩ := resetValues_ok hv
      · rw [hy]
      · rw [hy]
        rfl
  · left
    cases h
    rfl
  · left
    split at h
    · cases h
      rfl
    · obtain rfl := Except.ok.inj h
      exact (activateSyscallMon_keeps N m c).2.2
  · left
    split at h
    · cases h
      rfl
    · obtain rfl := Except.ok.inj h
      exact (deactivateSyscallMon_keeps N m c).2.2
  · left
    cases h
    rfl

/-- The variables of the reader change with the device, its commands 0 and 1, and its module. -/
lemma step_reader (h : m.step N e = .ok t) :
    t.reader = m.reader ∨ (∃ pid uid, e = .openDev pid uid) ∨ e = .releaseDev ∨
      (∃ arg2, e = .ioctl 0 arg2) ∨ (∃ arg2, e = .ioctl 1 arg2) ∨ e = .driverInit ∨
      e = .driverExit := by
  cases e with
  | create pid record =>
    obtain ⟨-, rfl⟩ := create_effect h
    exact .inl rfl
  | exit pid =>
    obtain ⟨p, -, -, rfl⟩ := exit_effect h
    exact .inl rfl
  | call pid k start =>
    obtain ⟨p, -, -, rfl | ⟨w, -, rfl⟩⟩ := call_effect h
    · exact .inl rfl
    · exact .inl rfl
  | ret pid result «end» =>
    obtain ⟨p, -, ⟨k, -, rfl⟩ | ⟨w, start, -, rfl⟩⟩ := ret_effect h
    · exact .inl rfl
    · exact .inl rfl
  | openDev pid uid => exact .inr (.inl ⟨pid, uid, rfl⟩)
  | releaseDev => exact .inr (.inr (.inl rfl))
  | readDev s uncopied =>
    obtain ⟨r, -, -, hf⟩ := withDevice_ok h
    cases hf
    exact .inl rfl
  | ioctl arg1 arg2 =>
    obtain ⟨r, x, hr, -, hc⟩ := ioctl_step h
    obtain hk | rfl | rfl := command_reader hc
    · exact .inl hk
    · exact .inr (.inr (.inr (.inl ⟨arg2, rfl⟩)))
    · exact .inr (.inr (.inr (.inr (.inl ⟨arg2, rfl⟩))))
  | driverInit => exact .inr (.inr (.inr (.inr (.inr (.inl rfl)))))
  | driverExit => exact .inr (.inr (.inr (.inr (.inr (.inr rfl)))))

lemma openDev_step {uid : ℕ} (h : m.step N (.openDev pid uid) = .ok t) :
    ∃ r p, m.reader = some r ∧ m.proc pid = some p ∧
      ((r.lock = 0 ∧ uid = 0 ∧ t = { m with reader := some { r with
        lock := r.lock + 1, openPid := pid, procMonitored := pid } }) ∨
        ¬ (r.lock = 0 ∧ uid = 0) ∧ t = m) := by
  obtain ⟨r, p, hr, hp, -, rfl⟩ := openDev_effect h
  refine ⟨r, p, hr, hp, ?_⟩
  unfold readstatsOpenDev
  by_cases hl : r.lock = 0
  · rw [if_neg (not_not.mpr hl)]
    by_cases hu : uid = 0
    · rw [if_neg (not_not.mpr hu)]
      exact .inl ⟨hl, hu, rfl⟩
    · rw [if_pos hu]
      exact .inr ⟨fun hc => hu hc.2, rfl⟩
  · rw [if_pos hl]
    exact .inr ⟨fun hc => hl hc.1, rfl⟩

lemma releaseDev_step (h : m.step N .releaseDev = .ok t) :
    ∃ r, m.reader = some r ∧ t = { m with reader := some { r with
      lock := r.lock - 1, openPid := 0 } } := by
  obtain ⟨r, hr, hl, hf⟩ := withDevice_ok h
  cases hf
  refine ⟨r, hr, ?_⟩
  rw [readstatsReleaseDev, if_neg hl]

/-- `CHANGE_PROCESS`, by the process that it names. -/
lemma changeProcess_cases (m : Monitor) (r : Reader) (c : ℤ) :
    (c < 0 ∧ (m.changeProcess r c).2 = m) ∨
      (0 ≤ c ∧ m.proc c = none ∧ (m.changeProcess r c).2 =
        { m with reader := some { r with procMonitored := r.openPid } }) ∨
      ∃ p, 0 ≤ c ∧ m.proc c = some p ∧ (m.changeProcess r c).2 =
        { m.setProc c (p.checkStats c) with reader := some { r with procMonitored := c } } := by
  unfold changeProcess
  by_cases hneg : c < 0
  · rw [if_pos hneg]
    exact .inl ⟨hneg, rfl⟩
  · rw [if_neg hneg]
    right
    cases hp : m.proc c with
    | none =>
      rw [findTaskByPid, hp]
      exact .inl ⟨not_lt.mp hneg, rfl, rfl⟩
    | some p =>
      rw [findTaskByPid, hp]
      exact .inr ⟨p, not_lt.mp hneg, rfl, rfl⟩

lemma changeProcess_step {arg2 : ℕ} (h : m.step N (.ioctl 0 arg2) = .ok t) :
    ∃ r c, m.reader = some r ∧ r.lock ≠ 0 ∧ c = signedInt arg2 ∧ (m.changeProcess r c).2 = t := by
  obtain ⟨r, x, hr, hl, hc⟩ := ioctl_step h
  exact ⟨r, _, hr, hl, rfl, congrArg Prod.snd (Except.ok.inj hc)⟩

lemma changeSyscall_cases (m : Monitor) (r : Reader) (c : ℤ) :
    (m.changeSyscall r c).2 = m ∨ (0 ≤ c ∧ c < nCalls ∧
      (m.changeSyscall r c).2 = { m with reader := some { r with syscMonitored := c } }) := by
  unfold changeSyscall
  by_cases hrange : c < 0 ∨ c ≥ nCalls
  · rw [if_pos hrange]
    exact .inl rfl
  · rw [if_neg hrange]
    push Not at hrange
    exact .inr ⟨hrange.1, hrange.2, rfl⟩

lemma changeSyscall_step {arg2 : ℕ} (h : m.step N (.ioctl 1 arg2) = .ok t) :
    ∃ r c, m.reader = some r ∧ (m.changeSyscall r c).2 = t := by
  obtain ⟨r, x, hr, -, hc⟩ := ioctl_step h
  exact ⟨r, _, hr, congrArg Prod.snd (Except.ok.inj hc)⟩

lemma ReaderOk.step (hm : m.ReaderOk) (hp : m.ProcsOk) (h : m.step N e = .ok t) : t.ReaderOk := by
  obtain hr | ⟨pid, uid, rfl⟩ | rfl | ⟨arg2, rfl⟩ | ⟨arg2, rfl⟩ | rfl | rfl := step_reader h
  · intro r
    rw [hr]
    exact hm r
  · obtain ⟨r, p, hr, hproc, ⟨-, -, rfl⟩ | ⟨-, rfl⟩⟩ := openDev_step h
    · rintro _ ⟨rfl⟩
      have hpos := (hp pid p hproc).1.le
      exact ⟨hpos, hpos, (hm r hr).2.2⟩
    · exact hm
  · obtain ⟨r, hr, rfl⟩ := releaseDev_step h
    rintro _ ⟨rfl⟩
    exact ⟨(hm r hr).1, le_refl 0, (hm r hr).2.2⟩
  · obtain ⟨r, c, hr, -, -, rfl⟩ := changeProcess_step h
    obtain ⟨-, ht⟩ | ⟨-, -, ht⟩ | ⟨p, hpos, -, ht⟩ := changeProcess_cases m r c
    · rwa [ht]
    · rw [ht]
      rintro _ ⟨rfl⟩
      exact ⟨(hm r hr).2.1, (hm r hr).2⟩
    · rw [ht]
      rintro _ ⟨rfl⟩
      exact ⟨hpos, (hm r hr).2⟩
  · obtain ⟨r, c, hr, rfl⟩ := changeSyscall_step h
    obtain ht | ⟨hc0, hc, ht⟩ := changeSyscall_cases m r c
    · rwa [ht]
    · rw [ht]
      rintro _ ⟨rfl⟩
      exact ⟨(hm r hr).1, (hm r hr).2.1, hc0, hc⟩
  · simp only [step] at h
    split at h
    · cases h
      rintro _ ⟨rfl⟩
      decide
    · cases h
  · simp only [step] at h
    split at h
    · split at h
      · cases h
        intro r hr
        cases hr
      · cases h
    · cases h

lemma MonitoredReset.step (hm : m.MonitoredReset) (hch : m.ChoosesReset e)
    (h : m.step N e = .ok t) : t.MonitoredReset := by
  obtain hr | ⟨pid, uid, rfl⟩ | rfl | ⟨arg2, rfl⟩ | ⟨arg2, rfl⟩ | rfl | rfl := step_reader h
  · intro r hread hl q hq hs
    rw [hr] at hread
    obtain ⟨p, hp, hps⟩ | ⟨⟨record, rfl⟩, -⟩ := exists_of_step h hq
    · exact hm r hread hl p hp (hps hs)
    · exact hch r hread hl rfl
  · obtain ⟨r, p, hr, hproc, ⟨hl, hu, rfl⟩ | ⟨-, rfl⟩⟩ := openDev_step h
    · rintro _ ⟨rfl⟩ - q hq
      exact hch r q hr hl hu hq
    · exact hm
  · obtain ⟨r, hr, rfl⟩ := releaseDev_step h
    rintro _ ⟨rfl⟩ - q hq
    obtain ⟨r', hr', hl, -⟩ := withDevice_ok h
    rw [hr, Option.some.injEq] at hr'
    exact hm r hr (hr' ▸ hl) q hq
  · obtain ⟨r, c, hr, hl, hc, rfl⟩ := changeProcess_step h
    obtain ⟨-, ht⟩ | ⟨hpos, hnone, ht⟩ | ⟨p, hpos, hp, ht⟩ := changeProcess_cases m r c
    · rwa [ht]
    · rw [ht]
      rintro _ ⟨rfl⟩ - q hq
      rw [ChoosesReset, ← hc] at hch
      exact (hch hpos).2 hnone r q hr hq
    · rw [ht]
      rintro _ ⟨rfl⟩ - q hq hs
      change (m.setProc c (p.checkStats c)).proc c = some q at hq
      rw [setProc_self, Option.some.injEq] at hq
      rw [ChoosesReset, ← hc] at hch
      by_cases hpid : p.record.pid = c
      · rw [Proc.checkStats_of_eq hpid] at hq
        exact (hch hpos).1 p hp hpid (hq ▸ hs)
      · rw [Proc.checkStats_of_ne hpid] at hq
        rw [← hq] at hs
        cases hs
  · obtain ⟨r, c, hr, rfl⟩ := changeSyscall_step h
    obtain ht | ⟨-, -, ht⟩ := changeSyscall_cases m r c
    · rwa [ht]
    · rw [ht]
      rintro _ ⟨rfl⟩ hl q hq
      exact hm r hr hl q hq
  · simp only [step] at h
    split at h
    · cases h
      rintro _ ⟨rfl⟩ hl
      exact absurd rfl hl
    · cases h
  · simp only [step] at h
    split at h
    · split at h
      · cases h
        intro r hr
        cases hr
      · cases h
    · cases h

/-- A process that comes to be monitored with a record that was never reset for it. -/
lemma not_monitoredReset (hch : ¬ m.ChoosesReset e) (h : m.step N e = .ok t) :
    ¬ t.MonitoredReset := by
  intro ht
  unfold ChoosesReset at hch
  split at hch
  · push Not at hch
    obtain ⟨r, hr, hl, hpid⟩ := hch
    obtain ⟨-, rfl⟩ := create_effect h
    rw [hpid] at ht
    exact ht r hr hl _ (setProc_self ..) rfl
  · push Not at hch
    obtain ⟨r, p, hr, hl, hu, hp, hs⟩ := hch
    obtain ⟨r', p', hr', -, ⟨-, -, rfl⟩ | ⟨hno, -⟩⟩ := openDev_step h
    · rw [hr, Option.some.injEq] at hr'
      subst hr'
      exact ht _ rfl (show r.lock + 1 ≠ 0 by omega) p hp hs
    · rw [hr, Option.some.injEq] at hr'
      exact hno ⟨hr' ▸ hl, hu⟩
  · obtain ⟨r, c, hr, hl, hc, rfl⟩ := changeProcess_step h
    rw [← hc] at hch
    obtain ⟨hpos, hbad⟩ := Classical.not_imp.mp hch
    obtain ⟨hneg, -⟩ | ⟨-, hnone, heq⟩ | ⟨p, -, hp, heq⟩ := changeProcess_cases m r c
    · exact absurd hpos (not_le.mpr hneg)
    · rw [heq] at ht
      refine hbad ⟨fun p hp => ?_, fun _ r' p hr' hp => ?_⟩
      · rw [hnone] at hp
        cases hp
      · rw [hr, Option.some.injEq] at hr'
        subst hr'
        exact ht _ rfl hl p hp
    · rw [heq] at ht
      refine hbad ⟨fun q hq hpid => ?_, fun hnone => ?_⟩
      · rw [hp, Option.some.injEq] at hq
        subst hq
        refine ht _ rfl hl p ?_
        change (m.setProc c (p.checkStats c)).proc c = some p
        rw [setProc_self, Proc.checkStats_of_eq hpid]
      · rw [hnone] at hp
        cases hp
  · exact hch trivial

/-- What holds of every state while reads are genuine. -/
def ReadsOk (m : Monitor) : Prop := m.ProcsOk ∧ m.ReaderOk ∧ m.MonitoredReset

lemma readsOk_init {M : Machine} {m₀ : Monitor} (h : M.insmod.syscallsMonInit N = .ok m₀) :
    m₀.ReadsOk := by
  have hnone : m₀.reader = none := by
    obtain ⟨a, p, -, rfl⟩ := syscallsMonInit_ok h
    rfl
  refine ⟨fun pid q hq => ⟨?_, ?_⟩, fun r hr => ?_, fun r hr => ?_⟩
  · obtain ⟨a, p, hp, rfl⟩ := syscallsMonInit_ok h
    have hpos : ∀ a p, M.insmod.proc a = some p → 0 < a := by
      intro a p hp
      obtain ⟨x, hx, -⟩ := Option.map_eq_some_iff.mp hp
      exact M.pid_pos a x hx
    by_cases hpid : pid = a
    · exact hpid ▸ hpos a p hp
    · change ((M.insmod.initTables N).setProc a (p.resetStats a)).proc pid = some q at hq
      rw [setProc_of_ne _ _ hpid] at hq
      exact hpos pid q hq
  · intro ups hups
    obtain hs | ⟨hs, hrec⟩ := (syscallsMonInit_proc h hq).2
    · rw [hs] at hups
      cases hups
    · rw [hs, Option.some.injEq] at hups
      rw [hrec, ← hups]
      rfl
  · rw [hnone] at hr
    cases hr
  · rw [hnone] at hr
    cases hr

end Monitor

/-- **Whose statistics a read returns.**  In every run of the machine, in every state a read of the
device gives the statistics of the process that has the monitored pid, just when every process that
comes to be monitored has a record that was reset for it. -/
theorem reads_genuine_iff (N : SyscallNumbers) (M : Machine) (m₀ t : Monitor) (es : List Event)
    (hload : M.insmod.syscallsMonInit N = .ok m₀)
    (hrun : Run (Monitor.step N) (fun _ _ => True) m₀ es t) :
    (∀ pre u, pre <+: es → Run (Monitor.step N) (fun _ _ => True) m₀ pre u → u.ReadsGenuine) ↔
      Run (Monitor.step N) Monitor.ChoosesReset m₀ es t := by
  have hgood : ∀ m : Monitor, m.ReadsOk → m.ReadsGenuine :=
    fun m hm => hm.2.2.readsGenuine hm.1
  have hkeep : ∀ (m : Monitor) (e : Event) (t : Monitor), m.ReadsOk → True → m.ChoosesReset e →
      m.step N e = .ok t → t.ReadsOk := by
    rintro m e t ⟨hp, hr, hm⟩ - hch hst
    exact ⟨hp.step hst, hr.step hp hst, hm.step hch hst⟩
  have hbreak : ∀ (m : Monitor) (e : Event) (t : Monitor), m.ReadsOk → True →
      ¬ m.ChoosesReset e → m.step N e = .ok t → ¬ t.ReadsGenuine := by
    rintro m e t ⟨hp, hr, -⟩ - hch hst hgen
    exact Monitor.not_monitoredReset hch hst (hgen.monitoredReset (hr.step hp hst))
  have hiff := hrun.forall_prefix_iff hgood hkeep hbreak (Monitor.readsOk_init hload)
  simpa only [true_and] using hiff

theorem reads_genuine_iff_open :
    ∃ m₀ t, twoProcs.insmod.syscallsMonInit i386 = .ok m₀ ∧
      ((∀ pre u, pre <+: [.driverInit, .call 2 callOpen 0, .openDev 2 0] →
          Run (Monitor.step i386) (fun _ _ => True) m₀ pre u → u.ReadsGenuine) ↔
        Run (Monitor.step i386) Monitor.ChoosesReset m₀
          [.driverInit, .call 2 callOpen 0, .openDev 2 0] t) :=
  ⟨_, _, rfl, reads_genuine_iff i386 twoProcs _ _ _ rfl
    (.cons trivial rfl (.cons trivial rfl (.cons trivial rfl (.nil _))))⟩

/-- What lies where the record of a new process will be. -/
def staleRecord : MyThread where
  stats := fun _ => { nCalls := 7, nCallsOk := 7, nCallsErr := 0, total := 1 }
  pid := 99

/-- Process 1 is monitored and ends, and a new process has its pid. -/
theorem read_of_new_process_not_genuine :
    ∃ m₀ t, twoProcs.insmod.syscallsMonInit i386 = .ok m₀ ∧
      Run (Monitor.step i386) (fun _ _ => True) m₀
        [.driverInit, .call 2 callOpen 0, .openDev 2 0, .ret 2 3 0, .ioctl 0 1, .exit 1,
          .create 1 staleRecord] t ∧
      ¬ t.ReadsGenuine := by
  refine ⟨_, _, rfl, .cons trivial rfl (.cons trivial rfl (.cons trivial rfl (.cons trivial rfl
    (.cons trivial rfl (.cons trivial rfl (.cons trivial rfl (.nil _))))))), ?_⟩
  intro h
  obtain ⟨p, ups, hp, -, hups, -⟩ := h _ rfl (by decide) 20 0 (by decide)
  cases hp
  cases hups

end SyscallsMon
