import ZeOS.Monitor.Reader

/-!
# What an event does

Every event is a half of a wrapper, or leaves the counters of the calls alone and changes each
process in one of a few ways (`Monitor.Effect`).  Every invariant of the processes is checked
against these.
-/

namespace SyscallsMon

variable {N : SyscallNumbers} {m t : Monitor} {e : Event} {pid : ℤ} {p : Proc}

namespace Proc

@[simp] lemma resetStats_inCall (pid : ℤ) (p : Proc) : (p.resetStats pid).inCall = p.inCall := rfl

@[simp] lemma resetStats_since (pid : ℤ) (p : Proc) : (p.resetStats pid).since = some [] := rfl

@[simp] lemma resetStats_pid (pid : ℤ) (p : Proc) : (p.resetStats pid).record.pid = pid := rfl

@[simp] lemma update_inCall (p : Proc) (k : CallId) (u : Update) :
    (p.update k u).inCall = p.inCall := rfl

@[simp] lemma update_pid (p : Proc) (k : CallId) (u : Update) :
    (p.update k u).record.pid = p.record.pid := rfl

lemma checkStats_of_eq (h : p.record.pid = pid) : p.checkStats pid = p := by
  rw [checkStats, if_neg (by rw [h]; exact not_not.mpr rfl)]

lemma checkStats_of_ne (h : p.record.pid ≠ pid) : p.checkStats pid = p.resetStats pid := by
  rw [checkStats, if_pos h.symm]

@[simp] lemma checkStats_inCall (pid : ℤ) (p : Proc) : (p.checkStats pid).inCall = p.inCall := by
  by_cases h : p.record.pid = pid
  · rw [checkStats_of_eq h]
  · rw [checkStats_of_ne h, resetStats_inCall]

@[simp] lemma checkStats_pid (pid : ℤ) (p : Proc) : (p.checkStats pid).record.pid = pid := by
  by_cases h : p.record.pid = pid
  · rw [checkStats_of_eq h, h]
  · rw [checkStats_of_ne h, resetStats_pid]

lemma not_inside_of_none {k : CallId} (h : p.inCall = none) : ¬ p.Inside k := by
  rintro ⟨a, ha⟩
  rw [h] at ha
  cases ha

lemma not_inside_of_original {k j : CallId} (h : p.inCall = some (.original j)) : ¬ p.Inside k := by
  rintro ⟨a, ha⟩
  rw [h, Option.some.injEq] at ha
  cases ha

lemma inside_wrapper_iff {w : Wrapper} {start : BitVec 64} {k : CallId}
    (h : p.inCall = some (.wrapper w start)) : p.Inside k ↔ w.index = k := by
  constructor
  · rintro ⟨a, ha⟩
    rw [h, Option.some.injEq, InCall.wrapper.injEq] at ha
    rw [ha.1]
  · rintro rfl
    exact ⟨start, h⟩

instance (p : Proc) (k : CallId) : Decidable (p.Inside k) :=
  match h : p.inCall with
  | none => .isFalse (not_inside_of_none h)
  | some (.original _) => .isFalse (not_inside_of_original h)
  | some (.wrapper w _) =>
    if hw : w.index = k then .isTrue ((inside_wrapper_iff h).mpr hw)
    else .isFalse fun hin => hw ((inside_wrapper_iff h).mp hin)

lemma inside_congr {q : Proc} {k : CallId} (h : q.inCall = p.inCall) : q.Inside k ↔ p.Inside k := by
  unfold Inside
  rw [h]

end Proc

namespace Monitor

@[simp] lemma setProc_self (m : Monitor) (pid : ℤ) (p : Proc) :
    (m.setProc pid p).proc pid = some p := Function.update_self ..

lemma setProc_of_ne (m : Monitor) (p : Proc) {pid pid' : ℤ} (h : pid' ≠ pid) :
    (m.setProc pid p).proc pid' = m.proc pid' := Function.update_of_ne h ..

/-- The event is a command that resets the statistics of a process. -/
def Resets (m : Monitor) (e : Event) (pid : ℤ) : Prop :=
  match e with
  | .ioctl 2 _ => 0 ≤ pid ∧ ∃ r, m.reader = some r ∧ r.procMonitored = pid
  | .ioctl 3 _ => True
  | _ => False

/-- What happens to a process at an event that is no half of a wrapper. -/
inductive ProcEffect (m : Monitor) (e : Event) (pid : ℤ) : Option Proc → Option Proc → Prop
  | same (x : Option Proc) : ProcEffect m e pid x x
  | created (record : MyThread) :
      e = .create pid record → ProcEffect m e pid none (some ⟨record, none, none⟩)
  | ended (p : Proc) : p.inCall = none → ProcEffect m e pid (some p) none
  | entered (p : Proc) (k : CallId) : p.inCall = none →
      ProcEffect m e pid (some p) (some { p with inCall := some (.original k) })
  | left (p : Proc) (k : CallId) : p.inCall = some (.original k) →
      ProcEffect m e pid (some p) (some { p with inCall := none })
  | checked (p : Proc) : ProcEffect m e pid (some p) (some (p.checkStats pid))
  | reset (p : Proc) : m.Resets e pid → ProcEffect m e pid (some p) (some (p.resetStats pid))

/-- What an event does to the processes and the counters of the calls. -/
inductive Effect (m : Monitor) (e : Event) (t : Monitor) : Prop
  | before (pid : ℤ) (p : Proc) (w : Wrapper) (start : BitVec 64) :
      m.proc pid = some p → p.inCall = none → t = m.beforeCall pid p w start → Effect m e t
  | after (pid : ℤ) (p : Proc) (w : Wrapper) (start : BitVec 64) (result : ℤ) («end» : BitVec 64) :
      m.proc pid = some p → p.inCall = some (.wrapper w start) →
      t = m.afterCall pid p w start result «end» → Effect m e t
  | other : t.syscallInfoTable = m.syscallInfoTable →
      (∀ pid, ProcEffect m e pid (m.proc pid) (t.proc pid)) → Effect m e t

/-- An event that changes one process only. -/
lemma Effect.one (pid : ℤ) (hi : t.syscallInfoTable = m.syscallInfoTable)
    (hself : ProcEffect m e pid (m.proc pid) (t.proc pid))
    (hne : ∀ pid', pid' ≠ pid → t.proc pid' = m.proc pid') : Effect m e t := by
  refine .other hi fun pid' => ?_
  by_cases h : pid' = pid
  · exact h ▸ hself
  · rw [hne pid' h]
    exact .same _

/-- An event that changes no process. -/
lemma Effect.none (hi : t.syscallInfoTable = m.syscallInfoTable) (hp : t.proc = m.proc) :
    Effect m e t := by
  refine .other hi fun pid => ?_
  rw [hp]
  exact .same _

lemma withDevice_ok {f : Reader → Except Stop Monitor} (h : m.withDevice f = .ok t) :
    ∃ r, m.reader = some r ∧ r.lock ≠ 0 ∧ f r = .ok t := by
  unfold withDevice at h
  split at h
  · rename_i r hr
    split at h
    · exact ⟨r, hr, ‹_›, h⟩
    · cases h
  · cases h

lemma create_effect {record : MyThread} (h : m.create pid record = .ok t) :
    m.proc pid = none ∧ t = m.setProc pid ⟨record, none, none⟩ := by
  unfold create at h
  split at h
  · cases h
  · rename_i hn
    split at h
    · cases h
      exact ⟨hn, rfl⟩
    · cases h

lemma exit_effect (h : m.exit pid = .ok t) :
    ∃ p, m.proc pid = some p ∧ p.inCall = none ∧
      t = { m with proc := Function.update m.proc pid none } := by
  unfold exit at h
  split at h
  · cases h
  · rename_i p hp
    split at h
    · rename_i hin
      cases h
      exact ⟨p, hp, Option.isNone_iff_eq_none.mp hin, rfl⟩
    · cases h

lemma call_effect {k : CallId} {start : BitVec 64} (h : m.call N pid k start = .ok t) :
    ∃ p, m.proc pid = some p ∧ p.inCall = none ∧
      (t = m.setProc pid { p with inCall := some (.original k) } ∨
        ∃ w, m.sysCallTable (N.localToSysIndex k) = .wrapper w ∧ t = m.beforeCall pid p w start) := by
  unfold call at h
  split at h
  · cases h
  · rename_i p hp
    split at h
    · rename_i hin
      refine ⟨p, hp, Option.isNone_iff_eq_none.mp hin, ?_⟩
      split at h
      · cases h
        exact .inl rfl
      · rename_i w hw
        cases h
        exact .inr ⟨w, hw, rfl⟩
    · cases h

lemma ret_effect {result : ℤ} {«end» : BitVec 64} (h : m.ret pid result «end» = .ok t) :
    ∃ p, m.proc pid = some p ∧
      ((∃ k, p.inCall = some (.original k) ∧ t = m.setProc pid { p with inCall := none }) ∨
        ∃ w start, p.inCall = some (.wrapper w start) ∧
          t = m.afterCall pid p w start result «end») := by
  unfold ret at h
  split at h
  · cases h
  · rename_i p hp
    refine ⟨p, hp, ?_⟩
    split at h
    · cases h
    · rename_i k hk
      cases h
      exact .inl ⟨k, hk, rfl⟩
    · rename_i w start hw
      cases h
      exact .inr ⟨w, start, hw, rfl⟩

lemma openDev_effect {uid : ℕ} (h : m.openDev pid uid = .ok t) :
    ∃ r p, m.reader = some r ∧ m.proc pid = some p ∧ p.inside callOpen = true ∧
      t = (m.readstatsOpenDev r pid uid).2 := by
  unfold openDev at h
  split at h
  · rename_i r p hr hp
    split at h
    · cases h
      exact ⟨r, p, hr, hp, ‹_›, rfl⟩
    · cases h
  · cases h

lemma readstatsOpenDev_proc (m : Monitor) (r : Reader) (pid : ℤ) (uid : ℕ) :
    (m.readstatsOpenDev r pid uid).2.proc = m.proc ∧
      (m.readstatsOpenDev r pid uid).2.syscallInfoTable = m.syscallInfoTable := by
  unfold readstatsOpenDev
  split
  · exact ⟨rfl, rfl⟩
  · split <;> exact ⟨rfl, rfl⟩

lemma readstatsReleaseDev_proc (m : Monitor) (r : Reader) :
    (m.readstatsReleaseDev r).2.proc = m.proc ∧
      (m.readstatsReleaseDev r).2.syscallInfoTable = m.syscallInfoTable := by
  unfold readstatsReleaseDev
  split <;> exact ⟨rfl, rfl⟩

/-- A loop over the calls keeps what each turn keeps. -/
lemma forCalls_keeps {α : Type} (g : Monitor → α) (f : Monitor → CallId → Monitor)
    (hf : ∀ m k, g (f m k) = g m) (m : Monitor) (c : ℤ) : g (forCalls f m c).2 = g m := by
  have hfold : ∀ (ks : List CallId) (m : Monitor), g (ks.foldl f m) = g m := by
    intro ks
    induction ks with
    | nil => exact fun m => rfl
    | cons k ks ih =>
      intro m
      rw [List.foldl_cons, ih, hf]
  unfold forCalls
  split
  · rfl
  · split
    · exact hf m _
    · exact hfold _ m

lemma activateSyscallMon_keeps (N : SyscallNumbers) (m : Monitor) (c : ℤ) :
    (activateSyscallMon N m c).2.proc = m.proc ∧
      (activateSyscallMon N m c).2.syscallInfoTable = m.syscallInfoTable ∧
      (activateSyscallMon N m c).2.reader = m.reader := by
  let f : Monitor → CallId → Monitor := fun m k => m.setMonOnSyscall N k
  exact ⟨forCalls_keeps proc f (fun _ _ => rfl) m c,
    forCalls_keeps syscallInfoTable f (fun _ _ => rfl) m c,
    forCalls_keeps reader f (fun _ _ => rfl) m c⟩

lemma deactivateSyscallMon_keeps (N : SyscallNumbers) (m : Monitor) (c : ℤ) :
    (deactivateSyscallMon N m c).2.proc = m.proc ∧
      (deactivateSyscallMon N m c).2.syscallInfoTable = m.syscallInfoTable ∧
      (deactivateSyscallMon N m c).2.reader = m.reader := by
  let f : Monitor → CallId → Monitor := fun m k => m.unsetMonOnSyscall N k
  exact ⟨forCalls_keeps proc f (fun _ _ => rfl) m c,
    forCalls_keeps syscallInfoTable f (fun _ _ => rfl) m c,
    forCalls_keeps reader f (fun _ _ => rfl) m c⟩

lemma changeProcess_effect (m : Monitor) (r : Reader) (pid : ℤ) :
    Effect m e (m.changeProcess r pid).2 := by
  unfold changeProcess
  split
  · exact .none rfl rfl
  · split
    · exact .none rfl rfl
    · rename_i p hp
      refine .one pid rfl ?_ fun pid' h => setProc_of_ne m _ h
      rw [show m.proc pid = some p from hp]
      change ProcEffect m e pid _ ((m.setProc pid (p.checkStats pid)).proc pid)
      rw [setProc_self]
      exact .checked p

lemma changeSyscall_proc (m : Monitor) (r : Reader) (c : ℤ) :
    (m.changeSyscall r c).2.proc = m.proc ∧
      (m.changeSyscall r c).2.syscallInfoTable = m.syscallInfoTable := by
  unfold changeSyscall
  split <;> exact ⟨rfl, rfl⟩

lemma resetValues_ok {x : ℤ × Monitor} (h : m.resetValues pid = .ok x) :
    (pid < 0 ∧ x.2 = m) ∨
      ∃ p, 0 ≤ pid ∧ m.proc pid = some p ∧ x.2 = m.setProc pid (p.resetStats pid) := by
  unfold resetValues at h
  split at h
  · cases h
    exact .inl ⟨‹_›, rfl⟩
  · rename_i hpid
    split at h
    · cases h
    · rename_i p hp
      cases h
      exact .inr ⟨p, not_lt.mp hpid, hp, rfl⟩

lemma command_effect {r : Reader} {arg1 arg2 : ℕ} {c : ℤ} {x : ℤ × Monitor}
    (hr : m.reader = some r) (h : m.command N r arg1 c = .ok x) :
    Effect m (.ioctl arg1 arg2) x.2 := by
  unfold command at h
  split at h
  · obtain rfl := Except.ok.inj h
    exact changeProcess_effect m r _
  · obtain rfl := Except.ok.inj h
    obtain ⟨hp, hi⟩ := changeSyscall_proc m r c
    exact .none hi hp
  · cases hv : m.resetValues r.procMonitored with
    | error => rw [hv] at h; cases h
    | ok y =>
      rw [hv] at h
      cases h
      obtain ⟨-, hy⟩ | ⟨p, hpid, hp, hy⟩ := resetValues_ok hv
      · exact .none (by rw [hy]) (by rw [hy])
      · refine .one r.procMonitored (by rw [hy]; rfl) ?_
          fun pid' hne => by rw [hy]; exact setProc_of_ne m _ hne
        rw [hp, hy, setProc_self]
        exact .reset p ⟨hpid, r, hr, rfl⟩
  · cases h
    refine .other rfl fun pid => ?_
    change ProcEffect m _ pid (m.proc pid) ((m.proc pid).map (Proc.resetStats pid))
    cases m.proc pid with
    | none => exact .same none
    | some p => exact .reset p trivial
  · split at h
    · cases h
      exact .none rfl rfl
    · obtain rfl := Except.ok.inj h
      obtain ⟨hp, hi, -⟩ := activateSyscallMon_keeps N m c
      exact .none hi hp
  · split at h
    · cases h
      exact .none rfl rfl
    · obtain rfl := Except.ok.inj h
      obtain ⟨hp, hi, -⟩ := deactivateSyscallMon_keeps N m c
      exact .none hi hp
  · cases h
    exact .none rfl rfl

lemma ioctl_step {arg1 arg2 : ℕ} (h : m.step N (.ioctl arg1 arg2) = .ok t) :
    ∃ r x, m.reader = some r ∧ r.lock ≠ 0 ∧ m.command N r arg1 (signedInt arg2) = .ok (x, t) := by
  obtain ⟨r, hr, hl, hf⟩ := withDevice_ok h
  cases hv : m.readstatsIoctlDev N r arg1 arg2 with
  | error => rw [hv] at hf; cases hf
  | ok y =>
    rw [hv] at hf
    cases hf
    exact ⟨r, y.1, hr, hl, hv⟩

/-- **What an event does.** -/
lemma step_effect (h : m.step N e = .ok t) : Effect m e t := by
  cases e with
  | create pid record =>
    obtain ⟨hn, rfl⟩ := create_effect h
    refine .one pid rfl ?_ fun pid' hne => setProc_of_ne m _ hne
    rw [hn, setProc_self]
    exact .created record rfl
  | exit pid =>
    obtain ⟨p, hp, hin, rfl⟩ := exit_effect h
    refine .one pid rfl ?_ fun pid' hne => Function.update_of_ne hne ..
    change ProcEffect m _ pid _ (Function.update m.proc pid Option.none pid)
    rw [hp, Function.update_self]
    exact .ended p hin
  | call pid k start =>
    obtain ⟨p, hp, hin, rfl | ⟨w, -, rfl⟩⟩ := call_effect h
    · refine .one pid rfl ?_ fun pid' hne => setProc_of_ne m _ hne
      rw [hp, setProc_self]
      exact .entered p k hin
    · exact .before pid p w start hp hin rfl
  | ret pid result «end» =>
    obtain ⟨p, hp, ⟨k, hin, rfl⟩ | ⟨w, start, hin, rfl⟩⟩ := ret_effect h
    · refine .one pid rfl ?_ fun pid' hne => setProc_of_ne m _ hne
      rw [hp, setProc_self]
      exact .left p k hin
    · exact .after pid p w start result «end» hp hin rfl
  | openDev pid uid =>
    obtain ⟨r, p, -, -, -, rfl⟩ := openDev_effect h
    obtain ⟨hp, hi⟩ := readstatsOpenDev_proc m r pid uid
    exact .none hi hp
  | releaseDev =>
    obtain ⟨r, -, -, hf⟩ := withDevice_ok h
    cases hf
    obtain ⟨hp, hi⟩ := readstatsReleaseDev_proc m r
    exact .none hi hp
  | readDev s uncopied =>
    obtain ⟨r, -, -, hf⟩ := withDevice_ok h
    cases hf
    exact .none rfl rfl
  | ioctl arg1 arg2 =>
    obtain ⟨r, x, hr, -, hf⟩ := ioctl_step h
    exact command_effect hr hf
  | driverInit =>
    simp only [step] at h
    split at h
    · cases h
      exact .none rfl rfl
    · cases h
  | driverExit =>
    simp only [step] at h
    split at h
    · split at h
      · cases h
        exact .none rfl rfl
      · cases h
    · cases h

/-- What happens to a process at an event. -/
inductive ProcStep (m : Monitor) (e : Event) (pid : ℤ) : Option Proc → Option Proc → Prop
  | before (p : Proc) (w : Wrapper) (start : BitVec 64) : p.inCall = none →
      ProcStep m e pid (some p) (some { (p.checkStats pid).update w.index .call with
        inCall := some (.wrapper w start) })
  | after (p : Proc) (w : Wrapper) (start : BitVec 64) (b : Bool) (cycles : BitVec 64) :
      p.inCall = some (.wrapper w start) →
      ProcStep m e pid (some p) (some { p.update w.index (.ret b cycles) with inCall := none })
  | other {x y : Option Proc} : ProcEffect m e pid x y → ProcStep m e pid x y

lemma step_proc (h : m.step N e = .ok t) (pid : ℤ) :
    ProcStep m e pid (m.proc pid) (t.proc pid) := by
  cases step_effect h with
  | before pid' p w start hp hin ht =>
    subst ht
    by_cases hpid : pid = pid'
    · subst hpid
      rw [hp, show (m.beforeCall pid p w start).proc pid = _ from setProc_self ..]
      exact .before p w start hin
    · rw [show (m.beforeCall pid' p w start).proc pid = m.proc pid from setProc_of_ne _ _ hpid]
      exact .other (.same _)
  | after pid' p w start result «end» hp hin ht =>
    subst ht
    by_cases hpid : pid = pid'
    · subst hpid
      rw [hp, show (m.afterCall pid p w start result «end»).proc pid = _ from setProc_self ..]
      exact .after p w start _ _ hin
    · rw [show (m.afterCall pid' p w start result «end»).proc pid = m.proc pid from
        setProc_of_ne _ _ hpid]
      exact .other (.same _)
  | other _ hall => exact .other (hall pid)

/-- An invariant of the processes that every half of a wrapper keeps, for the process it runs in,
and every other effect keeps, is kept by every event. -/
lemma step_forall_proc {I : ℤ → Proc → Prop}
    (hcreated : ∀ pid record, I pid ⟨record, none, none⟩)
    (hbefore : ∀ pid p w start, p.inCall = none → I pid p →
      I pid { (p.checkStats pid).update w.index .call with inCall := some (.wrapper w start) })
    (hafter : ∀ pid p w start b c, p.inCall = some (.wrapper w start) → I pid p →
      I pid { p.update w.index (.ret b c) with inCall := none })
    (hentered : ∀ pid p k, p.inCall = none → I pid p →
      I pid { p with inCall := some (.original k) })
    (hleft : ∀ pid p k, p.inCall = some (.original k) → I pid p → I pid { p with inCall := none })
    (hchecked : ∀ pid p, I pid p → I pid (p.checkStats pid))
    (hreset : ∀ pid p, m.Resets e pid → m.proc pid = some p → I pid p → I pid (p.resetStats pid))
    (hm : ∀ pid p, m.proc pid = some p → I pid p) (h : m.step N e = .ok t) :
    ∀ pid p, t.proc pid = some p → I pid p := by
  intro pid q hq
  have hstep := step_proc h pid
  rw [hq] at hstep
  generalize hx : m.proc pid = x at hstep
  cases hstep with
  | before p w start hin => exact hbefore pid p w start hin (hm pid p hx)
  | after p w start b c hin => exact hafter pid p w start b c hin (hm pid p hx)
  | other heff =>
    cases heff with
    | same => exact hm pid q hx
    | created record _ => exact hcreated pid record
    | entered p k hin => exact hentered pid p k hin (hm pid p hx)
    | left p k hin => exact hleft pid p k hin (hm pid p hx)
    | checked p => exact hchecked pid p (hm pid p hx)
    | reset p hr => exact hreset pid p hr hx (hm pid p hx)

/-! ## Loading -/

lemma syscallsMonInit_ok {m₀ : Monitor} (h : m.syscallsMonInit N = .ok m₀) :
    ∃ a p, m.proc a = some p ∧
      m₀ = { (m.initTables N).setProc a (p.resetStats a) with pidInit := a } := by
  simp only [syscallsMonInit] at h
  split at h
  · rename_i p hp
    cases h
    exact ⟨_, p, hp, rfl⟩
  · split at h
    · rename_i p hp
      cases h
      exact ⟨_, p, hp, rfl⟩
    · cases h

lemma insmod_proc {M : Machine} (hp : M.insmod.proc pid = some p) :
    (∀ k, ¬ p.Inside k) ∧ p.since = none := by
  obtain ⟨x, -, rfl⟩ := Option.map_eq_some_iff.mp hp
  refine ⟨fun k => ?_, rfl⟩
  rintro ⟨start, hk⟩
  obtain ⟨j, -, hj⟩ := Option.map_eq_some_iff.mp hk
  cases hj

/-- A load of the monitor leaves no process inside a wrapper, and only one record reset. -/
lemma syscallsMonInit_proc {M : Machine} {m₀ : Monitor} (h : M.insmod.syscallsMonInit N = .ok m₀)
    {q : Proc} (hq : m₀.proc pid = some q) :
    (∀ k, ¬ q.Inside k) ∧ (q.since = none ∨ q.since = some [] ∧ q.record = .reset pid) := by
  obtain ⟨a, p, hp, rfl⟩ := syscallsMonInit_ok h
  by_cases hpid : pid = a
  · subst hpid
    change ((M.insmod.initTables N).setProc pid (p.resetStats pid)).proc pid = some q at hq
    rw [setProc_self, Option.some.injEq] at hq
    subst hq
    exact ⟨(insmod_proc hp).1, .inr ⟨rfl, rfl⟩⟩
  · change ((M.insmod.initTables N).setProc a (p.resetStats a)).proc pid = some q at hq
    rw [setProc_of_ne _ _ hpid] at hq
    exact ⟨(insmod_proc hq).1, .inl (insmod_proc hq).2⟩

end Monitor

end SyscallsMon
