import ZeOS.Invariants.Tables
import ZeOS.Invariants.Steps

/-!
# What reaches the pids, the clock and the pages of user space

Only a tick of the clock changes `tics`, only `sys_fork` gives a pid to a slot, and only the end of
a process takes one away (`step_pidChange`).  The pages below the data pages stay mapped as they
are, and the data pages stay mapped to some frame (`step_userPages`).  As in the module about the file tables, nothing here
assumes that the queues are well formed.
-/

namespace ZeOS

namespace Kernel

variable {s t : Kernel} {e : Event}

/-! ## The keyboard -/

lemma sameCounters_copyFromCircBuffer (s : Kernel) (b : Slot) (size : ℤ) :
    (s.copyFromCircBuffer b size).Leaves (SameCounters s) := by
  have hwin : Memory.SameUserPages s.mm (s.windowOf b) :=
    .setSsPags s.mm (Nat.le_add_right ..) _ _
  have hcopy := Memory.samePages_copyToUser (s.windowOf b)
    ((s.task b).buffer + numPagData * pageSize) (circBytes s.kbd size.toNat)
  rcases s.copyFromCircBuffer_cases b size with ⟨-, h⟩ | ⟨-, mm, ⟨hc, h⟩ | ⟨hc, h⟩⟩
  · rw [h]
    trivial
  · rw [hc] at hcopy
    have hmm : Memory.SameUserPages s.mm mm := hwin.trans (.of_table hcopy.table)
    rw [h]
    exact ⟨⟨rfl, fun _ => rfl, hmm.trans (.setSsPags mm (Nat.le_add_right ..) _ _)⟩, rfl⟩
  · rw [hc] at hcopy
    have hmm : Memory.SameUserPages s.mm mm := hwin.trans (.of_table hcopy.table)
    have hfault : SameCounters s { s with mm := mm } := ⟨⟨rfl, fun _ => rfl, hmm⟩, rfl⟩
    rw [h]
    exact hfault.trans (.change rfl rfl rfl rfl rfl)

lemma sameCounters_sysReadKeyboard (s : Kernel) (size : ℤ) :
    (s.sysReadKeyboard size).Leaves (SameCounters s) := by
  have hpend : SameCounters s (s.setPending size) := .change rfl rfl rfl rfl rfl
  have hwait : SameCounters (s.setPending size) ((s.setPending size).waitForChars size) :=
    .change rfl rfl rfl rfl rfl
  apply leaves_sysReadKeyboard
  · refine (sameCounters_copyFromCircBuffer ..).imp (fun t ht => ⟨hpend.trans ht, ?_⟩)
    exact hpend.trans (ht.trans (.other rfl rfl rfl rfl))
  · exact (sameRecords_switchToNext ..).imp
      (fun t ht => hpend.trans (hwait.trans ht.toSameCounters))
  · exact hpend

lemma sameCounters_serveReader (s : Kernel) (b : Slot) :
    (s.serveReader b).Leaves (SameCounters s) := by
  have hpend : SameCounters s (s.updTask b fun k => { k with pendingChars := k.pendingChars - 1 }) :=
    .change rfl rfl rfl rfl rfl
  apply leaves_serveReader rfl
  · intro size
    refine (sameCounters_copyFromCircBuffer ..).imp (fun t ht => ⟨hpend.trans ht, ?_, ?_⟩)
    · exact hpend.trans (ht.trans (.other rfl rfl rfl rfl))
    · have hadv : SameCounters t (t.advanceReader b) := .change rfl rfl rfl rfl rfl
      exact hpend.trans (ht.trans (hadv.trans (.other rfl rfl rfl rfl)))
  · exact hpend

lemma sameCounters_keyboardRoutine (s : Kernel) (scan beyond : Byte) :
    (s.keyboardRoutine scan beyond).Leaves (SameCounters s) := by
  unfold keyboardRoutine
  simp only
  split_ifs
  · exact SameCounters.other rfl rfl rfl rfl
  · have hput : SameCounters s (s.putChar (charOf scan beyond)) := .other rfl rfl rfl rfl
    split
    · exact (sameCounters_serveReader ..).imp (fun t ht => hput.trans ht)
    · trivial
  · exact SameCounters.refl s

/-! ## Files -/

lemma sameCounters_withFiles (s : Kernel) (fs : FileSystem) (fds : FileSystem.Descriptors) :
    SameCounters s (s.withFiles fs fds) := .change rfl rfl rfl rfl rfl

lemma sameCounters_sysWrite (s : Kernel) (fd : ℤ) (buffer : ℕ) (size : ℤ) :
    (s.sysWrite fd buffer size).Leaves (SameCounters s) := by
  have hrefl : SameCounters s s := .refl s
  unfold sysWrite
  split
  · exact hrefl
  · split_ifs
    all_goals try exact hrefl
    split
    · trivial
    · split
      · exact hrefl
      · exact Outcome.leaves_lift (fun sc => .other rfl rfl rfl rfl) _
      · exact Outcome.leaves_lift (fun fs => .other rfl rfl rfl rfl) _

lemma sameCounters_sysRead (s : Kernel) (fd : ℤ) (buffer : ℕ) (size : ℤ) :
    (s.sysRead fd buffer size).Leaves (SameCounters s) := by
  have hrefl : SameCounters s s := .refl s
  have hnote : SameCounters s (s.updTask s.cur fun k => { k with size := size, buffer := buffer }) :=
    .change rfl rfl rfl rfl rfl
  unfold sysRead
  split
  · exact hrefl
  · split_ifs
    all_goals try exact hrefl
    simp only
    split
    · trivial
    · split
      · exact hnote
      · exact (sameCounters_sysReadKeyboard ..).imp (fun t ht => hnote.trans ht)
      · refine (FileSystem.samePages_readLoop ..).leaves.lift fun st hst => hnote.trans ?_
        exact .other rfl rfl hst.table rfl

/-! ## Creating a process -/

/-- What happens to the pids: some processes may be gone, or a free slot has the next pid. -/
def PidChange (s t : Kernel) : Prop :=
  (t.pid = s.pid ∧ ∀ u, (t.task u).pid = (s.task u).pid ∨ (t.task u).pid = -1) ∨
    ∃ new, ¬ s.Live new ∧ t.pid = s.pid + 1 ∧ (t.task new).pid = s.pid ∧
      ∀ u, u ≠ new → (t.task u).pid = (s.task u).pid

lemma PidChange.of_pids (h : SamePids s t) : PidChange s t :=
  .inl ⟨h.counter, fun u => .inl (h.pid u)⟩

/-- Before and after the change, pids that stay do not matter. -/
lemma PidChange.congr {s' t' : Kernel} (h : PidChange s' t') (hs : SamePids s s')
    (ht : SamePids t' t) : PidChange s t := by
  rcases h with ⟨hcounter, hpid⟩ | ⟨new, hfree, hcounter, hnew, hpid⟩
  · refine .inl ⟨ht.counter.trans (hcounter.trans hs.counter), fun u => ?_⟩
    rw [ht.pid, ← hs.pid]
    exact hpid u
  · refine .inr ⟨new, ?_, ?_, ?_, fun u hu => ?_⟩
    · rwa [Live, ← hs.pid]
    · rw [ht.counter, hcounter, hs.counter]
    · rw [ht.pid, hnew, hs.counter]
    · rw [ht.pid, hpid u hu, hs.pid]

/-- `sys_fork`, in any state: a dead process that is still running may be given its own slot. -/
lemma pidChange_sysFork {r : ℤ} (h : s.sysFork = .ok (r, t)) :
    PidChange s t ∧ t.tics = s.tics ∧ Memory.SameUserPages s.mm t.mm := by
  unfold sysFork at h
  split at h
  · simp only [Except.ok.injEq, Prod.mk.injEq] at h
    obtain ⟨-, rfl⟩ := h
    exact ⟨.of_pids (.refl s), rfl, .refl s.mm⟩
  · next new hnew =>
    have hfree : ¬ s.Live new := not_le.mpr (srchFreeTask_some hnew)
    simp only at h
    split at h
    · next mm halloc =>
      simp only [Except.ok.injEq, Prod.mk.injEq] at h
      obtain ⟨-, rfl⟩ := h
      have hmm : mm = s.mm := Memory.allocFrames_none halloc
      refine ⟨.inl ⟨rfl, fun u => ?_⟩, rfl, .of_table (congrArg _ hmm)⟩
      by_cases hu : u = new
      · subst hu
        exact .inr (by simp [updTask])
      · exact .inl (by simp [copyTask, updTask, hu])
    · next frames mm halloc =>
      split_ifs at h
      · simp only [Except.ok.injEq, Prod.mk.injEq] at h
        obtain ⟨-, rfl⟩ := h
        obtain ⟨taken, -, -, -, hmm⟩ := Memory.allocFrames_some halloc
        have hmm : Memory.SameUserPages s.mm mm := .of_table (by rw [hmm]; rfl)
        refine ⟨.inr ⟨new, hfree, rfl, ?_, fun u hu => ?_⟩, rfl, ?_⟩
        · simp [initChild, copyTask, updTask]
        · simp [initChild, copyTask, updTask, hu]
        · simp only [initChild, updTask_mm]
          exact hmm.trans (.copyDataPages mm _)

/-! ## The whole step -/

/-- What a phase leaves, and then perhaps the end of the process. -/
lemma departs_of_leaves {P : Kernel → Prop} (h : (s.dispatch e).Leaves P)
    (hst : s.step e = .ok t) : ∃ u, P u ∧ Departs u t := by
  unfold step at hst
  cases hd : s.dispatch e with
  | done u =>
    rw [hd] at h hst
    simp only [Except.ok.injEq] at hst
    exact ⟨u, h, hst ▸ .of_records (.refl u)⟩
  | exits cause u =>
    rw [hd] at h hst
    exact ⟨u, h, departs_afterExit hst⟩
  | stop r => simp [hd] at hst

/-- Every call but `sys_fork` and the clock. -/
lemma sameCounters_dispatch (s : Kernel) (e : Event) (hfork : e.act ≠ .fork)
    (hclock : e.act ≠ .clock) : (s.dispatch e).Leaves (SameCounters s) := by
  have hrecords : ∀ t u, SameRecords t u → SameCounters s t → SameCounters s u :=
    fun t u htu hst => hst.trans htu.toSameCounters
  have henter := (s.sameRecords_enter e.regs).toSameCounters
  by_cases hkey : ∃ scan beyond, e.act = .key scan beyond
  · obtain ⟨scan, beyond, hact⟩ := hkey
    rw [dispatch, hact]
    exact records_finishInt hrecords
      ((sameCounters_keyboardRoutine ..).imp (fun t ht => henter.trans ht))
  by_cases hfile : FileAction e.act
  · have hwith : ∀ fs d, SameCounters s ((s.enter e.regs).withFiles fs d) :=
      fun fs d => henter.trans (sameCounters_withFiles ..)
    unfold dispatch
    cases hact : e.act with
    | write fd buffer size =>
      exact records_finish hrecords ((sameCounters_sysWrite ..).imp (fun t ht => henter.trans ht))
    | read fd buffer size =>
      exact records_finish hrecords ((sameCounters_sysRead ..).imp (fun t ht => henter.trans ht))
    | «open» addr path flags =>
      exact records_finish hrecords (leaves_sysOpen henter fun _ fs fds _ _ => hwith fs fds)
    | close fd =>
      refine records_finishExcept hrecords (fun r t ht => ?_)
      obtain ⟨fs, fds, rfl⟩ := sysClose_ok ht
      exact hwith fs fds
    | dup fd =>
      refine records_finishExcept hrecords (fun r t ht => ?_)
      simp only [sysDup, Except.ok.injEq, Prod.mk.injEq] at ht
      exact ht.2 ▸ hwith _ _
    | unlink addr path =>
      refine records_finish hrecords (leaves_sysUnlink henter fun _ fs _ _ => ?_)
      exact henter.trans (.other rfl rfl rfl rfl)
    | fork => exact absurd hact hfork
    | _ =>
      rw [hact] at hfile
      exact absurd hfile (by simp [FileAction])
  · exact (s.sameRecords_dispatch e hfile (fun scan beyond hact => hkey ⟨scan, beyond, hact⟩)
      hclock).imp (fun t ht => ht.toSameCounters)

/-- Only a tick changes `tics`. -/
lemma step_tics (hclock : e.act ≠ .clock) (hst : s.step e = .ok t) : t.tics = s.tics := by
  have hleaves : (s.dispatch e).Leaves fun t => t.tics = s.tics := by
    by_cases hfork : e.act = .fork
    · rw [dispatch, hfork]
      refine records_finishExcept (fun t u htu ht => htu.tics.trans ht) (fun r t ht => ?_)
      exact (pidChange_sysFork ht).2.1
    · exact (s.sameCounters_dispatch e hfork hclock).imp (fun t ht => ht.tics)
  obtain ⟨u, hu, hdeparts⟩ := departs_of_leaves hleaves hst
  exact hdeparts.tics.trans hu

/-- What any step does to the pids and to the pages of user space. -/
lemma step_pids (hst : s.step e = .ok t) :
    PidChange s t ∧ Memory.SameUserPages s.mm t.mm := by
  have henter : SamePids s (s.enter e.regs) := (s.sameRecords_enter e.regs).toSamePids
  by_cases hfork : e.act = .fork
  · rw [step, dispatch, hfork] at hst
    cases ho : (s.enter e.regs).sysFork with
    | error r => simp [ho, finishExcept] at hst
    | ok p =>
      obtain ⟨r, v⟩ := p
      simp only [ho, finishExcept, Except.ok.injEq] at hst
      rw [← hst]
      obtain ⟨hpids, -, huser⟩ := pidChange_sysFork ho
      have heax := (v.sameRecords_setEax r).toSamePids
      exact ⟨hpids.congr henter heax, (henter.user.trans huser).trans heax.user⟩
  · have hleaves : (s.dispatch e).Leaves (SamePids s) := by
      by_cases hclock : e.act = .clock
      · rw [dispatch, hclock]
        exact records_finishInt (fun t u htu ht => ht.trans htu.toSamePids)
          ((leaves_clockRoutine ..).imp (fun t ht => henter.trans ht.2))
      · exact (s.sameCounters_dispatch e hfork hclock).imp (fun t ht => ht.toSamePids)
    obtain ⟨u, hu, hdeparts⟩ := departs_of_leaves hleaves hst
    refine ⟨.inl ⟨hdeparts.counter.trans hu.counter, fun v => ?_⟩, hu.user.trans hdeparts.user⟩
    rw [← hu.pid]
    exact hdeparts.pid v

lemma step_pidChange (hst : s.step e = .ok t) : PidChange s t := (step_pids hst).1

lemma step_userPages (hst : s.step e = .ok t) : Memory.SameUserPages s.mm t.mm :=
  (step_pids hst).2

end Kernel

end ZeOS
