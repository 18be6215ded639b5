import ZeOS.Invariants.Counters
import ZeOS.KeyboardStream

/-!
# The statistics of a process

The pids of the live processes are different, and below the counter from which `sys_fork` takes
them, in every state of a run (`PidsOk`).  Slots are used again, and during `sys_fork` a slot has
the pid of the parent, but no call of the kernel ends there.

`sys_get_stats` searches `task[]` for a pid and then reads the task at which the search ended.  If
no process has the pid that is `task[NR_TASKS]`, behind the array, and the result depends on what
lies there.  The search is right for the pids of the live processes and for no others
(`get_stats_iff`).
-/

namespace ZeOS

open GuardedRun

/-! ## Pids -/

/-- The pids of the live processes are below the counter, and different. -/
structure PidsOk (s : Kernel) : Prop where
  counter : 0 < s.pid
  below : ∀ u, s.Live u → (s.task u).pid < s.pid
  distinct : ∀ u v, s.Live u → s.Live v → (s.task u).pid = (s.task v).pid → u = v

namespace PidsOk

variable {s t : Kernel} {e : Event} {es : List Event}

lemma change (h : PidsOk s) (hc : s.PidChange t) : PidsOk t := by
  rcases hc with ⟨hcounter, hpid⟩ | ⟨new, hfree, hcounter, hnew, hpid⟩
  · -- what is live was live before, with the same pid
    have hold : ∀ u, t.Live u → s.Live u ∧ (t.task u).pid = (s.task u).pid := by
      intro u hu
      rcases hpid u with hsame | hgone
      · exact ⟨by rwa [Kernel.Live, ← hsame], hsame⟩
      · rw [Kernel.Live, hgone] at hu
        omega
    refine ⟨hcounter ▸ h.counter, fun u hu => ?_, fun u v hu hv huv => ?_⟩
    · rw [(hold u hu).2, hcounter]
      exact h.below u (hold u hu).1
    · rw [(hold u hu).2, (hold v hv).2] at huv
      exact h.distinct u v (hold u hu).1 (hold v hv).1 huv
  · -- the new pid is the old value of the counter
    have hold : ∀ u, u ≠ new → t.Live u → s.Live u ∧ (t.task u).pid < s.pid := by
      intro u hu hl
      have hl' : s.Live u := by rwa [Kernel.Live, ← hpid u hu]
      exact ⟨hl', by rw [hpid u hu]; exact h.below u hl'⟩
    have hcounter' := h.counter
    refine ⟨by omega, fun u hu => ?_, fun u v hu hv huv => ?_⟩
    · by_cases hun : u = new
      · rw [hun, hnew, hcounter]
        omega
      · have := (hold u hun hu).2
        omega
    · by_cases hun : u = new <;> by_cases hvn : v = new
      · rw [hun, hvn]
      · have := (hold v hvn hv).2
        rw [hun, hnew] at huv
        omega
      · have := (hold u hun hu).2
        rw [hvn, hnew] at huv
        omega
      · rw [hpid u hun, hpid v hvn] at huv
        exact h.distinct u v (hold u hun hu).1 (hold v hvn hv).1 huv

lemma run (h : PidsOk s) (hrun : AnyRun s es t) : PidsOk t :=
  hrun.invariant (fun _ _ _ hs _ hst => hs.change (Kernel.step_pidChange hst)) h

lemma boot (E : Env) : PidsOk E.boot := by
  have hlive : ∀ u, E.boot.Live u → u = 0 := by
    intro u hu
    by_contra hne
    rw [Kernel.Live, E.boot_task_pid, if_neg hne] at hu
    omega
  refine ⟨show (0 : ℤ) < 1 by decide, fun u hu => ?_, fun u v hu hv _ => ?_⟩
  · rw [E.boot_task_pid, if_pos (hlive u hu)]
    show (0 : ℤ) < 1
    decide
  · rw [hlive u hu, hlive v hv]

end PidsOk

/-! ## The search -/

namespace Kernel

variable {s : Kernel} {spid : ℤ} {st : ℕ} {u : Slot}

/-- The statistics of the one live process with the pid are copied out, or there is no such process
and the result is `-ESRCH`. -/
def LooksUp (s : Kernel) (spid : ℤ) (st : ℕ) (o : Outcome Kernel ℤ) : Prop :=
  (∃ u, s.Live u ∧ (s.task u).pid = spid ∧
      (∀ v, s.Live v → (s.task v).pid = spid → v = u) ∧
      o = .ret 0 { s with mm := Memory.storeAll st (statsBytes (s.task u)) s.mm }) ∨
    (∀ u, s.Live u → (s.task u).pid ≠ spid) ∧ o = .ret (-eSrch) s

/-- The search ends at a process with the pid if there is one. -/
lemma statsTask_of_pid (h : (s.task u).pid = spid) (beyond : Task) :
    ∃ v, (s.task v).pid = spid ∧ s.statsTask spid beyond = s.task v := by
  unfold statsTask
  cases hfind : (List.finRange nrTasks).find? (fun i => (s.task i).pid = spid) with
  | none =>
    have := List.find?_eq_none.mp hfind u (List.mem_finRange u)
    simp [h] at this
  | some v =>
    have hv := List.find?_some hfind
    exact ⟨v, by simpa using hv, rfl⟩

/-- The search runs off the end if there is none. -/
lemma statsTask_of_none (h : ∀ u, (s.task u).pid ≠ spid) (beyond : Task) :
    s.statsTask spid beyond = beyond := by
  have hfind : (List.finRange nrTasks).find? (fun i => (s.task i).pid = spid) = none :=
    List.find?_eq_none.mpr fun u _ => by simpa using h u
  rw [statsTask, hfind]

/-- What is copied out of the task at which the search ends. -/
lemma sysGetStats_of_pid {beyond : Task} (hspid : 0 ≤ spid) (hok : s.mm.accessOk 0 st 16 = true)
    (hpresent : ∀ i < 12, s.mm.present (st + i) = true)
    (hpid : (s.statsTask spid beyond).pid = spid) :
    s.sysGetStats spid st beyond =
      .ret 0 { s with mm := Memory.storeAll st (statsBytes (s.statsTask spid beyond)) s.mm } := by
  have hcopy := Memory.copyToUser_of_present s.mm st (statsBytes (s.statsTask spid beyond)) hpresent
  rw [sysGetStats, if_neg (not_lt.mpr hspid), hok, if_neg (by decide), if_neg (not_not.mpr hpid),
    hcopy]
  rfl

/-- Without a process that has the pid, a task behind the array may be taken for it. -/
lemma sysGetStats_of_nobody (hno : ∀ u, (s.task u).pid ≠ spid) (hspid : 0 ≤ spid)
    (hok : s.mm.accessOk 0 st 16 = true) (hpresent : ∀ i < 12, s.mm.present (st + i) = true) :
    ∃ (beyond : Task) (t : Kernel), s.sysGetStats spid st beyond = .ret 0 t ∧
      ¬ s.LooksUp spid st (s.sysGetStats spid st beyond) := by
  have hbeyond : (s.statsTask spid { emptyTask with pid := spid }).pid = spid := by
    rw [statsTask_of_none hno]
  have hret := sysGetStats_of_pid hspid hok hpresent hbeyond
  refine ⟨_, _, hret, ?_⟩
  rintro (⟨u, -, hu, -⟩ | ⟨-, h⟩)
  · exact hno u hu
  · rw [hret, Outcome.ret.injEq] at h
    exact absurd h.1 (by decide)

/-- The search is right for a pid of a live process and for no other. -/
lemma looksUp_iff (hs : PidsOk s) (hspid : 0 ≤ spid) (hok : s.mm.accessOk 0 st 16 = true)
    (hpresent : ∀ i < 12, s.mm.present (st + i) = true) :
    (∀ beyond, s.LooksUp spid st (s.sysGetStats spid st beyond)) ↔
      ∃ u, s.Live u ∧ (s.task u).pid = spid := by
  constructor
  · intro h
    by_contra hnone
    have hno : ∀ u, (s.task u).pid ≠ spid := by
      intro u hu
      exact hnone ⟨u, by rwa [Live, hu], hu⟩
    obtain ⟨beyond, t, -, hbad⟩ := sysGetStats_of_nobody hno hspid hok hpresent
    exact hbad (h beyond)
  · rintro ⟨u, hlive, hu⟩ beyond
    obtain ⟨v, hv, htask⟩ := statsTask_of_pid hu beyond
    have hvlive : s.Live v := by rwa [Live, hv]
    have hpid : (s.statsTask spid beyond).pid = spid := by rw [htask, hv]
    refine .inl ⟨v, hvlive, hv, fun w hw hwpid => ?_, ?_⟩
    · exact hs.distinct w v hw hvlive (hwpid.trans hv.symm)
    · rw [sysGetStats_of_pid hspid hok hpresent hpid, htask]

end Kernel

/-- **Statistics lookup.**  In every state of every run the pids of the live processes are different
and below the counter; and for every pid that is not negative and every valid pointer, the call of
`sys_get_stats` finds the process with the pid, or that there is none, without a look behind the
array, just when there is one. -/
theorem get_stats_iff (E : Env) {es : List Event} {s : Kernel} (hrun : AnyRun E.boot es s)
    (regs : SavedRegs) {spid : ℤ} {st : ℕ} (hspid : 0 ≤ spid)
    (hok : s.mm.accessOk 0 st 16 = true) (hpresent : ∀ i < 12, s.mm.present (st + i) = true) :
    ((∀ u, s.Live u → (s.task u).pid < s.pid) ∧
        ∀ u v, s.Live u → s.Live v → (s.task u).pid = (s.task v).pid → u = v) ∧
      ((∀ beyond, (s.enter regs).LooksUp spid st ((s.enter regs).sysGetStats spid st beyond)) ↔
        ∃ u, s.Live u ∧ (s.task u).pid = spid) := by
  have hs := (PidsOk.boot E).run hrun
  have henter := (s.sameRecords_enter regs).toSamePids
  have hs' : PidsOk (s.enter regs) := hs.change (.of_pids henter)
  refine ⟨⟨hs.below, hs.distinct⟩, (Kernel.looksUp_iff hs' hspid hok hpresent).trans ?_⟩
  simp only [Kernel.Live, henter.pid]

/-- The buffer of the examples, at boot. -/
lemma linkedEnv_stats_buffer : linkedEnv.boot.mm.accessOk 0 userData 16 = true ∧
    ∀ i < 12, linkedEnv.boot.mm.present (userData + i) = true := by
  have hstart : lUserStart ≤ userData ∧ userData ≤ userEnd := by decide
  have hlen : 16 + 1 < pageSize := by decide
  refine ⟨linkedEnv_accessOk (.nil linkedEnv.boot) hstart hlen, fun i hi => ?_⟩
  have htable := linkedEnv.boot_table_data 0
  rw [show pagLogInitDataP0 + (0 : Fin numPagData).val = 264 from rfl] at htable
  have hpage : (userData + i) / pageSize = 264 := by
    change (264 * 4096 + i) / 4096 = 264
    omega
  rw [Memory.present, hpage, htable]
  rfl

/-- `get_stats_iff` for the first process. -/
theorem get_stats_iff_of_first_process :
    (∀ beyond, (linkedEnv.boot.enter fun _ => 0).LooksUp 0 userData
        ((linkedEnv.boot.enter fun _ => 0).sysGetStats 0 userData beyond)) ↔
      ∃ u, linkedEnv.boot.Live u ∧ (linkedEnv.boot.task u).pid = 0 :=
  (get_stats_iff linkedEnv (.nil _) (fun _ => 0) le_rfl linkedEnv_stats_buffer.1
    linkedEnv_stats_buffer.2).2

/-- At boot there is no process 1, and its statistics are those of what lies behind `task[]`. -/
theorem get_stats_of_nobody :
    (∀ u, linkedEnv.boot.Live u → (linkedEnv.boot.task u).pid ≠ 1) ∧
      ∃ (beyond : Task) (t : Kernel),
        (linkedEnv.boot.enter fun _ => 0).sysGetStats 1 userData beyond = .ret 0 t ∧
        ¬ (linkedEnv.boot.enter fun _ => 0).LooksUp 1 userData
          ((linkedEnv.boot.enter fun _ => 0).sysGetStats 1 userData beyond) := by
  have hno : ∀ u, (linkedEnv.boot.task u).pid ≠ 1 := by
    intro u
    rw [linkedEnv.boot_task_pid]
    split_ifs <;> decide
  obtain ⟨hok, hpresent⟩ := linkedEnv_stats_buffer
  refine ⟨fun u _ => hno u, ?_⟩
  generalize linkedEnv.boot = s at hno hok hpresent ⊢
  refine Kernel.sysGetStats_of_nobody (fun u => ?_) (by decide) hok hpresent
  rw [(s.sameRecords_enter fun _ => 0).toSamePids.pid]
  exact hno u

end ZeOS
