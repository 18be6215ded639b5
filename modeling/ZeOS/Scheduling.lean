import ZeOS.Invariants.Boot

/-!
# Processes and the processor

The queues partition the live processes in every state of a run in which each `sys_exit` finds
two processes to run.  That condition is not idle: `schedule` does not switch when the runqueue
has one process, which is right for a clock tick of that process, but `sys_exit` calls it after
the caller has been unlinked.  A process that ends while task 0 is the only other one to run
keeps the processor, without a slot, a list or frames of its own.
-/

namespace ZeOS

open IntrusiveList GuardedRun

/-! ## The partition of the processes -/

/-- The queues partition the live processes. -/
structure QueuePartition (s : Kernel) : Prop where
  /-- A live process is on exactly one list in use. -/
  exactly_one : ∀ t, s.Live t → ∃! h, s.Active h ∧ t ∈ s.queue h
  /-- It is there once. -/
  once : ∀ h, s.Active h → (s.queue h).Nodup
  /-- A free slot is on no list at all. -/
  free_slot : ∀ t, ¬ s.Live t → ∀ h, (∀ u, Node.task u ≠ h) → t ∉ s.queue h
  /-- Each list in use is a well-formed ring of processes. -/
  ring : ∀ h, s.Active h → Ring s.links h ((s.queue h).map Node.task)
  current_first : s.runqueue.head? = some s.cur
  task0_ready : 0 ∈ s.runqueue
  /-- The node after the head of the runqueue is in a task. -/
  next_is_task : ∃ t, s.links.next .runqueue = some (.task t)

lemma SchedOk.queuePartition {s : Kernel} {Q : Node → List Slot} (hs : SchedOk s Q) :
    QueuePartition s := by
  have hq : ∀ h, s.Active h → s.queue h = Q h :=
    fun h hh => hs.queue_eq (hs.pool.not_head h hh)
  constructor
  · intro t ht
    obtain ⟨h, hm⟩ := (hs.live_iff t).mp ht
    have ha := hs.pool.act_of_mem hm
    refine ⟨h, ⟨ha, by rwa [hq h ha]⟩, ?_⟩
    rintro k ⟨hk, hmk⟩
    rw [hq k hk] at hmk
    exact hs.pool.eq_of_mem hmk hm
  · intro h hh
    rw [hq h hh]
    exact hs.pool.nodup h
  · intro t ht h hh hm
    rw [hs.queue_eq hh] at hm
    exact ht ((hs.live_iff t).mpr ⟨h, hm⟩)
  · intro h hh
    rw [hq h hh]
    exact hs.pool.ring h hh
  · rw [hs.runqueue_eq]
    exact hs.head
  · rw [hs.runqueue_eq]
    exact hs.zero_mem
  · obtain ⟨rest, hrq⟩ := hs.runqueue_cons
    have hr := hs.pool.ring .runqueue trivial
    rw [hrq, List.map_cons] at hr
    exact ⟨s.cur, hr.next_head⟩

/-- **Queue partition.**  In every state of a run from boot in which each `sys_exit` finds two
processes to run, the queues partition the live processes, and no next step takes a list head
for a task. -/
theorem queue_partition (E : Env) {es : List Event} {s : Kernel} (h : ExitRun E.boot es s) :
    QueuePartition s ∧ ∀ e, s.ExitsFindTwo e → s.step e ≠ .error .notATask := by
  obtain ⟨Q, hs⟩ := h.systemOk
  exact ⟨hs.sched.queuePartition, fun e he => (hs.step_effects e he).2⟩

/-- Right after the first fork two processes are on the runqueue. -/
theorem queue_partition_after_fork :
    ∃ s, ExitRun zeroEnv.boot [plain .fork] s ∧
      (QueuePartition s ∧ ∀ e, s.ExitsFindTwo e → s.step e ≠ .error .notATask) ∧
      s.runqueue = [0, 1] := by
  obtain ⟨s, hrun, hs, -⟩ := zeroEnv.boot_fork
  refine ⟨s, hrun, queue_partition zeroEnv hrun, ?_⟩
  rw [hs.sched.runqueue_eq, Function.update_self]

/-! ## The end of a process -/

namespace Kernel

/-- The processes besides the caller that are on the runqueue when `sys_exit` calls
`schedule`: those that are ready now, and those that wait on a semaphore of the caller. -/
def othersToRun (s : Kernel) : List Slot :=
  s.runqueue.erase s.cur ++ (s.ownedAmong (List.finRange semMaxValue)).flatMap s.waitList

/-- On the way from `s`, a `sys_fork` has given slot `a` to a new process. -/
def Reused (s : Kernel) (a : Slot) (es : List Event) : Prop :=
  ∃ es₁ e es₂ v w, es = es₁ ++ e :: es₂ ∧ ExitRun s es₁ v ∧ e.act = .fork ∧
    v.step e = .ok w ∧ ¬ v.Live a ∧ w.Live a

/-- `sys_exit` hands the processor to a live process, the first of the runqueue, and the slot
of the caller does not run again before a `sys_fork` reuses it. -/
def HandsOver (s : Kernel) (cause : ExitCause) : Prop :=
  ∃ t, afterExit cause s.sysExit = .ok t ∧ t.runqueue.head? = some t.cur ∧ t.Live t.cur ∧
    ∀ es u, ExitRun t es u → u.cur = s.cur → t.Reused s.cur es

end Kernel

/-- A free slot does not run before it is reused. -/
lemma SystemOk.reused_of_cur {s u : Kernel} {Q : Node → List Slot} {a : Slot} {es : List Event}
    (hs : SystemOk s Q) (ha : ¬ s.Live a) (hrun : ExitRun s es u) (hu : u.Live a) :
    s.Reused a es := by
  induction hrun generalizing Q with
  | nil s => exact absurd hu ha
  | @cons s t u e es hg hst hrun ih =>
    obtain ⟨Q', hturn⟩ := (hs.step_effects e hg).1 t hst
    by_cases ht : t.Live a
    · exact ⟨[], e, es, s, t, rfl, .nil s, hturn.live ht ha, hst, ha, ht⟩
    · obtain ⟨es₁, f, es₂, v, w, rfl, hv, hf⟩ := ih (hturn.systemOk hs) ht hu
      exact ⟨e :: es₁, f, es₂, v, w, rfl, .cons hg hst hv, hf⟩

/-- The runqueue that `sys_exit` leaves to `schedule`. -/
lemma SystemOk.leftQueues_runqueue {s : Kernel} {Q : Node → List Slot} (hs : SystemOk s Q) :
    leftQueues (releasedQueues Q (s.ownedAmong (List.finRange semMaxValue))) .runqueue =
      s.othersToRun := by
  obtain ⟨rest, hrq⟩ := hs.sched.runqueue_cons
  have hwait : waitersOf Q (s.ownedAmong (List.finRange semMaxValue)) =
      (s.ownedAmong (List.finRange semMaxValue)).flatMap s.waitList := by
    apply List.flatMap_congr
    intro n _
    exact (hs.sched.waitList_eq n).symm
  rw [leftQueues, Function.update_self, releasedQueues, hwait, Kernel.othersToRun,
    hs.sched.runqueue_eq, hrq, List.erase_cons_head, List.cons_append, List.tail_cons]

/-- `sys_exit` hands the processor over exactly when two other processes are left to run. -/
lemma SystemOk.handsOver_iff {s : Kernel} {Q : Node → List Slot} (hs : SystemOk s Q)
    (h0 : s.cur ≠ 0) (cause : ExitCause) : s.HandsOver cause ↔ 2 ≤ s.othersToRun.length := by
  obtain ⟨t, Q', -, rfl, hrel, hcalm, hok, -, hleave, hcases⟩ := hs.sysExit_cases h0
  have hlen : t.leave.runqueue.length = s.othersToRun.length := by
    rw [hleave.runqueue_eq, hs.leftQueues_runqueue]
  rw [hlen] at hcases
  constructor
  · rintro ⟨t', ht', -, hlive, -⟩
    by_contra hlt
    obtain ⟨-, v, hv, hq⟩ := hcases.resolve_left (fun h => hlt h.1)
    -- schedule has returned, so the running process is still the one that ended
    have hdead : ¬ v.Live v.cur := by
      rw [hq.sched.live_iff, hq.sched.cur, Kernel.leave_eq]
      simp [Kernel.Live]
    rw [hv] at ht'
    cases cause with
    | «syscall» eax =>
      simp only [Kernel.afterExit, Except.ok.injEq] at ht'
      subst ht'
      have hset := (v.quiet_setEax eax).sched
      rw [hset.live_iff, hset.cur] at hlive
      exact hdead hlive
    | userFault =>
      simp only [Kernel.afterExit, Except.ok.injEq] at ht'
      subst ht'
      exact hdead hlive
    | kernelFault => simp [Kernel.afterExit] at ht'
  · intro htwo
    obtain ⟨-, u, rest, -, hsw, hh⟩ := hcases.resolve_right (fun h => by omega)
    have hturn : Turn .clock (s, Q) (t.leave.handTo 0 u, _) :=
      .inr ⟨_, .single (hcalm .clock), hh .clock⟩
    have hok' := hturn.systemOk hs
    refine ⟨t.leave.handTo 0 u, by rw [hsw, Kernel.afterExit], ?_, hok'.sched.cur_live, ?_⟩
    · rw [hok'.sched.runqueue_eq]
      exact hok'.sched.head
    · intro es w hrun hw
      have hdead : ¬ (t.leave.handTo 0 u).Live s.cur := by
        rw [← hrel.cur]
        simp [Kernel.Live, Kernel.leave_eq]
      refine hok'.reused_of_cur hdead hrun ?_
      obtain ⟨Q'', hw'⟩ := hok'.run hrun
      rw [← hw]
      exact hw'.sched.cur_live

/-- **`sys_exit` hands the processor over exactly when two other processes are left to run.**
The state `s₁` is the one in which a step of a run from boot calls `sys_exit`, by the system
call or by a page fault, in a process other than task 0. -/
theorem sysExit_hands_over_iff (E : Env) {es : List Event} {s s₁ : Kernel} {e : Event}
    {cause : ExitCause} (h : ExitRun E.boot es s) (hexit : s.dispatch e = .exits cause s₁)
    (h0 : s₁.cur ≠ 0) : s₁.HandsOver cause ↔ 2 ≤ s₁.othersToRun.length := by
  obtain ⟨Q, hs⟩ := h.systemOk
  have heff := hs.sched.dispatch_effects e
  rw [hexit] at heff
  obtain ⟨Q₁, hcalms⟩ := heff
  exact (hcalms.systemOk hs).handsOver_iff h0 cause

/-- A fork, then sixty ticks: the child runs, and task 0 is the only other process. -/
def childRuns : List Event := plain .fork :: List.replicate 60 (plain .clock)

lemma childRuns_run (E : Env) :
    ∃ s Q, ExitRun E.boot childRuns s ∧ SystemOk s Q ∧ s.cur = 1 ∧ Q .runqueue = [1, 0] ∧
      (∀ n, (s.task 1).ownedSems n = -1) ∧ s.sem = E.boot.sem := by
  obtain ⟨s₁, hrun₁, hs₁, hleft₁, hown₁, hsem₁, -⟩ := E.boot_fork
  obtain ⟨s₂, hrun₂, hq₂, hleft₂⟩ := Kernel.ticks (n := 59) (s := s₁) (by omega)
  have hs₂ : SystemOk s₂ _ := ⟨hs₁.sched.congr hq₂.sched, hs₁.owned.ofSameSched hq₂.sched⟩
  have hQ : Function.update Env.bootQueues .runqueue [0, 1] .runqueue = [0, 1] :=
    Function.update_self ..
  obtain ⟨s₃, hrun₃, hs₃, hcur, hown₃, hsem₃⟩ := hs₂.lastTick (by omega) hQ
  have hrun : ExitRun E.boot childRuns s₃ := by
    have hlist : childRuns = [plain .fork] ++ (List.replicate 59 (plain .clock) ++ [plain .clock]) := by
      rw [← List.replicate_succ']
      rfl
    rw [hlist]
    exact run_append_iff.mpr ⟨s₁, hrun₁, run_append_iff.mpr ⟨s₂, hrun₂, hrun₃⟩⟩
  refine ⟨s₃, _, hrun, hs₃, hcur, ?_, ?_, hsem₃.trans (hq₂.sched.sem.trans hsem₁)⟩
  · rw [Pool.moved_apply, if_pos rfl, if_pos rfl, hQ]
    rfl
  · intro n
    rw [hown₃, hq₂.sched.owned, hown₁]

/-- The child of task 0, when it is the only process besides task 0, ends and keeps the
processor. -/
theorem sysExit_of_only_child_keeps_processor :
    ∃ s, ExitRun zeroEnv.boot childRuns s ∧
      s.dispatch (plain (.exit 0)) = .exits (.syscall 0) (s.enter fun _ => 0) ∧
      (s.enter fun _ => 0).cur ≠ 0 ∧ ¬ (s.enter fun _ => 0).HandsOver (.syscall 0) := by
  obtain ⟨s, Q, hrun, hs, hcur, hQ, hown, -⟩ := childRuns_run zeroEnv
  have hq := s.quiet_enter fun _ => 0
  have hok : SystemOk (s.enter fun _ => 0) Q :=
    ⟨hs.sched.congr hq.sched, hs.owned.ofSameSched hq.sched⟩
  have hcur' : (s.enter fun _ => 0).cur = 1 := hcur
  have h0 : (s.enter fun _ => 0).cur ≠ 0 := by
    rw [hcur']
    decide
  refine ⟨s, hrun, rfl, h0, ?_⟩
  have hnone : (s.enter fun _ => 0).ownedAmong (List.finRange semMaxValue) = [] := by
    rw [Kernel.ownedAmong, List.filter_eq_nil_iff]
    intro n _
    rw [Kernel.current, hq.sched.owned, hcur', hown]
    decide
  rw [hok.handsOver_iff h0, Kernel.othersToRun, hnone, hok.sched.runqueue_eq, hQ, hcur',
    List.flatMap_nil]
  decide

/-- The condition, read in the state in which that child ends. -/
theorem sysExit_hands_over_iff_of_only_child :
    ∃ s, ExitRun zeroEnv.boot childRuns s ∧ (s.enter fun _ => 0).cur ≠ 0 ∧
      ((s.enter fun _ => 0).HandsOver (.syscall 0) ↔
        2 ≤ (s.enter fun _ => 0).othersToRun.length) := by
  obtain ⟨s, Q, hrun, hs, hcur, hQ, hown, -⟩ := childRuns_run zeroEnv
  have h0 : (s.enter fun _ => 0).cur ≠ 0 := by
    show s.cur ≠ 0
    rw [hcur]
    decide
  have hexit : s.dispatch (plain (.exit 0)) = .exits (.syscall 0) (s.enter fun _ => 0) := rfl
  exact ⟨s, hrun, h0, sysExit_hands_over_iff zeroEnv hrun hexit h0⟩

end ZeOS
