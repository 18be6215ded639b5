import ZeOS.Ownership
import ZeOS.Scheduling
import ZeOS.Invariants.Tables

/-!
# A process that has ended and goes on

When `sys_exit` finds one process to run, `schedule` returns and the process that has ended keeps
the processor, with a free slot and a node that is on no list (`childRuns_ended`).  Here it goes on
to take a semaphore and to wait on it (`blockedAfterExit_run`).  Its node is then on a wait list, and
the next fork copies the node of the parent over it (`Ended.fork`): the head of the wait list still
points to a node that is now on the runqueue (`slotReused_run`).
-/

namespace ZeOS

open IntrusiveList Memory GuardedRun

/-! ## Steps that need no invariant -/

namespace Kernel

variable {s : Kernel} {e : Event} {k : ℤ} {n : SemId} {v : Slot}

lemma semId_zero : semId 0 = some 0 := semId_val 0

/-- A wait without a permit: the caller goes to the wait list, and the first process of the
runqueue runs. -/
lemma dispatch_semWait_blocks (hact : e.act = .semWait k) (hk : semId k = some n)
    (hpid : s.current.pid ≠ 0) (hsem : s.sem n = { count := 0, init := 1 })
    (hnext : ((s.links.listDel (.task s.cur)).listAddTail (.task s.cur) (.waitList n)).next
      .runqueue = some (.task v)) :
    s.dispatch e = .done (((s.enter e.regs).moveCurrent (.waitList n)).handTo 0 v) := by
  have hq := s.quiet_enter e.regs
  have hpid' : (s.enter e.regs).current.pid ≠ 0 := by
    rw [current, hq.sched.pid, hq.sched.cur]
    exact hpid
  have hinit : ¬ ((s.enter e.regs).sem n).init ≠ 1 := by
    rw [hq.sched.sem, hsem]
    decide
  have hcount : ((s.enter e.regs).sem n).count = 0 := by
    rw [hq.sched.sem, hsem]
  rw [← hq.sched.links, ← hq.sched.cur] at hnext
  rw [dispatch, hact]
  simp only
  rw [sysSemWait, if_neg hpid', hk]
  simp only [if_neg hinit, if_pos hcount]
  rw [switchToNext]
  simp only [hnext]
  rfl

/-- A signal to a semaphore with a process on its wait list. -/
lemma dispatch_semSignal_wakes (hact : e.act = .semSignal k) (hk : semId k = some n)
    (hn : (s.sem n).init = 1) (hnext : s.links.next (.waitList n) = some (.task v)) :
    s.dispatch e = .done (((s.enter e.regs).woken v 0).setEax 0) := by
  have hq := s.quiet_enter e.regs
  have hinit : ¬ ((s.enter e.regs).sem n).init ≠ 1 := by
    rw [hq.sched.sem]
    exact not_not.mpr hn
  rw [← hq.sched.links] at hnext
  have hempty : ¬ (s.enter e.regs).links.listEmpty (.waitList n) = true := by
    rw [Links.listEmpty, hnext]
    simp
  rw [dispatch, hact]
  simp only
  rw [sysSemSignal, hk]
  simp only [if_neg hinit, if_neg hempty, wakeFirst_eq hnext]
  rfl

/-- The last tick of a quantum, with another process on the runqueue. -/
lemma dispatch_clock_switches (hact : e.act = .clock) (hleft : s.left4current ≤ 1)
    (hpid : s.current.pid ≠ -1)
    (hmore : s.links.listFirst .runqueue ≠ s.links.listLast .runqueue)
    (hnext : ((s.links.listDel (.task s.cur)).listAddTail (.task s.cur) .runqueue).next .runqueue =
      some (.task v)) :
    s.dispatch e = .done (((s.enter e.regs).tick.moveCurrent .runqueue).handTo 1 v) := by
  have hq := (s.quiet_enter e.regs).trans (quiet_tick _)
  have hleft' : (s.enter e.regs).tick.left4current ≤ 0 := by
    show s.left4current - 1 ≤ 0
    omega
  have hpid' : (s.enter e.regs).tick.current.pid ≠ -1 := by
    rw [current, hq.sched.pid, hq.sched.cur]
    exact hpid
  rw [← hq.sched.links] at hmore
  rw [← hq.sched.links, ← hq.sched.cur] at hnext
  rw [dispatch, hact]
  simp only
  rw [clockRoutine, schedule, if_pos hleft', if_neg hmore, if_pos hpid']
  simp only
  rw [switchToNext]
  simp only [hnext]
  rfl

/-! The quanta, of which the kernel invariants say nothing. -/

/-- Every process has the quantum that it had. -/
def SameQuanta (s t : Kernel) : Prop := ∀ u, (t.task u).quantum = (s.task u).quantum

/-- One task differs, in other fields. -/
lemma SameQuanta.change {s t : Kernel} {v : Slot} {k : Task}
    (htask : t.task = Function.update s.task v k) (hk : k.quantum = (s.task v).quantum) :
    s.SameQuanta t := by
  intro u
  rw [htask, Function.update_apply]
  split_ifs with hu
  · rw [hk, hu]
  · rfl

lemma sameQuanta_switchToNext (s : Kernel) (i : ℤ) :
    (s.switchToNext i : Outcome Kernel Unit).Leaves s.SameQuanta := by
  unfold switchToNext
  split
  · intro u
    rw [taskSwitch_task]
    split_ifs <;> rfl
  · trivial

lemma sameQuanta_schedule (s : Kernel) (i : ℤ) : (s.schedule i).Leaves s.SameQuanta := by
  unfold schedule
  split_ifs
  · exact SameQuanta.change rfl rfl
  · exact sameQuanta_switchToNext ..
  · exact sameQuanta_switchToNext ..
  · exact fun _ => rfl

/-- A semaphore that is not in use is taken. -/
lemma step_semInit_takes {m : ℕ} (hact : e.act = .semInit k m) (hk : semId k = some n)
    (hn : (s.sem n).init ≠ 1) :
    ∃ t, s.step e = .ok t ∧ t.cur = s.cur ∧ t.pid = s.pid ∧ t.mm = s.mm ∧
      (∀ u, (t.task u).pid = (s.task u).pid ∧ (t.task u).quantum = (s.task u).quantum ∧
        (t.task u).phPages = (s.task u).phPages) ∧
      t.sem = Function.update s.sem n { count := m % 2 ^ 32, init := 1 } ∧
      t.links = s.links.initListHead (.waitList n) := by
  have hn' : ¬ ((s.enter e.regs).sem n).init = 1 := hn
  have hst : s.step e = .ok (((s.enter e.regs).sysSemInit k m).2.setEax
      ((s.enter e.regs).sysSemInit k m).1) := by
    rw [step, dispatch, hact]
    rfl
  rw [sysSemInit, hk] at hst
  simp only [if_neg hn'] at hst
  refine ⟨_, hst, rfl, rfl, rfl, fun u => ?_, by simp [setEax, updSem, updTask, enter], rfl⟩
  by_cases hu : u = s.cur
  · subst hu
    simp [setEax, updSem, enter]
  · simp [setEax, updTask_task_ne, updSem, enter, hu]

/-- The clock leaves the quanta alone. -/
lemma sameQuanta_clock {t : Kernel} (hact : e.act = .clock) (hst : s.step e = .ok t) :
    s.SameQuanta t := by
  have henter : s.SameQuanta (s.enter e.regs) := .change rfl rfl
  have htick : (s.enter e.regs).SameQuanta (s.enter e.regs).tick := .change rfl rfl
  have hsch := sameQuanta_schedule (s.enter e.regs).tick 1
  have hbefore : s.SameQuanta (s.enter e.regs).tick := fun u => (htick u).trans (henter u)
  rcases step_clock_cases hact hst with ⟨v, h, rfl⟩ | h
  · rw [h] at hsch
    have hshow : v.showTime.task = v.task := by
      unfold showTime
      simp only
      split_ifs <;> rfl
    intro u
    rw [hshow, hsch u, hbefore u]
  · rw [h] at hsch
    exact fun u => (hsch u).trans (hbefore u)

lemma sameQuanta_clocks {ok : Kernel → Event → Prop} {t : Kernel} {m : ℕ}
    (h : Run step ok s (List.replicate m (plain .clock)) t) : s.SameQuanta t := by
  induction m generalizing s with
  | zero =>
    obtain rfl := run_nil_iff.mp h
    exact fun _ => rfl
  | succ m ih =>
    obtain ⟨v, -, hst, hrun⟩ := run_cons_iff.mp h
    exact fun u => (ih hrun u).trans (sameQuanta_clock rfl hst u)

end Kernel

/-- The quantum of task 0 when its child runs. -/
lemma childRuns_quantum {s : Kernel} (h : ExitRun zeroEnv.boot childRuns s) :
    (s.task 0).quantum = 60 := by
  obtain ⟨t, hrun, -, -, -, -, -, hquantum⟩ := zeroEnv.boot_fork
  obtain ⟨t', -, hst', hnil⟩ := run_cons_iff.mp hrun
  obtain rfl : t' = t := run_nil_iff.mp hnil
  obtain ⟨v, -, hst, hticks⟩ := run_cons_iff.mp h
  rw [hst', Except.ok.injEq] at hst
  subst hst
  rw [Kernel.sameQuanta_clocks hticks 0, (hquantum 0 (by simp)).1]

/-! ## The process that has ended -/

/-- The process in slot 1 has ended; task 0 and its frames are in order, and there are frames for
another process. -/
structure Ended (s : Kernel) : Prop where
  task0 : (s.task 0).pid = 0
  quantum : (s.task 0).quantum = 60
  dead : (s.task 1).pid = -1
  counter : 0 < s.pid
  pages : ∀ i, (s.task 0).phPages i ≠ -1
  room : numPagData ≤ s.mm.freeFrames.card

lemma Ended.congr {s t : Kernel} (h : Ended s) (hpid : ∀ u, (t.task u).pid = (s.task u).pid)
    (hquanta : s.SameQuanta t) (hpages : (t.task 0).phPages = (s.task 0).phPages)
    (hcounter : t.pid = s.pid) (hphys : t.mm.physMem = s.mm.physMem) : Ended t := by
  refine ⟨by rw [hpid, h.task0], by rw [hquanta, h.quantum], by rw [hpid, h.dead],
    by rw [hcounter]; exact h.counter, ?_, ?_⟩
  · rw [hpages]
    exact h.pages
  · rw [freeFrames, hphys]
    exact h.room

lemma Ended.ofQuiet {s t : Kernel} (h : Ended s) (hq : Quiet s t) (hquanta : s.SameQuanta t) :
    Ended t :=
  h.congr hq.sched.pid hquanta (hq.sched.pages 0) hq.sched.counter hq.mm.physMem

/-- The frames of a process that ends are free besides those that were. -/
lemma Ended.leave {v : Kernel} (hcur : v.cur = 1) (h0 : (v.task 0).pid = 0)
    (hquantum : (v.task 0).quantum = 60) (hcounter : 0 < v.pid) (hf : FramesOk v)
    (hlive : v.Live v.cur) (hroom : numPagData ≤ v.mm.freeFrames.card) : Ended v.leave := by
  have hne : (0 : Slot) ≠ v.cur := by
    rw [hcur]
    decide
  have htask : v.leave.task 0 = v.task 0 := Kernel.leave_task_of_ne hne
  have hlive0 : v.Live 0 := by
    rw [Kernel.Live, h0]
  refine ⟨by rw [htask, h0], by rw [htask, hquantum], ?_, ?_, ?_,
    hroom.trans (Finset.card_le_card fun f hfree => ?_)⟩
  · rw [← hcur, Kernel.leave_eq]
    simp
  · rw [Kernel.leave_eq]
    exact hcounter
  · intro i
    rw [htask]
    exact hf.ne_neg_one hlive0 i
  · obtain ⟨fr, -, -, hmm⟩ := hf.leave_mm hlive
    rw [mem_freeFrames] at hfree ⊢
    refine ⟨hfree.1, hfree.2.1, hfree.2.2.1, ?_⟩
    rw [hmm]
    simp [mark, hfree.2.2.2]

/-- The child of task 0 ends and keeps the processor, off every list. -/
lemma childRuns_ended :
    ∃ s, AnyRun zeroEnv.boot (childRuns ++ [plain (.exit 0)]) s ∧ s.cur = 1 ∧ Ended s ∧
      s.sem = zeroEnv.boot.sem ∧ Ring s.links .runqueue [.task 0] ∧
      s.links.next (.task 1) = none ∧ s.links.prev (.task 1) = none := by
  obtain ⟨s, Q, hrun, hs, hcur, hQ, hown, hsem⟩ := childRuns_run zeroEnv
  obtain ⟨-, -, hf, ha⟩ := ExitRun.accounted hrun
  have hq := s.quiet_enter fun _ => 0
  set u := s.enter fun _ => 0 with hu
  have hok : SystemOk u Q := ⟨hs.sched.congr hq.sched, hs.owned.ofSameSched hq.sched⟩
  have hcur' : u.cur = 1 := hcur
  have h0 : u.cur ≠ 0 := by
    rw [hcur']
    decide
  have hnone : u.ownedAmong (List.finRange semMaxValue) = [] := by
    rw [Kernel.ownedAmong, List.filter_eq_nil_iff]
    intro n _
    rw [Kernel.current, hq.sched.owned, hcur', hown]
    decide
  obtain ⟨v, Q', hdestroy, hQ', hrel, hcalm, hvok, -, hleave, hcases⟩ := hok.sysExit_cases h0
  rw [hnone, releasedQueues_nil] at hQ'
  have hleft : leftQueues Q' .runqueue = [0] := by
    rw [hQ', leftQueues, Function.update_self, hQ]
    rfl
  -- one process is left to run, so `schedule` returns to the process that has ended
  obtain ⟨-, w, hw, hwq⟩ := hcases.resolve_left fun h => by
    have hlen := h.1
    rw [hleave.runqueue_eq, hleft] at hlen
    simp at hlen
  have hst : s.step (plain (.exit 0)) = .ok (w.setEax 0) := by
    show Kernel.afterExit (.syscall 0) u.sysExit = _
    rw [hw]
    rfl
  have hend := hwq.trans (w.quiet_setEax 0)
  have hv : v.cur = 1 := hrel.cur.trans hcur'
  have hlinks : (w.setEax 0).links = v.links.listDel (.task 1) := by
    rw [hend.sched.links, Kernel.leave_eq]
    simp only [hv]
  have hquanta : v.leave.SameQuanta (w.setEax 0) := by
    obtain ⟨v', hdestroy', hexit, -⟩ :=
      hok.sched.exitPoint (fun n hn => hok.owned.inUse _ n hok.sched.cur_live hn) h0
    obtain rfl : v' = v := Except.ok.inj (hdestroy'.symm.trans hdestroy)
    have hsch := Kernel.sameQuanta_schedule v'.leave 0
    rw [← hexit, hw] at hsch
    have hset : w.SameQuanta (w.setEax 0) := .change rfl rfl
    exact fun a => (hset a).trans (hsch a)
  have hany : AnyRun zeroEnv.boot childRuns s := hrun.unguarded
  refine ⟨w.setEax 0, hany.snoc trivial hst, ?_, ?_, ?_, ?_, ?_, ?_⟩
  · rw [hend.sched.cur, Kernel.leave_eq, hv]
  · have hfv : FramesOk v := Calm.frames (hcalm .clock) (hf.ofSameSched hq.sched hq.mm.physMem)
    have hroom : numPagData ≤ v.mm.freeFrames.card := by
      rw [hrel.mm]
      exact ha.room
    have hpid0 : (v.task 0).pid = 0 := by
      rw [hrel.task_pid]
      exact (hok.sched.pid_zero 0).mpr rfl
    have hquantum : (v.task 0).quantum = 60 := by
      have henter : s.SameQuanta u := .change rfl rfl
      rw [hrel.task, henter, childRuns_quantum hrun]
    have hcounter : 0 < v.pid := by
      rw [hrel.counter]
      exact hok.sched.counter
    exact (Ended.leave hv hpid0 hquantum hcounter hfv hvok.sched.cur_live hroom).ofQuiet hend hquanta
  · rw [hend.sched.sem, Kernel.leave_eq]
    funext n
    show v.sem n = _
    rw [hrel.sem, hnone, if_neg List.not_mem_nil, hq.sched.sem, hsem]
  · have hring := hleave.pool.ring .runqueue trivial
    rw [hleft] at hring
    rw [hend.sched.links]
    exact hring
  · rw [hlinks]
    simp [Links.listDel, Links.setNext, Links.setPrev]
  · rw [hlinks]
    simp [Links.listDel, Links.setNext, Links.setPrev]

namespace Ended

variable {s : Kernel}

/-- It takes semaphore 0, -/
lemma semInit (h : Ended s) (hn : (s.sem 0).init ≠ 1) :
    ∃ t, s.step (plain (.semInit 0 0)) = .ok t ∧ Ended t ∧ t.cur = s.cur ∧
      t.sem = Function.update s.sem 0 { count := 0, init := 1 } ∧
      t.links = s.links.initListHead (.waitList 0) := by
  obtain ⟨t, hst, hcur, hcounter, hmm, htask, hsem, hlinks⟩ :=
    Kernel.step_semInit_takes (e := plain (.semInit 0 0)) rfl Kernel.semId_zero hn
  have hended : Ended t := h.congr (fun u => (htask u).1) (fun u => (htask u).2.1) (htask 0).2.2
    hcounter (by rw [hmm])
  exact ⟨t, hst, hended, hcur, hsem, hlinks⟩

/-- waits on it, so that its node is on the wait list, -/
lemma semWait (h : Ended s) (hcur : s.cur = 1) (hsem : s.sem 0 = { count := 0, init := 1 })
    (hrq : Ring s.links .runqueue [.task 0]) (hwait : Ring s.links (.waitList 0) [])
    (hnext : s.links.next (.task 1) = none) (hprev : s.links.prev (.task 1) = none) :
    ∃ t, s.step (plain (.semWait 0)) = .ok t ∧ Ended t ∧ t.cur = 0 ∧ t.left4current = 60 ∧
      t.sem = s.sem ∧ Ring t.links .runqueue [.task 0] ∧ Ring t.links (.waitList 0) [.task 1] := by
  have hq := s.quiet_enter fun _ => 0
  have hended : Ended (s.enter fun _ => 0) := h.ofQuiet hq (.change rfl rfl)
  have hlinks : (s.links.listDel (.task s.cur)).listAddTail (.task s.cur) (.waitList 0) =
      s.links.listAddTail (.task 1) (.waitList 0) := by
    rw [hcur, Links.listDel_of_null hnext hprev]
  have hrq' : Ring (s.links.listAddTail (.task 1) (.waitList 0)) .runqueue [.task 0] :=
    hwait.listAddTail_frame hrq (by decide) (by simp)
  have hd := Kernel.dispatch_semWait_blocks (s := s) (e := plain (.semWait 0)) (v := 0) rfl
    Kernel.semId_zero (by rw [Kernel.current, hcur, h.dead]; decide) hsem
    (by rw [hlinks]; exact hrq'.next_head)
  set m := (s.enter fun _ => 0).moveCurrent (.waitList 0) with hm
  have hmoved : Ended m := hended.congr (fun _ => rfl) (fun _ => rfl) rfl rfl rfl
  have hquanta : m.SameQuanta (m.handTo 0 0) := by
    intro u
    rw [Kernel.handTo_task]
    split_ifs <;> rfl
  refine ⟨m.handTo 0 0, Kernel.step_of_done hd, hmoved.congr (fun u => Kernel.handTo_task_pid ..)
    hquanta (Kernel.handTo_task_phPages ..) rfl ?_, rfl, ?_, hq.sched.sem, ?_, ?_⟩
  · rw [Kernel.handTo_mm hmoved.pages, setSsPags_physMem]
  · rw [Kernel.handTo_left4current, hmoved.quantum]
  · show Ring ((s.links.listDel (.task s.cur)).listAddTail (.task s.cur) (.waitList 0)) _ _
    rw [hlinks]
    exact hrq'
  · show Ring ((s.links.listDel (.task s.cur)).listAddTail (.task s.cur) (.waitList 0)) _ _
    rw [hlinks]
    exact hwait.listAddTail (by decide)

/-- The next fork makes its child in the free slot, and copies the node of the parent over its
node, which is still linked. -/
lemma fork (h : Ended s) (hcur : s.cur = 0) :
    ∃ t, s.step (plain .fork) = .ok t ∧ t.cur = 0 ∧ (t.task 0).pid = 0 ∧ (t.task 1).pid = s.pid ∧
      t.current.stack eaxIndex = s.pid ∧ t.left4current = s.left4current ∧ t.sem = s.sem ∧
      t.links = (s.links.copyNode (.task 0) (.task 1)).listAddTail (.task 1) .runqueue := by
  have hq := s.quiet_enter fun _ => 0
  set u := s.enter fun _ => 0 with hu
  have hended : Ended u := h.ofQuiet hq (.change rfl rfl)
  have hcur' : u.cur = 0 := hcur
  have hlive : u.Live u.cur := by
    rw [Kernel.Live, hcur', hended.task0]
  have hnew : u.srchFreeTask = some 1 := by
    have hslots : List.finRange nrTasks = 0 :: 1 :: (List.finRange nrTasks).drop 2 := by decide
    rw [Kernel.srchFreeTask, hslots, List.find?_cons_of_neg, List.find?_cons_of_pos]
    · simp [hended.dead]
    · simp [hended.task0]
  have hpages : ∀ i, u.current.phPages i ≠ -1 := by
    rw [Kernel.current, hcur']
    exact hended.pages
  obtain ⟨l, mm, halloc, hlen⟩ := allocFrames_of_freeFrames hpages hended.room
  obtain ⟨frames, mm', hfork⟩ : ∃ frames mm', u.sysFork = .ok (u.pid, u.forked 1 frames mm') := by
    rcases u.sysFork_cases hlive with ⟨hnone, -⟩ | ⟨new, hnew', -, ⟨mm', hmm, -⟩ |
      ⟨l', mm', hmm, ⟨-, hfork⟩ | ⟨hno, -⟩⟩⟩
    · rw [hnew] at hnone
      simp at hnone
    · rw [halloc] at hmm
      simp at hmm
    · rw [hnew, Option.some.injEq] at hnew'
      subst hnew'
      exact ⟨_, _, hfork⟩
    · rw [halloc, Prod.mk.injEq, Option.some.injEq] at hmm
      exact absurd (hmm.1 ▸ hlen) hno
  have hd : s.dispatch (plain .fork) = .done ((u.forked 1 frames mm').setEax u.pid) := by
    show Kernel.finishExcept u.sysFork = _
    rw [hfork]
    rfl
  set t := u.forked 1 frames mm' with ht
  have hset := t.quiet_setEax u.pid
  have htcur : t.cur = 0 := hcur'
  refine ⟨t.setEax u.pid, Kernel.step_of_done hd, htcur, ?_, ?_, ?_, rfl, hset.sched.sem, ?_⟩
  · rw [hset.sched.pid]
    exact hended.task0
  · have hchild : t.task 1 = u.child frames := by
      rw [ht, Kernel.forked]
      simp only [Function.update_self]
    rw [hset.sched.pid, hchild]
    rfl
  · rw [Kernel.current, Kernel.setEax, Kernel.updTask_cur, Kernel.updTask_task_self]
    show Function.update (t.task t.cur).stack eaxIndex u.pid eaxIndex = _
    rw [Function.update_self]
    rfl
  · rw [hset.sched.links, ht, Kernel.forked, hcur', hq.sched.links]

end Ended

/-! ## A slot that is used again while its node is on a wait list -/

/-- The child of task 0 ends and waits on semaphore 0, which it has taken itself. -/
def blockedAfterExit : List Event :=
  childRuns ++ [plain (.exit 0)] ++ [plain (.semInit 0 0), plain (.semWait 0)]

lemma blockedAfterExit_run :
    ∃ s, AnyRun zeroEnv.boot blockedAfterExit s ∧ Ended s ∧ s.cur = 0 ∧ s.left4current = 60 ∧
      s.sem = Function.update zeroEnv.boot.sem 0 { count := 0, init := 1 } ∧
      Ring s.links .runqueue [.task 0] ∧ Ring s.links (.waitList 0) [.task 1] := by
  obtain ⟨s₁, hrun₁, hcur₁, hend₁, hsem₁, hrq₁, hnext₁, hprev₁⟩ := childRuns_ended
  have hn₁ : (s₁.sem 0).init ≠ 1 := by
    rw [hsem₁]
    show (0 : ℤ) ≠ 1
    decide
  obtain ⟨s₂, hst₂, hend₂, hcur₂, hsem₂, hlinks₂⟩ := hend₁.semInit hn₁
  obtain ⟨s₃, hst₃, hend₃, hcur₃, hleft₃, hsem₃, hrq₃, hwait₃⟩ := hend₂.semWait
    (hcur₂.trans hcur₁) (by rw [hsem₂, Function.update_self])
    (by rw [hlinks₂]; exact hrq₁.initListHead_frame (by decide))
    (by rw [hlinks₂]; exact ring_initListHead _ _)
    (by rw [hlinks₂, Links.next_initListHead, if_neg (by decide), hnext₁])
    (by rw [hlinks₂, Links.prev_initListHead, if_neg (by decide), hprev₁])
  have hcalls : AnyRun s₁ [plain (.semInit 0 0), plain (.semWait 0)] s₃ :=
    .cons trivial hst₂ (.cons trivial hst₃ (.nil s₃))
  refine ⟨s₃, run_append_iff.mpr ⟨s₁, hrun₁, hcalls⟩, hend₃, hcur₃, hleft₃, ?_, hrq₃, hwait₃⟩
  rw [hsem₃, hsem₂, hsem₁]

/-- Task 0 then forks a child into the free slot, and the clock brings that child to run. -/
def slotReused : List Event :=
  blockedAfterExit ++ plain .fork :: List.replicate 60 (plain .clock)

/-- The child is on the runqueue, and the head of wait list 0 still points to its node. -/
lemma slotReused_run :
    ∃ s, AnyRun zeroEnv.boot slotReused s ∧ s.cur = 1 ∧ (s.task 0).pid = 0 ∧ 0 < (s.task 1).pid ∧
      s.sem = Function.update zeroEnv.boot.sem 0 { count := 0, init := 1 } ∧
      Ring s.links .runqueue [.task 1, .task 0] ∧
      s.links.next (.waitList 0) = some (.task 1) := by
  obtain ⟨s₃, hrun₃, hend₃, hcur₃, hleft₃, hsem₃, hrq₃, hwait₃⟩ := blockedAfterExit_run
  obtain ⟨s₄, hst₄, hcur₄, hpid₀, hpid₁, -, hleft₄, hsem₄, hlinks₄⟩ := hend₃.fork hcur₃
  -- the child is at the end of the runqueue, and the head of the wait list is as before
  have hcopy : Ring (s₃.links.copyNode (.task 0) (.task 1)) .runqueue [.task 0] :=
    hrq₃.copyNode_frame (by decide)
  have hrq₄ : Ring s₄.links .runqueue [.task 0, .task 1] := by
    rw [hlinks₄]
    exact hcopy.listAddTail (by decide)
  have hhead₄ : s₄.links.next (.waitList 0) = some (.task 1) := by
    rw [hlinks₄, hcopy.next_listAddTail_of_notMem (by decide) (by decide)]
    exact hwait₃.next_head
  obtain ⟨s₅, hrun₅, hq₅, hleft₅⟩ := Kernel.ticks (n := 59) (s := s₄) (by omega)
  have hrq₅ : Ring s₅.links .runqueue [.task 0, .task 1] := by
    rw [hq₅.sched.links]
    exact hrq₄
  have hcur₅ : s₅.cur = 0 := hq₅.sched.cur.trans hcur₄
  have hrotate := hrq₅.rotate
  have hd := Kernel.dispatch_clock_switches (s := s₅) (e := plain .clock) (v := 1) rfl (by omega)
    (by rw [Kernel.current, hcur₅, hq₅.sched.pid, hpid₀]; decide)
    (by rw [ne_eq, hrq₅.first_eq_last_iff]; decide)
    (by rw [hcur₅]; exact hrotate.next_head)
  set m := (s₅.enter fun _ => 0).tick.moveCurrent .runqueue with hm
  have hq₆ := (s₅.quiet_enter fun _ => 0).trans (Kernel.quiet_tick _)
  have hlinks : m.links = (s₅.links.listDel (.task 0)).listAddTail (.task 0) .runqueue := by
    rw [hm, Kernel.moveCurrent, hq₆.sched.links, hq₆.sched.cur, hcur₅]
  have hpid : ∀ u, ((m.handTo 1 1).task u).pid = (s₄.task u).pid := by
    intro u
    rw [Kernel.handTo_task_pid, ← hq₅.sched.pid]
    exact hq₆.sched.pid u
  have hrun : AnyRun zeroEnv.boot slotReused (m.handTo 1 1) := by
    have hticks : AnyRun s₄ (List.replicate 59 (plain .clock)) s₅ :=
      hrun₅.unguarded
    refine run_append_iff.mpr ⟨s₃, hrun₃, .cons trivial hst₄ ?_⟩
    rw [List.replicate_succ']
    exact hticks.snoc trivial (Kernel.step_of_done hd)
  refine ⟨m.handTo 1 1, hrun, rfl, ?_, ?_, ?_, ?_, ?_⟩
  · rw [hpid, hpid₀]
  · rw [hpid, hpid₁]
    exact hend₃.counter
  · show m.sem = _
    rw [hm, Kernel.moveCurrent, hq₆.sched.sem, hq₅.sched.sem, hsem₄, hsem₃]
  · show Ring m.links _ _
    rw [hlinks]
    exact hrotate
  · have hdel : Ring (s₅.links.listDel (.task 0)) .runqueue ([] ++ [.task 1]) := Ring.listDel hrq₅
    show m.links.next _ = _
    rw [hlinks, hdel.next_listAddTail_of_notMem (by decide) (by decide),
      hrq₅.next_listDel_of_notMem (by decide) (by decide), hq₅.sched.links, hhead₄]

end ZeOS
