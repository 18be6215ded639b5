import ZeOS.Invariants.Steps
import ZeOS.Invariants.Paging

/-!
# The state at boot

The boot code takes frames one after another: `taken k` is the byte map after the kernel, the
code pages and `k` data frames.  `set_user_pages` takes the first twenty for the data pages
that task 0 starts with, and `init_task0` takes the next twenty for its `ph_pages`.

The queue invariant holds at boot with task 0 alone on the runqueue, and hence in every state
of a run in which each `sys_exit` finds two processes to run.
-/

namespace ZeOS

open IntrusiveList GuardedRun Relation

/-! ## Frames taken in order -/

/-- The first data frame. -/
abbrev firstFrame : ℕ := numPagKernel + numPagCode

/-- The byte map after the kernel, the code pages and `k` data frames. -/
def taken (k : ℕ) : ℕ → FrameMark := fun i =>
  if i < firstFrame ∨ (i % 2 = 0 ∧ i < firstFrame + 2 * k) then .used else .free

lemma taken_eq_free_iff (k i : ℕ) : taken k i = .free ↔ 264 ≤ i ∧ (i % 2 = 0 → 264 + 2 * k ≤ i) := by
  have h : taken k i = if i < 264 ∨ (i % 2 = 0 ∧ i < 264 + 2 * k) then .used else .free := rfl
  rw [h]
  split_ifs with hi
  · simp only [false_iff]
    omega
  · simp only [true_iff]
    omega

lemma taken_eq_used_iff (k i : ℕ) : taken k i = .used ↔ i < 264 ∨ (i % 2 = 0 ∧ i < 264 + 2 * k) := by
  have h := taken_eq_free_iff k i
  cases hm : taken k i with
  | free =>
    simp only [hm, true_iff] at h
    simp only [reduceCtorEq, false_iff]
    omega
  | used =>
    simp only [hm, reduceCtorEq, false_iff] at h
    simp only [true_iff]
    omega

lemma taken_succ (k : ℕ) :
    Function.update (taken k) (firstFrame + 2 * k) .used = taken (k + 1) := by
  funext i
  have hmark : ∀ a b : FrameMark, (a = .free ↔ b = .free) → a = b := by
    intro a b
    cases a <;> cases b <;> simp
  apply hmark
  rw [taken_eq_free_iff]
  by_cases hi : i = 264 + 2 * k
  · subst hi
    rw [show firstFrame + 2 * k = 264 + 2 * k from rfl, Function.update_self]
    simp only [reduceCtorEq, false_iff]
    omega
  · rw [show firstFrame + 2 * k = 264 + 2 * k from rfl, Function.update_of_ne hi,
      taken_eq_free_iff]
    omega

namespace Memory

/-- Memory with another byte map. -/
def setPhys (m : Memory) (p : ℕ → FrameMark) : Memory := { m with physMem := p }

lemma setPhys_setPhys (m : Memory) (p q : ℕ → FrameMark) : (m.setPhys p).setPhys q = m.setPhys q := rfl

@[simp] lemma setPhys_pagusrTable (m : Memory) (p : ℕ → FrameMark) :
    (m.setPhys p).pagusrTable = m.pagusrTable := rfl

@[simp] lemma setPhys_frame (m : Memory) (p : ℕ → FrameMark) : (m.setPhys p).frame = m.frame := rfl

lemma setPhys_self (m : Memory) {p : ℕ → FrameMark} (h : m.physMem = p) : m.setPhys p = m := by
  subst h
  rfl

lemma setSsPags_setPhys (base : ℕ) (ph : Fin numPagData → ℤ) (p : ℕ → FrameMark)
    (is : List (Fin numPagData)) :
    ∀ m : Memory, (m.setPhys p).setSsPags base ph is = (m.setSsPags base ph is).setPhys p := by
  induction is with
  | nil =>
    intro m
    rfl
  | cons i is ih =>
    intro m
    exact ih (m.setSsPag (base + i.val) (ph i))

/-- `alloc_frame` finds the first free frame among every second one. -/
lemma allocFrame_taken {m : Memory} {k : ℕ} (hm : m.physMem = taken k) (hk : k < 380) :
    m.allocFrame = (((firstFrame + 2 * k : ℕ) : ℤ), m.setPhys (taken (k + 1))) := by
  have hfind : (List.range' numPagKernel ((totalPages - numPagKernel) / 2) 2).find?
      (fun i => decide (m.physMem i = .free)) = some (firstFrame + 2 * k) := by
    rw [List.find?_eq_some_iff_getElem, hm]
    refine ⟨?_, k + 4, ?_, ?_, ?_⟩
    · rw [decide_eq_true_eq, taken_eq_free_iff]
      show 264 ≤ 264 + 2 * k ∧ ((264 + 2 * k) % 2 = 0 → 264 + 2 * k ≤ 264 + 2 * k)
      omega
    · rw [List.length_range']
      show k + 4 < 384
      omega
    · rw [List.getElem_range']
      show 256 + 2 * (k + 4) = 264 + 2 * k
      omega
    · intro j hj
      rw [List.getElem_range', Bool.not_eq_true', decide_eq_false_iff_not, taken_eq_free_iff]
      show ¬ (264 ≤ 256 + 2 * j ∧ ((256 + 2 * j) % 2 = 0 → 264 + 2 * k ≤ 256 + 2 * j))
      omega
  unfold allocFrame
  rw [hfind]
  simp only [hm, taken_succ, setPhys]

/-- The frames that the data pages are mapped to when task 0 starts. -/
def startFrames (i : Fin numPagData) : ℤ := (firstFrame + 2 * i.val : ℕ)

/-- The loop of `set_user_pages`, when the pages and the frames are both taken in order. -/
lemma setUserPages_loop (is : List (Fin numPagData)) :
    ∀ {k : ℕ} {m : Memory}, m.physMem = taken k → is.map Fin.val = List.range' k is.length →
      k + is.length ≤ 380 →
      is.foldl (fun m (i : Fin numPagData) =>
          m.allocFrame.2.setSsPag (pagLogInitDataP0 + i.val) m.allocFrame.1) m =
        (m.setSsPags pagLogInitDataP0 startFrames is).setPhys (taken (k + is.length)) := by
  induction is with
  | nil =>
    intro k m hm _ _
    exact (m.setPhys_self hm).symm
  | cons i is ih =>
    intro k m hm his hlen
    rw [List.length_cons] at hlen
    rw [List.map_cons, List.length_cons, List.range'_succ, List.cons.injEq] at his
    obtain ⟨hi, his⟩ := his
    have hstep : (m.setPhys (taken (k + 1))).setSsPag (pagLogInitDataP0 + i.val)
        ((firstFrame + 2 * k : ℕ) : ℤ) =
        (m.setSsPag (pagLogInitDataP0 + i.val) (startFrames i)).setPhys (taken (k + 1)) := by
      rw [startFrames, hi]
      rfl
    rw [List.foldl_cons, allocFrame_taken hm (by omega)]
    simp only
    rw [hstep, ih rfl his (by omega), setSsPags_setPhys, setPhys_setPhys, List.length_cons,
      show k + 1 + is.length = k + (is.length + 1) by omega]
    rfl

/-- The loop of `init_task0`, when the frames are taken in order after the first `c`. -/
lemma allocPages_loop (is : List (Fin numPagData)) (c : ℕ) :
    ∀ {k : ℕ} {m : Memory} {ph : Fin numPagData → ℤ}, m.physMem = taken (c + k) →
      is.map Fin.val = List.range' k is.length → c + k + is.length ≤ 380 →
      allocPages is ph m =
        (fun i => if i ∈ is then ((firstFrame + 2 * (c + i.val) : ℕ) : ℤ) else ph i,
          m.setPhys (taken (c + k + is.length))) := by
  induction is with
  | nil =>
    intro k m ph hm _ _
    simp only [allocPages, List.not_mem_nil, if_false, List.length_nil, Nat.add_zero,
      m.setPhys_self hm]
  | cons i is ih =>
    intro k m ph hm his hlen
    rw [List.length_cons] at hlen
    rw [List.map_cons, List.length_cons, List.range'_succ, List.cons.injEq] at his
    obtain ⟨hi, his⟩ := his
    rw [allocPages, allocFrame_taken hm (by omega), ih (k := k + 1) rfl his (by omega),
      List.length_cons]
    refine Prod.ext ?_ ?_
    · funext j
      by_cases hj : j ∈ is
      · simp [hj]
      · by_cases hji : j = i
        · subst hji
          simp [hj, hi]
        · simp [hj, hji]
    · simp only
      rw [setPhys_setPhys, show c + (k + 1) + is.length = c + k + (is.length + 1) by omega]

/-- The allocation loop of `sys_fork`, when the frames are taken in order. -/
lemma allocFrames_taken {ph : Fin numPagData → ℤ} (hph : ∀ i, ph i ≠ -1)
    (is : List (Fin numPagData)) :
    ∀ {k : ℕ} {m : Memory} {frames : List ℤ}, m.physMem = taken k → k + is.length ≤ 380 →
      allocFrames ph is frames m =
        (some (frames ++ (List.range is.length).map fun j => ((firstFrame + 2 * (k + j) : ℕ) : ℤ)),
          m.setPhys (taken (k + is.length))) := by
  induction is with
  | nil =>
    intro k m frames hm _
    simp only [allocFrames, List.length_nil, List.range_zero, List.map_nil, List.append_nil,
      Nat.add_zero, m.setPhys_self hm]
  | cons i is ih =>
    intro k m frames hm hlen
    rw [List.length_cons] at hlen
    have hpos : ((firstFrame + 2 * k : ℕ) : ℤ) ≠ -1 := by omega
    rw [allocFrames, if_neg (hph i), allocFrame_taken hm (by omega)]
    simp only [if_neg hpos]
    rw [ih (k := k + 1) rfl (by omega), setPhys_setPhys, List.length_cons, List.range_succ_eq_map,
      List.map_cons, List.map_map, List.append_assoc, List.singleton_append,
      show k + 1 + is.length = k + (is.length + 1) by omega]
    refine Prod.ext ?_ rfl
    simp only [Option.some.injEq, List.append_cancel_left_eq, List.cons.injEq, Nat.add_zero, true_and]
    apply List.map_congr_left
    intro j _
    simp only [Function.comp_apply, Nat.succ_eq_add_one]
    rw [show k + 1 + j = k + (j + 1) by omega]

lemma finRange_map_val : (List.finRange numPagData).map Fin.val =
    List.range' 0 (List.finRange numPagData).length := by
  rw [List.map_coe_finRange_eq_range, List.length_finRange, List.range_eq_range']

end Memory

namespace Env

variable (E : Env)

/-- Memory before the data pages are mapped. -/
def codeMemory : Memory :=
  Memory.setCodePages
    { physMem := taken 0, pagusrTable := Memory.initTablePages E.taskPage, frame := E.frame }

/-- When task 0 starts, the data pages map the first twenty data frames. -/
lemma userMemory_eq : E.userMemory =
    (E.codeMemory.setSsPags pagLogInitDataP0 Memory.startFrames
      (List.finRange numPagData)).setPhys (taken 20) := by
  have hphys : (fun i => if numPagKernel ≤ i ∧ i < numPagKernel + numPagCode then FrameMark.used
      else Memory.initFrames i) = taken 0 := by
    funext i
    show (if 256 ≤ i ∧ i < 264 then FrameMark.used else if i < 256 then .used else .free) =
      if i < 264 ∨ (i % 2 = 0 ∧ i < 264 + 2 * 0) then .used else .free
    split_ifs <;> first
      | rfl
      | omega
  have hcode : Memory.setCodePages (Memory.initializeP0Frames
      { physMem := Memory.initFrames, pagusrTable := Memory.initTablePages E.taskPage,
        frame := E.frame }) = E.codeMemory := by
    rw [codeMemory, Memory.initializeP0Frames, hphys]
  rw [userMemory, Memory.setUserPages, hcode,
    Memory.setUserPages_loop _ (k := 0) rfl Memory.finRange_map_val (by decide)]
  rfl

/-- Task 0 is given the next twenty frames. -/
lemma task0Pages_eq : E.task0Pages =
    (fun i => ((firstFrame + 2 * (20 + i.val) : ℕ) : ℤ), E.userMemory.setPhys (taken 40)) := by
  have hphys : E.userMemory.physMem = taken (20 + 0) := by
    rw [userMemory_eq]
    rfl
  rw [task0Pages, Memory.allocPages_loop _ 20 hphys Memory.finRange_map_val (by decide)]
  simp only [List.mem_finRange, if_true, List.length_finRange]
  rfl

lemma boot_mm : E.boot.mm = E.userMemory.setPhys (taken 40) := by
  simp only [boot, E.task0Pages_eq]

lemma boot_physMem : E.boot.mm.physMem = taken 40 := by
  rw [E.boot_mm]
  rfl

/-- The data pages map the first twenty data frames, and not those of task 0. -/
lemma boot_table_data (i : Fin numPagData) :
    E.boot.mm.pagusrTable (pagLogInitDataP0 + i.val) = Memory.ssEntry (Memory.startFrames i) := by
  rw [E.boot_mm, E.userMemory_eq]
  simp only [Memory.setPhys_pagusrTable]
  exact Memory.setSsPags_table_mem (List.mem_finRange i)

lemma boot_table_other {page : ℕ} (h : ∀ i : Fin numPagData, page ≠ pagLogInitDataP0 + i.val) :
    E.boot.mm.pagusrTable page = E.codeMemory.pagusrTable page := by
  rw [E.boot_mm, E.userMemory_eq]
  simp only [Memory.setPhys_pagusrTable]
  exact Memory.setSsPags_table_of_ne (fun i _ => h i)

/-- The lists at boot. -/
def bootQueues : Node → List Slot := Function.update (fun _ => []) .runqueue [0]

lemma links_pool : Pool Node.task links E.boot.Active bootQueues := by
  have hempty : ∀ h, h ≠ .runqueue → bootQueues h = [] :=
    fun h hh => Function.update_of_ne hh _ _
  have hrq : bootQueues .runqueue = [0] := Function.update_self ..
  refine ⟨node_task_injective, ?_, ?_, ?_, ?_, ?_⟩
  · rintro h hh t rfl
    exact hh
  · intro h hh
    cases h with
    | task t => exact hh.elim
    | runqueue =>
      rw [hrq]
      refine ⟨by simp, ?_⟩
      simp [links, Seg, Links.listAdd, Links.listAddBetween, Links.initListHead, Links.setNext,
        Links.setPrev]
    | keyboardQueue =>
      rw [hempty _ (by simp)]
      refine ⟨by simp, ?_⟩
      simp [links, Seg, Links.listAdd, Links.listAddBetween, Links.initListHead, Links.setNext,
        Links.setPrev]
    | waitList n =>
      have h01 : (0 : ℤ) = 1 := hh
      omega
  · intro h hh
    apply hempty
    rintro rfl
    exact hh trivial
  · intro h hh hnode
    cases h with
    | task t => exact absurd rfl (hnode t)
    | runqueue => exact absurd trivial hh
    | keyboardQueue => exact absurd trivial hh
    | waitList n =>
      simp [links, Links.listAdd, Links.listAddBetween, Links.initListHead, Links.setNext,
        Links.setPrev]
  · intro h k hne
    by_cases hh : h = .runqueue
    · rw [hempty k (fun hk => hne (hh.trans hk.symm))]
      exact List.disjoint_nil_right _
    · rw [hempty h hh]
      exact List.disjoint_nil_left _

lemma boot_task_pid (t : Slot) : (E.boot.task t).pid = if t = 0 then 0 else -1 := by
  by_cases ht : t = 0
  · subst ht
    simp [boot, task0]
  · simp [boot, ht, emptyTask]

/-- The invariant holds at boot. -/
lemma boot_systemOk : SystemOk E.boot bootQueues := by
  have hmem : ∀ t : Slot, (∃ h, t ∈ bootQueues h) ↔ t = 0 := by
    intro t
    constructor
    · rintro ⟨h, hh⟩
      by_cases hrq : h = .runqueue
      · subst hrq
        simpa [bootQueues] using hh
      · simp [bootQueues, hrq] at hh
    · rintro rfl
      exact ⟨.runqueue, by simp [bootQueues]⟩
  refine ⟨⟨⟨E.links_pool, ?_, by simp [bootQueues], ?_, by simp [boot]⟩, by simp [bootQueues, boot]⟩, ?_, ?_⟩
  · intro t
    rw [Kernel.Live, boot_task_pid, hmem]
    split_ifs with ht <;> simp [ht]
  · intro t
    rw [boot_task_pid]
    split_ifs with ht <;> simp [ht]
  · intro u n hu hn
    rw [Kernel.Live, boot_task_pid] at hu
    split_ifs at hu with h0
    · subst h0
      simp [boot, task0] at hn
    · simp at hu
  · intro n hn
    simp [boot] at hn

end Env

/-! ## Runs -/

/-- Every state of a run in which each `sys_exit` finds two processes to run satisfies the
invariant. -/
lemma SystemOk.run {s t : Kernel} {Q : Node → List Slot} {es : List Event} (hs : SystemOk s Q)
    (h : ExitRun s es t) : ∃ Q, SystemOk t Q := by
  have hstep : ∀ s e t, (∃ Q, SystemOk s Q) → s.ExitsFindTwo e → s.step e = .ok t →
      ∃ Q, SystemOk t Q := by
    rintro s e t ⟨Q, hs⟩ hg hst
    exact hs.step hg hst
  exact h.invariant hstep ⟨Q, hs⟩

lemma ExitRun.systemOk {E : Env} {es : List Event} {s : Kernel} (h : ExitRun E.boot es s) :
    ∃ Q, SystemOk s Q := E.boot_systemOk.run h

/-! ## The first steps of a run

A fork at boot succeeds, and ticks of the clock bring its child to run. -/

/-- The environment in which all that the source leaves open is zero. -/
def zeroEnv : Env :=
  { taskPage := 0, frame := fun _ _ => 0, fat := fun _ => 0, disk := fun _ => 0, video := fun _ => 0 }

/-- The same with `task[]` behind the kernel, as the linker puts it; the pages that `access_ok`
looks at are then mapped. -/
def linkedEnv : Env := { zeroEnv with taskPage := 32 }

lemma linkedEnv_boot_page_zero : linkedEnv.boot.mm.pagusrTable 0 =
    { present := true, rw := true, user := false, pbaseAddr := 0 } := by
  rw [linkedEnv.boot_table_other (fun i => by show 0 ≠ 264 + i.val; omega)]
  decide

/-- An event with nothing in the registers. -/
def plain (act : Action) : Event := { regs := fun _ => 0, act := act }

/-- A step that does not come to a call of `sys_exit` meets the condition on exits. -/
lemma Kernel.exitsFindTwo_of_done {s t : Kernel} {e : Event} (h : s.dispatch e = .done t) :
    s.ExitsFindTwo e := by
  intro cause s₁ s₂ hd
  rw [h] at hd
  simp at hd

lemma Kernel.step_of_done {s t : Kernel} {e : Event} (h : s.dispatch e = .done t) :
    s.step e = .ok t := by
  rw [step, h]

/-- While there is time left, ticks of the clock are quiet. -/
lemma Kernel.ticks {n : ℕ} :
    ∀ {s : Kernel}, (n : ℤ) < s.left4current →
      ∃ t, ExitRun s (List.replicate n (plain .clock)) t ∧ Quiet s t ∧
        t.left4current = s.left4current - n := by
  induction n with
  | zero =>
    intro s _
    exact ⟨s, .nil s, .refl s, by simp⟩
  | succ n ih =>
    intro s hn
    push_cast at hn
    have hdisp : s.dispatch (plain .clock) =
        .done (s.enter fun _ => 0).tick.showTime := by
      have hleft : ¬ (s.enter fun _ => 0).tick.left4current ≤ 0 := by
        show ¬ s.left4current - 1 ≤ 0
        omega
      rw [Kernel.dispatch]
      show Kernel.finishInt (s.enter fun _ => 0).clockRoutine = _
      rw [Kernel.clockRoutine, Kernel.schedule, if_neg hleft]
      rfl
    have hq : Quiet s (s.enter fun _ => 0).tick.showTime :=
      (s.quiet_enter _).trans ((Kernel.quiet_tick _).trans (Kernel.quiet_showTime _))
    have hleft : ((s.enter fun _ => 0).tick.showTime).left4current = s.left4current - 1 := by
      unfold Kernel.showTime
      simp only
      split_ifs <;> rfl
    obtain ⟨t, hrun, hqt, ht⟩ := ih (s := (s.enter fun _ => 0).tick.showTime) (by rw [hleft]; omega)
    refine ⟨t, .cons (Kernel.exitsFindTwo_of_done hdisp) (Kernel.step_of_done hdisp) hrun,
      hq.trans hqt, ?_⟩
    rw [ht, hleft]
    push_cast
    omega

/-- When the time is over, a tick hands the processor to the next process. -/
lemma SystemOk.lastTick {s : Kernel} {Q : Node → List Slot} (hs : SystemOk s Q)
    (hleft : s.left4current ≤ 1) {u v : Slot} {rest : List Slot}
    (hQ : Q .runqueue = u :: v :: rest) :
    ∃ t, ExitRun s [plain .clock] t ∧ SystemOk t (Pool.moved Q u .runqueue .runqueue) ∧
      t.cur = v ∧ (∀ a, (t.task a).ownedSems = (s.task a).ownedSems) ∧ t.sem = s.sem := by
  have hq := (s.quiet_enter fun _ => 0).trans (Kernel.quiet_tick _)
  have hok := hs.sched.congr hq.sched
  have hcur : (s.enter fun _ => 0).tick.cur = u := by
    have h := hok.head
    rw [hQ] at h
    simpa using h.symm
  have hleft' : (s.enter fun _ => 0).tick.left4current ≤ 0 := by
    show s.left4current - 1 ≤ 0
    omega
  rcases Kernel.schedule_cases hok 1 with ⟨-, -, -, hno⟩ | ⟨-, -, w, rest', htail, hsch, hok'⟩
  · exact absurd ⟨hleft', by rw [hQ]; simp⟩ hno
  rw [hQ, List.tail_cons, List.cons.injEq] at htail
  obtain ⟨rfl, -⟩ := htail
  have hdisp : s.dispatch (plain .clock) =
      .done (((s.enter fun _ => 0).tick.moveCurrent .runqueue).handTo 1 v) := by
    show Kernel.finishInt (s.enter fun _ => 0).clockRoutine = _
    rw [Kernel.clockRoutine, hsch]
    rfl
  have hrun : ExitRun s [plain .clock] (((s.enter fun _ => 0).tick.moveCurrent .runqueue).handTo 1 v) :=
    .cons (Kernel.exitsFindTwo_of_done hdisp) (Kernel.step_of_done hdisp) (.nil _)
  have howned : ∀ a, (((((s.enter fun _ => 0).tick.moveCurrent .runqueue).handTo 1 v).task a).ownedSems) =
      (s.task a).ownedSems := by
    intro a
    rw [Kernel.handTo_task_ownedSems]
    exact hq.sched.owned a
  rw [hcur] at hok'
  refine ⟨_, hrun, ⟨hok', ?_⟩, rfl, howned, hq.sched.sem⟩
  refine hs.owned.congr (fun n => rfl) (fun a => ?_) (fun a _ => howned a)
  rw [Kernel.Live, Kernel.handTo_task_pid]
  exact hq.sched.live_iff a

/-- A fork at boot creates process 1 in slot 1, which owns no semaphore and has a quantum like
that of task 0. -/
lemma Env.boot_fork (E : Env) :
    ∃ t, ExitRun E.boot [plain .fork] t ∧
      SystemOk t (Function.update bootQueues .runqueue [0, 1]) ∧ t.left4current = 60 ∧
      (∀ n, (t.task 1).ownedSems n = -1) ∧ t.sem = E.boot.sem ∧ t.screen = E.boot.screen ∧
      ∀ a ∈ [0, 1], (t.task a).quantum = 60 ∧ (t.task a).remaining = 60 := by
  set s := E.boot.enter fun _ => 0 with hs
  have hq : Quiet E.boot s := E.boot.quiet_enter _
  have hok : SystemOk s bootQueues :=
    ⟨E.boot_systemOk.sched.congr hq.sched, E.boot_systemOk.owned.ofSameSched hq.sched⟩
  have hph : s.current.phPages = fun i => ((firstFrame + 2 * (20 + i.val) : ℕ) : ℤ) := by
    rw [Kernel.current, hq.sched.pages, hq.sched.cur]
    show E.task0Pages.1 = _
    rw [E.task0Pages_eq]
  have hphys : s.mm.physMem = taken 40 := by
    rw [hq.mm.physMem, E.boot_physMem]
  have hne : ∀ i, s.current.phPages i ≠ -1 := by
    intro i
    rw [hph]
    simp only
    omega
  have halloc : s.mm.allocFrames s.current.phPages (List.finRange numPagData) [] = _ :=
    Memory.allocFrames_taken hne (List.finRange numPagData) hphys (by decide)
  have hnew : s.srchFreeTask = some 1 := by
    have hpid : ∀ t, (s.task t).pid = if t = 0 then 0 else -1 := by
      intro t
      rw [hq.sched.pid, E.boot_task_pid]
    simp only [Kernel.srchFreeTask, hpid]
    decide
  rcases s.sysFork_cases hok.sched.cur_live with ⟨h, -⟩ | ⟨new, hnew', -, ⟨mm, hmm, -⟩ |
    ⟨frames, mm, hmm, ⟨-, hfork⟩ | ⟨hlen, -⟩⟩⟩
  · rw [hnew] at h
    simp at h
  · rw [halloc] at hmm
    simp at hmm
  · rw [hnew, Option.some.injEq] at hnew'
    subst hnew'
    have hdisp : E.boot.dispatch (plain .fork) =
        .done ((s.forked 1 (fun j => frames.getD j.val 0) mm).setEax s.pid) := by
      show Kernel.finishExcept s.sysFork = _
      rw [hfork]
      rfl
    have hcalm : Calm .fork (s, bootQueues) (s.forked 1 (fun j => frames.getD j.val 0) mm,
        Function.update bootQueues .runqueue (bootQueues .runqueue ++ [1])) :=
      .fork rfl (Kernel.srchFreeTask_some hnew) hmm (by
        rw [halloc] at hmm
        simp only [Prod.mk.injEq, Option.some.injEq] at hmm
        rw [← hmm.1]
        simp)
    have hset := (s.forked 1 (fun j => frames.getD j.val 0) mm).quiet_setEax s.pid
    have hturn : Calms .fork (s, bootQueues) _ := (ReflTransGen.single hcalm).tail (.quiet hset)
    refine ⟨_, .cons (Kernel.exitsFindTwo_of_done hdisp) (Kernel.step_of_done hdisp) (.nil _),
      hturn.systemOk hok, rfl, fun n => ?_, hset.sched.sem.trans hq.sched.sem, rfl,
      fun a ha => ?_⟩
    · rw [hset.sched.owned]
      simp [Kernel.forked, Kernel.child]
    · have hquantum : E.boot.current.quantum = 60 := rfl
      rcases List.mem_cons.mp ha with rfl | ha
      · exact ⟨rfl, rfl⟩
      · rw [List.mem_singleton.mp ha]
        exact ⟨hquantum, hquantum⟩
  · rw [halloc] at hmm
    simp only [Prod.mk.injEq, Option.some.injEq] at hmm
    rw [← hmm.1] at hlen
    simp at hlen

end ZeOS
