import ZeOS.ProcessMemory
import ZeOS.EndedProcess
import ZeOS.RoundTrip

/-!
# The child of a fork

`sys_fork` copies the task structure and the kernel stack of the caller and then sets, one by one,
what the child does not share: its frames, the saved `%eax`, its pid, its times and its semaphores.
The data pages go through a window of the caller's own page table.  The child is a copy of its
parent and shares nothing with it but the open files (`fork_copies`), in every run in which each
`sys_exit` finds two processes to run.

In other runs a process that has ended keeps the processor and can wait on a semaphore.  Its slot is
free and its node is on a list, and the next child gets both (`fork_into_linked_slot`).
-/

namespace ZeOS

open IntrusiveList Relation Memory GuardedRun

/-! ## Pids -/

/-- The counter is above the pid of every slot, so that the next process gets a new one. -/
def PidsBelow (s : Kernel) : Prop := ∀ u, (s.task u).pid < s.pid

namespace PidsBelow

variable {s t : Kernel} {act : Action} {x y : Config}

lemma ofSameSched (h : PidsBelow s) (hs : SameSched s t) : PidsBelow t := by
  intro u
  rw [hs.pid, hs.counter]
  exact h u

lemma calm (h : PidsBelow x.1) (hc : Calm act x y) (hs : SchedOk x.1 x.2) : PidsBelow y.1 := by
  cases hc with
  | quiet hq => exact h.ofSameSched hq.sched
  | wake => exact h
  | count => exact h
  | @init s t Q k n v hk hact hn hsame hsem htask hok =>
    intro u
    have hu : (t.task u).pid = (s.task u).pid := by
      rw [htask u]
      split_ifs <;> rfl
    rw [hu, hsame]
    exact h u
  | @release s t Q ns hown hrel hok =>
    intro u
    have hpid : t.pid = s.pid := by rw [hrel.same]
    rw [hrel.task_pid u, hpid]
    exact h u
  | deliver hact hb hwho hcopy =>
    have hsame := Kernel.sameSched_delivered (.inl hcopy)
    exact h.ofSameSched hsame
  | deliverFault hact hb hwho hcopy =>
    have hsame := Kernel.sameSched_delivered (.inr hcopy)
    exact h.ofSameSched hsame
  | @fork s Q new frames mm hact hnew hmm hlen =>
    intro u
    show _ < s.pid + 1
    by_cases hu : u = new
    · subst hu
      simp [Kernel.forked, Kernel.child]
    · have hold : (s.task u).pid < s.pid := h u
      simp only [Kernel.forked, Function.update_of_ne hu]
      omega
  | @forkFailed s Q new mm hnew hmm =>
    intro u
    show _ < s.pid
    by_cases hu : u = new
    · subst hu
      have hcounter : 0 < s.pid := hs.counter
      simp only [Kernel.forkFailed, Function.update_self]
      omega
    · simp only [Kernel.forkFailed, Function.update_of_ne hu]
      exact h u

lemma calms (h : PidsBelow x.1) (hc : Calms act x y) (hs : SchedOk x.1 x.2) : PidsBelow y.1 := by
  induction hc with
  | refl => exact h
  | tail hcs hc ih => exact ih.calm hc (Calms.schedOk hcs hs)

lemma handover (h : PidsBelow x.1) (hh : Handover act x y) (hs : SchedOk x.1 x.2) :
    PidsBelow y.1 := by
  cases hh with
  | move i ha h0 hact hkbd hne hQ =>
    intro u
    rw [Kernel.handTo_task_pid]
    exact h u
  | @exit s Q v rest h0 hfree hQ =>
    intro u
    have hpid : (s.leave.handTo 0 v).pid = s.pid := by
      rw [Kernel.leave_eq]
      rfl
    rw [Kernel.handTo_task_pid, hpid, Kernel.leave_eq]
    by_cases hu : u = s.cur
    · subst hu
      have hcounter : 0 < s.pid := hs.counter
      simp only [Function.update_self]
      omega
    · simp only [Function.update_of_ne hu]
      exact h u

lemma turn (h : PidsBelow x.1) (ht : Turn act x y) (hs : SchedOk x.1 x.2) : PidsBelow y.1 := by
  rcases ht with hc | ⟨z, hc, hh⟩
  · exact h.calms hc hs
  · exact (h.calms hc hs).handover hh (Calms.schedOk hc hs)

end PidsBelow

lemma ExitRun.pidsBelow {E : Env} {es : List Event} {s : Kernel} (h : ExitRun E.boot es s) :
    PidsBelow s := by
  have hstep : ∀ (s : Kernel) (e : Event) (t : Kernel), (∃ Q, SystemOk s Q ∧ PidsBelow s) →
      s.ExitsFindTwo e → s.step e = .ok t → ∃ Q, SystemOk t Q ∧ PidsBelow t := by
    rintro s e t ⟨Q, hs, hp⟩ hg hst
    obtain ⟨Q', hturn⟩ := (hs.step_effects e hg).1 t hst
    exact ⟨Q', hturn.systemOk hs, hp.turn hturn hs.sched⟩
  have hboot : PidsBelow E.boot := by
    intro u
    rw [E.boot_task_pid]
    show _ < 1
    split_ifs <;> omega
  obtain ⟨-, -, hp⟩ := h.invariant hstep ⟨_, E.boot_systemOk, hboot⟩
  exact hp

/-! ## What a fork leaves -/

/-- In `t`, slot `new` holds a copy of the process that runs in `s`, with memory of its own. -/
structure ForkCopies (s t : Kernel) (new : Slot) : Prop where
  /-- A free slot is taken, and the parent goes on running. -/
  fresh : ¬ s.Live new ∧ t.Live new ∧ t.cur = s.cur
  /-- The new frames hold the bytes that the parent sees at its data pages. -/
  data : ∀ j : Fin numPagData, ∀ k < pageSize,
    t.mm.frame ((t.task new).phPages j).toNat k =
      s.mm.load ((pagLogInitDataP0 + j.val) * pageSize + k)
  /-- The parent's data pages are mapped as before, -/
  mapping : ∀ j : Fin numPagData,
    t.mm.pagusrTable (pagLogInitDataP0 + j.val) = s.mm.pagusrTable (pagLogInitDataP0 + j.val)
  /-- and it sees the same bytes there. -/
  sees : ∀ j : Fin numPagData, ∀ k < pageSize,
    t.mm.load ((pagLogInitDataP0 + j.val) * pageSize + k) =
      s.mm.load ((pagLogInitDataP0 + j.val) * pageSize + k)
  /-- Every process that was there keeps its frames and what is in them. -/
  others : ∀ u, s.Live u → t.Live u ∧ (t.task u).phPages = (s.task u).phPages ∧
    ∀ j, t.mm.frame ((s.task u).phPages j).toNat = s.mm.frame ((s.task u).phPages j).toNat
  /-- No page is mapped to a frame of the child. -/
  unmapped : ∀ j, t.mm.Unmapped ((t.task new).phPages j).toNat
  regs : (t.task new).stack = Function.update t.current.stack eaxIndex 0
  fds : t.fds new = s.fds s.cur
  /-- An open file is referred to once more for each slot that holds it, -/
  refs : ∀ w, (t.fs.fdt w).refs =
    (s.fs.fdt w).refs + ({fd | s.fds s.cur fd = some w} : Finset Fd).card
  /-- and so is its directory entry. -/
  nRefs : ∀ f, (t.fs.dir f).nRefs = (s.fs.dir f).nRefs +
    ({fd | ∃ w, s.fds s.cur fd = some w ∧ (s.fs.fdt w).logicDev = some f} : Finset Fd).card
  sems : ∀ n, (t.task new).ownedSems n = -1
  pid : ∀ u, t.Live u → u ≠ new → (t.task u).pid ≠ (t.task new).pid
  tail : t.runqueue = s.runqueue ++ [new]
  result : t.result = (t.task new).pid

/-- The byte that a process sees in a data page. -/
lemma Memory.load_data (m : Memory) (j : Fin numPagData) {k : ℕ} (hk : k < pageSize) :
    m.load ((pagLogInitDataP0 + j.val) * pageSize + k) =
      m.frame (m.pagusrTable (pagLogInitDataP0 + j.val)).pbaseAddr k := by
  have hpage : ((pagLogInitDataP0 + j.val) * pageSize + k) / pageSize = pagLogInitDataP0 + j.val := by
    rw [Nat.add_comm, Nat.add_mul_div_right _ _ (by decide), Nat.div_eq_of_lt hk, Nat.zero_add]
  have hoffset : ((pagLogInitDataP0 + j.val) * pageSize + k) % pageSize = k := by
    rw [Nat.add_comm, Nat.add_mul_mod_self_right, Nat.mod_eq_of_lt hk]
  rw [load, frameOf, hpage, hoffset]

lemma FramesOk.toNat_eq {s : Kernel} (hf : FramesOk s) {u : Slot} (hu : s.Live u)
    (i : Fin numPagData) : ((s.task u).phPages i).toNat = frameNat ((s.task u).phPages i) := by
  have h := hf.frameNat_eq hu i
  omega

section

variable {E : Env} {s t : Kernel} {Q : Node → List Slot}

/-- The data pages map the frames of the running process, or those of the start. -/
structure DataPages (E : Env) (s : Kernel) (Q : Node → List Slot) (D : Fin numPagData → ℤ)
    (W : Option (Fin numPagData → ℤ)) : Prop where
  system : SystemOk s Q
  frames : FramesOk s
  table : TableIs E.codeMemory.pagusrTable s.mm D W
  data : D = s.current.phPages ∨ D = startFrames

lemma ExitRun.dataPages {es : List Event} (h : ExitRun E.boot es s) : ∃ Q D W, DataPages E s Q D W := by
  have hstep : ∀ (s : Kernel) (e : Event) (t : Kernel), StartData E s ∨ OwnData E s →
      s.ExitsFindTwo e → s.step e = .ok t → StartData E t ∨ OwnData E t := by
    rintro s e t (hs | hs) hg hst
    · rcases hs.step hg hst with ht | ⟨-, ht⟩
      · exact .inl ht
      · exact .inr ht
    · exact .inr (hs.step hg hst)
  rcases h.invariant hstep (.inl E.boot_startData) with ⟨-, Q, W, hs, hf, ht⟩ | ⟨Q, W, hs, hf, ht⟩
  · exact ⟨Q, _, W, hs, hf, ht, .inr rfl⟩
  · exact ⟨Q, _, W, hs, hf, ht, .inl rfl⟩

variable {D : Fin numPagData → ℤ} {W : Option (Fin numPagData → ℤ)}

/-- The frames that the data pages map are in use. -/
lemma DataPages.used (h : DataPages E s Q D W) (j : Fin numPagData) :
    s.mm.physMem (s.mm.pagusrTable (pagLogInitDataP0 + j.val)).pbaseAddr = .used := by
  rw [h.table.data j, ssEntry_pbaseAddr]
  rcases h.data with rfl | rfl
  · obtain ⟨f, hf, hlt, -, hused⟩ := h.frames.valid s.cur h.system.sched.cur_live j
    rw [Kernel.current, hf, frameNat_natCast hlt]
    exact hused
  · exact h.frames.reserved _ (reserved_startFrames j)

lemma DataPages.ofQuiet (h : DataPages E s Q D W) (hq : Quiet s t) : DataPages E t Q D W := by
  refine ⟨⟨h.system.sched.congr hq.sched, h.system.owned.ofSameSched hq.sched⟩,
    h.frames.ofSameSched hq.sched hq.mm.physMem, h.table.congr hq.mm.table, ?_⟩
  rw [Kernel.current, hq.sched.cur, hq.sched.pages]
  exact h.data

/-- The state that a successful `sys_fork` leaves. -/
lemma DataPages.forked (h : DataPages E s Q D W) {new : Slot} (hnew : (s.task new).pid < 0)
    (hne : s.cur ≠ new) {frames : List ℤ} {mm : Memory}
    (hmm : s.mm.allocFrames s.current.phPages (List.finRange numPagData) [] = (some frames, mm))
    (hlen : frames.length = numPagData) :
    DataPages E (s.forked new (fun j => frames.getD j.val 0) mm)
      (Function.update Q .runqueue (Q .runqueue ++ [new])) D none := by
  have hcalm : Calm .fork (s, Q) (s.forked new (fun j => frames.getD j.val 0) mm,
      Function.update Q .runqueue (Q .runqueue ++ [new])) := .fork rfl hnew hmm hlen
  have hcur : (s.forked new (fun j => frames.getD j.val 0) mm).current = s.current :=
    Function.update_of_ne hne _ _
  obtain ⟨fs, -, -, -, rfl⟩ := allocFrames_some hmm
  refine ⟨Calms.systemOk (.single hcalm) h.system, hcalm.frames h.frames, ?_, ?_⟩
  · have htable : (s.mm.mark fs .used).pagusrTable = s.mm.pagusrTable := rfl
    rw [Kernel.forked_mm]
    exact (h.table.congr htable).copyDataPages _
  · rw [hcur]
    exact h.data

end

/-! ## The copy -/

namespace Memory

variable {m : Memory} {fs : List ℕ}

/-- The copy into free frames changes no frame in use. -/
lemma copyDataPages_frame_of_used (hlen : fs.length = numPagData)
    (hfree : ∀ f ∈ fs, numPagKernel ≤ f ∧ f < totalPages ∧ m.physMem f = .free) {g : ℕ}
    (hg : m.physMem g = .used) :
    ((m.mark fs .used).copyDataPages fun j => (fs.map fun f : ℕ => (f : ℤ)).getD j.val 0).frame g =
      m.frame g :=
  copyDataPages_frame_of_ne fun j => ne_frameNat_of_used hlen hfree hg j

/-- It fills each of them with a page of the running process, if the frames of that process are in
use. -/
lemma copyDataPages_load (hnd : fs.Nodup) (hlen : fs.length = numPagData)
    (hfree : ∀ f ∈ fs, numPagKernel ≤ f ∧ f < totalPages ∧ m.physMem f = .free) (j : Fin numPagData)
    (hused : m.physMem (m.pagusrTable (pagLogInitDataP0 + j.val)).pbaseAddr = .used) {k : ℕ}
    (hk : k < pageSize) :
    ((m.mark fs .used).copyDataPages fun j => (fs.map fun f : ℕ => (f : ℤ)).getD j.val 0).frame
        (frameNat ((fs.map fun f : ℕ => (f : ℤ)).getD j.val 0)) k =
      m.load ((pagLogInitDataP0 + j.val) * pageSize + k) := by
  have hinj : Function.Injective fun i : Fin numPagData =>
      frameNat ((fs.map fun f : ℕ => (f : ℤ)).getD i.val 0) := by
    intro i i' heq
    obtain ⟨f, hf, hget, hi⟩ := exists_getD_eq hlen i
    obtain ⟨f', hf', hget', hi'⟩ := exists_getD_eq hlen i'
    simp only [hget, hget', frameNat_natCast (hfree f hf).2.1, frameNat_natCast (hfree f' hf').2.1] at heq
    have hlt : i.val < fs.length := by
      rw [hlen]
      exact i.isLt
    refine Fin.ext ((List.getElem?_inj hlt hnd).mp ?_)
    rw [hi, hi', heq]
  have hcopy := copyDataPages_frame (m := m.mark fs .used) hinj j
    fun i => ne_frameNat_of_used hlen hfree hused i
  rw [hcopy, load_data m j hk]
  rfl

end Memory

/-- The state in which the caller of a successful `sys_fork` goes on. -/
def Kernel.afterFork (s : Kernel) (regs : SavedRegs) (new : Slot) (frames : Fin numPagData → ℤ)
    (mm : Memory) : Kernel := ((s.enter regs).forked new frames mm).setEax s.pid

section

variable {E : Env} {s t : Kernel} {Q : Node → List Slot} {D : Fin numPagData → ℤ}
  {W : Option (Fin numPagData → ℤ)} {new : Slot} {regs : SavedRegs}
  {frames : Fin numPagData → ℤ} {mm : Memory}

lemma Kernel.afterFork_task_new (hne : s.cur ≠ new) :
    (s.afterFork regs new frames mm).task new = (s.enter regs).child frames := by
  have hcur : new ≠ ((s.enter regs).forked new frames mm).cur := Ne.symm hne
  rw [Kernel.afterFork, Kernel.setEax, Kernel.updTask_task_ne _ _ hcur]
  exact Function.update_self ..

lemma Kernel.afterFork_task_of_ne {v : Slot} (hv : v ≠ new) :
    ((s.afterFork regs new frames mm).task v).pid = (s.task v).pid ∧
      ((s.afterFork regs new frames mm).task v).phPages = (s.task v).phPages := by
  have hq := s.quiet_enter regs
  have hset := ((s.enter regs).forked new frames mm).quiet_setEax s.pid
  have htask : ((s.enter regs).forked new frames mm).task v = (s.enter regs).task v :=
    Function.update_of_ne hv _ _
  rw [Kernel.afterFork, hset.sched.pid, hset.sched.pages, htask, hq.sched.pid, hq.sched.pages]
  exact ⟨rfl, rfl⟩

/-- The caller gets the pid, -/
lemma Kernel.afterFork_stack (hne : s.cur ≠ new) :
    (s.afterFork regs new frames mm).current.stack = Function.update regs eaxIndex s.pid := by
  set u := (s.enter regs).forked new frames mm with hu
  have hcur : u.task s.cur = (s.enter regs).task s.cur := Function.update_of_ne hne _ _
  show ((u.setEax s.pid).task u.cur).stack = _
  rw [Kernel.setEax, Kernel.updTask_task_self]
  show Function.update (u.task s.cur).stack eaxIndex s.pid = _
  rw [hcur, Kernel.enter, Kernel.updTask_task_self]

/-- and the child 0. -/
lemma Kernel.child_stack (s : Kernel) (regs : SavedRegs) (frames : Fin numPagData → ℤ) :
    ((s.enter regs).child frames).stack = Function.update regs eaxIndex 0 := by
  show Function.update ((s.enter regs).task s.cur).stack eaxIndex 0 = _
  rw [Kernel.enter, Kernel.updTask_task_self]

lemma DataPages.afterFork (h : DataPages E s Q D W) (hdead : ¬ s.Live new) (hne : s.cur ≠ new)
    {l : List ℤ}
    (hmm : s.mm.allocFrames s.current.phPages (List.finRange numPagData) [] = (some l, mm))
    (hlen : l.length = numPagData) (regs : SavedRegs) :
    DataPages E (s.afterFork regs new (fun j => l.getD j.val 0) mm)
      (Function.update Q .runqueue (Q .runqueue ++ [new])) D none := by
  have hq := s.quiet_enter regs
  have hnew : ((s.enter regs).task new).pid < 0 := by
    rw [hq.sched.pid]
    exact not_le.mp hdead
  have hmm' : (s.enter regs).mm.allocFrames (s.enter regs).current.phPages
      (List.finRange numPagData) [] = (some l, mm) := by
    rw [Kernel.current, hq.sched.pages, hq.sched.cur]
    exact hmm
  exact ((h.ofQuiet hq).forked hnew hne hmm' hlen).ofQuiet (Kernel.quiet_setEax _ s.pid)

/-- The child is a copy of the caller. -/
lemma DataPages.forkCopies (h : DataPages E s Q D W) (hp : PidsBelow s) (hdead : ¬ s.Live new)
    (hne : s.cur ≠ new) {l : List ℤ}
    (hmm : s.mm.allocFrames s.current.phPages (List.finRange numPagData) [] = (some l, mm))
    (hlen : l.length = numPagData) (regs : SavedRegs) :
    ForkCopies s (s.afterFork regs new (fun j => l.getD j.val 0) mm) new := by
  have ht := h.afterFork hdead hne hmm hlen regs
  obtain ⟨fs, hnd, hfree, rfl, rfl⟩ := allocFrames_some hmm
  rw [List.length_map] at hlen
  set F : Fin numPagData → ℤ := fun j => (fs.map fun f : ℕ => (f : ℤ)).getD j.val 0 with hF
  set t := s.afterFork regs new F (s.mm.mark fs .used) with ht'
  have hchild : t.task new = (s.enter regs).child F := Kernel.afterFork_task_new hne
  have hold : ∀ v, v ≠ new → (t.task v).pid = (s.task v).pid ∧
      (t.task v).phPages = (s.task v).phPages := fun v hv => Kernel.afterFork_task_of_ne hv
  have hmem : t.mm = (s.mm.mark fs .used).copyDataPages F := rfl
  have hpid : (t.task new).pid = s.pid := by
    rw [hchild]
    rfl
  have hlive : t.Live new := by
    rw [Kernel.Live, hpid]
    exact h.system.sched.counter.le
  have hframe : ∀ j, ((t.task new).phPages j).toNat = frameNat (F j) := by
    intro j
    rw [ht.frames.toNat_eq hlive, hchild]
    rfl
  have hmapping : ∀ j : Fin numPagData,
      t.mm.pagusrTable (pagLogInitDataP0 + j.val) = s.mm.pagusrTable (pagLogInitDataP0 + j.val) := by
    intro j
    rw [ht.table.data, h.table.data]
  have hfs : t.fs = s.fs.forkRefs (s.fds s.cur) := by
    have hfds : (s.enter regs).fds s.cur = s.fds s.cur := (s.sameFiles_enter regs).fds s.cur
    show s.fs.forkRefs ((s.enter regs).fds s.cur) = _
    rw [hfds]
  constructor
  case fresh => exact ⟨hdead, hlive, rfl⟩
  case data =>
    intro j k hk
    rw [hframe, hmem]
    exact copyDataPages_load hnd hlen hfree j (h.used j) hk
  case mapping => exact hmapping
  case sees =>
    intro j k hk
    rw [load_data _ j hk, load_data _ j hk, hmapping j, hmem,
      copyDataPages_frame_of_used hlen hfree (h.used j)]
  case others =>
    intro v hv
    have hvn : v ≠ new := by
      rintro rfl
      exact hdead hv
    obtain ⟨hpid', hpages⟩ := hold v hvn
    refine ⟨?_, hpages, fun j => ?_⟩
    · rw [Kernel.Live, hpid']
      exact hv
    · obtain ⟨f, hf, -, -, hused⟩ := h.frames.valid v hv j
      rw [hf, Int.toNat_natCast, hmem]
      exact copyDataPages_frame_of_used hlen hfree hused
  case unmapped =>
    intro j
    have hown : OwnPages t D none := ⟨ht.data, .inl rfl⟩
    rw [ht.frames.toNat_eq hlive]
    exact hown.unmapped ht.system.sched ht.frames ht.table hlive (Ne.symm hne) j
  case regs =>
    rw [hchild, ht', Kernel.afterFork_stack hne, Function.update_idem]
    exact Kernel.child_stack s regs F
  case fds =>
    rw [Kernel.fds, hchild]
    exact (s.sameFiles_enter regs).fds s.cur
  case refs =>
    intro w
    rw [hfs, Kernel.forkRefs_refs]
  case nRefs =>
    intro f
    rw [hfs, Kernel.forkRefs_nRefs]
  case sems =>
    intro n
    rw [hchild]
    rfl
  case pid =>
    intro v hv hvn
    rw [hpid, (hold v hvn).1]
    exact (hp v).ne
  case tail =>
    rw [ht.system.sched.runqueue_eq, h.system.sched.runqueue_eq, Function.update_self]
  case result =>
    rw [hpid]
    exact Kernel.result_setEax _ _

end

/-- **A fork makes a faithful, separate copy**, in every run from boot in which each `sys_exit`
finds two processes to run. -/
theorem fork_copies {E : Env} {es : List Event} {s t : Kernel} {e : Event} (h : ExitRun E.boot es s)
    (hfork : e.act = .fork) (hst : s.step e = .ok t) (hok : 0 ≤ t.result) :
    ∃ new, ForkCopies s t new := by
  obtain ⟨Q, D, W, hs⟩ := ExitRun.dataPages h
  rcases Kernel.step_fork_cases hs.system.sched.cur_live hfork hst with rfl | ⟨new, hdead, hne,
    ⟨mm, -, rfl⟩ | ⟨l, mm, hmm, hlen, rfl⟩⟩
  · rw [Kernel.result_setEax] at hok
    exact absurd hok (by decide)
  · rw [Kernel.result_setEax] at hok
    exact absurd hok (by decide)
  · exact ⟨new, hs.forkCopies (ExitRun.pidsBelow h) hdead hne hmm hlen e.regs⟩

/-- A fork that brings a slot to life returns the next pid. -/
lemma Kernel.result_of_fork {s t : Kernel} {e : Event} (hlive : s.Live s.cur) (hfork : e.act = .fork)
    (hst : s.step e = .ok t) {a : Slot} (ha : ¬ s.Live a) (ht : t.Live a) : t.result = s.pid := by
  have hq := s.quiet_enter e.regs
  rcases Kernel.step_fork_cases hlive hfork hst with rfl | ⟨new, hdead, hne, ⟨mm, -, rfl⟩ |
    ⟨l, mm, hmm, hlen, rfl⟩⟩
  · rw [(Kernel.quiet_setEax _ _).sched.live_iff, hq.sched.live_iff] at ht
    exact absurd ht ha
  · rw [(Kernel.quiet_setEax _ _).sched.live_iff] at ht
    have han : a ≠ new := by
      rintro rfl
      simp [Kernel.Live, Kernel.forkFailed] at ht
    refine absurd ((hq.sched.live_iff a).mp ?_) ha
    simpa [Kernel.Live, Kernel.forkFailed, han] using ht
  · exact Kernel.result_setEax _ _

theorem fork_copies_at_boot :
    ∃ t, zeroEnv.boot.step (plain .fork) = .ok t ∧ ∃ new, ForkCopies zeroEnv.boot t new := by
  obtain ⟨t, hrun, hs, -⟩ := zeroEnv.boot_fork
  obtain ⟨t', -, hst, hnil⟩ := run_cons_iff.mp hrun
  obtain rfl : t' = t := run_nil_iff.mp hnil
  have hdead : ¬ zeroEnv.boot.Live 1 := by
    rw [Kernel.Live, zeroEnv.boot_task_pid]
    decide
  have hlive : t'.Live 1 := by
    rw [hs.sched.live_iff]
    exact ⟨.runqueue, by simp⟩
  have hres := Kernel.result_of_fork zeroEnv.boot_systemOk.sched.cur_live rfl hst hdead hlive
  refine ⟨t', hst, fork_copies (.nil _) rfl hst ?_⟩
  rw [hres]
  decide

/-! ## A child in a slot that is still linked -/

/-- A signal of task 0 puts the process that has ended and waits on the runqueue. -/
lemma Ended.semSignal {s : Kernel} (h : Ended s) (hn : (s.sem 0).init = 1)
    (hrq : Ring s.links .runqueue [.task 0]) (hwait : Ring s.links (.waitList 0) [.task 1]) :
    ∃ t, s.step (plain (.semSignal 0)) = .ok t ∧ Ended t ∧ t.cur = s.cur ∧
      Ring t.links .runqueue [.task 0, .task 1] := by
  have hq := s.quiet_enter fun _ => 0
  have hended : Ended (s.enter fun _ => 0) := h.ofQuiet hq (.change rfl rfl)
  set w := (s.enter fun _ => 0).woken 1 0 with hw
  have hset := w.quiet_setEax 0
  have hwoken : Ended w := by
    refine hended.congr (fun v => ?_) (.change rfl rfl) ?_ rfl rfl
    · rw [hw, Kernel.woken, Kernel.updTask_task]
      split_ifs with hv
      · rw [hv]
      · rfl
    · rw [hw, Kernel.woken, Kernel.updTask_task_ne _ _ (by decide)]
  have hd := Kernel.dispatch_semSignal_wakes (s := s) (e := plain (.semSignal 0)) rfl
    Kernel.semId_zero hn hwait.next_head
  have hdel : Ring (s.links.listDel (.task 1)) .runqueue [.task 0] :=
    hwait.listDel_frame (List.mem_singleton_self _) hrq (by simp)
  refine ⟨w.setEax 0, Kernel.step_of_done hd, hwoken.ofQuiet hset (.change rfl rfl),
    hset.sched.cur, ?_⟩
  rw [hset.sched.links]
  exact hdel.listAddTail (by decide)

/-- The copy of the parent's node over the last node of the runqueue closes it into a loop. -/
lemma runqueue_of_copyNode {s t : Kernel} (hrq : Ring s.links .runqueue [.task 0, .task 1])
    (hlinks : t.links =
      (s.links.copyNode (.task 0) (.task 1)).listAddTail (.task 1) .runqueue) :
    t.runqueue = 0 :: List.replicate 37 1 := by
  -- the links of the head and of task 0 are as before
  set L := s.links.copyNode (.task 0) (.task 1) with hL
  have hlast : L.prev .runqueue = some (.task 1) := hrq.prev_head
  have hloop := Links.next_listAddTail_of_last hlast
  have hfirst : (L.listAddTail (.task 1) .runqueue).next .runqueue = some (.task 0) := by
    rw [Links.next_listAddTail hlast, if_neg (by decide), if_neg (by decide)]
    exact hrq.next_head
  have hsecond : (L.listAddTail (.task 1) .runqueue).next (.task 0) = some (.task 1) := by
    rw [Links.next_listAddTail hlast, if_neg (by decide), if_neg (by decide)]
    exact hrq.2.2.1.1
  have hwalk : (L.listAddTail (.task 1) .runqueue).walk .runqueue numNodes (some (.task 0)) =
      .task 0 :: List.replicate 37 (.task 1) := by
    show (if Node.task 0 = .runqueue then [] else
      .task 0 :: (L.listAddTail (.task 1) .runqueue).walk .runqueue 37 _) = _
    rw [if_neg (by decide), hsecond, Links.walk_of_loop (by decide) hloop]
  rw [Kernel.runqueue, Kernel.queue, hlinks, Links.members, hfirst, hwalk]
  rfl

/-- The child of task 0 ends and waits on a semaphore of its own, and task 0 signals it. -/
def endedWaits : List Event :=
  childRuns ++ [plain (.exit 0)] ++
    [plain (.semInit 0 0), plain (.semWait 0), plain (.semSignal 0)]

/-- A fork of task 0 then makes its child in the slot that is still linked. -/
theorem fork_into_linked_slot :
    ∃ s t, AnyRun zeroEnv.boot endedWaits s ∧ s.Live s.cur ∧ s.step (plain .fork) = .ok t ∧
      0 ≤ t.result ∧ ¬ ∃ new, ForkCopies s t new := by
  obtain ⟨s₃, hrun₃, hend₃, hcur₃, -, hsem₃, hrq₃, hwait₃⟩ := blockedAfterExit_run
  obtain ⟨s₄, hst₄, hend₄, hcur₄, hrq₄⟩ :=
    hend₃.semSignal (by rw [hsem₃, Function.update_self]) hrq₃ hwait₃
  have hcur : s₄.cur = 0 := hcur₄.trans hcur₃
  obtain ⟨t, hst, -, -, -, hres, -, -, hlinks⟩ := hend₄.fork hcur
  refine ⟨s₄, t, hrun₃.snoc trivial hst₄, ?_, hst, ?_, ?_⟩
  · rw [Kernel.Live, hcur, hend₄.task0]
  · rw [Kernel.result, hres]
    exact hend₄.counter.le
  · rintro ⟨new, hcopies⟩
    have hbefore : s₄.runqueue = [0, 1] := queue_eq_of_ring hrq₄
    have htail := hcopies.tail
    rw [runqueue_of_copyNode hrq₄ hlinks, hbefore] at htail
    simpa using congrArg List.length htail

end ZeOS
