import ZeOS.Invariants.Processes
import ZeOS.Invariants.Paging
import Mathlib.Logic.Relation

/-!
# What one step can do

Every step of the system, from a state in which user code runs, is a sequence of *calm*
effects, which leave the processor with the running process, and then at most one
*handover*, which gives it to the first process of the runqueue.  `Calm` and `Handover` list
the effects, with everything that the later invariants need to know of each, and
`step_effects` says that a step is made of them.  An invariant of the system is then proved
with one case for each effect and no look at the code.

Both relations carry the lists of processes beside the kernel, so that an effect can say how
they change.  A calm effect is labelled with the action it belongs to.
-/

namespace ZeOS

open IntrusiveList Relation

/-- A kernel with the lists of processes that its links carry. -/
abbrev Config := Kernel × (Node → List Slot)

/-! ## Ownership of semaphores -/

/-- A semaphore in use has one owner among the live processes, and the others have none. -/
structure Owned (s : Kernel) : Prop where
  inUse : ∀ u n, s.Live u → (s.task u).ownedSems n = 1 → (s.sem n).init = 1
  owner : ∀ n, (s.sem n).init = 1 → ∃! u, s.Live u ∧ (s.task u).ownedSems n = 1

/-! ## Effects -/

/-- The entries to the kernel that may touch the keyboard. -/
def Action.OnKeyboard : Action → Prop
  | .read .. | .key .. => True
  | _ => False

/-- An effect that leaves the running process running. -/
inductive Calm (act : Action) : Config → Config → Prop
  /-- Nothing that the scheduler or the page table sees. -/
  | quiet {s t : Kernel} {Q : Node → List Slot} (h : Quiet s t) : Calm act (s, Q) (t, Q)
  /-- The first process of a queue goes back to the runqueue; from a wait list it does so
  because of a signal. -/
  | wake {s : Kernel} {Q : Node → List Slot} {a : Node} {u : Slot} {rest : List Slot}
      (hQ : Q a = u :: rest) (ha : a ≠ .runqueue)
      (hact : ∀ n, a = .waitList n → ∃ k, act = .semSignal k ∧ Kernel.semId k = some n)
      (hkbd : a = .keyboardQueue → act.OnKeyboard) :
      Calm act (s, Q)
        ({ s with links := (s.links.listDel (.task u)).listAddTail (.task u) .runqueue },
          Pool.moved Q u a .runqueue)
  /-- A wait or a signal changes the counter. -/
  | count {s : Kernel} {Q : Node → List Slot} {k : ℤ} {n : SemId} (c : ℕ)
      (hk : Kernel.semId k = some n) (hact : act = .semWait k ∨ act = .semSignal k) :
      Calm act (s, Q) (s.updSem n fun m => { m with count := c }, Q)
  /-- A semaphore is taken into use. -/
  | init {s t : Kernel} {Q : Node → List Slot} {k : ℤ} {n : SemId} {v : ℕ}
      (hk : Kernel.semId k = some n) (hact : act = .semInit k v) (hn : (s.sem n).init ≠ 1)
      (hsame : t = { s with links := t.links, task := t.task, sem := t.sem })
      (hsem : t.sem = Function.update s.sem n { count := v % 2 ^ 32, init := 1 })
      (htask : ∀ u, t.task u = if u = s.cur then
        { s.task u with ownedSems := Function.update (s.task u).ownedSems n 1 } else s.task u)
      (hok : SchedOk t Q) : Calm act (s, Q) (t, Q)
  /-- Semaphores that the running process owns are destroyed. -/
  | release {s t : Kernel} {Q : Node → List Slot} {ns : List SemId}
      (hown : ∀ n ∈ ns, (s.sem n).init = 1 ∧ s.current.ownedSems n = 1)
      (hrel : Released s t ns (waitersOf Q ns)) (hok : SchedOk t (releasedQueues Q ns)) :
      Calm act (s, Q) (t, releasedQueues Q ns)
  /-- Keyboard input is delivered. -/
  | deliver {s t : Kernel} {Q : Node → List Slot} {b : Slot} {size : ℤ}
      (hact : act.OnKeyboard) (hb : s.Live b) (hwho : b = s.cur ∨ b ∈ Q .keyboardQueue)
      (h : s.copyFromCircBuffer b size = .ret () t) : Calm act (s, Q) (t, Q)
  /-- The delivery of keyboard input meets a page that is not present. -/
  | deliverFault {s t : Kernel} {Q : Node → List Slot} {b : Slot} {size : ℤ}
      (hact : act.OnKeyboard) (hb : s.Live b) (hwho : b = s.cur ∨ b ∈ Q .keyboardQueue)
      (h : s.copyFromCircBuffer b size = .fault t) : Calm act (s, Q) (t, Q)
  /-- A child is created. -/
  | fork {s : Kernel} {Q : Node → List Slot} {new : Slot} {frames : List ℤ} {mm : Memory}
      (hact : act = .fork) (hnew : (s.task new).pid < 0)
      (hmm : s.mm.allocFrames s.current.phPages (List.finRange numPagData) [] = (some frames, mm))
      (hlen : frames.length = numPagData) :
      Calm act (s, Q) (s.forked new (fun j => frames.getD j.val 0) mm,
        Function.update Q .runqueue (Q .runqueue ++ [new]))
  /-- There are no frames for a child. -/
  | forkFailed {s : Kernel} {Q : Node → List Slot} {new : Slot} {mm : Memory}
      (hnew : (s.task new).pid < 0)
      (hmm : s.mm.allocFrames s.current.phPages (List.finRange numPagData) [] = (none, mm)) :
      Calm act (s, Q) (s.forkFailed new mm, Q)

/-- An effect that gives the processor to the first process of the runqueue. -/
inductive Handover (act : Action) : Config → Config → Prop
  /-- The running process goes to the end of a list; to a wait list it does so because of a
  wait. -/
  | move {s : Kernel} {Q : Node → List Slot} {h : Node} {u : Slot} {rest : List Slot} (i : ℤ)
      (ha : s.Active h) (h0 : s.cur = 0 → h = .runqueue)
      (hact : ∀ n, h = .waitList n → ∃ k, act = .semWait k ∧ Kernel.semId k = some n)
      (hkbd : h = .keyboardQueue → act.OnKeyboard) (hne : u ≠ s.cur)
      (hQ : Pool.moved Q s.cur .runqueue h .runqueue = u :: rest) :
      Handover act (s, Q) ((s.moveCurrent h).handTo i u,
        Pool.moved Q s.cur .runqueue h)
  /-- The running process, which owns no semaphore any more, ends. -/
  | exit {s : Kernel} {Q : Node → List Slot} {u : Slot} {rest : List Slot} (h0 : s.cur ≠ 0)
      (hfree : ∀ n, s.current.ownedSems n ≠ 1)
      (hQ : leftQueues Q .runqueue = u :: rest) :
      Handover act (s, Q) (s.leave.handTo 0 u, leftQueues Q)

/-- A sequence of calm effects. -/
abbrev Calms (act : Action) : Config → Config → Prop := ReflTransGen (Calm act)

/-- Calm effects, and then perhaps a handover. -/
def Turn (act : Action) (x y : Config) : Prop :=
  Calms act x y ∨ ∃ z, Calms act x z ∧ Handover act z y

/-! ## Keyboard delivery -/

namespace Kernel

/-- Memory with the frames of task `b` mapped above the data pages. -/
def windowOf (s : Kernel) (b : Slot) : Memory :=
  s.mm.setSsPags Memory.windowPage (s.task b).phPages (List.finRange numPagData)

/-- The three ends of `copy_from_circ_buffer`. -/
lemma copyFromCircBuffer_cases (s : Kernel) (b : Slot) (size : ℤ) :
    (size > circularSize ∧ s.copyFromCircBuffer b size = .stop .overrun) ∨
    (size ≤ circularSize ∧ ∃ mm,
      (((s.windowOf b).copyToUser ((s.task b).buffer + numPagData * pageSize)
          (circBytes s.kbd size.toNat) = .ret 0 mm ∧
        s.copyFromCircBuffer b size = .ret () { s with
          mm := mm.setSsPags Memory.windowPage s.current.phPages (List.finRange numPagData) }) ∨
      ((s.windowOf b).copyToUser ((s.task b).buffer + numPagData * pageSize)
          (circBytes s.kbd size.toNat) = .fault mm ∧
        s.copyFromCircBuffer b size = .fault ({ s with mm := mm }.updTask b fun k =>
          { k with buffer := k.buffer + numPagData * pageSize })))) := by
  unfold copyFromCircBuffer
  by_cases hsize : size > circularSize
  · exact .inl ⟨hsize, by simp only [if_pos hsize]⟩
  · refine .inr ⟨by omega, ?_⟩
    simp only [if_neg hsize]
    rcases (s.windowOf b).copyToUser_ret_or_fault ((s.task b).buffer + numPagData * pageSize)
      (circBytes s.kbd size.toNat) with ⟨mm, h⟩ | ⟨mm, h⟩
    · refine ⟨mm, .inl ⟨h, ?_⟩⟩
      simp only [updTask_task_self, updTask_mm, updTask_kbd]
      rw [windowOf] at h
      rw [h]
      by_cases hb : s.cur = b <;> simp [updTask, current, hb]
    · refine ⟨mm, .inr ⟨h, ?_⟩⟩
      simp only [updTask_task_self, updTask_mm, updTask_kbd]
      rw [windowOf] at h
      rw [h]
      rfl

/-- A delivery leaves the queues alone. -/
lemma sameSched_copyFromCircBuffer (s : Kernel) (b : Slot) (size : ℤ) :
    (s.copyFromCircBuffer b size).Ends (SameSched s) := by
  rcases s.copyFromCircBuffer_cases b size with ⟨-, h⟩ | ⟨-, mm, ⟨-, h⟩ | ⟨-, h⟩⟩ <;> rw [h]
  · simp [Outcome.Ends]
  · exact SameSched.other rfl rfl rfl rfl rfl
  · have hmm : SameSched s { s with mm := mm } := .other rfl rfl rfl rfl rfl
    exact hmm.trans (.updTask _ b _ rfl rfl rfl)

/-- Also when it meets a page that is not present. -/
lemma sameSched_delivered {s t : Kernel} {b : Slot} {size : ℤ}
    (h : s.copyFromCircBuffer b size = .ret () t ∨ s.copyFromCircBuffer b size = .fault t) :
    SameSched s t := by
  have hends := s.sameSched_copyFromCircBuffer b size
  rcases h with h | h
  · rw [h] at hends
    exact hends
  · rw [h] at hends
    exact hends

end Kernel

/-! ## Effects keep the queue invariant -/

lemma Calm.schedOk {act : Action} {x y : Config} (h : Calm act x y) (hs : SchedOk x.1 x.2) :
    SchedOk y.1 y.2 := by
  cases h with
  | quiet h => exact hs.congr h.sched
  | @wake s Q a u rest hQ ha hact hkbd =>
    have hu : u ∈ Q a := by
      rw [hQ]
      exact List.mem_cons_self ..
    exact hs.wake hu ha
  | count c hk hact => exact hs.updSem _ (fun m => { m with count := c }) (fun m => rfl)
  | init hk hact hn hsame hsem htask hok => exact hok
  | release hown hrel hok => exact hok
  | deliver hact hb hwho h =>
    have hsame := Kernel.sameSched_delivered (.inl h)
    exact hs.congr hsame
  | deliverFault hact hb hwho h =>
    have hsame := Kernel.sameSched_delivered (.inr h)
    exact hs.congr hsame
  | fork hact hnew hmm hlen => exact hs.forked hnew _ _
  | forkFailed hnew hmm => exact hs.forkFailed hnew _

lemma Calms.schedOk {act : Action} {x y : Config} (h : Calms act x y) (hs : SchedOk x.1 x.2) :
    SchedOk y.1 y.2 := by
  induction h with
  | refl => exact hs
  | tail _ hc ih => exact hc.schedOk ih

lemma Handover.schedOk {act : Action} {x y : Config} (h : Handover act x y)
    (hs : SchedOk x.1 x.2) : SchedOk y.1 y.2 := by
  cases h with
  | @move s Q h u rest i ha h0 hact hkbd hne hQ =>
    have hl := hs.toLinked.move hs.cur_mem ha h0
    refine ⟨hl.switchTo u i, ?_⟩
    simp only [hQ]
    rfl
  | @exit s Q u rest h0 hfree hQ =>
    refine ⟨(hs.leave h0).switchTo u 0, ?_⟩
    simp only [hQ]
    rfl

lemma Calm.cur_eq {act : Action} {x y : Config} (h : Calm act x y) : y.1.cur = x.1.cur := by
  cases h with
  | quiet h => exact h.sched.cur
  | wake => rfl
  | count => rfl
  | init hk hact hn hsame => rw [hsame]
  | release hown hrel => exact hrel.cur
  | deliver hact hb hwho h =>
    have hsame := Kernel.sameSched_delivered (.inl h)
    exact hsame.cur
  | deliverFault hact hb hwho h =>
    have hsame := Kernel.sameSched_delivered (.inr h)
    exact hsame.cur
  | fork => rfl
  | forkFailed => rfl

/-- Only a fork brings a slot to life. -/
lemma Calm.live {act : Action} {x y : Config} (h : Calm act x y) {a : Slot} (hy : y.1.Live a)
    (hx : ¬ x.1.Live a) : act = .fork := by
  cases h with
  | quiet h => exact absurd ((h.sched.live_iff a).mp hy) hx
  | wake => exact absurd hy hx
  | count => exact absurd hy hx
  | @init s t Q k n v hk hact hn hsame hsem htask hok =>
    refine absurd ?_ hx
    simp only [Kernel.Live, htask a] at hy
    split_ifs at hy <;> exact hy
  | release hown hrel hok =>
    refine absurd ?_ hx
    simpa only [Kernel.Live, hrel.task_pid a] using hy
  | deliver hact hb hwho h =>
    have hsame := Kernel.sameSched_delivered (.inl h)
    exact absurd ((hsame.live_iff a).mp hy) hx
  | deliverFault hact hb hwho h =>
    have hsame := Kernel.sameSched_delivered (.inr h)
    exact absurd ((hsame.live_iff a).mp hy) hx
  | fork hact => exact hact
  | @forkFailed s Q new mm hnew hmm =>
    refine absurd ?_ hx
    by_cases ha : a = new
    · subst ha
      simp [Kernel.Live, Kernel.forkFailed] at hy
    · simpa [Kernel.Live, Kernel.forkFailed, ha] using hy

lemma Handover.live {act : Action} {x y : Config} (h : Handover act x y) {a : Slot}
    (hy : y.1.Live a) : x.1.Live a := by
  cases h with
  | move => simpa [Kernel.Live, Kernel.moveCurrent] using hy
  | @exit s Q u rest h0 hfree hQ =>
    by_cases ha : a = s.cur
    · subst ha
      simp [Kernel.Live, Kernel.leave_eq] at hy
    · simpa [Kernel.Live, Kernel.leave_eq, ha] using hy

lemma Turn.live {act : Action} {x y : Config} (h : Turn act x y) {a : Slot} (hy : y.1.Live a)
    (hx : ¬ x.1.Live a) : act = .fork := by
  have hcalms : ∀ {z : Config}, Calms act x z → z.1.Live a → act = .fork := by
    intro z hz
    induction hz with
    | refl => exact fun hl => absurd hl hx
    | @tail y z _ hc ih =>
      intro hl
      by_cases hm : y.1.Live a
      · exact ih hm
      · exact hc.live hl hm
  rcases h with h | ⟨z, hc, hh⟩
  · exact hcalms h hy
  · exact hcalms hc (hh.live hy)

/-! ## The effects of each routine -/

/-- The effects of kernel code that ends in an outcome: a return and a fault are calm, a switch
ends with a handover by a process that goes on living and has not changed the contents of memory,
and no list head is ever taken for a task. -/
def Outcome.Effects {α : Type} (act : Action) (x : Config) : Outcome Kernel α → Prop
  | .ret _ t => ∃ Q, Calms act x (t, Q)
  | .fault t => ∃ Q, Calms act x (t, Q)
  | .switched t => ∃ z Q, Calms act x z ∧ Handover act z (t, Q) ∧ t.Live z.1.cur ∧
      t.mm.frame = x.1.mm.frame
  | .stop r => r ≠ .notATask

section

variable {s : Kernel} {Q : Node → List Slot} {act : Action}

lemma Outcome.Effects.head {α : Type} {x y : Config} {o : Outcome Kernel α}
    (h : o.Effects act y) (hc : Calm act x y) (hframe : y.1.mm.frame = x.1.mm.frame) :
    o.Effects act x := by
  cases o with
  | ret a t =>
    obtain ⟨Q, hs⟩ := h
    exact ⟨Q, .head hc hs⟩
  | switched t =>
    obtain ⟨z, Q, hs, hh, hl, hmm⟩ := h
    exact ⟨z, Q, .head hc hs, hh, hl, hmm.trans hframe⟩
  | fault t =>
    obtain ⟨Q, hs⟩ := h
    exact ⟨Q, .head hc hs⟩
  | stop r => exact h

/-- A process that goes to the end of a list goes on living. -/
lemma Kernel.live_moveCurrent {h : Node} {u : Slot} {i : ℤ} (hl : s.Live s.cur) :
    ((s.moveCurrent h).handTo i u).Live s.cur := by
  simpa [Kernel.Live, Kernel.moveCurrent] using hl

lemma Kernel.handTo_frame (s : Kernel) (i : ℤ) (u : Slot) : (s.handTo i u).mm.frame = s.mm.frame :=
  Memory.setSsPags_frame ..

lemma Calms.quiet {t : Kernel} (h : Quiet s t) : Calms act (s, Q) (t, Q) := .single (.quiet h)

lemma Kernel.quiet_tick (s : Kernel) : Quiet s s.tick := by
  have h : Quiet s { s with tics := s.tics + 1, left4current := s.left4current - 1 } :=
    .other rfl rfl rfl rfl rfl rfl
  exact h.trans (.updTask _ s.cur _ rfl rfl rfl)

lemma Kernel.quiet_showTime (s : Kernel) : Quiet s s.showTime := by
  unfold Kernel.showTime
  simp only
  split_ifs
  all_goals exact .other rfl rfl rfl rfl rfl rfl

/-- The clock either is quiet or moves the running process to the end of the runqueue. -/
lemma SchedOk.clockRoutine_effects (hs : SchedOk s Q) : s.clockRoutine.Effects act (s, Q) := by
  have hok := hs.congr s.quiet_tick.sched
  rw [Kernel.clockRoutine]
  rcases Kernel.schedule_cases hok 1 with ⟨t, ht, hq, -⟩ | ⟨-, -, u, rest, htail, ht, -⟩
  · rw [ht]
    exact ⟨Q, .quiet (s.quiet_tick.trans (hq.trans t.quiet_showTime))⟩
  · rw [ht]
    have hQ : Pool.moved Q s.tick.cur .runqueue .runqueue .runqueue = u :: (rest ++ [s.tick.cur]) := by
      rw [Pool.moved_apply, if_pos rfl, if_pos rfl, hok.erase_cur, htail]
      rfl
    have hne : u ≠ s.tick.cur := hok.ne_cur_of_mem_tail (by simp [htail])
    exact ⟨(s.tick, Q), _, .quiet s.quiet_tick,
      .move 1 trivial (fun _ => rfl) (by simp) (by simp) hne hQ, Kernel.live_moveCurrent hok.cur_live,
      Kernel.handTo_frame ..⟩

lemma Kernel.quiet_setPending (s : Kernel) (size : ℤ) : Quiet s (s.setPending size) :=
  .updTask s s.cur _ rfl rfl rfl

/-- The parts of a blocking read that the scheduler does not see, apart from the move. -/
def Kernel.noteRead (s : Kernel) (size : ℤ) : Kernel :=
  { s with kbd := { s.kbd with start := s.kbd.p } }.updTask s.cur fun k =>
    { k with size := size, stack := Function.update k.stack eaxIndex size }

lemma Kernel.waitForChars_eq (s : Kernel) (size : ℤ) :
    s.waitForChars size = (s.noteRead size).moveCurrent .keyboardQueue := rfl

lemma Kernel.quiet_noteRead (s : Kernel) (size : ℤ) : Quiet s (s.noteRead size) := by
  have h : Quiet s { s with kbd := { s.kbd with start := s.kbd.p } } :=
    .other rfl rfl rfl rfl rfl rfl
  exact h.trans (.updTask _ s.cur _ rfl rfl rfl)

/-- A read from the keyboard is served, blocks or is refused. -/
lemma SchedOk.sysReadKeyboard_effects (hs : SchedOk s Q) (hact : act.OnKeyboard) (size : ℤ) :
    (s.sysReadKeyboard size).Effects act (s, Q) := by
  have hq := s.quiet_setPending size
  have hok := hs.congr hq.sched
  rw [Kernel.sysReadKeyboard]
  split_ifs with hnow hpid
  · rcases (s.setPending size).copyFromCircBuffer_cases (s.setPending size).cur size with
      ⟨-, h⟩ | ⟨-, mm, ⟨-, h⟩ | ⟨-, h⟩⟩
    · rw [h]
      simp [Outcome.Effects]
    · have hd : Calm act (s.setPending size, Q) _ := .deliver hact hok.cur_live (.inl rfl) h
      rw [h]
      refine ⟨Q, .head (.quiet hq) (.head hd (.single (.quiet ?_)))⟩
      exact .other rfl rfl rfl rfl rfl rfl
    · have hd : Calm act (s.setPending size, Q) _ := .deliverFault hact hok.cur_live (.inl rfl) h
      rw [h]
      exact ⟨Q, .head (.quiet hq) (.single hd)⟩
  · have hq' := hq.trans ((s.setPending size).quiet_noteRead size)
    have hok' := hs.congr hq'.sched
    have h0 : ((s.setPending size).noteRead size).cur ≠ 0 :=
      fun hc => hpid (hok.current_pid_eq_zero_iff.mpr hc)
    obtain ⟨u, rest, hQ, hsw, -⟩ := hok'.block (h := .keyboardQueue) (α := ℤ) trivial h0
    rw [Kernel.waitForChars_eq, hsw]
    exact ⟨_, _, .quiet hq', .move 0 trivial (fun hc => absurd hc h0) (by simp) (fun _ => hact)
      (hok'.ne_cur_of_moved (by simp) hQ) hQ, Kernel.live_moveCurrent hok'.cur_live,
      Kernel.handTo_frame ..⟩
  · exact ⟨Q, .quiet hq⟩

lemma Kernel.quiet_putChar (s : Kernel) (c : Byte) : Quiet s (s.putChar c) :=
  .other rfl rfl rfl rfl rfl rfl

lemma Kernel.quiet_emptyCircBuffer (s : Kernel) : Quiet s s.emptyCircBuffer :=
  .other rfl rfl rfl rfl rfl rfl

/-- A key press for a blocked reader delivers what is there, and wakes the reader with its last
character. -/
lemma SchedOk.serveReader_effects (hs : SchedOk s Q) (hact : act.OnKeyboard) {b : Slot}
    {rest : List Slot} (hQ : Q .keyboardQueue = b :: rest) : (s.serveReader b).Effects act (s, Q) := by
  have hlive : s.Live b := (hs.live_iff b).mpr ⟨.keyboardQueue, by simp [hQ]⟩
  set s₁ := s.updTask b fun k => { k with pendingChars := k.pendingChars - 1 } with hs₁
  have hq : Quiet s s₁ := .updTask s b _ rfl rfl rfl
  have hlive₁ : s₁.Live b := (hq.sched.live_iff b).mpr hlive
  have hwho : b = s₁.cur ∨ b ∈ Q .keyboardQueue := .inr (by simp [hQ])
  rw [Kernel.serveReader, ← hs₁]
  split_ifs with hlast hfull
  · rcases s₁.copyFromCircBuffer_cases b (s₁.task b).size with ⟨-, h⟩ | ⟨-, mm, ⟨-, h⟩ | ⟨-, h⟩⟩
    · rw [h]
      simp [Outcome.Effects]
    · have hd : Calm act (s₁, Q) _ := .deliver hact hlive₁ hwho h
      rw [h]
      refine ⟨Pool.moved Q b .keyboardQueue .runqueue, .head (.quiet hq) (.head hd ?_)⟩
      refine .head (.quiet (Kernel.quiet_emptyCircBuffer _)) (.single ?_)
      exact .wake hQ (by simp) (by simp) (fun _ => hact)
    · have hd : Calm act (s₁, Q) _ := .deliverFault hact hlive₁ hwho h
      rw [h]
      exact ⟨Q, .head (.quiet hq) (.single hd)⟩
  · rcases s₁.copyFromCircBuffer_cases b circularSize with ⟨-, h⟩ | ⟨-, mm, ⟨-, h⟩ | ⟨-, h⟩⟩
    · rw [h]
      simp [Outcome.Effects]
    · have hd : Calm act (s₁, Q) _ := .deliver hact hlive₁ hwho h
      rw [h]
      refine ⟨Q, .head (.quiet hq) (.head hd (.single (.quiet ?_)))⟩
      exact Quiet.trans (.updTask _ b _ rfl rfl rfl) (Kernel.quiet_emptyCircBuffer _)
    · have hd : Calm act (s₁, Q) _ := .deliverFault hact hlive₁ hwho h
      rw [h]
      exact ⟨Q, .head (.quiet hq) (.single hd)⟩
  · exact ⟨Q, .quiet hq⟩

/-- `keyboard_routine` ignores the release of a key, prints a character that nobody waits for, and
serves the first blocked reader. -/
lemma SchedOk.keyboardRoutine_cases (hs : SchedOk s Q) (scan beyond : Byte) :
    (Kernel.isMake scan = false ∧ s.keyboardRoutine scan beyond = .ret () s) ∨
    (Kernel.isMake scan = true ∧
      ((Q .keyboardQueue = [] ∧ s.keyboardRoutine scan beyond =
          .ret () { s.putChar (Kernel.charOf scan beyond) with
            screen := s.screen.printc (Kernel.charOf scan beyond) }) ∨
        ∃ b rest, Q .keyboardQueue = b :: rest ∧ s.keyboardRoutine scan beyond =
          (s.putChar (Kernel.charOf scan beyond)).serveReader b)) := by
  have hr := (hs.congr (s.quiet_putChar (Kernel.charOf scan beyond)).sched).pool.ring
    .keyboardQueue trivial
  rw [Kernel.keyboardRoutine]
  simp only
  by_cases hmake : Kernel.isMake scan = true
  · rw [if_pos hmake]
    refine .inr ⟨hmake, ?_⟩
    cases hQ : Q .keyboardQueue with
    | nil =>
      rw [hQ] at hr
      rw [if_pos (hr.listEmpty_iff.mpr rfl)]
      exact .inl ⟨rfl, rfl⟩
    | cons b rest =>
      rw [hQ, List.map_cons] at hr
      have hemp : ¬ (s.putChar (Kernel.charOf scan beyond)).links.listEmpty .keyboardQueue = true := by
        rw [hr.listEmpty_iff]
        simp
      rw [if_neg hemp, hr.next_head]
      exact .inr ⟨b, rest, rfl, rfl⟩
  · rw [if_neg hmake]
    exact .inl ⟨by simpa using hmake, rfl⟩

lemma SchedOk.keyboardRoutine_effects (hs : SchedOk s Q) (hact : act.OnKeyboard)
    (scan beyond : Byte) :
    (s.keyboardRoutine scan beyond).Effects act (s, Q) := by
  have hq := s.quiet_putChar (Kernel.charOf scan beyond)
  rcases hs.keyboardRoutine_cases scan beyond with ⟨-, h⟩ | ⟨-, ⟨-, h⟩ | ⟨b, rest, hQ, h⟩⟩
  · rw [h]
    exact ⟨Q, .refl⟩
  · rw [h]
    exact ⟨Q, .quiet (hq.trans (.other rfl rfl rfl rfl rfl rfl))⟩
  · rw [h]
    exact ((hs.congr hq.sched).serveReader_effects hact hQ).head (.quiet hq) rfl

/-! ## The effects of a step -/

/-- The effects of a step up to a call of `sys_exit`; a step without one ends no process. -/
def Phase.Effects (act : Action) (x : Config) : Phase → Prop
  | .done t => ∃ Q, Calms act x (t, Q) ∨
      ∃ z, Calms act x z ∧ Handover act z (t, Q) ∧ t.Live z.1.cur ∧ t.mm.frame = x.1.mm.frame
  | .exits _ t => ∃ Q, Calms act x (t, Q)
  | .stop r => r ≠ .notATask

lemma Kernel.pageFaultRoutine_effects {t : Kernel} (h : ∃ Q', Calms act (s, Q) (t, Q'))
    (cause : ExitCause) : (t.pageFaultRoutine cause).Effects act (s, Q) := by
  obtain ⟨Q', hc⟩ := h
  unfold Kernel.pageFaultRoutine
  split_ifs
  · exact ⟨Q', hc.tail (.quiet t.quiet_printFault)⟩
  · simp [Phase.Effects]

lemma Kernel.finish_effects {o : Outcome Kernel ℤ} (h : o.Effects act (s, Q)) :
    (finish o).Effects act (s, Q) := by
  cases o with
  | ret r t =>
    obtain ⟨Q', hc⟩ := h
    exact ⟨Q', .inl (hc.tail (.quiet (t.quiet_setEax r)))⟩
  | switched t =>
    obtain ⟨z, Q', hc, hh, hl⟩ := h
    exact ⟨Q', .inr ⟨z, hc, hh, hl⟩⟩
  | fault t => exact pageFaultRoutine_effects h _
  | stop r => exact h

lemma Kernel.finishInt_effects {o : Outcome Kernel Unit} (h : o.Effects act (s, Q)) :
    (finishInt o).Effects act (s, Q) := by
  cases o with
  | ret r t =>
    obtain ⟨Q', hc⟩ := h
    exact ⟨Q', .inl hc⟩
  | switched t =>
    obtain ⟨z, Q', hc, hh, hl⟩ := h
    exact ⟨Q', .inr ⟨z, hc, hh, hl⟩⟩
  | fault t => exact pageFaultRoutine_effects h _
  | stop r => exact h

lemma Kernel.finishExcept_effects {t : Kernel} {Q' : Node → List Slot} (r : ℤ)
    (h : Calms act (s, Q) (t, Q')) : (finishExcept (.ok (r, t))).Effects act (s, Q) :=
  ⟨Q', .inl (h.tail (.quiet (t.quiet_setEax r)))⟩

lemma Phase.Effects.head {x y : Config} {p : Phase} (h : p.Effects act y) (hc : Calm act x y)
    (hframe : y.1.mm.frame = x.1.mm.frame) : p.Effects act x := by
  cases p with
  | done t =>
    obtain ⟨Q, hs | ⟨z, hs, hh, hl, hmm⟩⟩ := h
    · exact ⟨Q, .inl (.head hc hs)⟩
    · exact ⟨Q, .inr ⟨z, .head hc hs, hh, hl, hmm.trans hframe⟩⟩
  | exits c t =>
    obtain ⟨Q, hs⟩ := h
    exact ⟨Q, .head hc hs⟩
  | stop r => exact h

lemma Phase.Effects.turn {x : Config} {t : Kernel} (h : (Phase.done t).Effects act x) :
    ∃ Q, Turn act x (t, Q) := by
  obtain ⟨Q, hs | ⟨z, hs, hh, -⟩⟩ := h
  · exact ⟨Q, .inl hs⟩
  · exact ⟨Q, .inr ⟨z, hs, hh⟩⟩

lemma SchedOk.sysFork_effects (hs : SchedOk s Q) :
    (Kernel.finishExcept s.sysFork).Effects .fork (s, Q) := by
  rcases s.sysFork_cases hs.cur_live with ⟨-, h⟩ | ⟨new, hnew, -, ⟨mm, hmm, h⟩ |
    ⟨frames, mm, hmm, ⟨hlen, h⟩ | ⟨-, h⟩⟩⟩
  · rw [h]
    exact Kernel.finishExcept_effects _ .refl
  · rw [h]
    exact Kernel.finishExcept_effects _ (.single (.forkFailed (Kernel.srchFreeTask_some hnew) hmm))
  · rw [h]
    exact Kernel.finishExcept_effects _ (.single (.fork rfl (Kernel.srchFreeTask_some hnew) hmm hlen))
  · rw [h]
    simp [Kernel.finishExcept, Phase.Effects]

/-- The three ends of a step that calls `sys_fork`: no slot is free, or no frames are, or the child
is made and the caller gets its pid. -/
lemma Kernel.step_fork_cases {t : Kernel} {e : Event} (hlive : s.Live s.cur) (hfork : e.act = .fork)
    (hst : s.step e = .ok t) :
    t = (s.enter e.regs).setEax (-eAgain) ∨
    ∃ new, ¬ s.Live new ∧ s.cur ≠ new ∧
      ((∃ mm, s.mm.allocFrames s.current.phPages (List.finRange numPagData) [] = (none, mm) ∧
        t = ((s.enter e.regs).forkFailed new mm).setEax (-eAgain)) ∨
      (∃ frames mm,
        s.mm.allocFrames s.current.phPages (List.finRange numPagData) [] = (some frames, mm) ∧
        frames.length = numPagData ∧
        t = ((s.enter e.regs).forked new (fun j => frames.getD j.val 0) mm).setEax s.pid)) := by
  have hq := s.quiet_enter e.regs
  have hcur : (s.enter e.regs).Live (s.enter e.regs).cur := by
    rw [hq.sched.live_iff, hq.sched.cur]
    exact hlive
  have hpages : (s.enter e.regs).current.phPages = s.current.phPages := by
    rw [Kernel.current, hq.sched.pages, hq.sched.cur]
  have hdead : ∀ {new}, (s.enter e.regs).srchFreeTask = some new → ¬ s.Live new := by
    intro new hnew hl
    have := Kernel.srchFreeTask_some hnew
    rw [hq.sched.pid] at this
    exact absurd hl (not_le.mpr this)
  have hend : ∀ r u, (s.enter e.regs).sysFork = .ok (r, u) → t = u.setEax r := by
    intro r u hu
    rw [Kernel.step, Kernel.dispatch, hfork] at hst
    simp only [hu, Kernel.finishExcept, Except.ok.injEq] at hst
    exact hst.symm
  rcases (s.enter e.regs).sysFork_cases hcur with ⟨-, hf⟩ | ⟨new, hnew, hne, ⟨mm, hmm, hf⟩ |
    ⟨frames, mm, hmm, ⟨hlen, hf⟩ | ⟨-, hf⟩⟩⟩
  · exact .inl (hend _ _ hf)
  · rw [hpages] at hmm
    exact .inr ⟨new, hdead hnew, hne, .inl ⟨mm, hmm, hend _ _ hf⟩⟩
  · rw [hpages] at hmm
    exact .inr ⟨new, hdead hnew, hne, .inr ⟨frames, mm, hmm, hlen, hend _ _ hf⟩⟩
  · rw [Kernel.step, Kernel.dispatch, hfork] at hst
    simp [hf, Kernel.finishExcept] at hst

lemma SchedOk.sysSemInit_effects (hs : SchedOk s Q) (k : ℤ) (v : ℕ) :
    (Kernel.finishExcept (.ok (s.sysSemInit k v))).Effects (.semInit k v) (s, Q) := by
  cases hk : Kernel.semId k with
  | none =>
    rw [Kernel.sysSemInit, hk]
    exact Kernel.finishExcept_effects _ .refl
  | some n =>
    by_cases hn : (s.sem n).init = 1
    · rw [Kernel.sysSemInit, hk]
      simp only [if_pos hn]
      exact Kernel.finishExcept_effects _ .refl
    · obtain ⟨t, ht, hok, hsame, hsem, htask⟩ := hs.sysSemInit hk hn v
      rw [ht]
      exact Kernel.finishExcept_effects _ (.single (.init hk rfl hn hsame hsem htask hok))

lemma SchedOk.sysSemWait_effects (hs : SchedOk s Q) (k : ℤ) :
    (s.sysSemWait k).Effects (.semWait k) (s, Q) := by
  by_cases hpid : s.current.pid = 0
  · rw [Kernel.sysSemWait, if_pos hpid]
    exact ⟨Q, .refl⟩
  · have h0 : s.cur ≠ 0 := fun hc => hpid (hs.current_pid_eq_zero_iff.mpr hc)
    cases hk : Kernel.semId k with
    | none =>
      rw [Kernel.sysSemWait, if_neg hpid, hk]
      exact ⟨Q, .refl⟩
    | some n =>
      by_cases hn : (s.sem n).init = 1
      · rcases hs.sysSemWait hk hn h0 with ⟨-, t, ht, -, rfl⟩ | ⟨-, u, rest, hQ, ht, -⟩
        · rw [ht]
          exact ⟨Q, .single (.count _ hk (.inl rfl))⟩
        · rw [ht]
          refine ⟨_, _, .refl, .move 0 hn (fun hc => absurd hc h0) ?_ (by simp)
            (hs.ne_cur_of_moved (by simp) hQ) hQ, Kernel.live_moveCurrent hs.cur_live,
            Kernel.handTo_frame ..⟩
          intro m hm
          rw [Node.waitList.injEq] at hm
          exact ⟨k, rfl, hm ▸ hk⟩
      · rw [Kernel.sysSemWait, if_neg hpid, hk]
        simp only [ne_eq, hn, not_false_eq_true, if_true]
        exact ⟨Q, .refl⟩

lemma SchedOk.sysSemSignal_effects (hs : SchedOk s Q) (k : ℤ) :
    (Kernel.finishExcept (s.sysSemSignal k)).Effects (.semSignal k) (s, Q) := by
  cases hk : Kernel.semId k with
  | none =>
    rw [Kernel.sysSemSignal, hk]
    exact Kernel.finishExcept_effects _ .refl
  | some n =>
    by_cases hn : (s.sem n).init = 1
    · rcases hs.sysSemSignal hk hn with ⟨-, t, ht, -, rfl⟩ | ⟨u, rest, hQ, ht, -, -⟩
      · rw [ht]
        exact Kernel.finishExcept_effects _ (.single (.count _ hk (.inr rfl)))
      · rw [ht]
        refine Kernel.finishExcept_effects _ (.head (.wake hQ (by simp) ?_ (by simp)) (.single (.quiet ?_)))
        · intro m hm
          rw [Node.waitList.injEq] at hm
          exact ⟨k, rfl, hm ▸ hk⟩
        · exact .updTask _ u _ rfl rfl rfl
    · rw [Kernel.sysSemSignal, hk]
      simp only [ne_eq, hn, not_false_eq_true, if_true]
      exact Kernel.finishExcept_effects _ .refl

lemma SchedOk.sysSemDestroy_effects (hs : SchedOk s Q) (k : ℤ) :
    (Kernel.finishExcept (s.sysSemDestroy k)).Effects (.semDestroy k) (s, Q) := by
  cases hk : Kernel.semId k with
  | none =>
    rw [Kernel.sysSemDestroy, hk]
    exact Kernel.finishExcept_effects _ .refl
  | some n =>
    by_cases hn : (s.sem n).init = 1
    · by_cases hown : s.current.ownedSems n = 1
      · obtain ⟨t, ht, hok, hrel⟩ := hs.sysSemDestroy hk hn hown
        rw [ht]
        refine Kernel.finishExcept_effects _ (.single (.release ?_ ?_ hok))
        · simpa using ⟨hn, hown⟩
        · simpa [waitersOf] using hrel
      · rw [Kernel.sysSemDestroy, hk]
        simp only [ne_eq, hn, not_true_eq_false, hown, not_false_eq_true, if_true, if_false]
        exact Kernel.finishExcept_effects _ .refl
    · rw [Kernel.sysSemDestroy, hk]
      simp only [ne_eq, hn, not_false_eq_true, if_true]
      exact Kernel.finishExcept_effects _ .refl

lemma SchedOk.sysRead_effects (hs : SchedOk s Q) (hact : act.OnKeyboard) (fd : ℤ) (buffer : ℕ)
    (size : ℤ) :
    (s.sysRead fd buffer size).Effects act (s, Q) := by
  rcases s.sysRead_cases fd buffer size with h | ⟨-, -, -, h⟩
  · cases ho : s.sysRead fd buffer size with
    | ret r t =>
      rw [ho] at h
      exact ⟨Q, .quiet h⟩
    | switched t =>
      rw [ho] at h
      exact h.elim
    | fault t =>
      rw [ho] at h
      exact ⟨Q, .quiet h⟩
    | stop r =>
      rw [ho] at h
      exact h
  · have hq : Quiet s (s.updTask s.cur fun k => { k with size := size, buffer := buffer }) :=
      .updTask s s.cur _ rfl rfl rfl
    rw [h]
    exact ((hs.congr hq.sched).sysReadKeyboard_effects hact size).head (.quiet hq) rfl

/-- Every entry to the kernel is made of effects, up to a call of `sys_exit`. -/
lemma SchedOk.dispatch_effects (hs : SchedOk s Q) (e : Event) :
    (s.dispatch e).Effects e.act (s, Q) := by
  have henter := s.quiet_enter e.regs
  have hok := hs.congr henter.sched
  by_cases hquiet : Kernel.QuietAction e.act
  · have h := s.quiet_dispatch e hquiet
    cases hp : s.dispatch e with
    | done t =>
      rw [hp] at h
      exact ⟨Q, .inl (.quiet h)⟩
    | exits c t =>
      rw [hp] at h
      exact ⟨Q, .quiet h⟩
    | stop r =>
      rw [hp] at h
      exact h
  · unfold Kernel.dispatch
    cases hact : e.act with
    | read fd buffer size =>
      have hon : (Action.read fd buffer size).OnKeyboard := trivial
      exact (Kernel.finish_effects (hok.sysRead_effects hon fd buffer size)).head (.quiet henter) rfl
    | fork => exact hok.sysFork_effects.head (.quiet henter) rfl
    | semInit k v => exact (hok.sysSemInit_effects k v).head (.quiet henter) rfl
    | semWait k => exact (Kernel.finish_effects (hok.sysSemWait_effects k)).head (.quiet henter) rfl
    | semSignal k => exact (hok.sysSemSignal_effects k).head (.quiet henter) rfl
    | semDestroy k => exact (hok.sysSemDestroy_effects k).head (.quiet henter) rfl
    | clock => exact (Kernel.finishInt_effects hok.clockRoutine_effects).head (.quiet henter) rfl
    | key scan beyond =>
      have hon : (Action.key scan beyond).OnKeyboard := trivial
      exact (Kernel.finishInt_effects (hok.keyboardRoutine_effects hon scan beyond)).head
        (.quiet henter) rfl
    | _ =>
      rw [hact] at hquiet
      exact absurd trivial hquiet

end

/-! ## Ownership is kept -/

namespace Owned

variable {s t : Kernel}

/-- Ownership only reads the pids, the semaphores in use and the owned semaphores. -/
lemma congr (ho : Owned s) (hinit : ∀ n, (t.sem n).init = (s.sem n).init)
    (hlive : ∀ u, t.Live u ↔ s.Live u)
    (howned : ∀ u, s.Live u → (t.task u).ownedSems = (s.task u).ownedSems) : Owned t := by
  have hiff : ∀ u n, t.Live u ∧ (t.task u).ownedSems n = 1 ↔
      s.Live u ∧ (s.task u).ownedSems n = 1 := by
    intro u n
    rw [hlive u]
    constructor
    · rintro ⟨hu, hn⟩
      exact ⟨hu, by rw [← howned u hu]; exact hn⟩
    · rintro ⟨hu, hn⟩
      exact ⟨hu, by rw [howned u hu]; exact hn⟩
  constructor
  · intro u n hu hn
    obtain ⟨hu', hn'⟩ := (hiff u n).mp ⟨hu, hn⟩
    rw [hinit n]
    exact ho.inUse u n hu' hn'
  · intro n hn
    rw [hinit n] at hn
    simpa only [hiff] using ho.owner n hn

lemma ofSameSched (ho : Owned s) (h : SameSched s t) : Owned t :=
  ho.congr (fun n => by rw [h.sem]) h.live_iff (fun u _ => h.owned u)

/-- The running process takes a semaphore that nobody owns. -/
lemma init (ho : Owned s) {n : SemId} {v : ℕ} (hcur : s.Live s.cur) (hn : (s.sem n).init ≠ 1)
    (hsem : t.sem = Function.update s.sem n { count := v, init := 1 })
    (htask : ∀ u, t.task u = if u = s.cur then
      { s.task u with ownedSems := Function.update (s.task u).ownedSems n 1 } else s.task u) :
    Owned t := by
  have hlive : ∀ u, t.Live u ↔ s.Live u := by
    intro u
    rw [Kernel.Live, htask u]
    split_ifs <;> exact Iff.rfl
  have howned : ∀ u m, s.Live u → ((t.task u).ownedSems m = 1 ↔
      (u = s.cur ∧ m = n) ∨ (m ≠ n ∧ (s.task u).ownedSems m = 1)) := by
    intro u m hu
    have hnone : (s.task u).ownedSems n ≠ 1 := fun h => hn (ho.inUse u n hu h)
    rw [htask u]
    by_cases hm : m = n
    · subst hm
      by_cases hc : u = s.cur <;> simp [hc, hnone]
    · by_cases hc : u = s.cur <;> simp [hc, hm]
  constructor
  · intro u m hu hm
    rw [hlive u] at hu
    rw [hsem]
    rcases (howned u m hu).mp hm with ⟨-, rfl⟩ | ⟨hmn, hm⟩
    · rw [Function.update_self]
    · rw [Function.update_of_ne hmn]
      exact ho.inUse u m hu hm
  · intro m hm
    by_cases hmn : m = n
    · subst hmn
      refine ⟨s.cur, ⟨(hlive _).mpr hcur, (howned _ m hcur).mpr (.inl ⟨rfl, rfl⟩)⟩, ?_⟩
      rintro u ⟨hu, hum⟩
      rcases (howned u m ((hlive u).mp hu)).mp hum with ⟨h, -⟩ | ⟨h, -⟩
      · exact h
      · exact absurd rfl h
    · rw [hsem, Function.update_of_ne hmn] at hm
      obtain ⟨u, ⟨hu, hum⟩, huniq⟩ := ho.owner m hm
      refine ⟨u, ⟨(hlive u).mpr hu, (howned u m hu).mpr (.inr ⟨hmn, hum⟩)⟩, ?_⟩
      rintro w ⟨hw, hwm⟩
      have hw' := (hlive w).mp hw
      rcases (howned w m hw').mp hwm with ⟨-, h⟩ | ⟨-, h⟩
      · exact absurd h hmn
      · exact huniq w ⟨hw', h⟩

/-- The running process gives up semaphores that it owns. -/
lemma release (ho : Owned s) (hcur : s.Live s.cur) {ns : List SemId} {us : List Slot}
    (hown : ∀ n ∈ ns, (s.sem n).init = 1 ∧ s.current.ownedSems n = 1)
    (hrel : Released s t ns us) : Owned t := by
  have hlive : ∀ u, t.Live u ↔ s.Live u := by
    intro u
    rw [Kernel.Live, hrel.task_pid u]
  -- the owner of a destroyed semaphore is the running process
  have howner : ∀ u n, s.Live u → n ∈ ns → (s.task u).ownedSems n = 1 → u = s.cur := by
    intro u n hu hn hun
    obtain ⟨hin, hc⟩ := hown n hn
    obtain ⟨w, -, huniq⟩ := ho.owner n hin
    rw [huniq u ⟨hu, hun⟩, huniq s.cur ⟨hcur, hc⟩]
  have howned : ∀ u n, s.Live u → ((t.task u).ownedSems n = 1 ↔
      n ∉ ns ∧ (s.task u).ownedSems n = 1) := by
    intro u n hu
    rw [hrel.task u]
    by_cases hn : n ∈ ns
    · by_cases hc : u = s.cur
      · simp [hn, hc]
      · have hno : (s.task u).ownedSems n ≠ 1 := fun h => hc (howner u n hu hn h)
        simp [hn, hc, hno]
    · simp [hn]
  constructor
  · intro u n hu hun
    rw [hlive u] at hu
    obtain ⟨hn, hun⟩ := (howned u n hu).mp hun
    rw [hrel.sem n, if_neg hn]
    exact ho.inUse u n hu hun
  · intro n hn
    by_cases hns : n ∈ ns
    · rw [hrel.sem n, if_pos hns] at hn
      simp at hn
    · rw [hrel.sem n, if_neg hns] at hn
      obtain ⟨u, ⟨hu, hun⟩, huniq⟩ := ho.owner n hn
      refine ⟨u, ⟨(hlive u).mpr hu, (howned u n hu).mpr ⟨hns, hun⟩⟩, ?_⟩
      rintro w ⟨hw, hwn⟩
      have hw' := (hlive w).mp hw
      exact huniq w ⟨hw', ((howned w n hw').mp hwn).2⟩

/-- A process that owns nothing appears or disappears. -/
lemma addOrDrop (ho : Owned s) {a : Slot} (hsem : t.sem = s.sem)
    (htask : ∀ u, u ≠ a → (t.task u).pid = (s.task u).pid ∧
      (t.task u).ownedSems = (s.task u).ownedSems)
    (hs : s.Live a → ∀ n, (s.task a).ownedSems n ≠ 1)
    (ht : t.Live a → ∀ n, (t.task a).ownedSems n ≠ 1) : Owned t := by
  have hiff : ∀ u n, t.Live u ∧ (t.task u).ownedSems n = 1 ↔
      s.Live u ∧ (s.task u).ownedSems n = 1 := by
    intro u n
    by_cases hu : u = a
    · subst hu
      constructor
      · rintro ⟨h, hn⟩
        exact absurd hn (ht h n)
      · rintro ⟨h, hn⟩
        exact absurd hn (hs h n)
    · rw [Kernel.Live, (htask u hu).1, (htask u hu).2]
  constructor
  · intro u n hu hn
    obtain ⟨hu', hn'⟩ := (hiff u n).mp ⟨hu, hn⟩
    rw [hsem]
    exact ho.inUse u n hu' hn'
  · intro n hn
    rw [hsem] at hn
    simpa only [hiff] using ho.owner n hn

end Owned

lemma Calm.owned {act : Action} {x y : Config} (h : Calm act x y) (hs : SchedOk x.1 x.2)
    (ho : Owned x.1) : Owned y.1 := by
  cases h with
  | quiet h => exact ho.ofSameSched h.sched
  | wake => exact ho.congr (fun n => rfl) (fun u => Iff.rfl) (fun u _ => rfl)
  | @count s Q k n c =>
    refine ho.congr (fun m => ?_) (fun u => Iff.rfl) (fun u _ => rfl)
    by_cases hm : m = n <;> simp [Kernel.updSem, hm]
  | init hk hact hn hsame hsem htask hok => exact ho.init hs.cur_live hn hsem htask
  | release hown hrel hok => exact ho.release hs.cur_live hown hrel
  | deliver hact hb hwho h =>
    have hsame := Kernel.sameSched_delivered (.inl h)
    exact ho.ofSameSched hsame
  | deliverFault hact hb hwho h =>
    have hsame := Kernel.sameSched_delivered (.inr h)
    exact ho.ofSameSched hsame
  | @fork s Q new frames mm hact hnew hmm hlen =>
    refine ho.addOrDrop (a := new) rfl (fun u hu => by simp [Kernel.forked, hu]) ?_ ?_
    · intro hl
      exact absurd hl (not_le.mpr hnew)
    · intro _ n
      simp [Kernel.forked, Kernel.child]
  | @forkFailed s Q new mm hnew hmm =>
    refine ho.addOrDrop (a := new) rfl (fun u hu => by simp [Kernel.forkFailed, hu]) ?_ ?_
    · intro hl
      exact absurd hl (not_le.mpr hnew)
    · intro hl
      simp [Kernel.Live, Kernel.forkFailed] at hl

lemma Handover.owned {act : Action} {x y : Config} (h : Handover act x y) (ho : Owned x.1) :
    Owned y.1 := by
  cases h with
  | move =>
    exact ho.congr (fun n => rfl) (fun u => by simp [Kernel.Live, Kernel.moveCurrent])
      (fun u _ => by simp [Kernel.moveCurrent])
  | @exit s Q u rest h0 hfree hQ =>
    refine ho.addOrDrop (a := s.cur) (by simp [Kernel.leave_eq]) ?_ (fun _ => hfree) ?_
    · intro v hv
      simp [Kernel.leave_eq, hv]
    · intro hl
      simp [Kernel.Live, Kernel.leave_eq] at hl

lemma Calms.owned {act : Action} {x y : Config} (h : Calms act x y) (hs : SchedOk x.1 x.2)
    (ho : Owned x.1) : Owned y.1 := by
  induction h with
  | refl => exact ho
  | tail hcs hc ih => exact hc.owned (Calms.schedOk hcs hs) ih

lemma Calms.cur_eq {act : Action} {x y : Config} (h : Calms act x y) : y.1.cur = x.1.cur := by
  induction h with
  | refl => rfl
  | tail _ hc ih => exact hc.cur_eq.trans ih

/-! ## The whole step -/

/-- The invariant of the states in which user code runs. -/
structure SystemOk (s : Kernel) (Q : Node → List Slot) : Prop where
  sched : SchedOk s Q
  owned : Owned s

lemma Calms.systemOk {act : Action} {x y : Config} (h : Calms act x y) (hs : SystemOk x.1 x.2) :
    SystemOk y.1 y.2 :=
  ⟨h.schedOk hs.sched, h.owned hs.sched hs.owned⟩

lemma Turn.systemOk {act : Action} {x y : Config} (h : Turn act x y) (hs : SystemOk x.1 x.2) :
    SystemOk y.1 y.2 := by
  rcases h with h | ⟨z, hc, hh⟩
  · exact h.systemOk hs
  · have hz := hc.systemOk hs
    exact ⟨hh.schedOk hz.sched, hh.owned hz.owned⟩

/-- The state in which a process other than task 0 calls `schedule` to end, from the one in
which it calls `sys_exit`: the semaphores it owns have been destroyed. -/
lemma SystemOk.sysExit_cases {s : Kernel} {Q : Node → List Slot} (hs : SystemOk s Q)
    (h0 : s.cur ≠ 0) :
    ∃ t Q', Kernel.destroyOwned (List.finRange semMaxValue) s = .ok t ∧
      Q' = releasedQueues Q (s.ownedAmong (List.finRange semMaxValue)) ∧
      Released s t (s.ownedAmong (List.finRange semMaxValue))
        (waitersOf Q (s.ownedAmong (List.finRange semMaxValue))) ∧
      (∀ act, Calm act (s, Q) (t, Q')) ∧ SystemOk t Q' ∧
      (∀ n, t.current.ownedSems n ≠ 1) ∧ Linked t.leave (leftQueues Q') ∧
      ((2 ≤ t.leave.runqueue.length ∧ ∃ u rest, leftQueues Q' .runqueue = u :: rest ∧
          s.sysExit = .switched (t.leave.handTo 0 u) ∧
          ∀ act, Handover act (t, Q') (t.leave.handTo 0 u, leftQueues Q')) ∨
        (t.leave.runqueue.length < 2 ∧ ∃ t', s.sysExit = .ret () t' ∧ Quiet t.leave t')) := by
  have hin : SchedOk.OwnedInUse s := fun n hn => hs.owned.inUse _ n hs.sched.cur_live hn
  obtain ⟨t, ht, hexit, hrel, hok, hleave⟩ := hs.sched.exitPoint hin h0
  have hown : ∀ n ∈ s.ownedAmong (List.finRange semMaxValue),
      (s.sem n).init = 1 ∧ s.current.ownedSems n = 1 := by
    intro n hn
    have hn1 : s.current.ownedSems n = 1 := by
      simpa using (List.mem_filter.mp hn).2
    exact ⟨hin n hn1, hn1⟩
  have hcalm : ∀ act, Calm act (s, Q)
      (t, releasedQueues Q (s.ownedAmong (List.finRange semMaxValue))) :=
    fun act => .release hown hrel hok
  have hfree : ∀ n, t.current.ownedSems n ≠ 1 := by
    intro n
    rw [Kernel.current, hrel.task, hrel.cur]
    by_cases hn : s.current.ownedSems n = 1
    · simp [Kernel.ownedAmong, hn]
    · simp [Kernel.ownedAmong, hn]
  refine ⟨t, _, ht, rfl, hrel, hcalm, ⟨hok, ?_⟩, hfree, hleave, ?_⟩
  · exact Calm.owned (hcalm .clock) hs.sched hs.owned
  have h0' : t.cur ≠ 0 := by
    rw [hrel.cur]
    exact h0
  have hleft : t.leave.left4current ≤ 0 := by
    rw [Kernel.leave_eq]
  have hpid : t.leave.current.pid = -1 := by
    simp [Kernel.leave_eq, Kernel.current]
  rw [hleave.runqueue_eq, hexit]
  rcases Kernel.schedule_exited hleave hleft hpid 0 with ⟨hlen, u, rest, hQ, hsw, -⟩ | ⟨hlen, t', ht', hq⟩
  · exact .inl ⟨hlen, u, rest, hQ, hsw, fun act => .exit h0' hfree hQ⟩
  · exact .inr ⟨hlen, t', ht', hq⟩

/-- **A step is made of effects**, when every `sys_exit` finds two processes to run; and no list
head is taken for a task. -/
theorem SystemOk.step_effects {s : Kernel} {Q : Node → List Slot} (hs : SystemOk s Q) (e : Event)
    (hg : s.ExitsFindTwo e) :
    (∀ t, s.step e = .ok t → ∃ Q', Turn e.act (s, Q) (t, Q')) ∧
      s.step e ≠ .error .notATask := by
  have heff := hs.sched.dispatch_effects e
  unfold Kernel.step
  cases hp : s.dispatch e with
  | done t =>
    rw [hp] at heff
    simp only [Except.ok.injEq, reduceCtorEq, not_false_eq_true, and_true, ne_eq]
    rintro t' rfl
    exact heff.turn
  | stop r =>
    rw [hp] at heff
    have hr : r ≠ .notATask := heff
    simpa using hr
  | exits c s₁ =>
    rw [hp] at heff
    obtain ⟨Q₁, hc⟩ := heff
    have hs₁ := hc.systemOk hs
    simp only
    by_cases h0 : s₁.cur = 0
    · have hpid : s₁.current.pid = 0 := hs₁.sched.current_pid_eq_zero_iff.mpr h0
      rw [Kernel.sysExit, if_neg (by simpa using hpid)]
      cases c with
      | «syscall» eax =>
        simp only [Kernel.afterExit, Except.ok.injEq, ne_eq, reduceCtorEq, not_false_eq_true, and_true]
        rintro t rfl
        exact ⟨Q₁, .inl (hc.tail (.quiet (s₁.quiet_setEax eax)))⟩
      | userFault =>
        simp only [Kernel.afterExit, Except.ok.injEq, ne_eq, reduceCtorEq, not_false_eq_true, and_true]
        rintro t rfl
        exact ⟨Q₁, .inl hc⟩
      | kernelFault => simp [Kernel.afterExit]
    · have hpid : s₁.current.pid ≠ 0 := fun hp => h0 (hs₁.sched.current_pid_eq_zero_iff.mp hp)
      obtain ⟨t, Q', ht, -, -, hrel, -, -, -, ⟨-, u, rest, -, hsw, hh⟩ | ⟨hlen, -⟩⟩ :=
        hs₁.sysExit_cases h0
      · rw [hsw]
        simp only [Kernel.afterExit, Except.ok.injEq, ne_eq, reduceCtorEq, not_false_eq_true, and_true]
        rintro t' rfl
        exact ⟨_, .inr ⟨_, hc.tail (hrel _), hh _⟩⟩
      · have := hg c s₁ t hp hpid ht
        omega

/-- One step keeps the invariant. -/
lemma SystemOk.step {s t : Kernel} {Q : Node → List Slot} {e : Event} (hs : SystemOk s Q)
    (hg : s.ExitsFindTwo e) (h : s.step e = .ok t) : ∃ Q', SystemOk t Q' := by
  obtain ⟨Q', hturn⟩ := (hs.step_effects e hg).1 t h
  exact ⟨Q', hturn.systemOk hs⟩

end ZeOS
