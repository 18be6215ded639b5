import ZeOS.Invariants.Keyboard

/-!
# The circular buffer of the keyboard

The buffer holds the characters that were typed and not yet read, `circ_chars` of them from
`start` on, and the next one goes to `p`.  Two places in the code break this: `keyboard_routine`
counts a character also when the buffer is full and nobody waits, and `sys_read_keyboard` sets
`start = p` for every read that has to wait, also when characters are in the buffer.  The second
one also makes the read of a blocked process longer than what it still misses and what is in the
buffer together, so that `copy_from_circ_buffer` is called with more than its local array holds.

`RingInv` is the invariant: the buffer is a ring, and the first blocked reader has what is in the
buffer to come and what it misses.  It is kept by every step that avoids the two places
(`RingInv.step`), and keeps the copies within the array (`ring_kept`).
-/

namespace ZeOS

open IntrusiveList GuardedRun

/-- The three variables of the circular buffer fit together. -/
structure Keyboard.RingOk (k : Keyboard) : Prop where
  chars : 0 ≤ k.circChars ∧ k.circChars ≤ circularSize
  start : 0 ≤ k.start ∧ k.start < circularSize
  p : 0 ≤ k.p ∧ k.p < circularSize
  eq : k.p = (k.start + k.circChars) % circularSize

namespace Kernel

variable {s t : Kernel} {e : Event} {Q : Node → List Slot}

/-- The reads of the blocked processes `us`, with `c` characters in the buffer for the first. -/
structure ReadersOk (s : Kernel) (c : ℤ) (us : List Slot) : Prop where
  first : ∀ b ∈ us.head?, (s.task b).size = (s.task b).pendingChars + c
  rest : ∀ u ∈ us.tail, (s.task u).size = (s.task u).pendingChars

/-- The buffer is a ring, and what the first reader has to come is what it misses and what is in
the buffer. -/
structure RingInv (s : Kernel) : Prop where
  ring : s.kbd.RingOk
  readers : s.ReadersOk s.kbd.circChars s.keyboardQueue

lemma ReadersOk.congr {c : ℤ} {us : List Slot} (h : s.ReadersOk c us)
    (hsize : ∀ u ∈ us, (t.task u).size = (s.task u).size)
    (hpend : ∀ u ∈ us, (t.task u).pendingChars = (s.task u).pendingChars) : t.ReadersOk c us := by
  refine ⟨fun b hb => ?_, fun u hu => ?_⟩
  · rw [hsize b (List.mem_of_mem_head? hb), hpend b (List.mem_of_mem_head? hb)]
    exact h.first b hb
  · rw [hsize u (List.mem_of_mem_tail hu), hpend u (List.mem_of_mem_tail hu)]
    exact h.rest u hu

lemma readersOk_nil (s : Kernel) (c : ℤ) : s.ReadersOk c [] := by
  constructor <;> simp

/-- Once the buffer is empty, what every reader has to come is what it misses. -/
lemma readersOk_zero {us : List Slot} (h : ∀ u ∈ us, (s.task u).size = (s.task u).pendingChars) :
    s.ReadersOk 0 us := by
  refine ⟨fun b hb => ?_, fun u hu => h u (List.mem_of_mem_tail hu)⟩
  rw [add_zero]
  exact h b (List.mem_of_mem_head? hb)

lemma ReadersOk.of_zero {us : List Slot} (h : s.ReadersOk 0 us) {u : Slot} (hu : u ∈ us) :
    (s.task u).size = (s.task u).pendingChars := by
  cases us with
  | nil => simp at hu
  | cons b rest =>
    rcases List.mem_cons.mp hu with rfl | hu
    · have := h.first u rfl
      rwa [add_zero] at this
    · exact h.rest u hu

lemma size_eq_of_reader {u : Slot} (h : (t.task u).reader = (s.task u).reader) :
    (t.task u).size = (s.task u).size ∧ (t.task u).pendingChars = (s.task u).pendingChars := by
  simp only [Task.reader, Prod.mk.injEq] at h
  exact ⟨h.2.1, h.1⟩

lemma RingInv.congr (h : s.RingInv) (hsame : SameKeyboard s t) : t.RingInv := by
  refine ⟨hsame.kbd ▸ h.ring, ?_⟩
  rw [hsame.kbd, hsame.queue]
  exact h.readers.congr (fun u hu => (size_eq_of_reader (hsame.reader u hu)).1)
    (fun u hu => (size_eq_of_reader (hsame.reader u hu)).2)

/-- Nothing that the keyboard sees, with the same links. -/
lemma RingInv.of_sameData (h : s.RingInv) (hdata : SameData s t) (hlinks : t.links = s.links) :
    t.RingInv := by
  refine h.congr ⟨hdata.kbd, ?_, fun u _ => hdata.reader u⟩
  unfold keyboardQueue queue
  rw [hlinks]

/-- Kernel code leaves off with the invariant, and never overruns the array of a copy. -/
def RingOutcome {α : Type} : Outcome Kernel α → Prop
  | .ret _ t => t.RingInv
  | .switched t => t.RingInv
  | .fault t => t.RingInv
  | .stop r => r ≠ .overrun

/-- The same for a phase. -/
def RingPhase : Phase → Prop
  | .done t => t.RingInv
  | .exits _ t => t.RingInv
  | .stop r => r ≠ .overrun

lemma ringPhase_fault (h : s.RingInv) (cause : ExitCause) : RingPhase (s.pageFaultRoutine cause) := by
  unfold pageFaultRoutine
  split_ifs
  · exact h.of_sameData s.sameData_printFault rfl
  · simp [RingPhase]

lemma ringPhase_finish {o : Outcome Kernel ℤ} (h : RingOutcome o) : RingPhase (finish o) := by
  cases o with
  | ret r t => exact RingInv.of_sameData h (t.sameData_setEax r) rfl
  | switched t => exact h
  | fault t => exact ringPhase_fault h _
  | stop r => exact h

lemma ringPhase_finishInt {o : Outcome Kernel Unit} (h : RingOutcome o) : RingPhase (finishInt o) := by
  cases o with
  | ret r t => exact h
  | switched t => exact h
  | fault t => exact ringPhase_fault h _
  | stop r => exact h

/-! ## Reads -/

/-- The running process is not among the blocked readers. -/
lemma ReadersOk.updTask_cur (hs : SchedOk s Q) {c : ℤ} (f : Task → Task)
    (h : s.ReadersOk c s.keyboardQueue) : (s.updTask s.cur f).ReadersOk c s.keyboardQueue := by
  have hother : ∀ u ∈ s.keyboardQueue, (s.updTask s.cur f).task u = s.task u :=
    fun u hu => updTask_task_ne _ _ (reader_ne_cur hs hu).1
  exact h.congr (fun u hu => by rw [hother u hu]) (fun u hu => by rw [hother u hu])

lemma RingInv.updTask_cur (h : s.RingInv) (hs : SchedOk s Q) (f : Task → Task) :
    (s.updTask s.cur f).RingInv :=
  ⟨h.ring, h.readers.updTask_cur hs f⟩

/-- A read takes `n` characters out of the ring. -/
lemma ringOk_consume {k : Keyboard} (h : k.RingOk) {n : ℤ} (h0 : 0 ≤ n)
    (hn : n ≤ k.circChars) :
    ({ k with circChars := k.circChars - n, start := (k.start + n) % circularSize } :
      Keyboard).RingOk := by
  obtain ⟨⟨hc0, hc5⟩, ⟨hs0, hs5⟩, hp, heq⟩ := h
  change k.circChars ≤ 5 at hc5
  change k.start < 5 at hs5
  change k.p = (k.start + k.circChars) % 5 at heq
  refine ⟨⟨?_, ?_⟩, ⟨?_, ?_⟩, hp, ?_⟩
  · show 0 ≤ k.circChars - n
    omega
  · show k.circChars - n ≤ 5
    omega
  · show 0 ≤ (k.start + n) % 5
    omega
  · show (k.start + n) % 5 < 5
    omega
  · show k.p = ((k.start + n) % 5 + (k.circChars - n)) % 5
    omega

/-- A ring with no characters. -/
lemma ringOk_empty {k : Keyboard} (h : 0 ≤ k.p ∧ k.p < circularSize) :
    ({ k with circChars := 0, start := k.p } : Keyboard).RingOk := by
  obtain ⟨hp0, hp5⟩ := h
  refine ⟨⟨le_rfl, Int.natCast_nonneg _⟩, ⟨hp0, hp5⟩, ⟨hp0, hp5⟩, ?_⟩
  show k.p = (k.p + 0) % circularSize
  rw [add_zero, Int.emod_eq_of_lt hp0 hp5]

/-- The running process has gone to the end of the queue with its read, whose size is its result,
and everything in the buffer is behind `start`. -/
structure JoinsQueue (s t : Kernel) (own : ℤ × ℤ × ℕ) : Prop where
  kbd : t.kbd = { s.kbd with start := s.kbd.p }
  queue : t.keyboardQueue = s.keyboardQueue ++ [s.cur]
  others : ∀ v ≠ s.cur, (t.task v).reader = (s.task v).reader
  own : (t.task s.cur).reader = own
  result : (t.task s.cur).stack eaxIndex = (t.task s.cur).size

lemma waitForChars_joinsQueue (hs : SchedOk s Q) (h0 : s.cur ≠ 0) (size : ℤ) :
    ∃ t, ((s.waitForChars size).switchToNext 0 : Outcome Kernel ℤ) = .switched t ∧
      s.JoinsQueue t (s.current.pendingChars, size, s.current.buffer) := by
  have hq := s.quiet_noteRead size
  have hok := hs.congr hq.sched
  obtain ⟨u, rest, -, hsw, ht⟩ := hok.block (h := .keyboardQueue) (α := ℤ) trivial h0
  have hmoved : SameData (s.noteRead size)
      { (s.noteRead size).moveCurrent .keyboardQueue with itIsInt := 0 } := .other rfl rfl rfl
  have hdata : SameData (s.noteRead size) _ := hmoved.trans (sameData_taskSwitch _ u)
  refine ⟨_, hsw, hdata.kbd, ?_, fun v hv => ?_, ?_, ?_⟩
  · rw [ht.keyboardQueue_eq, hs.keyboardQueue_eq]
    simp only [Pool.moved_apply, reduceCtorEq, if_false, if_true]
    rw [hq.sched.cur]
  · refine (hdata.reader v).trans ?_
    rw [noteRead, updTask_task_ne _ _ hv]
  · refine (hdata.reader s.cur).trans ?_
    simp [noteRead, Task.reader, current]
  · have hnoted : ((s.noteRead size).task s.cur).stack eaxIndex =
        ((s.noteRead size).task s.cur).size := by
      simp [noteRead]
    rw [handTo_task]
    split_ifs
    · exact hnoted
    · exact hnoted

/-- The running process goes to the end of the queue, and misses the whole of its read. -/
lemma ringOutcome_waitForChars (hs : SchedOk s Q) (h : s.RingInv) (h0 : s.cur ≠ 0)
    (hc : s.kbd.circChars = 0) {size : ℤ} (hpend : s.current.pendingChars = size) :
    RingOutcome ((s.waitForChars size).switchToNext 0 : Outcome Kernel ℤ) := by
  obtain ⟨t, hsw, hjoin⟩ := waitForChars_joinsQueue hs h0 size
  rw [hsw]
  have hkbd : t.kbd = { s.kbd with circChars := 0, start := s.kbd.p } := by
    rw [hjoin.kbd, ← hc]
  refine ⟨hkbd ▸ ringOk_empty h.ring.p, ?_⟩
  rw [hkbd, hjoin.queue]
  refine readersOk_zero fun v hv => ?_
  rcases List.mem_append.mp hv with hv | hv
  · obtain ⟨hsize, hmiss⟩ := size_eq_of_reader (hjoin.others v (reader_ne_cur hs hv).1)
    have hr := h.readers
    rw [hc] at hr
    rw [hsize, hmiss]
    exact hr.of_zero hv
  · rw [List.mem_singleton] at hv
    subst hv
    have hown := hjoin.own
    simp only [Task.reader, Prod.mk.injEq] at hown
    rw [hown.1, hown.2.1, hpend]

/-- A read is served at once when there are enough characters and nobody waits for them. -/
lemma setPending_done_iff (hs : SchedOk s Q) (size : ℤ) :
    ((s.setPending size).current.pendingChars ≤ 0 ∧
        (s.setPending size).links.listEmpty .keyboardQueue) ↔
      size ≤ s.kbd.circChars ∧ s.keyboardQueue = [] := by
  rw [setPending_pendingChars]
  refine and_congr ?_ ?_
  · split_ifs <;> omega
  · show s.links.listEmpty .keyboardQueue = true ↔ _
    rw [(hs.pool.ring .keyboardQueue trivial).listEmpty_iff, List.map_eq_nil_iff,
      hs.keyboardQueue_eq]

lemma setPending_current_pid (s : Kernel) (size : ℤ) :
    (s.setPending size).current.pid = s.current.pid := by
  simp [setPending, current]

lemma waits_iff (s : Kernel) (size : ℤ) : (s.kbd.circChars < size ∨ s.keyboardQueue ≠ []) ↔
    ¬ (size ≤ s.kbd.circChars ∧ s.keyboardQueue = []) := by
  rw [not_and_or, not_le]

/-- A read that has to wait. -/
lemma sysReadKeyboard_of_waits (hs : SchedOk s Q) {size : ℤ}
    (hwait : s.kbd.circChars < size ∨ s.keyboardQueue ≠ []) (hpid : s.current.pid ≠ 0) :
    s.sysReadKeyboard size = ((s.setPending size).waitForChars size).switchToNext 0 := by
  rw [s.waits_iff] at hwait
  rw [sysReadKeyboard, if_neg (mt (setPending_done_iff hs size).mp hwait), if_pos]
  rwa [setPending_current_pid]

/-- Task 0 does not wait. -/
lemma sysReadKeyboard_of_task0 (hs : SchedOk s Q) {size : ℤ}
    (hwait : s.kbd.circChars < size ∨ s.keyboardQueue ≠ []) (hpid : s.current.pid = 0) :
    s.sysReadKeyboard size = .ret (-ePerm) (s.setPending size) := by
  rw [s.waits_iff] at hwait
  rw [sysReadKeyboard, if_neg (mt (setPending_done_iff hs size).mp hwait), if_neg]
  rw [setPending_current_pid]
  exact not_not.mpr hpid

lemma sysReadKeyboard_of_enough (hs : SchedOk s Q) {size : ℤ} (hle : size ≤ s.kbd.circChars)
    (hnil : s.keyboardQueue = []) : s.sysReadKeyboard size =
      match (s.setPending size).copyFromCircBuffer s.cur size with
      | .ret _ s => .ret size (s.consume size)
      | .switched s => .switched s
      | .fault s => .fault s
      | .stop r => .stop r := by
  rw [sysReadKeyboard, if_pos ((setPending_done_iff hs size).mpr ⟨hle, hnil⟩)]
  rfl

/-- A read of the running process: it is served with what is in the ring, or it has to wait and
then the buffer is empty. -/
lemma ringOutcome_sysReadKeyboard (hs : SchedOk s Q) (h : s.RingInv) {size : ℤ} (h0 : 0 ≤ size)
    (hwait : s.current.pid ≠ 0 → s.kbd.circChars < size ∨ s.keyboardQueue ≠ [] →
      s.kbd.circChars = 0) : RingOutcome (s.sysReadKeyboard size) := by
  have hq := s.quiet_setPending size
  have hok := hs.congr hq.sched
  have hinv : (s.setPending size).RingInv := h.updTask_cur hs _
  by_cases hnow : size ≤ s.kbd.circChars ∧ s.keyboardQueue = []
  · obtain ⟨hle, hnil⟩ := hnow
    have hfits : size ≤ circularSize := hle.trans h.ring.chars.2
    rw [sysReadKeyboard_of_enough hs hle hnil]
    rcases (s.setPending size).copyFromCircBuffer_cases s.cur size with
      ⟨hover, -⟩ | ⟨-, mm, ⟨-, hc⟩ | ⟨-, hc⟩⟩
    · exact absurd hover (by omega)
    · rw [hc]
      refine ⟨ringOk_consume hinv.ring h0 hle, ?_⟩
      show ReadersOk _ _ s.keyboardQueue
      rw [hnil]
      exact readersOk_nil _ _
    · rw [hc]
      exact RingInv.updTask_cur (s := { s.setPending size with mm := mm })
        ⟨hinv.ring, hinv.readers.congr (fun _ _ => rfl) (fun _ _ => rfl)⟩
        (hok.congr (.other rfl rfl rfl rfl rfl)) _
  · have hwaits := (s.waits_iff size).mpr hnow
    by_cases hpid : s.current.pid = 0
    · rw [sysReadKeyboard_of_task0 hs hwaits hpid]
      exact hinv
    · -- the process goes to the end of the queue, missing the whole of its read
      have hc0 := hwait hpid hwaits
      rw [sysReadKeyboard_of_waits hs hwaits hpid]
      refine ringOutcome_waitForChars hok hinv
        (fun hc => hpid (hs.current_pid_eq_zero_iff.mpr hc)) hc0 ?_
      rw [setPending_pendingChars, hc0]
      split_ifs <;> omega

/-! ## Key presses -/

/-- A character goes into a ring that is not full. -/
lemma ringOk_putChar (h : s.kbd.RingOk) (hroom : s.kbd.circChars < circularSize) (c : Byte) :
    (s.putChar c).kbd.RingOk := by
  obtain ⟨⟨hc0, hc5⟩, ⟨hs0, hs5⟩, ⟨hp0, hp5⟩, heq⟩ := h
  change s.kbd.circChars < 5 at hroom
  change s.kbd.start < 5 at hs5
  change s.kbd.p < 5 at hp5
  change s.kbd.p = (s.kbd.start + s.kbd.circChars) % 5 at heq
  have hp : (s.putChar c).kbd.p = if s.kbd.p = 4 then 0 else s.kbd.p + 1 := rfl
  have hchars : (s.putChar c).kbd.circChars = s.kbd.circChars + 1 := rfl
  refine ⟨?_, ⟨hs0, hs5⟩, ?_, ?_⟩
  · rw [hchars]
    change _ ∧ _ ≤ 5
    omega
  · rw [hp]
    change _ ∧ _ < 5
    split_ifs <;> omega
  · rw [hp, hchars]
    change _ = (s.kbd.start + _) % 5
    split_ifs <;> omega

/-- Waking the first reader leaves the others in the queue. -/
lemma keyboardQueue_unblockAndEnqueque (hs : SchedOk s Q) {b : Slot} {rest : List Slot}
    (hQ : Q .keyboardQueue = b :: rest) : (s.unblockAndEnqueque b).keyboardQueue = rest := by
  have ht : SchedOk (s.unblockAndEnqueque b) (Pool.moved Q b .keyboardQueue .runqueue) :=
    hs.wake (by simp [hQ]) (by simp)
  rw [ht.keyboardQueue_eq]
  simp [Pool.moved_apply, hQ]

/-- It is then the last process of the runqueue. -/
lemma runqueue_unblockAndEnqueque (hs : SchedOk s Q) {b : Slot} {rest : List Slot}
    (hQ : Q .keyboardQueue = b :: rest) :
    (s.unblockAndEnqueque b).runqueue = s.runqueue ++ [b] := by
  have ht : SchedOk (s.unblockAndEnqueque b) (Pool.moved Q b .keyboardQueue .runqueue) :=
    hs.wake (by simp [hQ]) (by simp)
  rw [ht.runqueue_eq, hs.runqueue_eq]
  simp [Pool.moved_apply]

/-- No process waits twice. -/
lemma first_ne (hs : SchedOk s Q) {h : Node} {b u : Slot} {rest : List Slot}
    (hQ : Q h = b :: rest) (hu : u ∈ rest) : u ≠ b := by
  have hnd := hs.pool.nodup h
  rw [hQ, List.nodup_cons] at hnd
  rintro rfl
  exact hnd.1 hu

/-- The first blocked reader is served.  With the new character in the ring, what it has to come
is one more than what it misses and what is in the ring. -/
lemma ringOutcome_serveReader (hs : SchedOk s Q) {b : Slot} {rest : List Slot}
    (hQ : Q .keyboardQueue = b :: rest) (hring : s.kbd.RingOk)
    (hfirst : (s.task b).size = (s.task b).pendingChars - 1 + s.kbd.circChars)
    (hrest : ∀ u ∈ rest, (s.task u).size = (s.task u).pendingChars) :
    RingOutcome (s.serveReader b) := by
  have hqueue : s.keyboardQueue = b :: rest := by rw [hs.keyboardQueue_eq, hQ]
  have hne : ∀ u ∈ rest, u ≠ b := fun u hu => first_ne hs hQ hu
  set s₁ := s.updTask b fun k => { k with pendingChars := k.pendingChars - 1 } with hs₁
  have hself : s₁.task b = { s.task b with pendingChars := (s.task b).pendingChars - 1 } := by
    simp [hs₁]
  have hother : ∀ u ∈ rest, s₁.task u = s.task u := fun u hu => updTask_task_ne _ _ (hne u hu)
  have hfirst₁ : (s₁.task b).size = (s₁.task b).pendingChars + s₁.kbd.circChars := by
    rw [hself]
    exact hfirst
  have hrest₁ : ∀ u ∈ rest, (s₁.task u).size = (s₁.task u).pendingChars := by
    intro u hu
    rw [hother u hu]
    exact hrest u hu
  have hinv : s₁.RingInv := by
    refine ⟨hring, ?_⟩
    show s₁.ReadersOk _ s.keyboardQueue
    rw [hqueue]
    refine ⟨fun a ha => ?_, hrest₁⟩
    rw [List.head?_cons, Option.mem_some_iff] at ha
    exact ha ▸ hfirst₁
  have hok : SchedOk s₁ Q := hs.congr (.updTask s b _ rfl rfl rfl)
  -- a fault changes the buffer address of the reader only
  have hfault : ∀ mm, RingInv ({ s₁ with mm := mm }.updTask b fun k =>
      { k with buffer := k.buffer + numPagData * pageSize }) := by
    intro mm
    refine ⟨hinv.ring, hinv.readers.congr (fun u _ => ?_) (fun u _ => ?_)⟩
    · rcases eq_or_ne u b with rfl | hne
      · rw [updTask_task_self]
      · rw [updTask_task_ne _ _ hne]
    · rcases eq_or_ne u b with rfl | hne
      · rw [updTask_task_self]
      · rw [updTask_task_ne _ _ hne]
  rw [serveReader, ← hs₁]
  split_ifs with hlast hfull
  · have hfits : (s₁.task b).size ≤ circularSize := by
      have := hinv.ring.chars.2
      omega
    rcases s₁.copyFromCircBuffer_cases b (s₁.task b).size with ⟨hover, -⟩ | ⟨-, mm, ⟨-, hc⟩ | ⟨-, hc⟩⟩
    · omega
    · rw [hc]
      set s₂ := { s₁ with
        mm := mm.setSsPags Memory.windowPage s₁.current.phPages (List.finRange numPagData) }
      have hok₂ : SchedOk s₂.emptyCircBuffer Q := hok.congr (.other rfl rfl rfl rfl rfl)
      refine ⟨ringOk_empty hinv.ring.p, ?_⟩
      rw [keyboardQueue_unblockAndEnqueque hok₂ hQ]
      exact readersOk_zero hrest₁
    · rw [hc]
      exact hfault mm
  · rcases s₁.copyFromCircBuffer_cases b circularSize with ⟨hover, -⟩ | ⟨-, mm, ⟨-, hc⟩ | ⟨-, hc⟩⟩
    · omega
    · rw [hc]
      set s₂ := { s₁ with
        mm := mm.setSsPags Memory.windowPage s₁.current.phPages (List.finRange numPagData) }
      refine ⟨ringOk_empty hinv.ring.p, ?_⟩
      show ReadersOk (s₂.advanceReader b).emptyCircBuffer 0 s.keyboardQueue
      rw [hqueue]
      refine readersOk_zero fun u hu => ?_
      show ((s₂.advanceReader b).task u).size = ((s₂.advanceReader b).task u).pendingChars
      rcases List.mem_cons.mp hu with rfl | hu
      · simp only [advanceReader, updTask_task_self]
        show (s₁.task u).size - s₁.kbd.circChars = (s₁.task u).pendingChars
        omega
      · rw [advanceReader, updTask_task_ne _ _ (hne u hu)]
        exact hrest₁ u hu
    · rw [hc]
      exact hfault mm
  · exact hinv

lemma ringOutcome_keyboardRoutine (hs : SchedOk s Q) (h : s.RingInv) {scan beyond : Byte}
    (hroom : isMake scan = true → s.kbd.circChars < circularSize) :
    RingOutcome (s.keyboardRoutine scan beyond) := by
  have hok : SchedOk (s.putChar (charOf scan beyond)) Q := hs.congr (s.quiet_putChar _).sched
  have hreaders := h.readers
  rw [hs.keyboardQueue_eq] at hreaders
  rcases hs.keyboardRoutine_cases scan beyond with ⟨-, hk⟩ | ⟨hmake, ⟨hQ, hk⟩ | ⟨b, rest, hQ, hk⟩⟩
  · rw [hk]
    exact h
  · rw [hk]
    refine ⟨ringOk_putChar h.ring (hroom hmake) _, ?_⟩
    show ReadersOk _ _ (s.putChar (charOf scan beyond)).keyboardQueue
    rw [hok.keyboardQueue_eq, hQ]
    exact readersOk_nil _ _
  · rw [hk]
    rw [hQ] at hreaders
    refine ringOutcome_serveReader hok hQ (ringOk_putChar h.ring (hroom hmake) _) ?_ hreaders.rest
    have hfirst := hreaders.first b rfl
    show (s.task b).size = (s.task b).pendingChars - 1 + (s.kbd.circChars + 1)
    omega

/-! ## Runs -/

/-- An event that keeps out of the two places: a key is not pressed into a full buffer, and a
process does not have to wait for its characters while some are in the buffer. -/
def KeepsRing (s : Kernel) (e : Event) : Prop :=
  s.ExitsFindTwo e ∧
  match e.act with
  | .key scan _ => isMake scan = true → s.kbd.circChars < circularSize
  | .read fd buffer size => s.ReadsKeyboard fd buffer size → s.current.pid ≠ 0 →
      s.kbd.circChars < size ∨ s.keyboardQueue ≠ [] → s.kbd.circChars = 0
  | _ => True

/-- The two events that reach the keyboard, up to a call of `sys_exit`. -/
lemma ringPhase_dispatch (hs : SchedOk s Q) (h : s.RingInv) (hg : s.KeepsRing e)
    (htouch : s.TouchesKeyboard e) : RingPhase (s.dispatch e) := by
  obtain ⟨regs, act⟩ := e
  have hok : SchedOk (s.enter regs) Q := hs.congr (s.quiet_enter regs).sched
  have hinv : (s.enter regs).RingInv := h.updTask_cur hs _
  cases act with
  | key scan beyond => exact ringPhase_finishInt (ringOutcome_keyboardRoutine hok hinv hg.2)
  | read fd buffer size =>
    have hread : (s.enter regs).ReadsKeyboard fd buffer size := (s.readsKeyboard_enter ..).mpr htouch
    have hg2 := hg.2 htouch
    obtain ⟨v, f, hdev, -⟩ := htouch
    show RingPhase (finish ((s.enter regs).sysRead fd buffer size))
    rw [hread.sysRead_eq]
    refine ringPhase_finish (ringOutcome_sysReadKeyboard
      (hok.congr (.updTask _ _ _ rfl rfl rfl)) (hinv.updTask_cur hok _) hdev.nonneg ?_)
    intro hpid hwait
    refine hg2 ?_ hwait
    simpa [current, enter] using hpid
  | _ => exact False.elim htouch

lemma RingInv.step (hs : SystemOk s Q) (h : s.RingInv) (hg : s.KeepsRing e)
    (hst : s.step e = .ok t) : t.RingInv := by
  by_cases htouch : s.TouchesKeyboard e
  · have hphase := ringPhase_dispatch hs.sched h hg htouch
    cases hd : s.dispatch e with
    | done u =>
      rw [hd] at hphase
      rw [step_of_done hd, Except.ok.injEq] at hst
      exact hst ▸ hphase
    | exits cause u =>
      rw [hd] at hphase
      exact RingInv.congr hphase (sameKeyboard_of_exits hs hg.1 hd hst)
    | stop r =>
      rw [Kernel.step, hd] at hst
      simp at hst
  · exact h.congr (sameKeyboard_step hs hg.1 htouch hst)

end Kernel

lemma Env.boot_ringInv (E : Env) : E.boot.RingInv := by
  have hkbd : E.boot.kbd = zeroEnv.boot.kbd := rfl
  have hempty : E.boot.keyboardQueue = [] := by
    rw [E.boot_systemOk.sched.keyboardQueue_eq]
    rfl
  refine ⟨?_, ?_⟩
  · rw [hkbd]
    exact ⟨by decide, by decide, by decide, by decide⟩
  · rw [hempty]
    exact Kernel.readersOk_nil _ _

/-- **The keyboard buffer stays a ring** in every run whose key presses find room in it and whose
readers wait on an empty buffer; and then no copy out of it is longer than the array that it goes
through. -/
theorem ring_kept {E : Env} {es : List Event} {s : Kernel}
    (h : Run Kernel.step Kernel.KeepsRing E.boot es s) : s.kbd.RingOk ∧
      ∀ e, s.KeepsRing e → s.TouchesKeyboard e → s.dispatch e ≠ .stop .overrun := by
  have hstep : ∀ s e t, (∃ Q, SystemOk s Q) ∧ s.RingInv → s.KeepsRing e → s.step e = .ok t →
      (∃ Q, SystemOk t Q) ∧ t.RingInv := by
    rintro s e t ⟨⟨Q, hs⟩, hring⟩ hg hst
    exact ⟨hs.step hg.1 hst, hring.step hs hg hst⟩
  obtain ⟨⟨Q, hs⟩, hring⟩ := h.invariant hstep ⟨⟨_, E.boot_systemOk⟩, E.boot_ringInv⟩
  refine ⟨hring.ring, fun e hg htouch hstop => ?_⟩
  have hphase := Kernel.ringPhase_dispatch hs.sched hring hg htouch
  rw [hstop] at hphase
  exact hphase rfl

/-- A key press with no reader waiting. -/
lemma SystemOk.typeKey {s : Kernel} {Q : Node → List Slot} (hs : SystemOk s Q)
    (hQ : Q .keyboardQueue = []) :
    ∃ t, s.dispatch (plain (.key 16 0)) = .done t ∧ SystemOk t Q ∧ t.cur = s.cur ∧
      t.kbd.circChars = s.kbd.circChars + 1 := by
  have henter := s.quiet_enter fun _ => 0
  have hmake : ¬ Kernel.isMake 16 = false := by decide
  rcases (hs.sched.congr henter.sched).keyboardRoutine_cases 16 0 with
    ⟨hno, -⟩ | ⟨-, ⟨-, hk⟩ | ⟨b, rest, hQ', -⟩⟩
  · exact absurd hno hmake
  · have hq := henter.trans ((s.enter fun _ => 0).quiet_putChar (Kernel.charOf 16 0))
    have hd : s.dispatch (plain (.key 16 0)) = _ := congrArg Kernel.finishInt hk
    refine ⟨_, hd, ?_, rfl, rfl⟩
    exact ⟨hs.sched.congr (hq.sched.trans (.other rfl rfl rfl rfl rfl)),
      hs.owned.ofSameSched (hq.sched.trans (.other rfl rfl rfl rfl rfl))⟩
  · rw [hQ] at hQ'
    simp at hQ'

lemma SystemOk.typeKeys (n : ℕ) : ∀ {s : Kernel} {Q : Node → List Slot}, SystemOk s Q →
    Q .keyboardQueue = [] → ∃ t, ExitRun s (List.replicate n (plain (.key 16 0))) t ∧
      SystemOk t Q ∧ t.kbd.circChars = s.kbd.circChars + n := by
  induction n with
  | zero =>
    intro s Q hs _
    exact ⟨s, .nil s, hs, by simp⟩
  | succ n ih =>
    intro s Q hs hQ
    obtain ⟨u, hd, hu, -, hcirc⟩ := hs.typeKey hQ
    obtain ⟨t, hrun, ht, hcirc'⟩ := ih hu hQ
    refine ⟨t, .cons (Kernel.exitsFindTwo_of_done hd) (Kernel.step_of_done hd) hrun, ht, ?_⟩
    rw [hcirc', hcirc]
    push_cast
    omega

/-- The first character that is typed. -/
theorem ring_kept_first_key : ∃ s, Run Kernel.step Kernel.KeepsRing zeroEnv.boot
    [plain (.key 16 0)] s ∧ s.kbd.RingOk := by
  obtain ⟨s, hd, -, -, -⟩ := zeroEnv.boot_systemOk.typeKey rfl
  have hg : zeroEnv.boot.KeepsRing (plain (.key 16 0)) :=
    ⟨Kernel.exitsFindTwo_of_done hd, fun _ => by decide⟩
  have hrun : Run Kernel.step Kernel.KeepsRing zeroEnv.boot [plain (.key 16 0)] s :=
    .cons hg (Kernel.step_of_done hd) (.nil s)
  exact ⟨s, hrun, (ring_kept hrun).1⟩

/-- Six characters that nobody reads are counted, in a buffer of five. -/
theorem ring_broken_by_sixth_key : ∃ s,
    ExitRun zeroEnv.boot (List.replicate 6 (plain (.key 16 0))) s ∧ s.kbd.circChars = 6 ∧
      ¬ s.kbd.RingOk := by
  obtain ⟨s, hrun, -, hcirc⟩ := SystemOk.typeKeys 6 zeroEnv.boot_systemOk rfl
  have hsix : s.kbd.circChars = 6 := by
    rw [hcirc]
    decide
  refine ⟨s, hrun, hsix, fun hring => ?_⟩
  have hle := hring.chars.2
  rw [hsix] at hle
  exact absurd hle (by decide)

end ZeOS
