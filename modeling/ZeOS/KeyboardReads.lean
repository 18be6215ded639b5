import ZeOS.KeyboardStream

/-!
# A read that waits for its characters

A process asks for `n` characters and finds the circular buffer empty.  `Fills` is the state of its
read while fewer than `n` keys have been pressed: what was typed is what lies in the reader's
buffer already and what is in the ring, and size, buffer and missing characters of the read have
moved on by as much.  A key press keeps this, with a delivery whenever the ring is full, or it is
the last one and ends the read (`Fills.press`); a tick of the clock and the release of a key leave
the read alone, whoever runs.

So the read waits for `n` presses and then has what was typed (`blocked_read_served`).
-/

namespace ZeOS

open IntrusiveList GuardedRun Memory

/-! ## The bytes of a process -/

namespace Kernel

variable {s t u : Kernel} {e : Event} {Q : Node → List Slot} {b v : Slot}

lemma dataBytes_add (s : Kernel) (b : Slot) (a k n : ℕ) :
    s.dataBytes b a (k + n) = s.dataBytes b a k ++ s.dataBytes b (a + k) n := by
  unfold dataBytes
  rw [List.range_add, List.map_append, List.map_map]
  refine congrArg₂ List.append rfl (List.map_congr_left fun j _ => ?_)
  rw [Function.comp_apply, Nat.add_assoc]

/-- Bytes before a block to which something was written. -/
lemma dataBytes_before (hf : FramesOk s) (hb : s.Live b) {a k n : ℕ} (ha : userData ≤ a)
    (hpages : (t.task b).phPages = (s.task b).phPages)
    (hframes : ∀ f x, ¬ s.OwnsByte b (a + k) n f x → t.mm.frame f x = s.mm.frame f x) :
    t.dataBytes b a k = s.dataBytes b a k := by
  refine List.map_congr_left fun j hj => ?_
  rw [List.mem_range] at hj
  change 264 * 4096 ≤ a at ha
  unfold dataByte
  split_ifs with hi
  · rw [hpages]
    refine hframes _ _ ?_
    rintro ⟨j', -, i, hpage, hframe, hmod⟩
    obtain rfl : ⟨_, hi⟩ = i := by
      by_contra hne
      exact hf.frameNat_ne hb hb (fun heq => hne heq.2) hframe
    change (a + k + j') / 4096 = 264 + ((a + j) / 4096 - 264) at hpage
    change (a + j) % 4096 = (a + k + j') % 4096 at hmod
    omega
  · rfl

/-- A process that does not run keeps its registers, its frames and what is in them. -/
structure Rests (b : Slot) (s t : Kernel) : Prop where
  stack : (t.task b).stack = (s.task b).stack
  pages : (t.task b).phPages = (s.task b).phPages
  frame : t.mm.frame = s.mm.frame

namespace Rests

lemma refl (b : Slot) (s : Kernel) : Rests b s s := ⟨rfl, rfl, rfl⟩

lemma trans (h : Rests b s t) (h' : Rests b t u) : Rests b s u :=
  ⟨h'.stack.trans h.stack, h'.pages.trans h.pages, h'.frame.trans h.frame⟩

lemma dataBytes (h : Rests b s t) (a n : ℕ) : t.dataBytes b a n = s.dataBytes b a n := by
  unfold Kernel.dataBytes dataByte
  rw [h.pages, h.frame]

/-- Only other variables of the kernel differ. -/
lemma other (b : Slot) (htask : t.task = s.task) (hframe : t.mm.frame = s.mm.frame) :
    Rests b s t := ⟨by rw [htask], by rw [htask], hframe⟩

/-- Another process has changed. -/
lemma updTask (hne : b ≠ v) (f : Task → Task) : Rests b s (s.updTask v f) := by
  have htask : (s.updTask v f).task b = s.task b := updTask_task_ne s f hne
  exact ⟨by rw [htask], by rw [htask], rfl⟩

lemma tick (hne : b ≠ s.cur) : Rests b s s.tick :=
  .trans (t := { s with tics := s.tics + 1, left4current := s.left4current - 1 })
    (.other b rfl rfl) (.updTask hne _)

lemma showTime (b : Slot) (s : Kernel) : Rests b s s.showTime := by
  unfold Kernel.showTime
  simp only
  split_ifs
  · exact .other b rfl rfl
  · exact .other b rfl rfl
  · exact refl b s

lemma switchToNext {α : Type} (h : Rests b s t) (fromInt : ℤ) :
    (t.switchToNext fromInt : Outcome Kernel α).Leaves (Rests b s) := by
  unfold Kernel.switchToNext
  split
  · exact h.trans ⟨taskSwitch_task_stack .., taskSwitch_task_phPages .., setSsPags_frame ..⟩
  · trivial

lemma schedule (h : Rests b s t) (hne : b ≠ t.cur) (fromInt : ℤ) :
    (t.schedule fromInt).Leaves (Rests b s) := by
  unfold Kernel.schedule
  split_ifs
  · exact h.trans (.trans (t := { t with left4current := t.current.quantum }) (.other b rfl rfl)
      (.updTask hne _))
  · have hlinks : Rests b s { t with
        links := (t.links.listDel (.task t.cur)).listAddTail (.task t.cur) .runqueue } :=
      h.trans (.other b rfl rfl)
    exact hlinks.switchToNext fromInt
  · exact h.switchToNext fromInt
  · exact h

end Rests

/-- A tick of the clock goes on, and nothing happens to the others. -/
lemma dispatch_clock (hs : SchedOk s Q) (regs : SavedRegs) (hne : b ≠ s.cur) :
    ∃ t, s.dispatch ⟨regs, .clock⟩ = .done t ∧ Rests b s t := by
  have hsched : SchedOk (s.enter regs).tick Q :=
    hs.congr ((s.quiet_enter regs).trans (quiet_tick _)).sched
  have hrests : Rests b s (s.enter regs).tick :=
    Rests.trans (.updTask hne _) (Rests.tick (s := s.enter regs) hne)
  have hleaves := hrests.schedule hne 1
  have hdisp : s.dispatch ⟨regs, .clock⟩ = finishInt (s.enter regs).clockRoutine := rfl
  rcases schedule_cases hsched 1 with ⟨v, hsch, -⟩ | ⟨-, -, v, rest, -, hsch, -⟩
  · rw [hsch] at hleaves
    refine ⟨v.showTime, ?_, Rests.trans hleaves (.showTime b v)⟩
    rw [hdisp, clockRoutine, hsch]
    rfl
  · rw [hsch] at hleaves
    refine ⟨_, ?_, hleaves⟩
    rw [hdisp, clockRoutine, hsch]
    rfl

/-! ## A read that is being filled -/

/-- The character of an event that is a key press. -/
def pressed (e : Event) : Option Byte :=
  match e.act with
  | .key scan beyond => if isMake scan then some (charOf scan beyond) else none
  | _ => none

/-- The characters that are typed in some events. -/
def typedIn (es : List Event) : List Byte := es.filterMap pressed

/-- Nothing but the keyboard and the clock. -/
def KeyOrTick (e : Event) : Prop :=
  match e.act with
  | .key _ _ => True
  | .clock => True
  | _ => False

/-- A process waits for `n` characters, of which `typed` have been typed and `got` are in its
buffer. -/
structure Fills (s : Kernel) (b : Slot) (buffer n : ℕ) (typed got : List Byte) : Prop where
  queue : s.keyboardQueue = [b]
  ring : s.kbd.RingOk
  room : s.kbd.circChars < circularSize
  fewer : typed.length < n
  split : typed = got ++ ringBytes s.kbd
  reader : (s.task b).reader =
    ((n : ℤ) - typed.length, (n : ℤ) - got.length, buffer + got.length)
  bytes : s.dataBytes b buffer got.length = got
  result : (s.task b).stack eaxIndex = n

/-- The read of a process is over, and the process is the last one of the runqueue. -/
structure Filled (s : Kernel) (b : Slot) (buffer n : ℕ) (typed : List Byte) : Prop where
  queue : s.keyboardQueue = []
  last : s.runqueue.getLast? = some b
  bytes : s.dataBytes b buffer n = typed
  result : (s.task b).stack eaxIndex = n
  empty : s.kbd.circChars = 0
  start : s.kbd.start = s.kbd.p

variable {buffer n : ℕ} {typed got : List Byte}

lemma Fills.length (h : s.Fills b buffer n typed got) :
    (typed.length : ℤ) = got.length + s.kbd.circChars := by
  have hlen := congrArg List.length h.split
  rw [List.length_append] at hlen
  have hring := ringBytes_length h.ring
  omega

lemma Fills.mem (h : s.Fills b buffer n typed got) : b ∈ s.keyboardQueue := by
  rw [h.queue]
  exact List.mem_singleton_self b

lemma Fills.reader_eq (h : s.Fills b buffer n typed got) :
    (s.task b).pendingChars = (n : ℤ) - typed.length ∧ (s.task b).size = (n : ℤ) - got.length ∧
      (s.task b).buffer = buffer + got.length := by
  have hreader := h.reader
  simp only [Task.reader, Prod.mk.injEq] at hreader
  exact hreader

lemma Fills.ringInv (h : s.Fills b buffer n typed got) : s.RingInv := by
  obtain ⟨hpend, hsize, -⟩ := h.reader_eq
  have hlen := h.length
  refine ⟨h.ring, fun u hu => ?_, fun u hu => ?_⟩
  · rw [h.queue, List.head?_cons, Option.mem_some_iff] at hu
    subst hu
    omega
  · rw [h.queue] at hu
    simp at hu

/-- A step that leaves the keyboard and the reader alone. -/
lemma Fills.congr (h : s.Fills b buffer n typed got) (hsame : SameKeyboard s t)
    (hrests : Rests b s t) : t.Fills b buffer n typed got := by
  have hkbd := hsame.kbd
  refine ⟨hsame.queue.trans h.queue, hkbd ▸ h.ring, hkbd ▸ h.room, h.fewer, hkbd ▸ h.split, ?_, ?_, ?_⟩
  · rw [hsame.reader b h.mem]
    exact h.reader
  · rw [hrests.dataBytes]
    exact h.bytes
  · rw [hrests.stack]
    exact h.result

/-- The rest of the buffer of the reader. -/
lemma Fills.inData (h : s.Fills b buffer n typed got) (hin : InData buffer n) :
    InData (s.task b).buffer (s.task b).size.toNat := by
  obtain ⟨-, hsize, hbuffer⟩ := h.reader_eq
  have hlen := h.length
  have hfewer := h.fewer
  have hcirc := h.ring.chars.1
  have hlo := hin.lo
  have hhi := hin.hi
  refine ⟨?_, ?_⟩
  · omega
  · rw [hbuffer]
    omega

section

variable {bs : List Byte} {c : Byte} (h : s.Fills b buffer n typed got)
  (hserves : (s.putChar c).Serves t b [] bs)

include h hserves

/-- What is delivered lies behind what was there. -/
lemma Fills.bytes_served (hf : FramesOk s) (hb : s.Live b) (hin : InData buffer n) :
    t.dataBytes b buffer (got.length + bs.length) = got ++ bs := by
  obtain ⟨-, -, hbuffer⟩ := h.reader_eq
  have hnew := hserves.bytes
  change t.dataBytes b (s.task b).buffer bs.length = bs at hnew
  have hframes := hserves.frames
  change ∀ f x, ¬ s.OwnsByte b (s.task b).buffer bs.length f x → t.mm.frame f x = s.mm.frame f x
    at hframes
  rw [hbuffer] at hnew hframes
  rw [dataBytes_add, hnew, dataBytes_before hf hb hin.lo hserves.pages hframes, h.bytes]

/-- The new character is behind the others. -/
lemma Fills.split_served : typed ++ [c] = got ++ bs ++ ringBytes t.kbd := by
  rw [List.append_assoc, hserves.ring, ringBytes_putChar h.ring h.room, h.split, List.append_assoc]

lemma Fills.result_served : (t.task b).stack eaxIndex = n := by
  rw [hserves.stack]
  exact h.result

/-- A read that is over has got all that was typed, and no more than it asked for. -/
lemma Fills.ended_served (hqueue : t.keyboardQueue = []) :
    got ++ bs = typed ++ [c] ∧ (got ++ bs).length = n := by
  obtain ⟨-, hempty, -⟩ := hserves.ended (by rw [hqueue]; simp)
  have hsplit := h.split_served hserves
  rw [ringBytes_of_empty hempty, List.append_nil] at hsplit
  refine ⟨hsplit.symm, ?_⟩
  obtain ⟨-, hsize, -⟩ := h.reader_eq
  rcases hserves.goes with ⟨-, hall⟩ | ⟨hwaits, -⟩
  · change (bs.length : ℤ) = (s.task b).size at hall
    rw [List.length_append]
    omega
  · rw [hqueue] at hwaits
    cases hwaits

/-- With the last character the read is over. -/
lemma Fills.last_served (hf : FramesOk s) (hb : s.Live b) (hin : InData buffer n)
    (hlast : typed.length + 1 = n) : t.Filled b buffer n (typed ++ [c]) := by
  rcases hserves.goes with ⟨hqueue, -⟩ | ⟨-, -, hmiss⟩
  · obtain ⟨hgot, hn⟩ := h.ended_served hserves hqueue
    obtain ⟨htail, hempty, hstart⟩ := hserves.ended (by rw [hqueue]; simp)
    refine ⟨hqueue, htail, ?_, h.result_served hserves, hempty, hstart⟩
    rw [← hgot, ← h.bytes_served hserves hf hb hin, ← List.length_append, hn]
  · -- a reader that waits on would still miss a character
    obtain ⟨hpend, -, -⟩ := h.reader_eq
    change 1 < (s.task b).pendingChars at hmiss
    omega

/-- Before that it goes on. -/
lemma Fills.more_served (hf : FramesOk s) (hb : s.Live b) (hin : InData buffer n)
    (hring : t.kbd.RingOk) (hmore : typed.length + 1 < n) :
    t.Fills b buffer n (typed ++ [c]) (got ++ bs) := by
  have hfewer : (typed ++ [c]).length < n := by
    rw [List.length_append, List.length_singleton]
    exact hmore
  rcases hserves.goes with ⟨hqueue, -⟩ | ⟨hqueue, hgo, -⟩
  · -- a reader that has got everything had asked for less
    obtain ⟨hgot, hn⟩ := h.ended_served hserves hqueue
    rw [hgot] at hn
    omega
  · refine ⟨hqueue, hring, hserves.room, hfewer, h.split_served hserves, ?_, ?_,
      h.result_served hserves⟩
    · obtain ⟨hpend, hsize, hbuffer⟩ := h.reader_eq
      refine hgo.trans ?_
      change ((s.task b).pendingChars - 1, (s.task b).size - (bs.length : ℤ),
        (s.task b).buffer + bs.length) = _
      rw [hpend, hsize, hbuffer, List.length_append, List.length_append, List.length_singleton]
      push_cast
      simp only [Prod.mk.injEq]
      omega
    · rw [List.length_append]
      exact h.bytes_served hserves hf hb hin

end

/-- **A key press** brings the reader its next character, and with the last one the read is
over. -/
lemma Fills.press (h : s.Fills b buffer n typed got) (hs : SystemOk s Q) (hf : FramesOk s)
    (hin : InData buffer n) (regs : SavedRegs) {scan : Byte} (beyond : Byte)
    (hmake : isMake scan = true) :
    ∃ t, s.dispatch ⟨regs, .key scan beyond⟩ = .done t ∧
      (typed.length + 1 = n → t.Filled b buffer n (typed ++ [charOf scan beyond])) ∧
      (typed.length + 1 < n → ∃ got', t.Fills b buffer n (typed ++ [charOf scan beyond]) got') := by
  obtain ⟨hpend, -, -⟩ := h.reader_eq
  have hfewer := h.fewer
  have hb := (reader_ne_cur hs.sched h.mem).2
  obtain ⟨t, bs, hd, hserves⟩ := dispatch_key_serves hs.sched hf regs beyond hmake h.queue h.ringInv
    h.room (by omega) (h.inData hin)
  have hguard : s.KeepsRing ⟨regs, .key scan beyond⟩ := ⟨exitsFindTwo_of_done hd, fun _ => h.room⟩
  have hring := h.ringInv.step hs hguard (step_of_done hd)
  refine ⟨t, hd, fun hlast => ?_, fun hmore => ?_⟩
  · exact h.last_served hserves hf hb hin hlast
  · exact ⟨_, h.more_served hserves hf hb hin hring.ring hmore⟩

/-- A key that is released goes on, and nothing happens to the others. -/
lemma dispatch_key_release (hs : SchedOk s Q) (regs : SavedRegs) {scan : Byte} (beyond : Byte)
    (hmake : isMake scan = false) (hne : b ≠ s.cur) :
    ∃ t, s.dispatch ⟨regs, .key scan beyond⟩ = .done t ∧ Rests b s t := by
  rcases (hs.congr (s.quiet_enter regs).sched).keyboardRoutine_cases scan beyond with
    ⟨-, hk⟩ | ⟨hno, -⟩
  · exact ⟨_, congrArg finishInt hk, .updTask hne _⟩
  · rw [hmake] at hno
    cases hno

/-- An event that is not a key press leaves the read as it is. -/
lemma Fills.rests (h : s.Fills b buffer n typed got) (hs : SystemOk s Q) (he : KeyOrTick e)
    (hno : pressed e = none) :
    ∃ t, s.dispatch e = .done t ∧ t.Fills b buffer n typed got := by
  have hne : b ≠ s.cur := (reader_ne_cur hs.sched h.mem).1
  obtain ⟨regs, act⟩ := e
  cases act with
  | clock =>
    obtain ⟨t, hd, hrests⟩ := dispatch_clock hs.sched regs hne
    have hsame := sameKeyboard_step hs (exitsFindTwo_of_done hd) id (step_of_done hd)
    exact ⟨t, hd, h.congr hsame hrests⟩
  | key scan beyond =>
    have hmake : isMake scan = false := by
      simpa [pressed] using hno
    obtain ⟨t, hd, hrests⟩ := dispatch_key_release hs.sched regs beyond hmake hne
    exact ⟨t, hd, h.congr (step_key_release hs.sched hmake (step_of_done hd)) hrests⟩
  | _ => exact False.elim he

lemma typedIn_cons (e : Event) (es : List Event) :
    typedIn (e :: es) = (pressed e).toList ++ typedIn es := by
  unfold typedIn
  rw [List.filterMap_cons]
  cases pressed e <;> rfl

/-- The key of an event that is a press. -/
lemma pressed_eq_some {c : Byte} (h : pressed e = some c) :
    ∃ scan beyond, e = ⟨e.regs, .key scan beyond⟩ ∧ isMake scan = true ∧ c = charOf scan beyond := by
  obtain ⟨regs, act⟩ := e
  cases act with
  | key scan beyond =>
    simp only [pressed] at h
    split_ifs at h with hmake
    exact ⟨scan, beyond, rfl, hmake, (Option.some.inj h).symm⟩
  | _ => cases h

/-- While characters are missing the read goes on. -/
lemma Fills.step (h : s.Fills b buffer n typed got) (hs : SystemOk s Q) (hf : FramesOk s)
    (hin : InData buffer n) (he : KeyOrTick e)
    (hmore : (typed ++ (pressed e).toList).length < n) :
    ∃ t got', s.dispatch e = .done t ∧ t.Fills b buffer n (typed ++ (pressed e).toList) got' := by
  cases hp : pressed e with
  | none =>
    obtain ⟨t, hd, ht⟩ := h.rests hs he hp
    exact ⟨t, got, hd, by rwa [Option.toList_none, List.append_nil]⟩
  | some c =>
    obtain ⟨scan, beyond, heq, hmake, rfl⟩ := pressed_eq_some hp
    obtain ⟨t, hd, -, hgo⟩ := h.press hs hf hin e.regs beyond hmake
    rw [hp, Option.toList_some, List.length_append, List.length_singleton] at hmore
    obtain ⟨got', ht⟩ := hgo hmore
    exact ⟨t, got', heq ▸ hd, ht⟩

/-- **The read goes on** for as long as fewer keys have been pressed than it asked for. -/
lemma Fills.run (hin : InData buffer n) {es : List Event} :
    ∀ {s : Kernel} {Q : Node → List Slot} {typed got : List Byte}, s.Fills b buffer n typed got →
      SystemOk s Q → FramesOk s → (∀ e ∈ es, KeyOrTick e) →
      (typed ++ typedIn es).length < n → ∃ t Q' got', AnyRun s es t ∧ SystemOk t Q' ∧ FramesOk t ∧
        t.Fills b buffer n (typed ++ typedIn es) got' := by
  induction es with
  | nil =>
    intro s Q typed got h hs hf _ _
    exact ⟨s, Q, got, .nil s, hs, hf, by rwa [typedIn, List.filterMap_nil, List.append_nil]⟩
  | cons e es ih =>
    intro s Q typed got h hs hf hes hmore
    rw [typedIn_cons, ← List.append_assoc] at hmore
    have hfirst : (typed ++ (pressed e).toList).length < n :=
      lt_of_le_of_lt (List.prefix_append _ _).length_le hmore
    obtain ⟨u, got₁, hd, hu⟩ := h.step hs hf hin (hes e List.mem_cons_self) hfirst
    have hst := step_of_done hd
    obtain ⟨Q₁, hs₁, hf₁⟩ := hf.step hs (exitsFindTwo_of_done hd) hst
    obtain ⟨t, Q', got', hrun, hs', hf', ht⟩ := ih hu hs₁ hf₁
      (fun e' he' => hes e' (List.mem_cons_of_mem e he')) hmore
    rw [typedIn_cons, ← List.append_assoc]
    exact ⟨t, Q', got', .cons trivial hst hrun, hs', hf', ht⟩

/-- A process that finds the buffer empty waits for all its characters. -/
lemma Fills.start (hs : SystemOk s Q) (hcirc : s.kbd.circChars = 0) (hnil : s.keyboardQueue = [])
    (hp : 0 ≤ s.kbd.p ∧ s.kbd.p < circularSize) (hcur : s.cur ≠ 0) (h0 : 0 < n) {fd : ℤ}
    (hread : s.ReadsKeyboard fd buffer n) (regs : SavedRegs) :
    ∃ t, s.dispatch ⟨regs, .read fd buffer n⟩ = .done t ∧ t.Fills s.cur buffer n [] [] := by
  have hpid : s.current.pid ≠ 0 := by
    rw [Ne, hs.sched.current_pid_eq_zero_iff]
    exact hcur
  have hmiss : s.kbd.circChars < n := by
    rw [hcirc]
    exact_mod_cast h0
  obtain ⟨t, hd, hjoin⟩ := dispatch_read_waits hs.sched regs hread (.inl hmiss) hpid
  rw [if_pos hmiss, hcirc, sub_zero] at hjoin
  have hkbd : t.kbd = { s.kbd with circChars := 0, start := s.kbd.p } := by
    rw [hjoin.kbd, ← hcirc]
  have hown := hjoin.own
  simp only [Task.reader, Prod.mk.injEq] at hown
  refine ⟨t, hd, ?_, hkbd ▸ ringOk_empty hp, ?_, h0, ?_, ?_, rfl, ?_⟩
  · rw [hjoin.queue, hnil, List.nil_append]
  · rw [hkbd]
    exact Int.natCast_pos.mpr (by decide)
  · rw [ringBytes_of_empty (by rw [hkbd]), List.append_nil]
  · rw [hjoin.own]
    simp
  · rw [hjoin.result, hown.2.1]

end Kernel

open Kernel in
/-- **A read that waits is served exactly.**  A process other than task 0 asks for `n` characters
and finds the buffer empty and nobody else waiting.  It waits as long as fewer than `n` keys are
pressed, and with the `n`-th one it has got just the characters that were typed, in their order. -/
theorem blocked_read_served {s : Kernel} {Q : Node → List Slot} (hs : SystemOk s Q) (hf : FramesOk s)
    (hcirc : s.kbd.circChars = 0) (hnil : s.keyboardQueue = [])
    (hp : 0 ≤ s.kbd.p ∧ s.kbd.p < circularSize) (hcur : s.cur ≠ 0) {fd : ℤ} {buffer n : ℕ}
    (h0 : 0 < n) (hread : s.ReadsKeyboard fd buffer n) (hin : InData buffer n) (regs : SavedRegs)
    {es : List Event} (hes : ∀ e ∈ es, KeyOrTick e) :
    ((typedIn es).length < n → ∃ t, AnyRun s (⟨regs, .read fd buffer n⟩ :: es) t ∧
        t.keyboardQueue = [s.cur]) ∧
      ∀ pre e, es = pre ++ [e] → pressed e ≠ none → (typedIn es).length = n →
        ∃ t, AnyRun s (⟨regs, .read fd buffer n⟩ :: es) t ∧ t.keyboardQueue = [] ∧
          t.dataBytes s.cur buffer n = typedIn es ∧ (t.task s.cur).stack eaxIndex = n ∧
          t.runqueue.getLast? = some s.cur ∧ t.kbd.circChars = 0 ∧ t.kbd.start = t.kbd.p := by
  obtain ⟨u, hd, hu⟩ := Fills.start hs hcirc hnil hp hcur h0 hread regs
  have hst := step_of_done hd
  obtain ⟨Q₁, hs₁, hf₁⟩ := hf.step hs (exitsFindTwo_of_done hd) hst
  constructor
  · intro hmore
    obtain ⟨t, Q', got, hrun, -, -, ht⟩ := hu.run hin hs₁ hf₁ hes hmore
    exact ⟨t, .cons trivial hst hrun, ht.queue⟩
  · rintro pre e rfl hpress hall
    obtain ⟨c, hc⟩ := Option.ne_none_iff_exists'.mp hpress
    obtain ⟨scan, beyond, heq, hmake, rfl⟩ := pressed_eq_some hc
    have htyped : typedIn (pre ++ [e]) = typedIn pre ++ [charOf scan beyond] := by
      unfold typedIn
      rw [List.filterMap_append, List.filterMap_cons_some hc, List.filterMap_nil]
    rw [htyped, List.length_append, List.length_singleton] at hall
    obtain ⟨v, Q₂, got, hrun, hs₂, hf₂, hv⟩ := hu.run hin hs₁ hf₁
      (fun e' (he' : e' ∈ pre) => hes e' (List.mem_append_left _ he'))
      (by rw [List.nil_append]; omega)
    obtain ⟨t, hd', hlast, -⟩ := hv.press hs₂ hf₂ hin e.regs beyond hmake
    have ht := hlast hall
    rw [← heq] at hd'
    refine ⟨t, .cons trivial hst (hrun.snoc trivial (step_of_done hd')), ht.queue, ?_, ht.result,
      ht.last, ht.empty, ht.start⟩
    rw [htyped]
    exact ht.bytes

/-- Six keys, with a release and a tick after the first. -/
def sixKeys : List Event :=
  [plain (.key 16 0), plain (.key 144 0), plain .clock, plain (.key 17 0), plain (.key 18 0),
    plain (.key 19 0), plain (.key 20 0), plain (.key 21 0)]

open Kernel in
/-- The child of task 0 waits for six characters, one more than the circular buffer holds. -/
theorem blocked_read_served_of_child : ∃ s t, ExitRun linkedEnv.boot childRuns s ∧
    AnyRun s (plain (.read 0 userData 6) :: sixKeys) t ∧ t.keyboardQueue = [] ∧
      t.dataBytes 1 userData 6 = typedIn sixKeys ∧ (t.task 1).stack eaxIndex = 6 ∧
      t.runqueue.getLast? = some 1 ∧ t.kbd.circChars = 0 ∧ t.kbd.start = t.kbd.p := by
  obtain ⟨s, Q, hexit, hs, hf, hcur, hstd, hnil, hcirc, hring⟩ := childRuns_ring
  obtain ⟨hread, -⟩ := child_waits (a := userData) (n := 6) hs hexit hcur hstd (by decide) (by decide)
    (by rw [hcirc]; decide)
  have hes : ∀ e ∈ sixKeys, KeyOrTick e := by
    simp [sixKeys, plain, KeyOrTick]
  have hserved := (blocked_read_served hs hf hcirc hnil hring.p (by rw [hcur]; decide)
    (by decide) hread ⟨le_rfl, by decide⟩ (fun _ => 0) hes).2 sixKeys.dropLast (plain (.key 21 0)) rfl
    (by decide) (by decide)
  rw [hcur] at hserved
  obtain ⟨t, hrun', hend⟩ := hserved
  exact ⟨s, t, hexit, hrun', hend⟩

end ZeOS
