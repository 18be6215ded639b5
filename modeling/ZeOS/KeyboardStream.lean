import ZeOS.KeyboardRing
import ZeOS.Invariants.Contents
import ZeOS.Scheduling

/-!
# The stream of typed characters

A read from the keyboard takes characters out of the circular buffer, or waits until they have
been typed and gets them five at a time.  `KeyLog` is the history of a run: the characters that
were typed, and the reads in the order in which they were issued, each with the bytes that were
found in the memory of its process after each delivery.

What the reads have got, one after the other, is a prefix of what was typed, and a read that is
over has got what it asked for (`stream_kept`), as long as a read that has to wait finds the
buffer empty and asks for something.  `sys_read_keyboard` sets `start = p` for every read that has
to wait, so that characters that are in the buffer then are lost and stale ones delivered for them
(`stream_broken_by_waiting_read`); and a read of nothing behind another one takes a character with
it.
-/

namespace ZeOS

open IntrusiveList GuardedRun Memory

/-- The bytes of a block lie in the data pages. -/
structure InData (a n : ℕ) : Prop where
  lo : userData ≤ a
  hi : a + n ≤ userEnd

lemma InData.mono {a n k : ℕ} (h : InData a n) (hk : k ≤ n) : InData a k := by
  have hhi := h.hi
  exact ⟨h.lo, by omega⟩

namespace Kernel

variable {s t : Kernel} {e : Event} {Q : Node → List Slot}

/-- The byte at a data address of a process, in its own frames. -/
def dataByte (s : Kernel) (u : Slot) (a : ℕ) : Byte :=
  if h : a / pageSize - pagLogInitDataP0 < numPagData then
    s.mm.frame (frameNat ((s.task u).phPages ⟨a / pageSize - pagLogInitDataP0, h⟩)) (a % pageSize)
  else 0

/-- The `n` bytes of a process from a data address on. -/
def dataBytes (s : Kernel) (u : Slot) (a n : ℕ) : List Byte :=
  (List.range n).map fun j => s.dataByte u (a + j)

/-- Above the data pages, the window shows the frames of a process. -/
lemma windowOf_frameOf (s : Kernel) (b : Slot) {a n j : ℕ} (h : InData a n) (hj : j < n) :
    ∃ hi : (a + j) / pageSize - pagLogInitDataP0 < numPagData,
      (s.windowOf b).frameOf (a + numPagData * pageSize + j) =
        frameNat ((s.task b).phPages ⟨(a + j) / pageSize - pagLogInitDataP0, hi⟩) ∧
      (s.windowOf b).present (a + numPagData * pageSize + j) = true ∧
      (a + numPagData * pageSize + j) % pageSize = (a + j) % pageSize := by
  have hlo : 264 * 4096 ≤ a := h.lo
  have hhi : a + n ≤ 284 * 4096 := h.hi
  have hi : (a + j) / 4096 - 264 < 20 := by omega
  have hpage : (a + numPagData * pageSize + j) / pageSize =
      windowPage + (⟨(a + j) / 4096 - 264, hi⟩ : Fin numPagData).val := by
    show (a + 20 * 4096 + j) / 4096 = 284 + ((a + j) / 4096 - 264)
    omega
  have hentry : (s.windowOf b).pagusrTable ((a + numPagData * pageSize + j) / pageSize) =
      ssEntry ((s.task b).phPages ⟨(a + j) / 4096 - 264, hi⟩) := by
    rw [hpage]
    exact setSsPags_table_mem (List.mem_finRange _)
  refine ⟨hi, ?_, ?_, ?_⟩
  · rw [frameOf, hentry, ssEntry_pbaseAddr]
  · rw [present, hentry, Bool.and_eq_true]
    refine ⟨?_, rfl⟩
    rw [decide_eq_true_eq]
    show (a + 20 * 4096 + j) / 4096 < 1024
    omega
  · show (a + 20 * 4096 + j) % 4096 = (a + j) % 4096
    omega

lemma windowOf_validBuffer (hf : FramesOk s) {b : Slot} (hb : s.Live b) {a n : ℕ} (h : InData a n) :
    (s.windowOf b).ValidBuffer (a + numPagData * pageSize) n := by
  refine ⟨fun j hj => ?_, fun j hj k hk hframe hmod => ?_⟩
  · obtain ⟨-, -, hp, -⟩ := s.windowOf_frameOf b h hj
    exact hp
  · obtain ⟨hi, hfj, -, hmj⟩ := s.windowOf_frameOf b h hj
    obtain ⟨hi', hfk, -, hmk⟩ := s.windowOf_frameOf b h hk
    rw [hfj, hfk] at hframe
    rw [hmj, hmk] at hmod
    have hpage : (a + j) / pageSize - pagLogInitDataP0 = (a + k) / pageSize - pagLogInitDataP0 := by
      by_contra hne
      refine hf.frameNat_ne hb hb (fun heq => hne ?_) hframe
      simpa only [Fin.mk.injEq] using heq.2
    have hlo : 264 * 4096 ≤ a := h.lo
    change (a + j) % 4096 = (a + k) % 4096 at hmod
    change (a + j) / 4096 - 264 = (a + k) / 4096 - 264 at hpage
    omega

/-- Byte `x` of frame `f` is one of the `n` bytes of a process from a data address on. -/
def OwnsByte (s : Kernel) (u : Slot) (a n f x : ℕ) : Prop :=
  ∃ j < n, ∃ i : Fin numPagData, (a + j) / pageSize = pagLogInitDataP0 + i.val ∧
    f = frameNat ((s.task u).phPages i) ∧ x = (a + j) % pageSize

/-- Memory after `n` characters have gone to the buffer of a reader: they are there, and nothing
else has changed. -/
structure Delivered (s : Kernel) (b : Slot) (n : ℕ) (mm : Memory) : Prop where
  bytes : ∀ t : Kernel, t.mm = mm → (t.task b).phPages = (s.task b).phPages →
    t.dataBytes b (s.task b).buffer n = circBytes s.kbd n
  others : ∀ f x, ¬ s.OwnsByte b (s.task b).buffer n f x → mm.frame f x = s.mm.frame f x

/-- **A delivery** to a buffer in the data pages puts the characters there. -/
lemma copyFromCircBuffer_delivers (hf : FramesOk s) {b : Slot} (hb : s.Live b) {size : ℤ}
    (hsize : size ≤ circularSize) (hin : InData (s.task b).buffer size.toNat) :
    ∃ mm, s.copyFromCircBuffer b size = .ret () { s with mm := mm } ∧
      s.Delivered b size.toNat mm := by
  have hlen : (circBytes s.kbd size.toNat).length = size.toNat := by simp [circBytes]
  have hv := windowOf_validBuffer hf hb hin
  have hcopy := copyToUser_of_present (s.windowOf b) ((s.task b).buffer + numPagData * pageSize)
    (circBytes s.kbd size.toNat) (fun j hj => hv.present j (hlen ▸ hj))
  rcases s.copyFromCircBuffer_cases b size with ⟨hended, -⟩ | ⟨-, mm, ⟨hc, h⟩ | ⟨hc, -⟩⟩
  · omega
  · rw [hcopy, Outcome.ret.injEq] at hc
    refine ⟨_, h, fun t hmm hph => ?_, fun f x hno => ?_⟩
    · refine List.ext_getElem (by simp [dataBytes, hlen]) fun j hj hj' => ?_
      have hj'' : j < size.toNat := hlen ▸ hj'
      obtain ⟨hi, hfj, -, hmj⟩ := s.windowOf_frameOf b hin hj''
      have hload := load_storeAll (circBytes s.kbd size.toNat) (hlen.symm ▸ hv) j hj'
      rw [load, frameOf, storeAll_table, hmj] at hload
      rw [frameOf] at hfj
      rw [hfj, hc.2] at hload
      have hbyte : t.dataByte b ((s.task b).buffer + j) = _ := dif_pos hi
      simp only [dataBytes, List.getElem_map, List.getElem_range]
      rw [hbyte, hmm, hph, setSsPags_frame, hload]
    · have hsame : (s.windowOf b).frame f x = s.mm.frame f x :=
        congrFun (congrFun (setSsPags_frame ..) f) x
      rw [setSsPags_frame, ← hc.2, storeAll_frame_of_ne, hsame]
      intro j hj
      obtain ⟨hi, hfj, -, hmj⟩ := s.windowOf_frameOf b hin (hlen ▸ hj)
      rw [hfj, hmj, ← not_and_or]
      rintro ⟨rfl, rfl⟩
      refine hno ⟨j, hlen ▸ hj, ⟨_, hi⟩, ?_, rfl, rfl⟩
      have hlo : 264 * 4096 ≤ (s.task b).buffer := hin.lo
      show ((s.task b).buffer + j) / 4096 = 264 + (((s.task b).buffer + j) / 4096 - 264)
      omega
  · rw [hcopy] at hc
    simp at hc

/-! ## The characters in the buffer -/

lemma circBytes_eq (k : Keyboard) (n : ℕ) : circBytes k n =
    (List.range n).map fun i : ℕ => k.circular ((k.start + i) % circularSize) := by
  simp [circBytes, List.map_eq_flatMap, List.flatMap_assoc]

/-- The characters that were typed and not yet delivered. -/
def ringBytes (k : Keyboard) : List Byte := circBytes k k.circChars.toNat

lemma ringBytes_of_empty {k : Keyboard} (h : k.circChars = 0) : ringBytes k = [] := by
  rw [ringBytes, h]
  rfl

lemma ringBytes_putChar (h : s.kbd.RingOk) (hroom : s.kbd.circChars < circularSize) (c : Byte) :
    ringBytes (s.putChar c).kbd = ringBytes s.kbd ++ [c] := by
  obtain ⟨⟨hc0, -⟩, -, -, heq⟩ := h
  obtain ⟨n, hn⟩ := Int.eq_ofNat_of_zero_le hc0
  change s.kbd.circChars < 5 at hroom
  change s.kbd.p = (s.kbd.start + s.kbd.circChars) % 5 at heq
  have hchars : (s.putChar c).kbd.circChars.toNat = n + 1 := by
    show (s.kbd.circChars + 1).toNat = n + 1
    omega
  have hcirc : (s.putChar c).kbd.circular = Function.update s.kbd.circular s.kbd.p c := rfl
  have hstart : (s.putChar c).kbd.start = s.kbd.start := rfl
  rw [ringBytes, ringBytes, circBytes_eq, circBytes_eq, hchars, hcirc, hstart, hn, Int.toNat_natCast,
    List.range_succ, List.map_append]
  congr 1
  · refine List.map_congr_left fun i hi => Function.update_of_ne ?_ _ _
    rw [List.mem_range] at hi
    show (s.kbd.start + i) % 5 ≠ s.kbd.p
    omega
  · have hlast : (s.kbd.start + n) % circularSize = s.kbd.p := by
      show (s.kbd.start + n) % 5 = s.kbd.p
      omega
    simp only [List.map_cons, List.map_nil, hlast, Function.update_self]

lemma ringBytes_consume {n : ℤ} (h0 : 0 ≤ n) (hn : n ≤ s.kbd.circChars) :
    ringBytes s.kbd = circBytes s.kbd n.toNat ++ ringBytes (s.consume n).kbd := by
  obtain ⟨a, rfl⟩ := Int.eq_ofNat_of_zero_le h0
  obtain ⟨b, hb⟩ := Int.eq_ofNat_of_zero_le (Int.sub_nonneg_of_le hn)
  have hchars : s.kbd.circChars.toNat = a + b := by omega
  have hrest : (s.consume a).kbd.circChars.toNat = b := by
    show (s.kbd.circChars - a).toNat = b
    omega
  have hstart : (s.consume a).kbd.start = (s.kbd.start + a) % circularSize := rfl
  have hcirc : (s.consume a).kbd.circular = s.kbd.circular := rfl
  rw [ringBytes, ringBytes, circBytes_eq, circBytes_eq, circBytes_eq, hchars, hrest, hstart, hcirc,
    Int.toNat_natCast, List.range_add, List.map_append, List.map_map]
  congr 1
  refine List.map_congr_left fun i _ => ?_
  have hidx : (s.kbd.start + ((a + i : ℕ) : ℤ)) % circularSize =
      ((s.kbd.start + a) % circularSize + i) % circularSize := by
    show (s.kbd.start + ((a + i : ℕ) : ℤ)) % 5 = ((s.kbd.start + a) % 5 + i) % 5
    push_cast
    omega
  simp only [Function.comp_apply, hidx]

/-! ## What a reader gets -/

/-- The first reader misses one character less. -/
def countChar (s : Kernel) (b : Slot) : Kernel :=
  s.updTask b fun k => { k with pendingChars := k.pendingChars - 1 }

lemma countChar_task (s : Kernel) (b : Slot) : (s.countChar b).task b =
    { s.task b with pendingChars := (s.task b).pendingChars - 1 } := updTask_task_self ..

lemma sameSched_countChar (s : Kernel) (b : Slot) : SameSched s (s.countChar b) :=
  .updTask s b _ rfl rfl rfl

lemma countChar_delivers (hf : FramesOk s) {b : Slot} (hb : s.Live b) {size : ℤ}
    (hsize : size ≤ circularSize) (hin : InData (s.task b).buffer size.toNat) :
    ∃ mm, (s.countChar b).copyFromCircBuffer b size = .ret () { s.countChar b with mm := mm } ∧
      s.Delivered b size.toNat mm := by
  have hsame := s.sameSched_countChar b
  have hbuffer : ((s.countChar b).task b).buffer = (s.task b).buffer := by rw [countChar_task]
  obtain ⟨mm, hc, hdel⟩ := copyFromCircBuffer_delivers (s := s.countChar b) (b := b)
    (hf.ofSameSched hsame rfl) ((hsame.live_iff b).mpr hb) hsize (by rw [hbuffer]; exact hin)
  refine ⟨mm, hc, fun t hmm hph => ?_, fun f x hno => hdel.others f x ?_⟩
  · have h := hdel.bytes t hmm (hph.trans (hsame.pages b).symm)
    rwa [hbuffer] at h
  · rw [OwnsByte, hbuffer, hsame.pages b]
    exact hno

/-- With its last character the first reader is given all that it asked for, and goes on. -/
lemma serveReader_of_last {b : Slot} (hlast : (s.task b).pendingChars ≤ 1)
    (hc : (s.countChar b).copyFromCircBuffer b (s.task b).size = .ret () t) :
    s.serveReader b = .ret () (t.emptyCircBuffer.unblockAndEnqueque b) := by
  have hlast' : ((s.countChar b).task b).pendingChars ≤ 0 := by
    rw [countChar_task]
    show (s.task b).pendingChars - 1 ≤ 0
    omega
  have hsize' : ((s.countChar b).task b).size = (s.task b).size := by rw [countChar_task]
  unfold countChar at hc hlast' hsize'
  rw [serveReader, if_pos hlast', hsize', hc]

/-- With a buffer in the data pages it gets what is in the circular buffer. -/
lemma serveReader_last (hf : FramesOk s) {b : Slot} (hb : s.Live b)
    (hlast : (s.task b).pendingChars ≤ 1) (hsize : (s.task b).size ≤ circularSize)
    (hin : InData (s.task b).buffer (s.task b).size.toNat) :
    ∃ mm, s.serveReader b = .ret ()
        (({ s.countChar b with mm := mm }.emptyCircBuffer).unblockAndEnqueque b) ∧
      s.Delivered b (s.task b).size.toNat mm := by
  obtain ⟨mm, hc, hdel⟩ := countChar_delivers hf hb hsize hin
  exact ⟨mm, serveReader_of_last hlast hc, hdel⟩

/-- A full buffer goes to the first reader, which waits on. -/
lemma serveReader_full (hf : FramesOk s) {b : Slot} (hb : s.Live b)
    (hmore : 1 < (s.task b).pendingChars) (hfull : circularSize ≤ s.kbd.circChars)
    (hin : InData (s.task b).buffer circularSize) :
    ∃ mm, s.serveReader b = .ret ()
        (({ s.countChar b with mm := mm }.advanceReader b).emptyCircBuffer) ∧
      s.Delivered b circularSize mm := by
  obtain ⟨mm, hc, hdel⟩ := countChar_delivers hf hb (le_refl (circularSize : ℤ)) hin
  have hmore' : ¬ ((s.countChar b).task b).pendingChars ≤ 0 := by
    rw [countChar_task]
    show ¬ (s.task b).pendingChars - 1 ≤ 0
    omega
  have hfull' : (s.countChar b).kbd.circChars ≥ circularSize := hfull
  refine ⟨mm, ?_, hdel⟩
  unfold countChar at hc hmore' hfull' ⊢
  rw [serveReader, if_neg hmore', if_pos hfull', hc]

/-! ## The events of the keyboard -/

lemma ringBytes_length {k : Keyboard} (h : k.RingOk) : ((ringBytes k).length : ℤ) = k.circChars := by
  rw [ringBytes, circBytes_eq, List.length_map, List.length_range, Int.toNat_of_nonneg h.chars.1]

/-- What a new character does for the first reader `b` of the queue: the bytes `bs` go from the
ring to its buffer, and its read is over or goes on behind them. -/
structure Serves (s t : Kernel) (b : Slot) (rest : List Slot) (bs : List Byte) : Prop where
  ring : bs ++ ringBytes t.kbd = ringBytes s.kbd
  room : t.kbd.circChars < circularSize
  bytes : t.dataBytes b (s.task b).buffer bs.length = bs
  frames : ∀ f x, ¬ s.OwnsByte b (s.task b).buffer bs.length f x → t.mm.frame f x = s.mm.frame f x
  pages : (t.task b).phPages = (s.task b).phPages
  stack : (t.task b).stack = (s.task b).stack
  others : ∀ u ∈ rest, (t.task u).reader = (s.task u).reader
  goes : (t.keyboardQueue = rest ∧ bs.length = (s.task b).size) ∨
    (t.keyboardQueue = b :: rest ∧ (t.task b).reader =
      ((s.task b).pendingChars - 1, (s.task b).size - bs.length, (s.task b).buffer + bs.length) ∧
      1 < (s.task b).pendingChars)
  /-- A reader whose read is over is the last process of the runqueue, and the ring is empty. -/
  ended : b ∉ t.keyboardQueue →
    t.runqueue.getLast? = some b ∧ t.kbd.circChars = 0 ∧ t.kbd.start = t.kbd.p

lemma countChar_task_ne (s : Kernel) {b u : Slot} (h : u ≠ b) : (s.countChar b).task u = s.task u :=
  updTask_task_ne _ _ h

section

variable {b : Slot} {rest : List Slot} (hs : SchedOk s Q) (hQ : Q .keyboardQueue = b :: rest)

include hs hQ

/-- **The last character**: the reader gets what is in the ring, and its read is over. -/
lemma serves_last (hf : FramesOk s) (hring : s.kbd.RingOk) (hlast : (s.task b).pendingChars ≤ 1)
    (hcirc : (s.task b).size = s.kbd.circChars)
    (hin : InData (s.task b).buffer (s.task b).size.toNat) :
    ∃ t, s.serveReader b = .ret () t ∧ s.Serves t b rest (ringBytes s.kbd) := by
  have hb : s.Live b := (hs.live_iff b).mpr ⟨_, by rw [hQ]; simp⟩
  have hlen := ringBytes_length hring
  have hall : (s.task b).size.toNat = (ringBytes s.kbd).length := by omega
  have hbytes : circBytes s.kbd (ringBytes s.kbd).length = ringBytes s.kbd := by
    rw [← hall, hcirc, ringBytes]
  obtain ⟨mm, hserve, hdel⟩ := serveReader_last hf hb hlast (hcirc ▸ hring.chars.2) hin
  rw [hall] at hdel
  set u := { s.countChar b with mm := mm }.emptyCircBuffer with hu
  have hok : SchedOk u Q :=
    hs.congr ((s.sameSched_countChar b).trans (.other rfl rfl rfl rfl rfl))
  have htask : (u.unblockAndEnqueque b).task b =
      { s.task b with pendingChars := (s.task b).pendingChars - 1 } := s.countChar_task b
  have hpages : ((u.unblockAndEnqueque b).task b).phPages = (s.task b).phPages := by rw [htask]
  refine ⟨_, hserve, List.append_nil _, Int.natCast_pos.mpr (by decide), ?_, hdel.others, hpages, ?_,
    fun v hv => ?_, .inl ⟨keyboardQueue_unblockAndEnqueque hok hQ, hlen.trans hcirc.symm⟩,
    fun _ => ⟨?_, rfl, rfl⟩⟩
  · rw [hdel.bytes _ rfl hpages, hbytes]
  · rw [htask]
  · exact congrArg Task.reader (s.countChar_task_ne (first_ne hs hQ hv))
  · rw [runqueue_unblockAndEnqueque hok hQ]
    exact List.getLast?_concat

/-- **A full buffer**: the reader gets it, and waits on behind it. -/
lemma serves_full (hf : FramesOk s) (hring : s.kbd.RingOk) (hmore : 1 < (s.task b).pendingChars)
    (hcirc : s.kbd.circChars = circularSize) (hin : InData (s.task b).buffer circularSize) :
    ∃ t, s.serveReader b = .ret () t ∧ s.Serves t b rest (ringBytes s.kbd) := by
  have hb : s.Live b := (hs.live_iff b).mpr ⟨_, by rw [hQ]; simp⟩
  have hqueue : s.keyboardQueue = b :: rest := by rw [hs.keyboardQueue_eq, hQ]
  have hlen := ringBytes_length hring
  have hfive : (ringBytes s.kbd).length = circularSize := by omega
  have hbytes : circBytes s.kbd circularSize = ringBytes s.kbd := by
    rw [ringBytes, hcirc, Int.toNat_natCast]
  obtain ⟨mm, hserve, hdel⟩ := serveReader_full hf hb hmore hcirc.ge hin
  set u := { s.countChar b with mm := mm } with hu
  have htask : ((u.advanceReader b).emptyCircBuffer).task b = { s.task b with
      pendingChars := (s.task b).pendingChars - 1
      size := (s.task b).size - circularSize
      buffer := (s.task b).buffer + circularSize } := by
    show (u.advanceReader b).task b = _
    have hkbd : u.kbd.circChars = circularSize := hcirc
    have hown : u.task b = _ := s.countChar_task b
    rw [advanceReader, updTask_task_self, hkbd, hown, Int.toNat_natCast]
  have hpages : (((u.advanceReader b).emptyCircBuffer).task b).phPages = (s.task b).phPages := by
    rw [htask]
  refine ⟨_, hserve, List.append_nil _, Int.natCast_pos.mpr (by decide), ?_, ?_, hpages, ?_,
    fun v hv => ?_, .inr ⟨hqueue, ?_, hmore⟩, fun hno => absurd ?_ hno⟩
  · rw [hfive, hdel.bytes _ rfl hpages, hbytes]
  · rw [hfive]
    exact hdel.others
  · rw [htask]
  · have hne := first_ne hs hQ hv
    have hother : (u.advanceReader b).task v = (s.countChar b).task v := by
      rw [advanceReader, updTask_task_ne _ _ hne]
    exact congrArg Task.reader (hother.trans (s.countChar_task_ne hne))
  · rw [htask, hfive]
    rfl
  · show b ∈ s.keyboardQueue
    rw [hqueue]
    exact List.mem_cons_self

/-- **Neither**: nothing is delivered, and the reader misses one character less. -/
lemma serves_none (hmore : 1 < (s.task b).pendingChars) (hroom : s.kbd.circChars < circularSize) :
    ∃ t, s.serveReader b = .ret () t ∧ s.Serves t b rest [] := by
  have hqueue : s.keyboardQueue = b :: rest := by rw [hs.keyboardQueue_eq, hQ]
  refine ⟨s.countChar b, serveReader_of_waits hmore hroom, rfl, hroom, rfl, fun _ _ _ => rfl, ?_, ?_,
    fun v hv => ?_, .inr ⟨hqueue, ?_, hmore⟩, fun hno => absurd ?_ hno⟩
  · rw [countChar_task]
  · rw [countChar_task]
  · exact congrArg Task.reader (s.countChar_task_ne (first_ne hs hQ hv))
  · rw [countChar_task]
    simp [Task.reader]
  · show b ∈ s.keyboardQueue
    rw [hqueue]
    exact List.mem_cons_self

/-- The first reader is served.  The ring has the new character already, so that what the reader
has to come is one less than what it misses and what is in the ring. -/
lemma serveReader_serves (hf : FramesOk s) (hring : s.kbd.RingOk)
    (hmiss : 0 < (s.task b).pendingChars)
    (hsize : (s.task b).size = (s.task b).pendingChars - 1 + s.kbd.circChars)
    (hin : InData (s.task b).buffer (s.task b).size.toNat) :
    ∃ t bs, s.serveReader b = .ret () t ∧ s.Serves t b rest bs := by
  by_cases hlast : (s.task b).pendingChars ≤ 1
  · obtain ⟨t, hserve, h⟩ := serves_last hs hQ hf hring hlast (by omega) hin
    exact ⟨t, _, hserve, h⟩
  · by_cases hroom : s.kbd.circChars < circularSize
    · obtain ⟨t, hserve, h⟩ := serves_none hs hQ (not_le.mp hlast) hroom
      exact ⟨t, _, hserve, h⟩
    · have hcirc : s.kbd.circChars = circularSize := le_antisymm hring.chars.2 (not_lt.mp hroom)
      have hfits : circularSize ≤ (s.task b).size.toNat := by omega
      obtain ⟨t, hserve, h⟩ :=
        serves_full hs hQ hf hring (not_le.mp hlast) hcirc (hin.mono hfits)
      exact ⟨t, _, hserve, h⟩

end

lemma Serves.congr {s' : Kernel} {b : Slot} {rest : List Slot} {bs : List Byte}
    (h : s.Serves t b rest bs) (hkbd : s'.kbd = s.kbd) (hmm : s'.mm = s.mm)
    (hb : s'.task b = s.task b) (hreader : ∀ u, (s'.task u).reader = (s.task u).reader) :
    s'.Serves t b rest bs := by
  refine ⟨hkbd ▸ h.ring, h.room, hb ▸ h.bytes, ?_, hb ▸ h.pages, hb ▸ h.stack, fun u hu => ?_, ?_,
    h.ended⟩
  · unfold OwnsByte
    rw [hb, hmm]
    exact h.frames
  · rw [hreader u]
    exact h.others u hu
  · rw [hb]
    exact h.goes

/-- A key that is released. -/
lemma step_key_release (hs : SchedOk s Q) {regs : SavedRegs} {scan beyond : Byte}
    (hmake : isMake scan = false) (hst : s.step ⟨regs, .key scan beyond⟩ = .ok t) :
    SameKeyboard s t := by
  rcases (hs.congr (s.quiet_enter regs).sched).keyboardRoutine_cases scan beyond with
    ⟨-, hk⟩ | ⟨hno, -⟩
  · have hd : s.dispatch ⟨regs, .key scan beyond⟩ = .done (s.enter regs) := congrArg finishInt hk
    rw [step_of_done hd, Except.ok.injEq] at hst
    subst hst
    have hdata := s.sameData_enter regs
    exact ⟨hdata.kbd, keyboardQueue_of_quiet (s.quiet_enter regs), fun u _ => hdata.reader u⟩
  · rw [hmake] at hno
    simp at hno

/-- A key that is pressed while nobody waits. -/
lemma step_key_idle (hs : SchedOk s Q) {regs : SavedRegs} {scan beyond : Byte}
    (hmake : isMake scan = true) (hnil : s.keyboardQueue = [])
    (hst : s.step ⟨regs, .key scan beyond⟩ = .ok t) :
    t.kbd = (s.putChar (charOf scan beyond)).kbd ∧ t.keyboardQueue = [] := by
  rw [hs.keyboardQueue_eq] at hnil
  rcases (hs.congr (s.quiet_enter regs).sched).keyboardRoutine_cases scan beyond with
    ⟨hno, -⟩ | ⟨-, ⟨-, hk⟩ | ⟨b, rest, hQ, -⟩⟩
  · rw [hmake] at hno
    simp at hno
  · have hd : s.dispatch ⟨regs, .key scan beyond⟩ = _ := congrArg finishInt hk
    rw [step_of_done hd, Except.ok.injEq] at hst
    subst hst
    refine ⟨rfl, ?_⟩
    show s.keyboardQueue = []
    rw [hs.keyboardQueue_eq, hnil]
  · rw [hnil] at hQ
    simp at hQ

/-- A key that is pressed while processes wait goes to the first of them. -/
lemma dispatch_key_waiting (hs : SchedOk s Q) {regs : SavedRegs} {scan beyond : Byte} {b : Slot}
    {rest : List Slot} (hmake : isMake scan = true) (hqueue : s.keyboardQueue = b :: rest) :
    s.dispatch ⟨regs, .key scan beyond⟩ =
      finishInt (((s.enter regs).putChar (charOf scan beyond)).serveReader b) := by
  rw [hs.keyboardQueue_eq] at hqueue
  rcases (hs.congr (s.quiet_enter regs).sched).keyboardRoutine_cases scan beyond with
    ⟨hno, -⟩ | ⟨-, ⟨hQ, -⟩ | ⟨b', rest', hQ, hk⟩⟩
  · rw [hmake] at hno
    simp at hno
  · rw [hqueue] at hQ
    simp at hQ
  · rw [hqueue, List.cons.injEq] at hQ
    rw [hQ.1]
    exact congrArg finishInt hk

lemma dispatch_key_serves (hs : SchedOk s Q) (hf : FramesOk s) (regs : SavedRegs) {scan : Byte} (beyond : Byte)
    {b : Slot} {rest : List Slot} (hmake : isMake scan = true)
    (hqueue : s.keyboardQueue = b :: rest) (hring : s.RingInv)
    (hroom : s.kbd.circChars < circularSize) (hmiss : 0 < (s.task b).pendingChars)
    (hin : InData (s.task b).buffer (s.task b).size.toNat) :
    ∃ t bs, s.dispatch ⟨regs, .key scan beyond⟩ = .done t ∧
      (s.putChar (charOf scan beyond)).Serves t b rest bs := by
  set c := charOf scan beyond
  set s' := (s.enter regs).putChar c with hs'
  have hreader : ∀ u, (s'.task u).reader = (s.task u).reader := (s.sameData_enter regs).reader
  have hb := hreader b
  simp only [Task.reader, Prod.mk.injEq] at hb
  obtain ⟨hpend, hsize, hbuffer⟩ := hb
  have hsame : SameSched s s' :=
    (s.quiet_enter regs).sched.trans ((s.enter regs).quiet_putChar c).sched
  have hfirst := hring.readers.first b (by rw [hqueue]; rfl)
  have hcirc : s'.kbd.circChars = s.kbd.circChars + 1 := rfl
  have hQ : Q .keyboardQueue = b :: rest := by rw [← hs.keyboardQueue_eq, hqueue]
  obtain ⟨t', bs, hserve, h⟩ := serveReader_serves (s := s') (b := b)
    (hs.congr hsame) hQ (hf.ofSameSched hsame rfl)
    (ringOk_putChar hring.ring hroom c) (hpend ▸ hmiss)
    (by rw [hpend, hsize, hcirc, hfirst]; omega) (by rw [hbuffer, hsize]; exact hin)
  have hd : s.dispatch ⟨regs, .key scan beyond⟩ = .done t' := by
    rw [dispatch_key_waiting hs hmake hqueue, ← hs', hserve]
    rfl
  have hne : b ≠ s.cur := (reader_ne_cur hs (by rw [hqueue]; exact List.mem_cons_self)).1
  have htask : s'.task b = s.task b := by
    show (s.enter regs).task b = _
    rw [enter, updTask_task_ne _ _ hne]
  exact ⟨t', bs, hd, h.congr rfl rfl htask.symm fun u => (hreader u).symm⟩

/-- With its last character the first reader gets what is behind `start`, whatever that is. -/
lemma dispatch_key_last (hs : SchedOk s Q) (hf : FramesOk s) (regs : SavedRegs) {scan : Byte}
    (beyond : Byte) {b : Slot} {rest : List Slot} (hmake : isMake scan = true)
    (hqueue : s.keyboardQueue = b :: rest) (hlast : (s.task b).pendingChars ≤ 1)
    (hsize : (s.task b).size ≤ circularSize)
    (hin : InData (s.task b).buffer (s.task b).size.toNat) :
    ∃ t, s.dispatch ⟨regs, .key scan beyond⟩ = .done t ∧ t.keyboardQueue = rest ∧
      t.dataBytes b (s.task b).buffer (s.task b).size.toNat =
        circBytes (s.putChar (charOf scan beyond)).kbd (s.task b).size.toNat := by
  set s' := (s.enter regs).putChar (charOf scan beyond) with hs'
  have hreader : (s'.task b).reader = (s.task b).reader := (s.sameData_enter regs).reader b
  simp only [Task.reader, Prod.mk.injEq] at hreader
  obtain ⟨hpend, hsz, hbuffer⟩ := hreader
  have hsame : SameSched s s' :=
    (s.quiet_enter regs).sched.trans ((s.enter regs).quiet_putChar (charOf scan beyond)).sched
  have hQ : Q .keyboardQueue = b :: rest := by rw [← hs.keyboardQueue_eq, hqueue]
  have hb : s'.Live b := ((hs.congr hsame).live_iff b).mpr ⟨_, by rw [hQ]; simp⟩
  obtain ⟨mm, hserve, hdel⟩ := serveReader_last (hf.ofSameSched hsame rfl) hb (hpend ▸ hlast)
    (hsz ▸ hsize) (by rw [hbuffer, hsz]; exact hin)
  refine ⟨({ s'.countChar b with mm := mm }.emptyCircBuffer).unblockAndEnqueque b, ?_, ?_, ?_⟩
  · rw [dispatch_key_waiting hs hmake hqueue, ← hs', hserve]
    rfl
  · refine keyboardQueue_unblockAndEnqueque ?_ hQ
    exact (hs.congr hsame).congr ((s'.sameSched_countChar b).trans (.other rfl rfl rfl rfl rfl))
  · rw [← hbuffer, ← hsz]
    refine hdel.bytes _ rfl ?_
    show ((s'.countChar b).task b).phPages = _
    rw [countChar_task]

/-- The state in which `sys_read` calls `sys_read_keyboard`, with the arguments in the task. -/
def readArgs (s : Kernel) (regs : SavedRegs) (buffer : ℕ) (size : ℤ) : Kernel :=
  s.updTask s.cur fun k => { k with stack := regs, size := size, buffer := buffer }

lemma sameSched_readArgs (s : Kernel) (regs : SavedRegs) (buffer : ℕ) (size : ℤ) :
    SameSched s (s.readArgs regs buffer size) := .updTask s s.cur _ rfl rfl rfl

lemma readArgs_current (s : Kernel) (regs : SavedRegs) (buffer : ℕ) (size : ℤ) :
    (s.readArgs regs buffer size).current =
      { s.current with stack := regs, size := size, buffer := buffer } := updTask_task_self ..

lemma readArgs_setPending_task_ne (s : Kernel) (regs : SavedRegs) (buffer : ℕ) (size : ℤ) {v : Slot}
    (hv : v ≠ s.cur) : ((s.readArgs regs buffer size).setPending size).task v = s.task v := by
  have hv' : v ≠ (s.readArgs regs buffer size).cur := hv
  rw [setPending, updTask_task_ne _ _ hv', readArgs, updTask_task_ne _ _ hv]

lemma setEax_result (s : Kernel) (r : ℤ) : ((s.setEax r).task s.cur).stack eaxIndex = r := by
  simp [setEax]

lemma dispatch_readsKeyboard {fd : ℤ} {buffer : ℕ} {size : ℤ} (h : s.ReadsKeyboard fd buffer size)
    (regs : SavedRegs) : s.dispatch ⟨regs, .read fd buffer size⟩ =
      finish ((s.readArgs regs buffer size).sysReadKeyboard size) := by
  have hargs : (s.enter regs).updTask (s.enter regs).cur
      (fun k => { k with size := size, buffer := buffer }) = s.readArgs regs buffer size := by
    simp [enter, readArgs, updTask]
  show finish ((s.enter regs).sysRead fd buffer size) = _
  rw [((s.readsKeyboard_enter ..).mpr h).sysRead_eq, hargs]

/-- A read that is served at once. -/
lemma step_read_now (hs : SchedOk s Q) (hf : FramesOk s) {regs : SavedRegs} {fd : ℤ} {buffer : ℕ}
    {size : ℤ} (hread : s.ReadsKeyboard fd buffer size) (hring : s.kbd.RingOk)
    (hle : size ≤ s.kbd.circChars) (hnil : s.keyboardQueue = []) (hin : InData buffer size.toNat)
    (hst : s.step ⟨regs, .read fd buffer size⟩ = .ok t) :
    t.kbd = (s.consume size).kbd ∧ t.keyboardQueue = [] ∧
      (t.task s.cur).stack eaxIndex = size ∧
      t.dataBytes s.cur buffer size.toNat = circBytes s.kbd size.toNat := by
  set s₁ := s.readArgs regs buffer size with hs₁
  set s₂ := s₁.setPending size with hs₂
  have hsame₁ : SameSched s s₁ := s.sameSched_readArgs regs buffer size
  have hsame₂ : SameSched s s₂ := hsame₁.trans (s₁.quiet_setPending size).sched
  have hbuffer : (s₂.task s.cur).buffer = buffer := by
    simp [hs₂, hs₁, setPending, readArgs]
  obtain ⟨mm, hc, hdel⟩ := copyFromCircBuffer_delivers (s := s₂) (b := s.cur)
    (hf.ofSameSched hsame₂ rfl) ((hsame₂.live_iff s.cur).mpr hs.cur_live)
    (hle.trans hring.chars.2) (by rw [hbuffer]; exact hin)
  have hret : s₁.sysReadKeyboard size = .ret size ({ s₂ with mm := mm }.consume size) := by
    have hc' : (s₁.setPending size).copyFromCircBuffer s₁.cur size =
        .ret () { s₂ with mm := mm } := hc
    rw [sysReadKeyboard_of_enough (hs.congr hsame₁) hle hnil, hc']
  have hd : s.dispatch ⟨regs, .read fd buffer size⟩ =
      .done (({ s₂ with mm := mm }.consume size).setEax size) := by
    rw [dispatch_readsKeyboard hread, ← hs₁, hret]
    rfl
  rw [step_of_done hd, Except.ok.injEq] at hst
  subst hst
  refine ⟨rfl, hnil, ?_, ?_⟩
  · exact ({ s₂ with mm := mm }.consume size).setEax_result size
  · have hbytes := hdel.bytes _ rfl
      ((({ s₂ with mm := mm }.consume size).quiet_setEax size).sched.pages s.cur)
    rwa [hbuffer] at hbytes

/-- A read that has to wait. -/
lemma dispatch_read_waits (hs : SchedOk s Q) (regs : SavedRegs) {fd : ℤ} {buffer : ℕ} {size : ℤ}
    (hread : s.ReadsKeyboard fd buffer size)
    (hwait : s.kbd.circChars < size ∨ s.keyboardQueue ≠ []) (hpid : s.current.pid ≠ 0) :
    ∃ t, s.dispatch ⟨regs, .read fd buffer size⟩ = .done t ∧ s.JoinsQueue t
      (if size > s.kbd.circChars then size - s.kbd.circChars else 0, size, buffer) := by
  set s₁ := s.readArgs regs buffer size with hs₁
  set s₂ := s₁.setPending size with hs₂
  have hsame₁ : SameSched s s₁ := s.sameSched_readArgs regs buffer size
  have hsame₂ : SameSched s s₂ := hsame₁.trans (s₁.quiet_setPending size).sched
  have hpid₁ : s₁.current.pid ≠ 0 := by
    rw [hs₁, readArgs_current]
    exact hpid
  obtain ⟨t, hsw, hjoin⟩ := waitForChars_joinsQueue (hs.congr hsame₂)
    (fun h => hpid (hs.current_pid_eq_zero_iff.mpr h)) size
  refine ⟨t, ?_, hjoin.kbd, hjoin.queue, fun v hv => ?_, ?_, hjoin.result⟩
  · rw [dispatch_readsKeyboard hread, ← hs₁, sysReadKeyboard_of_waits (hs.congr hsame₁) hwait hpid₁,
      hsw]
    rfl
  · rw [hjoin.others v hv]
    exact congrArg Task.reader (s.readArgs_setPending_task_ne regs buffer size hv)
  · refine hjoin.own.trans ?_
    rw [hs₂, setPending_pendingChars]
    simp [hs₁, setPending, readArgs, current]

/-- A read that is refused. -/
lemma step_read_refused (hs : SchedOk s Q) {regs : SavedRegs} {fd : ℤ} {buffer : ℕ} {size : ℤ}
    (hread : s.ReadsKeyboard fd buffer size)
    (hwait : s.kbd.circChars < size ∨ s.keyboardQueue ≠ []) (hpid : s.current.pid = 0)
    (hst : s.step ⟨regs, .read fd buffer size⟩ = .ok t) :
    SameKeyboard s t ∧ (t.task s.cur).stack eaxIndex = -ePerm := by
  set s₁ := s.readArgs regs buffer size with hs₁
  have hsame₁ : SameSched s s₁ := s.sameSched_readArgs regs buffer size
  have hpid₁ : s₁.current.pid = 0 := by
    rw [hs₁, readArgs_current]
    exact hpid
  have hd : s.dispatch ⟨regs, .read fd buffer size⟩ =
      .done ((s₁.setPending size).setEax (-ePerm)) := by
    rw [dispatch_readsKeyboard hread, ← hs₁, sysReadKeyboard_of_task0 (hs.congr hsame₁) hwait hpid₁]
    rfl
  rw [step_of_done hd, Except.ok.injEq] at hst
  subst hst
  refine ⟨⟨rfl, rfl, fun u hu => ?_⟩, ?_⟩
  · have hne := (reader_ne_cur hs hu).1
    refine (((s₁.setPending size).sameData_setEax (-ePerm)).reader u).trans ?_
    exact congrArg Task.reader (s.readArgs_setPending_task_ne regs buffer size hne)
  · exact (s₁.setPending size).setEax_result (-ePerm)

end Kernel

/-! ## The history of a run -/

/-- A read of the keyboard: who asked for how many bytes, and where to, the bytes that were found
there after each delivery, and whether the read is over. -/
structure KeyRead where
  proc : Slot
  buffer : ℕ
  size : ℤ
  got : List Byte
  ended : Bool

/-- The characters that were typed, and the reads in the order in which they were issued. -/
structure KeyLog where
  typed : List Byte
  reads : List KeyRead

/-- After `n` bytes have been delivered to a process that waits. -/
def KeyRead.deliver (t : Kernel) (u : Slot) (n : ℕ) (r : KeyRead) : KeyRead :=
  if r.proc = u ∧ r.ended = false then
    { r with
      got := r.got ++ t.dataBytes u (r.buffer + r.got.length) n
      ended := decide (u ∉ t.keyboardQueue) }
  else r

namespace Kernel

/-- What a reader got in a step: what it had to come before, and has not to come any more. -/
def delivered (s t : Kernel) (u : Slot) : ℕ :=
  ((s.task u).size - if u ∈ t.keyboardQueue then (t.task u).size else 0).toNat

/-- The read that the running process has issued: it waits, or it has returned `size`, or it was
refused. -/
def issued (s t : Kernel) (buffer : ℕ) (size : ℤ) : List KeyRead :=
  if s.cur ∈ t.keyboardQueue then [⟨s.cur, buffer, size, [], false⟩]
  else if (t.task s.cur).stack eaxIndex = size then
    [⟨s.cur, buffer, size, t.dataBytes s.cur buffer size.toNat, true⟩]
  else []

end Kernel

open Classical in
/-- The history after a step from `s` to `t`. -/
noncomputable def KeyLog.note (s : Kernel) (e : Event) (t : Kernel) (g : KeyLog) : KeyLog :=
  match e.act with
  | .key scan beyond =>
    if Kernel.isMake scan then
      { typed := g.typed ++ [Kernel.charOf scan beyond]
        reads := match s.keyboardQueue with
          | [] => g.reads
          | u :: _ => g.reads.map (KeyRead.deliver t u (s.delivered t u)) }
    else g
  | .read fd buffer size =>
    if s.ReadsKeyboard fd buffer size then { g with reads := g.reads ++ s.issued t buffer size }
    else g
  | _ => g

lemma KeyRead.deliver_of_ended {t : Kernel} {u : Slot} {n : ℕ} {r : KeyRead} (h : r.ended = true) :
    r.deliver t u n = r := by
  rw [deliver, if_neg]
  simp [h]

lemma KeyRead.deliver_of_ne {t : Kernel} {u : Slot} {n : ℕ} {r : KeyRead} (h : r.proc ≠ u) :
    r.deliver t u n = r := by
  rw [deliver, if_neg]
  exact fun hand => h hand.1

namespace Kernel

variable {s t : Kernel} {e : Event} {Q : Node → List Slot} {g : KeyLog}
  {past waiting : List KeyRead}

lemma note_of_not_touches (h : ¬ s.TouchesKeyboard e) (t : Kernel) (g : KeyLog) :
    g.note s e t = g := by
  obtain ⟨regs, act⟩ := e
  cases act with
  | key scan beyond => exact absurd trivial h
  | read fd buffer size => exact if_neg h
  | _ => rfl

lemma note_key_idle {regs : SavedRegs} {scan beyond : Byte} (hmake : isMake scan = true)
    (hnil : s.keyboardQueue = []) (t : Kernel) (g : KeyLog) :
    g.note s ⟨regs, .key scan beyond⟩ t = ⟨g.typed ++ [charOf scan beyond], g.reads⟩ := by
  rw [KeyLog.note]
  simp only [hmake, if_true, hnil]

lemma note_key_waiting {regs : SavedRegs} {scan beyond : Byte} {b : Slot} {rest : List Slot}
    (hmake : isMake scan = true) (hqueue : s.keyboardQueue = b :: rest) (t : Kernel) (g : KeyLog) :
    g.note s ⟨regs, .key scan beyond⟩ t = ⟨g.typed ++ [charOf scan beyond],
      g.reads.map (KeyRead.deliver t b (s.delivered t b))⟩ := by
  rw [KeyLog.note]
  simp only [hmake, if_true, hqueue]

lemma note_read {regs : SavedRegs} {fd : ℤ} {buffer : ℕ} {size : ℤ}
    (hread : s.ReadsKeyboard fd buffer size) (t : Kernel) (g : KeyLog) :
    g.note s ⟨regs, .read fd buffer size⟩ t =
      ⟨g.typed, g.reads ++ s.issued t buffer size⟩ := if_pos hread

/-- The read of a process that waits. -/
structure Waits (s : Kernel) (u : Slot) (r : KeyRead) : Prop where
  proc : r.proc = u
  waits : r.ended = false
  miss : 0 < (s.task u).pendingChars
  rest : r.got.length + (s.task u).size = r.size
  here : (s.task u).buffer = r.buffer + r.got.length
  inData : InData (s.task u).buffer (s.task u).size.toNat

lemma Waits.congr {u : Slot} {r : KeyRead} (h : s.Waits u r)
    (hreader : (t.task u).reader = (s.task u).reader) : t.Waits u r := by
  simp only [Task.reader, Prod.mk.injEq] at hreader
  obtain ⟨hpend, hsize, hbuffer⟩ := hreader
  refine ⟨h.proc, h.waits, hpend ▸ h.miss, hsize ▸ h.rest, hbuffer ▸ h.here, ?_⟩
  rw [hbuffer, hsize]
  exact h.inData

/-- **The invariant.**  What was typed is what the reads have got, one after the other, and what is
in the buffer. -/
structure StreamOk (s : Kernel) (g : KeyLog) (past waiting : List KeyRead) : Prop where
  reads : g.reads = past ++ waiting
  ring : s.RingInv
  room : s.keyboardQueue ≠ [] → s.kbd.circChars < circularSize
  served : ∀ r ∈ past, r.ended = true ∧ r.got.length = r.size
  queued : List.Forall₂ s.Waits s.keyboardQueue waiting
  fresh : ∀ r ∈ waiting.tail, r.got = []
  typed : g.typed = (past ++ waiting).flatMap KeyRead.got ++ ringBytes s.kbd

lemma forall₂_waits_congr {us : List Slot} {rs : List KeyRead} (h : List.Forall₂ s.Waits us rs)
    (hreader : ∀ u ∈ us, (t.task u).reader = (s.task u).reader) : List.Forall₂ t.Waits us rs := by
  induction h with
  | nil => exact .nil
  | cons hw _ ih =>
    exact .cons (hw.congr (hreader _ (by simp))) (ih fun u hu => hreader u (by simp [hu]))

lemma StreamOk.congr (h : s.StreamOk g past waiting) (hsame : SameKeyboard s t) :
    t.StreamOk g past waiting := by
  refine ⟨h.reads, h.ring.congr hsame, ?_, h.served, ?_, h.fresh, ?_⟩
  · rw [hsame.queue, hsame.kbd]
    exact h.room
  · rw [hsame.queue]
    exact forall₂_waits_congr h.queued hsame.reader
  · rw [hsame.kbd]
    exact h.typed

lemma flatMap_got_of_nil {rs : List KeyRead} (h : ∀ r ∈ rs, r.got = []) :
    rs.flatMap KeyRead.got = [] := by
  rw [List.flatMap_eq_nil_iff]
  exact h

/-- A character that is typed while nobody waits. -/
lemma StreamOk.putChar (h : s.StreamOk g past waiting) (hroom : s.kbd.circChars < circularSize)
    (ht : t.RingInv) {c : Byte} (hkbd : t.kbd = (s.putChar c).kbd) (hs : s.keyboardQueue = [])
    (hnil : t.keyboardQueue = []) : t.StreamOk ⟨g.typed ++ [c], g.reads⟩ past waiting := by
  refine ⟨h.reads, ht, fun hno => absurd hnil hno, h.served, ?_, h.fresh, ?_⟩
  · rw [hnil, ← hs]
    exact forall₂_waits_congr h.queued (by simp [hs])
  · show g.typed ++ [c] = _
    rw [h.typed, hkbd, ringBytes_putChar h.ring.ring hroom, List.append_assoc]

/-- A delivery to the first reader reaches no other read. -/
lemma StreamOk.map_deliver {b : Slot} {rest : List Slot} {r : KeyRead} {rs : List KeyRead} {n : ℕ}
    (h : s.StreamOk g past (r :: rs)) (hrest : List.Forall₂ s.Waits rest rs) (hb : b ∉ rest) :
    g.reads.map (KeyRead.deliver t b n) = past ++ r.deliver t b n :: rs := by
  have hpast : past.map (KeyRead.deliver t b n) = past := by
    refine (List.map_congr_left (g := id) fun r hr => ?_).trans (List.map_id _)
    exact KeyRead.deliver_of_ended (h.served r hr).1
  have hothers : rs.map (KeyRead.deliver t b n) = rs := by
    clear h
    induction hrest with
    | nil => rfl
    | cons hw _ ih =>
      rw [List.mem_cons, not_or] at hb
      rw [List.map_cons, ih hb.2, KeyRead.deliver_of_ne]
      rw [hw.proc]
      exact fun heq => hb.1 heq.symm
  rw [h.reads, List.map_append, List.map_cons, hpast, hothers]

section

variable {c : Byte} {b : Slot} {rest : List Slot} {bs : List Byte} {r : KeyRead}

/-- The read of the first reader gets the bytes that go to its buffer. -/
lemma Waits.deliver_eq (hr : s.Waits b r) (hserve : (s.putChar c).Serves t b rest bs)
    (hb : b ∉ rest) : r.deliver t b (s.delivered t b) =
      { r with got := r.got ++ bs, ended := decide (b ∉ t.keyboardQueue) } := by
  have hn : s.delivered t b = bs.length := by
    rcases hserve.goes with ⟨hgone, hlen⟩ | ⟨hstays, hreader, -⟩
    · have hnot : b ∉ t.keyboardQueue := hgone ▸ hb
      rw [delivered, if_neg hnot]
      change (bs.length : ℤ) = (s.task b).size at hlen
      omega
    · have hin : b ∈ t.keyboardQueue := by
        rw [hstays]
        exact List.mem_cons_self
      simp only [Task.reader, Prod.mk.injEq] at hreader
      have hsize : (t.task b).size = (s.task b).size - bs.length := hreader.2.1
      rw [delivered, if_pos hin]
      omega
  have hbytes : t.dataBytes b (r.buffer + r.got.length) bs.length = bs := by
    rw [← hr.here]
    exact hserve.bytes
  rw [KeyRead.deliver, if_pos ⟨hr.proc, hr.waits⟩, hn, hbytes]

/-- A read that is over has got all that it asked for. -/
lemma Waits.length_got (hr : s.Waits b r) (hlen : (bs.length : ℤ) = (s.task b).size) :
    ((r.got ++ bs).length : ℤ) = r.size := by
  have hrest := hr.rest
  rw [List.length_append]
  push_cast
  omega

/-- A read that goes on waits behind the bytes that it has got. -/
lemma Waits.goes_on (hr : s.Waits b r) (ht : t.RingInv) (hfirst : b ∈ t.keyboardQueue.head?)
    (hreader : (t.task b).reader = ((s.task b).pendingChars - 1, (s.task b).size - bs.length,
      (s.task b).buffer + bs.length)) (hmore : 1 < (s.task b).pendingChars) :
    t.Waits b { r with got := r.got ++ bs } := by
  simp only [Task.reader, Prod.mk.injEq] at hreader
  obtain ⟨hpend, hsize, hbuffer⟩ := hreader
  refine ⟨hr.proc, hr.waits, by omega, ?_, ?_, ?_⟩
  · have hrest := hr.rest
    rw [hsize, List.length_append]
    push_cast
    omega
  · rw [hbuffer, hr.here, List.length_append, Nat.add_assoc]
  · -- what is still to come is what the reader misses and what is in the ring
    have hmiss := ht.readers.first b hfirst
    have hcirc := ht.ring.chars.1
    have hlo := hr.inData.lo
    have hhi := hr.inData.hi
    rw [hbuffer, hsize]
    exact ⟨by omega, by omega⟩

end

/-- A character that is typed while processes wait. -/
lemma StreamOk.serves (h : s.StreamOk g past waiting) (ht : t.RingInv) {c : Byte} {b : Slot}
    {rest : List Slot} {bs : List Byte} (hroom : s.kbd.circChars < circularSize)
    (hqueue : s.keyboardQueue = b :: rest) (hb : b ∉ rest)
    (hserve : (s.putChar c).Serves t b rest bs) :
    ∃ past' waiting', t.StreamOk
      ⟨g.typed ++ [c], g.reads.map (KeyRead.deliver t b (s.delivered t b))⟩ past' waiting' := by
  have hqueued := h.queued
  rw [hqueue] at hqueued
  obtain ⟨r, rs, hr, hrs, rfl⟩ := List.forall₂_cons_left_iff.mp hqueued
  have hothers : List.Forall₂ t.Waits rest rs := forall₂_waits_congr hrs hserve.others
  have hfresh : ∀ r ∈ rs, r.got = [] := h.fresh
  have htyped : g.typed ++ [c] =
      past.flatMap KeyRead.got ++ (r.got ++ bs) ++ ringBytes t.kbd := by
    rw [h.typed, List.flatMap_append, List.flatMap_cons, flatMap_got_of_nil hfresh]
    simp only [List.append_assoc, List.append_nil]
    rw [hserve.ring, ringBytes_putChar h.ring.ring hroom]
  rw [h.map_deliver hrs hb, hr.deliver_eq hserve hb]
  rcases hserve.goes with ⟨hgone, hlen⟩ | ⟨hstays, hreader, hmore⟩
  · -- the read is over
    have hnot : b ∉ t.keyboardQueue := hgone ▸ hb
    rw [decide_eq_true hnot]
    refine ⟨past ++ [{ r with got := r.got ++ bs, ended := true }], rs, by simp, ht,
      fun _ => hserve.room, ?_, ?_, ?_, ?_⟩
    · intro r' hr'
      rcases List.mem_append.mp hr' with hr' | hr'
      · exact h.served r' hr'
      · rw [List.mem_singleton.mp hr']
        exact ⟨rfl, hr.length_got hlen⟩
    · rw [hgone]
      exact hothers
    · exact fun r' hr' => hfresh r' (List.mem_of_mem_tail hr')
    · show g.typed ++ [c] = _
      rw [htyped, List.flatMap_append, List.flatMap_append, flatMap_got_of_nil hfresh]
      simp
  · -- the read goes on
    have hin : b ∈ t.keyboardQueue := by
      rw [hstays]
      exact List.mem_cons_self
    rw [decide_eq_false (not_not.mpr hin), ← hr.waits]
    refine ⟨past, { r with got := r.got ++ bs } :: rs, rfl, ht, fun _ => hserve.room, h.served, ?_,
      hfresh, ?_⟩
    · rw [hstays]
      exact .cons (hr.goes_on ht (by rw [hstays]; rfl) hreader hmore) hothers
    · show g.typed ++ [c] = _
      rw [htyped, List.flatMap_append, List.flatMap_cons, flatMap_got_of_nil hfresh]
      simp

/-- A read that is served at once. -/
lemma StreamOk.readNow (h : s.StreamOk g past waiting) (ht : t.RingInv) {buffer : ℕ} {size : ℤ}
    (h0 : 0 ≤ size) (hle : size ≤ s.kbd.circChars) (hs : s.keyboardQueue = [])
    (hkbd : t.kbd = (s.consume size).kbd) (hnil : t.keyboardQueue = [])
    (heax : (t.task s.cur).stack eaxIndex = size)
    (hbytes : t.dataBytes s.cur buffer size.toNat = circBytes s.kbd size.toNat) :
    t.StreamOk ⟨g.typed, g.reads ++ s.issued t buffer size⟩
      (past ++ [⟨s.cur, buffer, size, circBytes s.kbd size.toNat, true⟩]) [] := by
  have hqueued := h.queued
  rw [hs] at hqueued
  obtain rfl : waiting = [] := List.forall₂_nil_left_iff.mp hqueued
  have hissued : s.issued t buffer size =
      [⟨s.cur, buffer, size, circBytes s.kbd size.toNat, true⟩] := by
    rw [issued, if_neg (by rw [hnil]; simp), if_pos heax, hbytes]
  refine ⟨?_, ht, fun hno => absurd hnil hno, ?_, ?_, ?_, ?_⟩
  · show g.reads ++ _ = _
    rw [h.reads, hissued, List.append_nil, List.append_nil]
  · intro r hr
    rcases List.mem_append.mp hr with hr | hr
    · exact h.served r hr
    · rw [List.mem_singleton] at hr
      subst hr
      refine ⟨rfl, ?_⟩
      rw [circBytes_eq, List.length_map, List.length_range, Int.toNat_of_nonneg h0]
  · rw [hnil]
    exact .nil
  · simp
  · show g.typed = _
    rw [h.typed, ringBytes_consume h0 hle, hkbd]
    simp

/-- A read that has to wait, on an empty buffer. -/
lemma StreamOk.readWaits (h : s.StreamOk g past waiting) (hs : SchedOk s Q) (ht : t.RingInv)
    {buffer : ℕ} {size : ℤ} (hsize : 0 < size) (hcirc : s.kbd.circChars = 0)
    (hin : InData buffer size.toNat) (hjoin : s.JoinsQueue t (size, size, buffer)) :
    t.StreamOk ⟨g.typed, g.reads ++ s.issued t buffer size⟩ past
      (waiting ++ [⟨s.cur, buffer, size, [], false⟩]) := by
  have hissued : s.issued t buffer size = [⟨s.cur, buffer, size, [], false⟩] := by
    rw [issued, if_pos (by rw [hjoin.queue]; simp)]
  have hempty : t.kbd.circChars = 0 := by
    rw [hjoin.kbd]
    exact hcirc
  refine ⟨?_, ht, ?_, h.served, ?_, ?_, ?_⟩
  · show g.reads ++ _ = _
    rw [h.reads, hissued, List.append_assoc]
  · intro _
    rw [hempty]
    exact Int.natCast_pos.mpr (by decide)
  · rw [hjoin.queue]
    have hothers := forall₂_waits_congr (t := t) h.queued fun u hu =>
      hjoin.others u (reader_ne_cur hs hu).1
    refine List.rel_append hothers (.cons ?_ .nil)
    have hown := hjoin.own
    simp only [Task.reader, Prod.mk.injEq] at hown
    obtain ⟨hpend, hsz, hbuffer⟩ := hown
    refine ⟨rfl, rfl, hpend ▸ hsize, ?_, ?_, ?_⟩
    · rw [hsz]
      simp
    · rw [hbuffer]
      simp
    · rw [hbuffer, hsz]
      exact hin
  · intro r hr
    have hfresh := h.fresh
    cases waiting with
    | nil => simp at hr
    | cons w ws =>
      rcases List.mem_append.mp hr with hr | hr
      · exact hfresh r hr
      · rw [List.mem_singleton] at hr
        rw [hr]
  · show g.typed = _
    rw [h.typed, ringBytes_of_empty hcirc, ringBytes_of_empty hempty]
    simp

lemma issued_of_refused (hs : SchedOk s Q) {buffer : ℕ} {size : ℤ} (h0 : 0 ≤ size)
    (hsame : SameKeyboard s t) (heax : (t.task s.cur).stack eaxIndex = -ePerm) :
    s.issued t buffer size = [] := by
  have hnot : s.cur ∉ t.keyboardQueue := by
    rw [hsame.queue]
    exact fun hmem => (reader_ne_cur hs hmem).1 rfl
  rw [issued, if_neg hnot, if_neg]
  rw [heax]
  show ¬ (-1 : ℤ) = size
  omega

/-! ## Runs -/

/-- What the keyboard is used for: no key is pressed into a full buffer with nobody waiting, and
the buffers of the reads lie in the data pages. -/
def KeysFit (s : Kernel) (e : Event) : Prop :=
  s.ExitsFindTwo e ∧
  match e.act with
  | .key scan _ => isMake scan = true → s.keyboardQueue = [] → s.kbd.circChars < circularSize
  | .read fd buffer size => s.ReadsKeyboard fd buffer size → InData buffer size.toNat
  | _ => True

/-- A read that has to wait finds the buffer empty, and asks for something. -/
def WaitsOnEmpty (s : Kernel) (e : Event) : Prop :=
  match e.act with
  | .read fd buffer size => s.ReadsKeyboard fd buffer size → s.current.pid ≠ 0 →
      s.kbd.circChars < size ∨ s.keyboardQueue ≠ [] → s.kbd.circChars = 0 ∧ 0 < size
  | _ => True

lemma StreamOk.keepsRing (h : s.StreamOk g past waiting) (hfit : s.KeysFit e)
    (hwait : s.WaitsOnEmpty e) : s.KeepsRing e := by
  obtain ⟨regs, act⟩ := e
  refine ⟨hfit.1, ?_⟩
  cases act with
  | key scan beyond =>
    intro hmake
    by_cases hnil : s.keyboardQueue = []
    · exact hfit.2 hmake hnil
    · exact h.room hnil
  | read fd buffer size => exact fun hread hpid hw => (hwait hread hpid hw).1
  | _ => trivial

/-- **One step** keeps the invariant. -/
lemma StreamOk.step (h : s.StreamOk g past waiting) (hs : SystemOk s Q) (hf : FramesOk s)
    (hfit : s.KeysFit e) (hwait : s.WaitsOnEmpty e) (hst : s.step e = .ok t) :
    ∃ past' waiting', t.StreamOk (g.note s e t) past' waiting' := by
  have hkeeps := h.keepsRing hfit hwait
  have ht := h.ring.step hs hkeeps hst
  by_cases htouch : s.TouchesKeyboard e
  · obtain ⟨regs, act⟩ := e
    cases act with
    | key scan beyond =>
      by_cases hmake : isMake scan = true
      · have hroom : s.kbd.circChars < circularSize := hkeeps.2 hmake
        cases hqueue : s.keyboardQueue with
        | nil =>
          obtain ⟨hkbd, hnil⟩ := step_key_idle hs.sched hmake hqueue hst
          refine ⟨past, waiting, ?_⟩
          rw [note_key_idle hmake hqueue]
          exact h.putChar hroom ht hkbd hqueue hnil
        | cons b rest =>
          have hqueued := h.queued
          rw [hqueue] at hqueued
          obtain ⟨r, rs, hr, -, -⟩ := List.forall₂_cons_left_iff.mp hqueued
          obtain ⟨t', bs, hd, hserve⟩ := dispatch_key_serves hs.sched hf regs beyond hmake
            hqueue h.ring hroom hr.miss hr.inData
          rw [step_of_done hd, Except.ok.injEq] at hst
          subst hst
          have hnd := hs.sched.pool.nodup .keyboardQueue
          rw [← hs.sched.keyboardQueue_eq, hqueue, List.nodup_cons] at hnd
          rw [note_key_waiting hmake hqueue]
          exact h.serves ht hroom hqueue hnd.1 hserve
      · refine ⟨past, waiting, ?_⟩
        rw [KeyLog.note]
        simp only [hmake]
        exact h.congr (step_key_release hs.sched (by simpa using hmake) hst)
    | read fd buffer size =>
      have hread : s.ReadsKeyboard fd buffer size := htouch
      have h0 : 0 ≤ size := by
        obtain ⟨v, f, hdev, -⟩ := hread
        exact hdev.nonneg
      have hin := hfit.2 hread
      rw [note_read hread]
      by_cases hnow : size ≤ s.kbd.circChars ∧ s.keyboardQueue = []
      · obtain ⟨hkbd, hnil, heax, hbytes⟩ :=
          step_read_now hs.sched hf hread h.ring.ring hnow.1 hnow.2 hin hst
        exact ⟨_, _, h.readNow ht h0 hnow.1 hnow.2 hkbd hnil heax hbytes⟩
      · have hmust := (s.waits_iff size).mpr hnow
        by_cases hpid : s.current.pid = 0
        · obtain ⟨hsame, heax⟩ := step_read_refused hs.sched hread hmust hpid hst
          refine ⟨past, waiting, ?_⟩
          rw [issued_of_refused hs.sched h0 hsame heax, List.append_nil]
          exact h.congr hsame
        · obtain ⟨hcirc, hsize⟩ := hwait hread hpid hmust
          obtain ⟨t', hd, hjoin⟩ := dispatch_read_waits hs.sched regs hread hmust hpid
          rw [step_of_done hd, Except.ok.injEq] at hst
          subst hst
          rw [hcirc, if_pos hsize, sub_zero] at hjoin
          exact ⟨_, _, h.readWaits hs.sched ht hsize hcirc hin hjoin⟩
    | _ => exact False.elim htouch
  · rw [note_of_not_touches htouch]
    exact ⟨past, waiting, h.congr (sameKeyboard_step hs hfit.1 htouch hst)⟩

end Kernel

lemma Env.boot_streamOk (E : Env) : E.boot.StreamOk ⟨[], []⟩ [] [] := by
  have hempty : E.boot.keyboardQueue = [] := by
    rw [E.boot_systemOk.sched.keyboardQueue_eq]
    rfl
  refine ⟨rfl, E.boot_ringInv, fun hno => absurd hempty hno, by simp, ?_, by simp, ?_⟩
  · rw [hempty]
    exact .nil
  · exact (Kernel.ringBytes_of_empty rfl).symm

/-- The runs in which the reads that have to wait find the buffer empty, with their histories. -/
abbrev StreamRun (E : Env) (es : List Event) (s : Kernel) (g : KeyLog) : Prop :=
  Run (record Kernel.step KeyLog.note) (fun x e => x.1.KeysFit e ∧ x.1.WaitsOnEmpty e)
    (E.boot, ⟨[], []⟩) es (s, g)

lemma StreamRun.streamOk {E : Env} {es : List Event} {s : Kernel} {g : KeyLog}
    (h : StreamRun E es s g) :
    ∃ Q past waiting, SystemOk s Q ∧ FramesOk s ∧ s.StreamOk g past waiting := by
  have hstep : ∀ x e y, (∃ Q past waiting, SystemOk x.1 Q ∧ FramesOk x.1 ∧
        x.1.StreamOk x.2 past waiting) → x.1.KeysFit e ∧ x.1.WaitsOnEmpty e →
      record Kernel.step KeyLog.note x e = .ok y →
      ∃ Q past waiting, SystemOk y.1 Q ∧ FramesOk y.1 ∧ y.1.StreamOk y.2 past waiting := by
    rintro ⟨s, g⟩ e ⟨t, g'⟩ ⟨Q, past, waiting, hs, hf, hok⟩ ⟨hfit, hwait⟩ hst
    obtain ⟨hst, hg⟩ := record_ok_iff.mp hst
    obtain ⟨Q', hs', hf'⟩ := hf.step hs hfit.1 hst
    obtain ⟨past', waiting', hok'⟩ := hok.step hs hf hfit hwait hst
    exact ⟨Q', past', waiting', hs', hf', hg ▸ hok'⟩
  exact h.invariant hstep ⟨_, [], [], E.boot_systemOk, E.boot_framesOk, E.boot_streamOk⟩

lemma Kernel.StreamOk.waits_of_mem {s : Kernel} {g : KeyLog} {past waiting : List KeyRead}
    (h : s.StreamOk g past waiting) {r : KeyRead} (hr : r ∈ waiting) : r.ended = false := by
  have hwaiting : ∀ {us : List Slot} {rs : List KeyRead}, List.Forall₂ s.Waits us rs →
      r ∈ rs → r.ended = false := by
    intro us rs hrs hmem
    induction hrs with
    | nil => simp at hmem
    | cons hw _ ih =>
      rcases List.mem_cons.mp hmem with rfl | hmem
      · exact hw.waits
      · exact ih hmem
  exact hwaiting h.queued hr

lemma Kernel.StreamOk.procs {s : Kernel} {g : KeyLog} {past waiting : List KeyRead}
    (h : s.StreamOk g past waiting) :
    (g.reads.filter fun r => !r.ended).map KeyRead.proc = s.keyboardQueue := by
  have hpast : past.filter (fun r => !r.ended) = [] := by
    rw [List.filter_eq_nil_iff]
    intro r hr
    simp [(h.served r hr).1]
  have hwaiting : ∀ {us : List Slot} {rs : List KeyRead}, List.Forall₂ s.Waits us rs →
      (rs.filter fun r => !r.ended).map KeyRead.proc = us := by
    intro us rs hrs
    induction hrs with
    | nil => rfl
    | cons hw _ ih =>
      rw [List.filter_cons_of_pos (by simp [hw.waits]), List.map_cons, ih, hw.proc]
  rw [h.reads, List.filter_append, hpast, List.nil_append]
  exact hwaiting h.queued

/-- **The stream of typed characters.**  In every run whose reads that have to wait find the buffer
empty and ask for something, a read that is over has got as many bytes as it asked for, and the
reads that are not over are those of the blocked processes.  What the reads have got, one after the
other, is a prefix of what was typed. -/
theorem stream_kept {E : Env} {es : List Event} {s : Kernel} {g : KeyLog}
    (h : StreamRun E es s g) :
    (∀ r ∈ g.reads, r.ended = true → r.got.length = r.size) ∧
      (g.reads.filter fun r => !r.ended).map KeyRead.proc = s.keyboardQueue ∧
      g.reads.flatMap KeyRead.got <+: g.typed := by
  obtain ⟨Q, past, waiting, -, -, hok⟩ := h.streamOk
  refine ⟨fun r hr hended => ?_, hok.procs, ?_⟩
  · rw [hok.reads] at hr
    rcases List.mem_append.mp hr with hr | hr
    · exact (hok.served r hr).2
    · rw [hok.waits_of_mem hr] at hended
      simp at hended
  · rw [hok.reads, hok.typed]
    exact List.prefix_append _ _

/-! ## A child that reads -/

lemma Kernel.StreamOk.empty {s : Kernel} {past waiting : List KeyRead}
    (h : s.StreamOk ⟨[], []⟩ past waiting) : s.keyboardQueue = [] ∧ s.kbd.circChars = 0 := by
  obtain ⟨-, hwaiting⟩ := List.append_eq_nil_iff.mp h.reads.symm
  obtain ⟨-, hbytes⟩ := List.append_eq_nil_iff.mp h.typed.symm
  have hqueued := h.queued
  rw [hwaiting] at hqueued
  have hlen := Kernel.ringBytes_length h.ring.ring
  rw [hbytes] at hlen
  exact ⟨List.forall₂_nil_right_iff.mp hqueued, hlen.symm⟩

/-- The child of task 0 runs, and the keyboard has not been used. -/
lemma childRuns_stream : ∃ s, StreamRun linkedEnv childRuns s ⟨[], []⟩ ∧ s.cur = 1 ∧
    s.HasStdin 1 := by
  obtain ⟨s, -, hrun, -, hcur, -, -⟩ := childRuns_run linkedEnv
  have hplain : ∀ e ∈ childRuns, e = plain .fork ∨ e = plain .clock := by
    intro e he
    rcases List.mem_cons.mp he with rfl | he
    · exact .inl rfl
    · exact .inr (List.mem_replicate.mp he).2
  have hstd : s.HasStdin 1 := ExitRun.child_hasStdin hrun
  refine ⟨s, Run.record_same (fun s e => s.KeysFit e ∧ s.WaitsOnEmpty e) hrun (fun s e he hok => ?_)
    (fun e he s t => ?_), hcur, hstd⟩
  · rcases hplain e he with rfl | rfl
    · exact ⟨⟨hok, trivial⟩, trivial⟩
    · exact ⟨⟨hok, trivial⟩, trivial⟩
  · rcases hplain e he with rfl | rfl
    · rfl
    · rfl

/-- The child runs, the circular buffer is empty, and nobody waits. -/
lemma childRuns_ring : ∃ s Q, ExitRun linkedEnv.boot childRuns s ∧ SystemOk s Q ∧ FramesOk s ∧
    s.cur = 1 ∧ s.HasStdin 1 ∧ s.keyboardQueue = [] ∧ s.kbd.circChars = 0 ∧ s.kbd.RingOk := by
  obtain ⟨s, hrun, hcur, hstd⟩ := childRuns_stream
  obtain ⟨Q, past, waiting, hs, hf, hok⟩ := hrun.streamOk
  obtain ⟨hnil, hcirc⟩ := hok.empty
  exact ⟨s, Q, hrun.of_record fun _ _ hg => hg.1.1, hs, hf, hcur, hstd, hnil, hcirc, hok.ring.ring⟩

/-- A read of the child that has to wait. -/
lemma child_waits {es : List Event} {s : Kernel} {Q : Node → List Slot} (hs : SystemOk s Q)
    (hrun : ExitRun linkedEnv.boot es s) (hcur : s.cur = 1) (hstd : s.HasStdin 1) {a n : ℕ}
    (ha : lUserStart ≤ a ∧ a ≤ userEnd) (hn : n + 1 < pageSize) (hwait : s.kbd.circChars < n) :
    s.ReadsKeyboard 0 a n ∧ ∃ t, s.dispatch (plain (.read 0 a n)) = .done t ∧
      s.JoinsQueue t (n - s.kbd.circChars, n, a) := by
  have hn' : n + 1 < 4096 := hn
  have hacc : s.mm.accessOk 0 a n = true := linkedEnv_accessOk hrun ha hn
  have hmax : (n : ℤ) ≤ Kernel.maxSize := by
    show (n : ℤ) ≤ 20 * 4096 - 1024
    omega
  have hread : s.ReadsKeyboard 0 a n :=
    (hcur.symm ▸ hstd : s.HasStdin s.cur).readsKeyboard (Int.natCast_nonneg n) hmax hacc
  have hpid : s.current.pid ≠ 0 := by
    rw [Ne, hs.sched.current_pid_eq_zero_iff, hcur]
    decide
  obtain ⟨t, hd, hjoin⟩ := Kernel.dispatch_read_waits hs.sched (fun _ => 0) hread (.inl hwait) hpid
  rw [if_pos hwait] at hjoin
  exact ⟨hread, t, hd, hjoin⟩

/-- The child waits for a character, and gets it. -/
theorem stream_kept_of_child : ∃ s g, StreamRun linkedEnv
      (childRuns ++ [plain (.read 0 userData 1), plain (.key 16 0)]) s g ∧ g.reads ≠ [] ∧
    (∀ r ∈ g.reads, r.ended = true → r.got.length = r.size) ∧
    (g.reads.filter fun r => !r.ended).map KeyRead.proc = s.keyboardQueue ∧
    g.reads.flatMap KeyRead.got <+: g.typed := by
  obtain ⟨s, hrun, hcur, hstd⟩ := childRuns_stream
  obtain ⟨Q, past, waiting, hs, hf, hok⟩ := hrun.streamOk
  obtain ⟨hnil, hcirc⟩ := hok.empty
  have hexit : ExitRun linkedEnv.boot childRuns s := hrun.of_record fun _ _ hg => hg.1.1
  obtain ⟨hread, t, hd, hjoin⟩ := child_waits (a := userData) (n := 1) hs hexit hcur hstd
    (by decide) (by decide) (by rw [hcirc]; decide)
  -- the read
  have hg₁ : s.KeysFit (plain (.read 0 userData 1)) ∧ s.WaitsOnEmpty (plain (.read 0 userData 1)) :=
    ⟨⟨Kernel.exitsFindTwo_of_done hd, fun _ => ⟨le_rfl, by decide⟩⟩, fun _ _ _ => ⟨hcirc, one_pos⟩⟩
  obtain ⟨g, hrun₁⟩ : ∃ g, StreamRun linkedEnv (childRuns ++ [plain (.read 0 userData 1)]) t g :=
    ⟨_, hrun.snoc_record hg₁ (Kernel.step_of_done hd)⟩
  obtain ⟨Q₁, past₁, waiting₁, hs₁, hf₁, hok₁⟩ := hrun₁.streamOk
  -- the key
  have hqueue : t.keyboardQueue = [1] := by rw [hjoin.queue, hnil, hcur]; rfl
  have hqueued := hok₁.queued
  rw [hqueue] at hqueued
  obtain ⟨r, rs, hr, -, -⟩ := List.forall₂_cons_left_iff.mp hqueued
  obtain ⟨u, bs, hd₂, -⟩ := Kernel.dispatch_key_serves hs₁.sched hf₁ (fun _ => 0) 0
    (by decide : Kernel.isMake 16 = true) hqueue hok₁.ring (hok₁.room (by rw [hqueue]; simp)) hr.miss
    hr.inData
  have hg₂ : t.KeysFit (plain (.key 16 0)) ∧ t.WaitsOnEmpty (plain (.key 16 0)) :=
    ⟨⟨Kernel.exitsFindTwo_of_done hd₂, fun _ hno => by rw [hqueue] at hno; simp at hno⟩, trivial⟩
  have hrun₂ := hrun₁.snoc_record hg₂ (Kernel.step_of_done hd₂)
  rw [List.append_assoc] at hrun₂
  refine ⟨_, _, hrun₂, ?_, stream_kept hrun₂⟩
  have hprocs := hok₁.procs
  rw [hqueue] at hprocs
  have hnote : g.note t (plain (.key 16 0)) u = _ :=
    Kernel.note_key_waiting (by decide) hqueue u g
  rw [hnote]
  intro hno
  rw [List.map_eq_nil_iff.mp hno] at hprocs
  simp at hprocs

/-- **The counterexample.**  One character is in the buffer when the child asks for two and waits,
and then a second one is typed.  The child gets the second one first, and a byte that was not
typed. -/
theorem stream_broken_by_waiting_read : ∃ s g,
    Run (record Kernel.step KeyLog.note) (fun x e => x.1.KeysFit e) (linkedEnv.boot, ⟨[], []⟩)
      (childRuns ++ [plain (.key 16 0), plain (.read 0 userData 2), plain (.key 17 0)]) (s, g) ∧
    ¬ g.reads.flatMap KeyRead.got <+: g.typed := by
  obtain ⟨s, hrun, hcur, hstd⟩ := childRuns_stream
  obtain ⟨Q, past, waiting, hs, hf, hok⟩ := hrun.streamOk
  obtain ⟨hnil, hcirc⟩ := hok.empty
  have hexit : ExitRun linkedEnv.boot childRuns s := hrun.of_record fun _ _ hg => hg.1.1
  -- a character that nobody waits for
  obtain ⟨s₁, hd₁, -, hcur₁, hcirc₁⟩ := hs.typeKey (by rw [← hs.sched.keyboardQueue_eq, hnil])
  rw [hcur] at hcur₁
  rw [hcirc] at hcirc₁
  have hst₁ := Kernel.step_of_done hd₁
  obtain ⟨hkbd₁, hnil₁⟩ := Kernel.step_key_idle hs.sched (by decide) hnil hst₁
  have hring₁ : s₁.kbd.RingOk := hkbd₁ ▸ Kernel.ringOk_putChar hok.ring.ring (by rw [hcirc]; decide) _
  have hfit₁ : s.KeysFit (plain (.key 16 0)) :=
    ⟨Kernel.exitsFindTwo_of_done hd₁, fun _ _ => by rw [hcirc]; decide⟩
  obtain ⟨Q₁, hs₁, hf₁⟩ := hf.step hs hfit₁.1 hst₁
  have hnote₁ : KeyLog.note s (plain (.key 16 0)) s₁ ⟨[], []⟩ = _ :=
    Kernel.note_key_idle (by decide) hnil s₁ _
  -- the read of the child
  have hfile : ¬ Kernel.FileAction (plain (.key 16 0)).act := by simp [plain, Kernel.FileAction]
  have hstd₁ := hstd.of_sameFiles (Kernel.sameFiles_step hfile hst₁)
  obtain ⟨hread, s₂, hd₂, hjoin⟩ := child_waits (a := userData) (n := 2) hs₁
    (hexit.snoc hfit₁.1 hst₁) hcur₁ hstd₁ (by decide) (by decide) (by rw [hcirc₁]; decide)
  have hst₂ := Kernel.step_of_done hd₂
  have hfit₂ : s₁.KeysFit (plain (.read 0 userData 2)) :=
    ⟨Kernel.exitsFindTwo_of_done hd₂, fun _ => ⟨le_rfl, by decide⟩⟩
  have hqueue : s₂.keyboardQueue = [1] := by rw [hjoin.queue, hnil₁, hcur₁]; rfl
  have hissued : s₁.issued s₂ userData 2 = [⟨1, userData, 2, [], false⟩] := by
    rw [Kernel.issued, hcur₁, if_pos (by rw [hqueue]; simp)]
  have hreader := hjoin.own
  rw [hcur₁, hcirc₁] at hreader
  simp only [Task.reader, Prod.mk.injEq] at hreader
  obtain ⟨hpend, hsize, hbuffer⟩ := hreader
  have hnote₂ : KeyLog.note s₁ (plain (.read 0 userData 2)) s₂ ⟨[Kernel.charOf 16 0], []⟩ =
      ⟨[Kernel.charOf 16 0], [⟨1, userData, 2, [], false⟩]⟩ := by
    rw [← hissued]
    exact Kernel.note_read hread s₂ _
  -- the second character
  obtain ⟨Q₂, hs₂, hf₂⟩ := hf₁.step hs₁ hfit₂.1 hst₂
  obtain ⟨s₃, hd₃, hqueue₃, hbytes⟩ := Kernel.dispatch_key_last hs₂.sched hf₂ (fun _ => 0) 0
    (by decide : Kernel.isMake 17 = true) hqueue (by rw [hpend]; decide) (by rw [hsize]; decide)
    (by rw [hbuffer, hsize]; exact ⟨le_rfl, by decide⟩)
  rw [hbuffer, hsize] at hbytes
  have hfit₃ : s₂.KeysFit (plain (.key 17 0)) :=
    ⟨Kernel.exitsFindTwo_of_done hd₃, fun _ hno => by rw [hqueue] at hno; simp at hno⟩
  have hnote₃ : KeyLog.note s₂ (plain (.key 17 0)) s₃
      ⟨[Kernel.charOf 16 0], [⟨1, userData, 2, [], false⟩]⟩ = _ :=
    Kernel.note_key_waiting (by decide) hqueue s₃ _
  have hfits : Run (record Kernel.step KeyLog.note) (fun x e => x.1.KeysFit e)
      (linkedEnv.boot, ⟨[], []⟩) childRuns (s, ⟨[], []⟩) := hrun.mono fun _ _ hg => hg.1
  have hrun₂ := (hfits.snoc_record hfit₁ hst₁).snoc_record hfit₂ hst₂
  have hrun₃ := hrun₂.snoc_record hfit₃ (Kernel.step_of_done hd₃)
  simp only [hnote₁, List.nil_append, hnote₂, hnote₃, List.append_assoc, List.cons_append] at hrun₃
  refine ⟨s₃, _, hrun₃, ?_⟩
  -- what the child has got starts with the second character
  have hn : s₂.delivered s₃ 1 = 2 := by
    rw [Kernel.delivered, hqueue₃, hsize]
    rfl
  have hdeliver : KeyRead.deliver s₃ 1 (s₂.delivered s₃ 1) ⟨1, userData, 2, [], false⟩ =
      ⟨1, userData, 2, Kernel.circBytes (s₂.putChar (Kernel.charOf 17 0)).kbd 2, true⟩ := by
    rw [KeyRead.deliver, if_pos ⟨rfl, rfl⟩, hn, hqueue₃]
    have h : s₃.dataBytes 1 (userData + 0) 2 = _ := hbytes
    simp only [List.nil_append, List.length_nil]
    rw [h]
    rfl
  have hcell : (s₂.putChar (Kernel.charOf 17 0)).kbd.circular
      (((s₂.putChar (Kernel.charOf 17 0)).kbd.start + (0 : ℕ)) % circularSize) =
        Kernel.charOf 17 0 := by
    have hstart : (s₂.putChar (Kernel.charOf 17 0)).kbd.start = s₁.kbd.p := by
      show s₂.kbd.start = _
      rw [hjoin.kbd]
    have hp : s₂.kbd.p = s₁.kbd.p := by rw [hjoin.kbd]
    have hcirc : (s₂.putChar (Kernel.charOf 17 0)).kbd.circular =
        Function.update s₂.kbd.circular s₂.kbd.p (Kernel.charOf 17 0) := rfl
    rw [hstart, hcirc, hp, Nat.cast_zero, add_zero,
      Int.emod_eq_of_lt hring₁.p.1 hring₁.p.2, Function.update_self]
  rw [List.map_cons, List.map_nil, hdeliver, List.flatMap_singleton, Kernel.circBytes_eq,
    List.range_succ_eq_map, List.map_cons, hcell, List.cons_prefix_cons]
  exact fun hno => absurd hno.1 (by decide)

end ZeOS
