import ZeOS.KeyboardStream
import ZeOS.ProcessMemory

/-!
# Delivery to a blocked reader

`copy_from_circ_buffer` maps the frames of the reader twenty pages above the data pages, moves the
saved pointer up by as much, copies, and moves the pointer back.  For a buffer in the data pages the
pointer then lies in the window, and the copy changes the requested bytes of the reader and nothing
else.

`check_address` also accepts the code pages.  Twenty pages above them are the last eight data
pages, which map the frames of the process that happens to run, and that process gets the
characters.  Behind the window nothing is mapped: a copy that comes there faults, and the pointer
stays where it was moved to.  `delivery_writes_own_iff` says that these are the only two cases,
next to a size above that of the local array.
-/

namespace ZeOS

open IntrusiveList Relation Memory GuardedRun

/-! ## Copies that return -/

namespace Memory

variable {m : Memory} {dest : ℕ}

/-- The pages of a word are those of its ends. -/
lemma present_of_ends {a j : ℕ} (h0 : m.present a = true) (h3 : m.present (a + 3) = true)
    (hj : j ≤ 3) : m.present (a + j) = true := by
  have hpage : (a + j) / pageSize = a / pageSize ∨ (a + j) / pageSize = (a + 3) / pageSize := by
    show (a + j) / 4096 = a / 4096 ∨ (a + j) / 4096 = (a + 3) / 4096
    omega
  rcases hpage with hpage | hpage
  · rwa [present, hpage]
  · rwa [present, hpage]

lemma present_of_copyBytes {r : ℤ} {m' : Memory} (bs : List Byte) :
    ∀ {m : Memory} {dest : ℕ}, m.copyBytes dest bs = .ret r m' →
      ∀ j < bs.length, m.present (dest + j) = true := by
  induction bs with
  | nil =>
    intro m dest _ j hj
    simp at hj
  | cons b bs ih =>
    intro m dest h j hj
    rw [copyBytes] at h
    by_cases h0 : m.present dest = true
    · rw [if_pos h0] at h
      cases j with
      | zero => exact h0
      | succ j =>
        have hrest : m.present (dest + 1 + j) = true := ih h j (by simpa using hj)
        rwa [Nat.add_assoc, Nat.add_comm 1 j] at hrest
    · rw [if_neg h0] at h
      cases h

/-- A copy that returns has met present pages only. -/
lemma present_of_copyToUser {bs : List Byte} {r : ℤ} {m' : Memory}
    (h : m.copyToUser dest bs = .ret r m') : ∀ j < bs.length, m.present (dest + j) = true := by
  induction m, dest, bs using copyToUser.induct with
  | case1 m dest b₀ b₁ b₂ b₃ b₄ bs hword ih =>
    rw [copyToUser, if_pos hword] at h
    rw [Bool.and_eq_true] at hword
    intro j hj
    by_cases hj3 : j ≤ 3
    · exact present_of_ends hword.1 hword.2 hj3
    · have hrest : m.present (dest + 4 + (j - 4)) = true := by
        refine ih h (j - 4) ?_
        simp only [List.length_cons] at hj ⊢
        omega
      rwa [show dest + 4 + (j - 4) = dest + j by omega] at hrest
  | case2 m dest b₀ b₁ b₂ b₃ b₄ bs hword =>
    rw [copyToUser, if_neg hword] at h
    cases h
  | case3 m dest bs hbs =>
    rw [copyToUser.eq_2 _ _ _ hbs] at h
    exact present_of_copyBytes bs h

/-- Where the same byte is stored all over a buffer, there it is. -/
lemma storeAll_replicate {f x : ℕ} {c : Byte} (n : ℕ) :
    ∀ {m : Memory} {dest : ℕ}, (∃ k < n, f = m.frameOf (dest + k) ∧ x = (dest + k) % pageSize) →
      (storeAll dest (List.replicate n c) m).frame f x = c := by
  induction n with
  | zero =>
    rintro m dest ⟨k, hk, -⟩
    omega
  | succ n ih =>
    intro m dest h
    rw [List.replicate_succ, storeAll]
    by_cases hlater : ∃ k < n, f = (m.store dest c).frameOf (dest + 1 + k) ∧
        x = (dest + 1 + k) % pageSize
    · exact ih hlater
    · -- only the first byte is stored there
      rw [storeAll_frame_of_ne]
      · obtain ⟨k, hk, rfl, rfl⟩ := h
        obtain rfl : k = 0 := by
          by_contra hk0
          refine hlater ⟨k - 1, by omega, ?_, ?_⟩
          · rw [show dest + 1 + (k - 1) = dest + k by omega]
            rfl
          · rw [show dest + 1 + (k - 1) = dest + k by omega]
        show Function.update m.frame _ _ _ _ = c
        rw [Nat.add_zero, Function.update_self, Function.update_self]
      · intro k hk
        rw [List.length_replicate] at hk
        rw [Ne, Ne, ← not_and_or]
        exact fun hit => hlater ⟨k, hk, hit⟩

end Memory

/-! ## A process that waits has run -/

section

variable {E : Env} {s t : Kernel} {e : Event}

/-- Task 0 does not wait for the keyboard. -/
lemma Calm.keyboardQueue_nil {act : Action} {x y : Config} (h : Calm act x y)
    (hnil : x.2 .keyboardQueue = []) : y.2 .keyboardQueue = [] := by
  cases h with
  | @wake s Q a u rest hQ ha _ _ =>
    have hne : Node.keyboardQueue ≠ a := by
      rintro rfl
      exact absurd (hnil.symm.trans hQ) (by simp)
    simpa [Pool.moved_apply, hne] using hnil
  | fork => simpa using hnil
  | _ => exact hnil

lemma Turn.keyboardQueue_nil {act : Action} {x y : Config} (h : Turn act x y) (h0 : x.1.cur = 0)
    (hnil : x.2 .keyboardQueue = []) : y.2 .keyboardQueue = [] := by
  have hcalms : ∀ {z : Config}, Calms act x z →
      z.1.cur = x.1.cur ∧ z.2 .keyboardQueue = [] := by
    intro z hz
    induction hz with
    | refl => exact ⟨rfl, hnil⟩
    | tail _ hc ih => exact ⟨hc.cur_eq.trans ih.1, hc.keyboardQueue_nil ih.2⟩
  rcases h with hc | ⟨z, hc, hh⟩
  · exact (hcalms hc).2
  · obtain ⟨hcur, hz⟩ := hcalms hc
    cases hh with
    | @move s Q h u rest i ha hzero =>
      obtain rfl := hzero (hcur.trans h0)
      simpa [Pool.moved_apply] using hz
    | exit => simpa [leftQueues] using hz

/-- While a process waits for the keyboard, the data pages are those of the running process. -/
lemma ExitRun.ownData {es : List Event} (h : ExitRun E.boot es s) (hwait : s.keyboardQueue ≠ []) :
    OwnData E s := by
  have hstep : ∀ s e t, (StartData E s ∧ s.keyboardQueue = []) ∨ OwnData E s →
      s.ExitsFindTwo e → s.step e = .ok t →
      (StartData E t ∧ t.keyboardQueue = []) ∨ OwnData E t := by
    rintro s e t (⟨hstart, hnil⟩ | hown) hg hst
    · rcases hstart.step hg hst with hstart' | ⟨-, hown⟩
      · refine .inl ⟨hstart', ?_⟩
        obtain ⟨hcur, Q, W, hs, hf, ht⟩ := hstart
        obtain ⟨Q', hturn⟩ := (hs.step_effects e hg).1 t hst
        rw [hs.sched.keyboardQueue_eq] at hnil
        rw [(hturn.systemOk hs).sched.keyboardQueue_eq]
        exact hturn.keyboardQueue_nil hcur hnil
      · exact .inr hown
    · exact .inr (hown.step hg hst)
  have hboot : E.boot.keyboardQueue = [] := by
    rw [E.boot_systemOk.sched.keyboardQueue_eq]
    rfl
  have hend := h.invariant hstep (.inl ⟨E.boot_startData, hboot⟩)
  exact hend.resolve_left fun hstart => hwait hstart.2

end

/-! ## What a delivery writes to -/

namespace Kernel

variable {E : Env} {s t : Kernel} {b : Slot} {size : ℤ}

/-- A delivery returns with the pointer of the reader as it was, and changes nothing in memory but
the bytes of the reader that it is for. -/
def WritesOwn (s : Kernel) (b : Slot) (size : ℤ) : Prop :=
  ∃ t, s.copyFromCircBuffer b size = .ret () t ∧ (t.task b).buffer = (s.task b).buffer ∧
    ∀ f x, t.mm.frame f x ≠ s.mm.frame f x →
      s.OwnsByte b (s.task b).buffer size.toNat f x

/-- The same state with other characters in the circular buffer. -/
def withChars (s : Kernel) (chars : ℤ → Byte) : Kernel :=
  { s with kbd := { s.kbd with circular := chars } }

lemma sameSched_withChars (s : Kernel) (chars : ℤ → Byte) : SameSched s (s.withChars chars) :=
  .other rfl rfl rfl rfl rfl

/-- Nothing is copied. -/
lemma writesOwn_of_nonpos (h0 : size ≤ 0) : s.WritesOwn b size := by
  have hbytes : circBytes s.kbd size.toNat = [] := by
    rw [Int.toNat_of_nonpos h0]
    rfl
  rcases s.copyFromCircBuffer_cases b size with ⟨hover, -⟩ | ⟨-, mm, ⟨hc, h⟩ | ⟨hc, -⟩⟩
  · have hpos : (0 : ℤ) ≤ circularSize := Int.natCast_nonneg _
    omega
  · refine ⟨_, h, rfl, fun f x hne => absurd ?_ hne⟩
    rw [hbytes] at hc
    cases hc
    simp only [setSsPags_frame, windowOf]
  · rw [hbytes] at hc
    cases hc

/-- A delivery to the data pages. -/
lemma writesOwn_of_inData (hf : FramesOk s) (hb : s.Live b) (hsize : size ≤ circularSize)
    (hin : InData (s.task b).buffer size.toNat) : s.WritesOwn b size := by
  obtain ⟨mm, h, hdel⟩ := copyFromCircBuffer_delivers hf hb hsize hin
  refine ⟨_, h, rfl, fun f x hne => ?_⟩
  by_contra hno
  exact hne (hdel.others f x hno)

/-- A delivery that returns has stored the characters. -/
lemma copyFromCircBuffer_ret (h : s.copyFromCircBuffer b size = .ret () t) :
    (∀ j < size.toNat,
        (s.windowOf b).present ((s.task b).buffer + numPagData * pageSize + j) = true) ∧
      t.mm.frame = (storeAll ((s.task b).buffer + numPagData * pageSize)
        (circBytes s.kbd size.toNat) (s.windowOf b)).frame := by
  have hlen : (circBytes s.kbd size.toNat).length = size.toNat := by simp [circBytes]
  rcases s.copyFromCircBuffer_cases b size with ⟨-, hc⟩ | ⟨-, mm, ⟨hcopy, hc⟩ | ⟨-, hc⟩⟩
  · rw [hc] at h
    cases h
  · rw [hc] at h
    cases h
    have hp := present_of_copyToUser hcopy
    rw [hlen] at hp
    refine ⟨hp, ?_⟩
    rw [copyToUser_of_present _ _ _ (hlen.symm ▸ hp), Outcome.ret.injEq] at hcopy
    rw [hcopy.2]
    exact setSsPags_frame ..
  · rw [hc] at h
    cases h

/-- A copy to pages that are present returns. -/
lemma copyFromCircBuffer_returns (hsize : size ≤ circularSize)
    (hp : ∀ j < size.toNat,
      (s.windowOf b).present ((s.task b).buffer + numPagData * pageSize + j) = true) :
    ∃ mm, s.copyFromCircBuffer b size = .ret () { s with mm := mm } := by
  have hlen : (circBytes s.kbd size.toNat).length = size.toNat := by simp [circBytes]
  rcases s.copyFromCircBuffer_cases b size with ⟨hover, -⟩ | ⟨-, mm, ⟨-, hc⟩ | ⟨hcopy, -⟩⟩
  · omega
  · exact ⟨_, hc⟩
  · rw [copyToUser_of_present _ _ _ (hlen.symm ▸ hp)] at hcopy
    cases hcopy

/-- The window does not cover the data pages. -/
lemma windowOf_table_data (s : Kernel) (b : Slot) (i : Fin numPagData) :
    (s.windowOf b).pagusrTable (pagLogInitDataP0 + i.val) =
      s.mm.pagusrTable (pagLogInitDataP0 + i.val) := by
  refine setSsPags_table_of_ne fun j _ => ?_
  have := pageIndex_lt i
  show 264 + i.val ≠ 284 + j.val
  omega

/-- Twenty pages above the code pages are data pages. -/
lemma exists_page_above_code {a : ℕ} (hlo : lUserStart ≤ a) (hhi : a < userData) :
    ∃ i : Fin numPagData, (a + numPagData * pageSize) / pageSize = pagLogInitDataP0 + i.val := by
  change 0x100000 ≤ a at hlo
  change a < 264 * 4096 at hhi
  refine ⟨⟨a / 4096 - 244, ?_⟩, ?_⟩
  · show a / 4096 - 244 < 20
    omega
  · show (a + 20 * 4096) / 4096 = 264 + (a / 4096 - 244)
    omega

/-- **A delivery to the code pages** goes to the process that runs. -/
lemma deliver_to_code (hmap : s.DataMapped) (hf : FramesOk s) (hcur : s.Live s.cur)
    {i : Fin numPagData}
    (hi : ((s.task b).buffer + numPagData * pageSize) / pageSize = pagLogInitDataP0 + i.val)
    (h0 : 0 < size) {c : Byte}
    (hbytes : circBytes s.kbd size.toNat = List.replicate size.toNat c)
    (h : s.copyFromCircBuffer b size = .ret () t) :
    t.mm.frame (frameNat (s.current.phPages i)) ((s.task b).buffer % pageSize) = c := by
  set a := (s.task b).buffer with ha
  have hframe : (s.windowOf b).frameOf (a + numPagData * pageSize) =
      frameNat (s.current.phPages i) := by
    have hbase := (hmap i).2.2.2
    rw [← hf.frameNat_eq hcur] at hbase
    rw [frameOf, hi, windowOf_table_data]
    exact_mod_cast hbase
  rw [(copyFromCircBuffer_ret h).2, hbytes]
  refine storeAll_replicate _ ⟨0, by omega, hframe.symm, ?_⟩
  show a % 4096 = (a + 20 * 4096 + 0) % 4096
  omega

/-- **A delivery past the data pages** does not return. -/
lemma inData_of_ret {D : Fin numPagData → ℤ} {W : Option (Fin numPagData → ℤ)}
    (ht : TableIs E.codeMemory.pagusrTable s.mm D W) (hlo : userData ≤ (s.task b).buffer)
    (hhi : (s.task b).buffer ≤ userEnd) (hsize : size ≤ circularSize) (h0 : 0 < size)
    (h : s.copyFromCircBuffer b size = .ret () t) : InData (s.task b).buffer size.toNat := by
  refine ⟨hlo, ?_⟩
  by_contra hend
  set a := (s.task b).buffer with ha
  have hp := (copyFromCircBuffer_ret h).1 (size.toNat - 1) (by omega)
  change 264 * 4096 ≤ a at hlo
  change a ≤ 284 * 4096 at hhi
  change ¬ a + size.toNat ≤ 284 * 4096 at hend
  change size ≤ 5 at hsize
  have hpage : (a + numPagData * pageSize + (size.toNat - 1)) / pageSize = 304 := by
    show (a + 20 * 4096 + (size.toNat - 1)) / 4096 = 304
    omega
  have hwin : (s.windowOf b).pagusrTable 304 = s.mm.pagusrTable 304 := by
    refine setSsPags_table_of_ne fun j _ => ?_
    have := pageIndex_lt j
    show 304 ≠ 284 + j.val
    omega
  rw [present, hpage, hwin, ht.other 304 (.inr le_rfl), E.codeMemory_above (by decide)] at hp
  cases hp

end Kernel

open Kernel in
/-- **A delivery writes only the reader's buffer**, whatever was typed, just when its size fits into
the local array and, if it is for any characters, they go to the data pages; in the states of runs
whose exits find two processes to run. -/
theorem delivery_writes_own_iff {E : Env} {es : List Event} {s : Kernel} {b : Slot} {size : ℤ}
    (h : ExitRun E.boot es s) (hb : b ∈ s.keyboardQueue)
    (hacc : lUserStart ≤ (s.task b).buffer ∧ (s.task b).buffer ≤ userEnd) :
    (∀ chars, (s.withChars chars).WritesOwn b size) ↔
      size ≤ circularSize ∧ (0 < size → InData (s.task b).buffer size.toNat) := by
  have hown := h.ownData (List.ne_nil_of_mem hb)
  have hmap := hown.dataMapped
  obtain ⟨Q, W, hs, hf, ht⟩ := hown
  obtain ⟨hne, hlive⟩ := reader_ne_cur hs.sched hb
  constructor
  · intro hall
    have hfits : size ≤ circularSize := by
      by_contra hover
      obtain ⟨t, hc, -⟩ := hall s.kbd.circular
      rcases copyFromCircBuffer_cases (s.withChars s.kbd.circular) b size with
        ⟨-, hstop⟩ | ⟨hle, -⟩
      · rw [hstop] at hc
        cases hc
      · exact hover hle
    refine ⟨hfits, fun h0 => ?_⟩
    by_cases hcode : (s.task b).buffer < userData
    · -- characters that differ from what the running process has there
      exfalso
      obtain ⟨i, hi⟩ := exists_page_above_code hacc.1 hcode
      set f := frameNat (s.current.phPages i) with hfi
      set x := (s.task b).buffer % pageSize
      set chars : ℤ → Byte := fun _ => s.mm.frame f x + 1 with hchars
      have hbytes : circBytes (s.withChars chars).kbd size.toNat =
          List.replicate size.toNat (s.mm.frame f x + 1) := by
        simp [circBytes_eq, withChars, hchars]
      obtain ⟨t, hc, -, hchange⟩ := hall chars
      have hgot : t.mm.frame f x = s.mm.frame f x + 1 :=
        deliver_to_code (s := s.withChars chars) hmap
          (hf.ofSameSched (s.sameSched_withChars chars) rfl) hs.sched.cur_live hi h0 hbytes hc
      have hchanged : t.mm.frame f x ≠ s.mm.frame f x := by
        rw [hgot]
        simp
      obtain ⟨-, -, j, -, hj, -⟩ := hchange f x hchanged
      exact hf.frameNat_ne hs.sched.cur_live hlive (fun heq => hne heq.1.symm) hj
    · obtain ⟨t, hc, -⟩ := hall s.kbd.circular
      exact inData_of_ret ht (not_lt.mp hcode) hacc.2 hfits h0 hc
  · rintro ⟨hfits, hin⟩ chars
    by_cases h0 : 0 < size
    · exact writesOwn_of_inData (hf.ofSameSched (s.sameSched_withChars chars) rfl) hlive hfits
        (hin h0)
    · exact writesOwn_of_nonpos (not_lt.mp h0)

/-! ## A child that reads to its code pages -/

/-- The child of task 0 waits for `n` characters. -/
lemma child_reads {a n : ℕ} (ha : lUserStart ≤ a ∧ a ≤ userEnd) (h0 : 0 < n)
    (hn : n + 1 < pageSize) :
    ∃ s, ExitRun linkedEnv.boot (childRuns ++ [plain (.read 0 a n)]) s ∧ s.keyboardQueue = [1] ∧
      (s.task 1).reader = ((n : ℤ), (n : ℤ), a) ∧ s.kbd.RingOk ∧ s.kbd.circChars = 0 := by
  obtain ⟨s, Q, hexit, hs, -, hcur, hstd, hnil, hcirc, hring⟩ := childRuns_ring
  obtain ⟨-, t, hd, hjoin⟩ := child_waits hs hexit hcur hstd ha hn
    (by rw [hcirc]; exact_mod_cast h0)
  have hkbd : t.kbd = { s.kbd with circChars := 0, start := s.kbd.p } := by
    rw [hjoin.kbd, ← hcirc]
  refine ⟨t, hexit.snoc (Kernel.exitsFindTwo_of_done hd) (Kernel.step_of_done hd), ?_, ?_, ?_, ?_⟩
  · rw [hjoin.queue, hnil, hcur]
    rfl
  · have hown := hjoin.own
    rwa [hcur, hcirc, sub_zero] at hown
  · rw [hkbd]
    exact Kernel.ringOk_empty hring.p
  · rw [hkbd]

open Kernel in
/-- A character for a buffer in the data pages. -/
theorem delivery_writes_own_iff_of_child :
    ∃ s, ExitRun linkedEnv.boot (childRuns ++ [plain (.read 0 userData 1)]) s ∧
      1 ∈ s.keyboardQueue ∧ ∀ chars, (s.withChars chars).WritesOwn 1 1 := by
  obtain ⟨s, hrun, hqueue, hreader, -, -⟩ := child_reads (a := userData) (n := 1) (by decide)
    (by decide) (by decide)
  have hmem : 1 ∈ s.keyboardQueue := by
    rw [hqueue]
    exact List.mem_singleton_self 1
  have hbuffer : (s.task 1).buffer = userData := by
    simp only [Task.reader, Prod.mk.injEq] at hreader
    exact hreader.2.2
  refine ⟨s, hrun, hmem, (delivery_writes_own_iff hrun hmem ?_).mpr ⟨by decide, fun _ => ?_⟩⟩
  · rw [hbuffer]
    decide
  · rw [hbuffer]
    exact ⟨le_rfl, by decide⟩

open Kernel in
/-- A key that is pressed while the child waits with a buffer in its code pages: the character goes
to the process that runs. -/
lemma key_for_code {s : Kernel} {Q : Node → List Slot} (hs : SystemOk s Q) (hf : FramesOk s)
    (hmap : s.DataMapped) (hqueue : s.keyboardQueue = [1])
    (hreader : (s.task 1).reader = (1, 1, lUserStart)) (hring : s.kbd.RingOk)
    (hempty : s.kbd.circChars = 0) {scan : Byte} (hmake : isMake scan = true) :
    ∃ t, s.dispatch (plain (.key scan 0)) = .done t ∧
      t.mm.frame (frameNat (s.current.phPages 12)) 0 = charOf scan 0 := by
  set c := charOf scan 0
  set s₁ := (s.enter fun _ => 0).putChar c with hs₁
  set s₂ := s₁.countChar 1 with hs₂
  have hsame₁ : SameSched s s₁ :=
    (s.quiet_enter _).sched.trans ((s.enter fun _ => 0).quiet_putChar c).sched
  have hsame : SameSched s s₂ := hsame₁.trans (s₁.sameSched_countChar 1)
  -- the reader asks for one character, and misses it
  have hreader₁ : (s₁.task 1).reader = (1, 1, lUserStart) :=
    ((s.sameData_enter fun _ => 0).reader 1).trans hreader
  simp only [Task.reader, Prod.mk.injEq] at hreader₁
  obtain ⟨hpend, hsize, hbuffer₁⟩ := hreader₁
  have hbuffer : (s₂.task 1).buffer = lUserStart := by
    rw [hs₂, countChar_task]
    exact hbuffer₁
  have hmap₂ : s₂.DataMapped := by
    intro i
    rw [current, hsame.pages, hsame.cur]
    exact hmap i
  -- the character is the only one in the ring
  have hchars : circBytes s₂.kbd (1 : ℤ).toNat = List.replicate (1 : ℤ).toNat c := by
    have hbytes := ringBytes_putChar (s := s) hring (by rw [hempty]; decide) c
    have hone : (s.putChar c).kbd.circChars = 1 := by
      show s.kbd.circChars + 1 = 1
      rw [hempty]
      rfl
    rw [ringBytes_of_empty hempty, ringBytes, hone] at hbytes
    exact hbytes
  have hpage : ((s₂.task 1).buffer + numPagData * pageSize) / pageSize =
      pagLogInitDataP0 + (12 : Fin numPagData).val := by
    rw [hbuffer]
    decide
  obtain ⟨mm, hc⟩ : ∃ mm, s₂.copyFromCircBuffer 1 1 = .ret () { s₂ with mm := mm } := by
    refine copyFromCircBuffer_returns (by decide) fun j hj => ?_
    obtain rfl : j = 0 := Nat.lt_one_iff.mp hj
    rw [Nat.add_zero, present, hpage, windowOf_table_data, (hmap₂ 12).1]
    decide
  have hgot := deliver_to_code hmap₂ (hf.ofSameSched hsame rfl)
    ((hsame.live_iff s.cur).mpr hs.sched.cur_live) hpage one_pos hchars hc
  rw [hbuffer] at hgot
  rw [← hsize] at hc
  refine ⟨({ s₂ with mm := mm }.emptyCircBuffer).unblockAndEnqueque 1, ?_, ?_⟩
  · have hd : s.dispatch (plain (.key scan 0)) = finishInt (s₁.serveReader 1) :=
      dispatch_key_waiting hs.sched hmake hqueue
    rw [hd, serveReader_of_last hpend.le hc]
    rfl
  · rw [current, hsame.pages, hsame.cur] at hgot
    exact hgot

theorem key_reaches_running_process :
    ∃ s scan t, ExitRun linkedEnv.boot (childRuns ++ [plain (.read 0 lUserStart 1)]) s ∧
      s.keyboardQueue = [1] ∧ s.cur ≠ 1 ∧ s.step (plain (.key scan 0)) = .ok t ∧
      t.mm.frame (frameNat (s.current.phPages 12)) 0 ≠
        s.mm.frame (frameNat (s.current.phPages 12)) 0 := by
  obtain ⟨s, hrun, hqueue, hreader, hring, hempty⟩ := child_reads (a := lUserStart) (n := 1)
    (by decide) (by decide) (by decide)
  have hown := hrun.ownData (by rw [hqueue]; simp)
  have hmap := hown.dataMapped
  obtain ⟨Q, W, hs, hf, -⟩ := hown
  have hne : s.cur ≠ 1 := by
    have hmem := Kernel.reader_ne_cur hs.sched (u := 1) (by rw [hqueue]; simp)
    exact hmem.1.symm
  -- one of two keys makes a difference
  obtain ⟨t, hd, hgot⟩ := key_for_code hs hf hmap hqueue hreader hring hempty
    (by decide : Kernel.isMake 16 = true)
  obtain ⟨t', hd', hgot'⟩ := key_for_code hs hf hmap hqueue hreader hring hempty
    (by decide : Kernel.isMake 17 = true)
  by_cases hsame : s.mm.frame (frameNat (s.current.phPages 12)) 0 = Kernel.charOf 16 0
  · refine ⟨s, 17, t', hrun, hqueue, hne, Kernel.step_of_done hd', ?_⟩
    rw [hgot', hsame]
    decide
  · refine ⟨s, 16, t, hrun, hqueue, hne, Kernel.step_of_done hd, ?_⟩
    rw [hgot]
    exact Ne.symm hsame

end ZeOS
