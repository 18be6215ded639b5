import ZeOS.Kernel.Utils
import ZeOS.Kernel.Interrupt
import ZeOS.Invariants.Contents
import ZeOS.Library.Numeral

/-!
# The routines of `utils.c`

The copies move words as long as they can and bytes at the end, and still do what a loop over bytes
does (`word_copy_eq_byte_copy`).  `itoa` writes a number in decimal digits (`itoa_writes_decimal`):
its first loop counts as many digits as its second one stores.

The rest of the development has copies on pages and lists and `itoa` on an array.  They do the same
(`copyToUser_on_pages`, `itoa_on_array`).
-/

namespace ZeOS

open RangeCopy Numeral

namespace Ram

/-! ## Copies -/

/-- The bytes of a range are at the destination, and every other byte is as it was. -/
structure CopiedRange (m : Ram) (start dest : ℕ) (size : ℤ) (t : Ram) : Prop where
  bytes : ∀ i : ℕ, i < size → t (dest + i) = m (start + i)
  others : ∀ a, a < dest ∨ dest + size.toNat ≤ a → t a = m a

variable {m : Ram} {start dest buffer : ℕ} {size : ℤ}

lemma copiedRange_blit (m : Ram) (start dest : ℕ) (size : ℤ) :
    CopiedRange m start dest size (blit m start dest size.toNat) := by
  refine ⟨fun i hi => blit_at m start dest (by omega), fun a ha => ?_⟩
  rcases ha with ha | ha
  · exact blit_of_lt m start _ ha
  · exact blit_of_le m start ha

/-- The loops copy the range when it does not overlap the destination. -/
lemma copiedRange_copyLoop (h : Apart start dest size.toNat) :
    CopiedRange m start dest size (m.copyLoop start dest size) := by
  rw [copyLoop_eq_blit m start dest size h]
  exact m.copiedRange_blit start dest size

/-- Words and bytes do the same as bytes alone. -/
lemma copyLoop_eq_copyBytes (h : Apart start dest size.toNat) :
    m.copyLoop start dest size = m.copyBytes start dest size := by
  rw [copyLoop_eq_blit m start dest size h, copyBytes_eq_blit m start dest size h]

lemma copyLoop_of_nonpos (h : size ≤ 0) : m.copyLoop start dest size = m := by
  have hzero : size.toNat = 0 := Int.toNat_of_nonpos h
  have hapart : Apart start dest size.toNat := by
    unfold Apart
    omega
  rw [copyLoop_eq_blit m start dest size hapart, hzero, blit_zero]

end Ram

open Ram

/-- **A word copy is a byte copy.**  For every memory and every two ranges that do not overlap, the
three routines bring the bytes of the source to the destination and leave every other byte alone, as
the byte loop does by itself.  For a size that is not positive they change nothing. -/
theorem word_copy_eq_byte_copy (m : Ram) (start dest : ℕ) (size : ℤ) :
    (Apart start dest size.toNat →
      CopiedRange m start dest size (m.copyData start dest size) ∧
      CopiedRange m start dest size (m.copyFromUser start dest size).2 ∧
      CopiedRange m start dest size (m.copyToUser start dest size).2 ∧
      m.copyData start dest size = m.copyBytes start dest size) ∧
    (size ≤ 0 → m.copyData start dest size = m ∧ (m.copyFromUser start dest size).2 = m ∧
      (m.copyToUser start dest size).2 = m) := by
  refine ⟨fun h => ?_, fun h => ?_⟩
  · have hcopied : CopiedRange m start dest size (m.copyLoop start dest size) :=
      copiedRange_copyLoop h
    exact ⟨hcopied, hcopied, hcopied, copyLoop_eq_copyBytes h⟩
  · have hsame : m.copyLoop start dest size = m := copyLoop_of_nonpos h
    exact ⟨hsame, hsame, hsame⟩

/-- `word_copy_eq_byte_copy` for seven bytes, a word and three bytes. -/
theorem word_copy_eq_byte_copy_seven :
    CopiedRange (fun a => a.toUInt8) 0x1000 0x2000 7
      (copyData (fun a => a.toUInt8) 0x1000 0x2000 7) :=
  ((word_copy_eq_byte_copy (fun a => a.toUInt8) 0x1000 0x2000 7).1 (.inl (by decide))).1

/-- `copy_to_user` on pages brings the same bytes to a user buffer. -/
theorem copyToUser_on_pages {mem : Memory} {dest n : ℕ} (hv : mem.ValidBuffer dest n) (m : Ram)
    {start : ℕ} (h : Apart start dest n) :
    ∃ t, mem.copyToUser dest (cells m start n) = .ret 0 t ∧
      ∀ i < n, t.load (dest + i) = (m.copyToUser start dest n).2 (dest + i) := by
  have hlen : (cells m start n).length = n := length_cells m start n
  refine ⟨_, Memory.copyToUser_of_present mem dest _ fun j hj => hv.present j (hlen ▸ hj),
    fun i hi => ?_⟩
  have hcopied : CopiedRange m start dest n (m.copyLoop start dest n) := copiedRange_copyLoop h
  rw [Memory.load_storeAll _ (hlen.symm ▸ hv) i (hlen.symm ▸ hi)]
  refine Eq.trans ?_ (hcopied.bytes i (by exact_mod_cast hi)).symm
  simp [cells]

/-! ## Decimal digits -/

/-- The character of a decimal digit. -/
def digitChar (d : ℕ) : Byte := (d + 48).toUInt8

/-- The number that a text of decimal digits stands for. -/
def readDecimal (text : List Byte) : ℕ := value 10 (text.map fun c => c.toNat - 48)

lemma digitChar_toNat {d : ℕ} (h : d < 10) : (digitChar d).toNat = d + 48 := by
  show (d + 48) % 256 = d + 48
  omega

lemma ofInt_digit (n : ℕ) : UInt8.ofInt ((n : ℤ).tmod 10 + 48) = digitChar (n % 10) := by
  have hmod : ((n : ℤ).tmod 10 + 48) % 2 ^ 8 = ((n % 10 + 48 : ℕ) : ℤ) := by
    rw [Int.tmod_eq_emod_of_nonneg (Int.natCast_nonneg n)]
    omega
  rw [UInt8.ofInt, hmod, Int.toNat_natCast]
  rfl

/-- The text of a numeral is read back as the number. -/
lemma readDecimal_numeral (n : ℕ) : readDecimal ((numeral 10 n).map digitChar) = n := by
  have hdigits : ((numeral 10 n).map digitChar).map (fun c => c.toNat - 48) = numeral 10 n := by
    rw [List.map_map]
    refine (List.map_congr_left fun d hd => ?_).trans (List.map_id _)
    rw [Function.comp_apply, digitChar_toNat (numeral_lt (by decide) hd), Nat.add_sub_cancel, id]
  rw [readDecimal, hdigits, value_numeral]

namespace Ram

variable {m : Ram} {buffer : ℕ}

lemma tdiv_ten (n : ℕ) : (n : ℤ).tdiv 10 = ((n / 10 : ℕ) : ℤ) := by
  rw [Int.tdiv_eq_ediv_of_nonneg (Int.natCast_nonneg n)]
  omega

/-- The first loop counts the digits. -/
lemma countDigits_eq (n : ℕ) : ∀ i : ℤ, countDigits n i = i + (numeral 10 n).length := by
  induction n using Nat.strong_induction_on with
  | _ n ih =>
    intro i
    rw [countDigits]
    by_cases hn : n = 0
    · subst hn
      simp
    · rw [if_pos (by omega), tdiv_ten, ih _ (by omega), numeral_concat (by decide) hn,
        List.length_append, List.length_singleton]
      push_cast
      omega

lemma storeDigits_of_nonpos (m : Ram) (num : ℤ) {i : ℤ} (h : i ≤ 0) :
    m.storeDigits buffer num i = m := by
  rw [storeDigits, if_neg (by omega)]

/-- The second loop stores `i` bytes and leaves the others alone. -/
lemma storeDigits_frame {a : ℕ} (m : Ram) (num i : ℤ) (h : a < buffer ∨ buffer + i.toNat ≤ a) :
    m.storeDigits buffer num i a = m a := by
  fun_induction storeDigits m buffer num i with
  | case1 m num i hpos ih =>
    rw [ih (by omega)]
    exact Function.update_of_ne (by omega) _ _
  | case2 m num i hneg => rfl

/-- The second loop stores the digits that the first one has counted. -/
lemma cells_storeDigits (n : ℕ) : ∀ m : Ram,
    cells (m.storeDigits buffer n (numeral 10 n).length) buffer (numeral 10 n).length =
      (numeral 10 n).map digitChar := by
  induction n using Nat.strong_induction_on with
  | _ n ih =>
    intro m
    by_cases hn : n = 0
    · subst hn
      simp [cells]
    · have hlen : (numeral 10 n).length = (numeral 10 (n / 10)).length + 1 := by
        rw [numeral_concat (by decide) hn, List.length_append, List.length_singleton]
      set k := (numeral 10 (n / 10)).length with hk
      have hstep : m.storeDigits buffer n (k + 1 : ℕ) =
          (m.storeByte (buffer + k) (digitChar (n % 10))).storeDigits buffer (n / 10 : ℕ) k := by
        rw [storeDigits, if_pos (by omega), ofInt_digit, tdiv_ten, Nat.cast_succ,
          Int.add_sub_cancel, Int.toNat_natCast]
      have hlast : m.storeDigits buffer n (k + 1 : ℕ) (buffer + k) = digitChar (n % 10) := by
        rw [hstep, storeDigits_frame _ _ _ (.inr (by rw [Int.toNat_natCast]))]
        exact Function.update_self _ _ _
      have hrest : cells (m.storeDigits buffer n (k + 1 : ℕ)) buffer k =
          (numeral 10 (n / 10)).map digitChar := by
        rw [hstep]
        exact ih (n / 10) (by omega) _
      rw [hlen, cells_add, hrest, cells_one, hlast, numeral_concat (by decide) hn, List.map_append,
        List.map_singleton]

/-- `itoa` leaves a numeral at the start of the buffer. -/
lemma cells_itoa (m : Ram) (n buffer : ℕ) :
    cells (m.itoa n buffer) buffer (numeral 10 n).length = (numeral 10 n).map digitChar := by
  rw [itoa, countDigits_eq, Int.zero_add]
  exact cells_storeDigits n m

lemma itoa_frame {a : ℕ} (m : Ram) (n buffer : ℕ)
    (h : a < buffer ∨ buffer + (numeral 10 n).length ≤ a) : m.itoa n buffer a = m a := by
  rw [itoa, countDigits_eq, Int.zero_add]
  exact storeDigits_frame m _ _ (by rwa [Int.toNat_natCast])

/-- The `d` bytes from `buffer` on have become a number in decimal digits, and no other byte has
changed. -/
structure WritesDecimal (m : Ram) (n buffer d : ℕ) (t : Ram) : Prop where
  digits : ∀ i < d, '0'.toNat ≤ (t (buffer + i)).toNat ∧ (t (buffer + i)).toNat ≤ '9'.toNat
  first : (t buffer).toNat ≠ '0'.toNat
  others : ∀ a, a < buffer ∨ buffer + d ≤ a → t a = m a
  reads : readDecimal (cells t buffer d) = n

lemma writesDecimal_itoa (m : Ram) {n : ℕ} (buffer : ℕ) (hn : n ≠ 0) :
    WritesDecimal m n buffer (numeral 10 n).length (m.itoa n buffer) := by
  have hcells := m.cells_itoa n buffer
  have hmem : ∀ i < (numeral 10 n).length,
      ∃ d ∈ numeral 10 n, m.itoa n buffer (buffer + i) = digitChar d := by
    intro i hi
    have hin : m.itoa n buffer (buffer + i) ∈ (numeral 10 n).map digitChar := by
      rw [← hcells]
      exact List.mem_map.mpr ⟨i, List.mem_range.mpr hi, rfl⟩
    obtain ⟨d, hd, heq⟩ := List.mem_map.mp hin
    exact ⟨d, hd, heq.symm⟩
  refine ⟨fun i hi => ?_, ?_, fun a ha => m.itoa_frame n buffer ha, ?_⟩
  · obtain ⟨d, hd, heq⟩ := hmem i hi
    have hlt : d < 10 := numeral_lt (by decide) hd
    rw [heq, digitChar_toNat hlt]
    show 48 ≤ d + 48 ∧ d + 48 ≤ 57
    omega
  · -- the first character is that of the first digit
    cases hnum : numeral 10 n with
    | nil => exact absurd hnum (numeral_ne_nil hn)
    | cons d ds =>
      have hlt : d < 10 := numeral_lt (n := n) (by decide) (by rw [hnum]; exact List.mem_cons_self)
      have hpos : d ≠ 0 := head_numeral_ne_zero (b := 10) (n := n) (by rw [hnum]; rfl)
      rw [hnum, List.length_cons, cells, List.range_succ_eq_map, List.map_cons, List.map_cons,
        List.cons.injEq, Nat.add_zero] at hcells
      rw [hcells.1, digitChar_toNat hlt]
      show d + 48 ≠ 48
      omega
  · rw [hcells, readDecimal_numeral]

end Ram

/-! ## `itoa` on an array -/

lemma itoaDigits_eq (n : ℕ) : itoaDigits n = (numeral 10 n).length := by
  induction n using Nat.strong_induction_on with
  | _ n ih =>
    rw [itoaDigits]
    by_cases hn : n = 0
    · subst hn
      simp
    · rw [if_neg hn, ih _ (by omega), numeral_concat (by decide) hn, List.length_append,
        List.length_singleton]

lemma itoaLoop_eq (buffer i : ℕ) : ∀ (n : ℕ) (m : Ram),
    itoaLoop i n (fun j => m (buffer + j)) = fun j => m.storeDigits buffer n i (buffer + j) := by
  induction i with
  | zero =>
    intro n m
    rw [itoaLoop, storeDigits_of_nonpos _ _ (by decide)]
  | succ i ih =>
    intro n m
    have hstore : Function.update (fun j => m (buffer + j)) i (n % 10 + 48).toUInt8 =
        fun j => m.storeByte (buffer + i) (digitChar (n % 10)) (buffer + j) := by
      funext j
      by_cases hj : j = i
      · subst hj
        rw [Function.update_self, storeByte, Function.update_self, digitChar]
      · rw [Function.update_of_ne hj, storeByte, Function.update_of_ne (by omega)]
    rw [itoaLoop, hstore, ih]
    funext j
    conv_rhs => rw [storeDigits, if_pos (by omega), ofInt_digit, tdiv_ten, Nat.cast_succ,
      Int.add_sub_cancel, Int.toNat_natCast]

/-- The routine on an array stores the same bytes. -/
theorem itoa_on_array (m : Ram) (n : ℤ) (buffer j : ℕ) :
    itoa n (fun i => m (buffer + i)) j = m.itoa n buffer (buffer + j) := by
  rw [itoa, itoaLoop_eq, itoaDigits_eq, Ram.itoa]
  by_cases hn : 0 ≤ n
  · obtain ⟨k, rfl⟩ := Int.eq_ofNat_of_zero_le hn
    rw [Int.toNat_natCast, countDigits_eq, Int.zero_add]
  · -- a negative number has no digits
    have hnone : countDigits n 0 = 0 := by
      rw [countDigits, if_neg (by omega)]
    rw [Int.toNat_of_nonpos (by omega), numeral_zero, hnone, List.length_nil,
      storeDigits_of_nonpos _ _ (by decide), storeDigits_of_nonpos _ _ (by decide)]

/-- **Decimal conversion.**  For every positive number and every buffer, `itoa` writes as many bytes
as the number has decimal digits and no other: characters of digits, of which the first is not zero,
that are read as the number.  The routine on an array stores the same bytes. -/
theorem itoa_writes_decimal (m : Ram) (n : ℤ) (buffer : ℕ) (hn : 1 ≤ n) :
    WritesDecimal m n.toNat buffer (Nat.digits 10 n.toNat).length (m.itoa n buffer) ∧
      ∀ j, itoa n (fun i => m (buffer + i)) j = m.itoa n buffer (buffer + j) := by
  refine ⟨?_, fun j => itoa_on_array m n buffer j⟩
  obtain ⟨k, rfl⟩ := Int.eq_ofNat_of_zero_le (Int.le_trans Int.one_nonneg hn)
  rw [Int.toNat_natCast, ← length_numeral]
  exact writesDecimal_itoa m buffer (by omega)

/-- `itoa_writes_decimal` for the largest `int`, which has ten digits. -/
theorem itoa_writes_decimal_largest :
    WritesDecimal (fun _ => 0) 2147483647 0x2000 10 (Ram.itoa (fun _ => 0) 2147483647 0x2000) := by
  have hlen : (Nat.digits 10 2147483647).length = 10 := by decide
  have h := (itoa_writes_decimal (fun _ => 0) 2147483647 0x2000 (by decide)).1
  rw [show (2147483647 : ℤ).toNat = 2147483647 from rfl, hlen] at h
  exact h

end ZeOS
