import ZeOS.State
import ZeOS.Library.Copy

/-!
# Copies and digits, byte by byte (`utils.c`)

`copy_data`, `copy_from_user`, `copy_to_user` and `itoa` as they run on the bytes of the address
space, where the rest of the model has them on pages, lists and arrays.  A word is four bytes, lowest
first.

The three copies have the same two loops.  Words are moved while more than four bytes are left, so
that a copy always ends with one to four bytes that are moved one by one.  `itoa` counts the digits
with one loop and stores them from the last to the first with another; `stdio.c` has the same one.
-/

namespace ZeOS

open RangeCopy

/-- The bytes of the address space. -/
abbrev Ram := ℕ → Byte

namespace Ram

/-- `*p`, for a `DWord *`. -/
def loadWord (m : Ram) (p : ℕ) : ℕ :=
  (m p).toNat + 256 * (m (p + 1)).toNat + 65536 * (m (p + 2)).toNat
    + 16777216 * (m (p + 3)).toNat

/-- `*q = w`, for a `DWord *`. -/
def storeWord (m : Ram) (q w : ℕ) : Ram := fun a =>
  if a = q then w.toUInt8
  else if a = q + 1 then (w / 256).toUInt8
  else if a = q + 2 then (w / 65536).toUInt8
  else if a = q + 3 then (w / 16777216).toUInt8
  else m a

/-- `*q = b`, for a `Byte *`. -/
def storeByte (m : Ram) (q : ℕ) (b : Byte) : Ram := Function.update m q b

/-- The byte loop. -/
def copyBytes (m : Ram) (p q : ℕ) (size : ℤ) : Ram :=
  if size > 0 then (m.storeByte q (m p)).copyBytes (p + 1) (q + 1) (size - 1) else m
termination_by size.toNat
decreasing_by omega

/-- The word loop, and the byte loop after it. -/
def copyLoop (m : Ram) (p q : ℕ) (size : ℤ) : Ram :=
  if size > 4 then (m.storeWord q (m.loadWord p)).copyLoop (p + 4) (q + 4) (size - 4)
  else m.copyBytes p q size
termination_by size.toNat
decreasing_by omega

/-- `copy_data`. -/
def copyData (m : Ram) (start dest : ℕ) (size : ℤ) : Ram := m.copyLoop start dest size

/-- `copy_from_user`. -/
def copyFromUser (m : Ram) (start dest : ℕ) (size : ℤ) : ℤ × Ram := (0, m.copyLoop start dest size)

/-- `copy_to_user`. -/
def copyToUser (m : Ram) (start dest : ℕ) (size : ℤ) : ℤ × Ram := (0, m.copyLoop start dest size)

/-- The first loop of `itoa`: `i` goes up by one for every digit. -/
def countDigits (digits i : ℤ) : ℤ :=
  if digits > 0 then countDigits (digits.tdiv 10) (i + 1) else i
termination_by digits.toNat
decreasing_by
  rw [Int.tdiv_eq_ediv_of_nonneg (by omega)]
  omega

/-- The second loop of `itoa`: the last digit of `num` goes to `buffer[i-1]`. -/
def storeDigits (m : Ram) (buffer : ℕ) (num i : ℤ) : Ram :=
  if i > 0 then
    (m.storeByte (buffer + (i - 1).toNat) (UInt8.ofInt (num.tmod 10 + 48))).storeDigits buffer
      (num.tdiv 10) (i - 1)
  else m
termination_by i.toNat
decreasing_by omega

/-- `itoa`. -/
def itoa (m : Ram) (num : ℤ) (buffer : ℕ) : Ram := m.storeDigits buffer num (countDigits num 0)

/-! ## The loops copy the range -/

lemma storeByte_eq_blit (m : Ram) (p q : ℕ) : m.storeByte q (m p) = blit m p q 1 := by
  funext a
  by_cases h : a = q
  · subst h
    rw [storeByte, Function.update_self]
    exact (blit_at m p a Nat.zero_lt_one).symm
  · rw [storeByte, Function.update_of_ne h]
    exact (if_neg (by omega)).symm

lemma toUInt8_of_toNat {w : ℕ} {b : Byte} (h : w % 256 = b.toNat) : w.toUInt8 = b := by
  apply UInt8.toNat_inj.mp
  simpa using h

/-- A word is stored as the four bytes that were loaded. -/
lemma storeWord_eq_blit (m : Ram) (p q : ℕ) : m.storeWord q (m.loadWord p) = blit m p q 4 := by
  have h0 := (m p).toNat_lt
  have h1 := (m (p + 1)).toNat_lt
  have h2 := (m (p + 2)).toNat_lt
  have h3 := (m (p + 3)).toNat_lt
  have hbyte : ∀ i w, i < 4 → w % 256 = (m (p + i)).toNat →
      w.toUInt8 = blit m p q 4 (q + i) := by
    intro i w hi hw
    rw [blit_at m p q hi]
    exact toUInt8_of_toNat hw
  funext a
  unfold storeWord loadWord
  split
  · subst a
    exact hbyte 0 _ (by omega) (by simp only [Nat.add_zero]; omega)
  split
  · subst a
    exact hbyte 1 _ (by omega) (by omega)
  split
  · subst a
    exact hbyte 2 _ (by omega) (by omega)
  split
  · subst a
    exact hbyte 3 _ (by omega) (by omega)
  · exact (if_neg (by omega)).symm

lemma copyBytes_eq_blit (m : Ram) (p q : ℕ) (size : ℤ) (h : Apart p q size.toNat) :
    m.copyBytes p q size = blit m p q size.toNat := by
  fun_induction copyBytes m p q size with
  | case1 m p q size hpos ih =>
    have hsize : size.toNat = 1 + (size - 1).toNat := by omega
    rw [hsize] at h ⊢
    rw [ih (by unfold Apart at h ⊢; omega), storeByte_eq_blit, blit_blit m h]
  | case2 m p q size hneg => rw [show size.toNat = 0 by omega, blit_zero]

/-- The two loops copy a range that does not overlap its destination. -/
lemma copyLoop_eq_blit (m : Ram) (p q : ℕ) (size : ℤ) (h : Apart p q size.toNat) :
    m.copyLoop p q size = blit m p q size.toNat := by
  fun_induction copyLoop m p q size with
  | case1 m p q size hlong ih =>
    have hsize : size.toNat = 4 + (size - 4).toNat := by omega
    rw [hsize] at h ⊢
    rw [ih (by unfold Apart at h ⊢; omega), storeWord_eq_blit, blit_blit m h]
  | case2 m p q size hshort => exact copyBytes_eq_blit m p q size h

end Ram

end ZeOS
