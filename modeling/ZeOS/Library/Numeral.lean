import Mathlib.Tactic.Lemma
import Mathlib.Data.List.Basic
import Mathlib.Data.Nat.Digits.Lemmas

/-!
# Numerals

The digits of a number with the highest first, as they are written, and the number that digits
stand for when they are read from left to right.  Mathlib has both with the lowest digit first.

A loop that divides by the base meets the digits from the last one on, so that a numeral is taken
apart at its end (`numeral_concat`).
-/

namespace Numeral

variable {b n d : ℕ}

/-- The digits of `n` in base `b`; zero has none. -/
def numeral (b n : ℕ) : List ℕ := (Nat.digits b n).reverse

/-- The number that digits stand for. -/
def value (b : ℕ) (ds : List ℕ) : ℕ := ds.foldl (fun v d => b * v + d) 0

lemma value_concat (b : ℕ) (ds : List ℕ) (d : ℕ) : value b (ds ++ [d]) = b * value b ds + d := by
  rw [value, List.foldl_append]
  rfl

lemma value_reverse (b : ℕ) (ds : List ℕ) : value b ds.reverse = Nat.ofDigits b ds := by
  induction ds with
  | nil => rfl
  | cons d ds ih =>
    rw [List.reverse_cons, value_concat, ih, Nat.ofDigits_cons, Nat.add_comm]

/-- Reading a numeral gives the number back. -/
lemma value_numeral (b n : ℕ) : value b (numeral b n) = n := by
  rw [numeral, value_reverse, Nat.ofDigits_digits]

@[simp] lemma numeral_zero (b : ℕ) : numeral b 0 = [] := by
  rw [numeral, Nat.digits_zero, List.reverse_nil]

lemma numeral_concat (hb : 1 < b) (hn : n ≠ 0) :
    numeral b n = numeral b (n / b) ++ [n % b] := by
  rw [numeral, Nat.digits_eq_cons_digits_div hb hn, List.reverse_cons, numeral]

lemma numeral_ne_nil (hn : n ≠ 0) : numeral b n ≠ [] := by
  rw [numeral, Ne, List.reverse_eq_nil_iff]
  exact Nat.digits_ne_nil_iff_ne_zero.mpr hn

lemma length_numeral (b n : ℕ) : (numeral b n).length = (Nat.digits b n).length :=
  List.length_reverse

lemma numeral_lt (hb : 1 < b) (hd : d ∈ numeral b n) : d < b :=
  Nat.digits_lt_base hb (List.mem_reverse.mp hd)

/-- A numeral does not start with zero. -/
lemma head_numeral_ne_zero (hd : d ∈ (numeral b n).head?) : d ≠ 0 := by
  rw [numeral, List.head?_reverse] at hd
  obtain ⟨hne, rfl⟩ := List.mem_getLast?_eq_getLast hd
  exact Nat.getLast_digit_ne_zero b (Nat.digits_ne_nil_iff_ne_zero.mp hne)

end Numeral
