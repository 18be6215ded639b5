import Mathlib.Algebra.BigOperators.Group.Finset.Sigma
import Mathlib.Algebra.BigOperators.Group.Finset.Piecewise
import Mathlib.Algebra.BigOperators.Ring.Finset
import Mathlib.Algebra.Group.Int.Defs
import Mathlib.Data.Fintype.BigOperators
import Mathlib.Tactic.Abel
import Mathlib.Tactic.Lemma

/-!
# Counting the pointers of a table

A table `L : ι → κ → Option α` has in each cell of each row a pointer to an object of `α`, or
nothing.  `tally L a` is the number of cells that point to `a`, as an integer, so that a reference
counter can be compared with it after any number of changes.  A change of one cell, of a whole
row, or of the objects behind the pointers changes the tally by what the rows say
(`row_update`, `tally_update`).
-/

namespace Tally

open Function

variable {ι κ α : Type*} [Fintype ι] [Fintype κ] [DecidableEq α]

/-- The number of cells of a row that point to `a`. -/
def row (r : κ → Option α) (a : α) : ℤ := ∑ k, if r k = some a then 1 else 0

/-- The number of cells of a table that point to `a`. -/
def tally (L : ι → κ → Option α) (a : α) : ℤ := ∑ i, row (L i) a

lemma row_eq_card (r : κ → Option α) (a : α) :
    row r a = (Finset.univ.filter fun k => r k = some a).card := by
  rw [row, Finset.card_filter]
  push_cast
  rfl

lemma tally_eq_card (L : ι → κ → Option α) (a : α) :
    tally L a = (Finset.univ.filter fun p : ι × κ => L p.1 p.2 = some a).card := by
  rw [tally, Finset.card_filter, Fintype.sum_prod_type]
  push_cast
  rfl

lemma tally_nonneg (L : ι → κ → Option α) (a : α) : 0 ≤ tally L a := by
  rw [tally_eq_card]
  exact Int.natCast_nonneg _

@[simp] lemma row_none (a : α) : row (fun _ : κ => none) a = 0 := by
  simp [row]

lemma row_update [DecidableEq κ] (r : κ → Option α) (k : κ) (x : Option α) (a : α) :
    row (update r k x) a =
      row r a - (if r k = some a then 1 else 0) + if x = some a then 1 else 0 := by
  have hfun : (fun j => if update r k x j = some a then (1 : ℤ) else 0) =
      update (fun j => if r j = some a then 1 else 0) k (if x = some a then 1 else 0) := by
    funext j
    by_cases hj : j = k
    · subst hj
      simp
    · simp [hj]
  rw [row, hfun, Finset.sum_update_of_mem (Finset.mem_univ k), row,
    ← Finset.add_sum_erase _ _ (Finset.mem_univ k), Finset.sdiff_singleton_eq_erase]
  abel

/-- A row is replaced. -/
lemma tally_update [DecidableEq ι] (L : ι → κ → Option α) (i : ι) (r : κ → Option α) (a : α) :
    tally (update L i r) a = tally L a - row (L i) a + row r a := by
  have hfun : (fun j => row (update L i r j) a) = update (fun j => row (L j) a) i (row r a) := by
    funext j
    by_cases hj : j = i
    · subst hj
      simp
    · simp [hj]
  rw [tally, hfun, Finset.sum_update_of_mem (Finset.mem_univ i), tally,
    ← Finset.add_sum_erase _ _ (Finset.mem_univ i), Finset.sdiff_singleton_eq_erase]
  abel

/-- A cell is changed. -/
lemma tally_update_cell [DecidableEq ι] [DecidableEq κ] (L : ι → κ → Option α) (i : ι) (k : κ)
    (x : Option α) (a : α) :
    tally (update L i (update (L i) k x)) a =
      tally L a - (if L i k = some a then 1 else 0) + if x = some a then 1 else 0 := by
  rw [tally_update, row_update]
  abel

end Tally
