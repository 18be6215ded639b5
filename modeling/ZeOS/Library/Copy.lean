import Mathlib.Tactic.Lemma
import Mathlib.Data.Nat.Notation

/-!
# Copying ranges of cells

A memory is a function from addresses to cells.  `blit m src dest n` is the memory after the `n`
cells from `src` on have been copied to `dest`, all at once.

Copying in pieces, one after the other and each as wide as one likes, is the same as copying at
once, if the two ranges do not overlap (`blit_blit`).  That is all that a loop needs, whatever the
width of its moves.
-/

namespace RangeCopy

variable {β : Type*} {m m' : ℕ → β} {src dest n k a : ℕ}

/-- The `n` cells from `dest` on are what the `n` cells from `src` on were. -/
def blit (m : ℕ → β) (src dest n : ℕ) : ℕ → β :=
  fun a => if dest ≤ a ∧ a < dest + n then m (src + (a - dest)) else m a

/-- Two ranges of `n` cells do not overlap. -/
def Apart (src dest n : ℕ) : Prop := src + n ≤ dest ∨ dest + n ≤ src

@[simp] lemma blit_zero (m : ℕ → β) (src dest : ℕ) : blit m src dest 0 = m := by
  funext a
  exact if_neg (by omega)

lemma blit_at (m : ℕ → β) (src dest : ℕ) {i : ℕ} (hi : i < n) :
    blit m src dest n (dest + i) = m (src + i) := by
  rw [blit, if_pos (by omega), Nat.add_sub_cancel_left]

lemma blit_of_lt (m : ℕ → β) (src n : ℕ) (h : a < dest) : blit m src dest n a = m a :=
  if_neg (by omega)

lemma blit_of_le (m : ℕ → β) (src : ℕ) (h : dest + n ≤ a) : blit m src dest n a = m a :=
  if_neg (by omega)

/-- A copy of `n` cells and then of the next `k`. -/
lemma blit_blit (m : ℕ → β) (h : Apart src dest (n + k)) :
    blit (blit m src dest n) (src + n) (dest + n) k = blit m src dest (n + k) := by
  have hsrc : ∀ i, i < k → blit m src dest n (src + n + i) = m (src + n + i) := by
    intro i hi
    rcases h with h | h
    · exact blit_of_lt m src n (by omega)
    · exact blit_of_le m src (by omega)
  funext a
  by_cases hlow : a < dest
  · rw [blit_of_lt _ _ _ (by omega), blit_of_lt m src n hlow, blit_of_lt m src _ hlow]
  · obtain ⟨i, rfl⟩ := Nat.exists_eq_add_of_le (Nat.not_lt.mp hlow)
    by_cases hfirst : i < n
    · rw [blit_of_lt _ _ _ (by omega), blit_at m src dest hfirst, blit_at m src dest (by omega)]
    · obtain ⟨j, rfl⟩ := Nat.exists_eq_add_of_le (Nat.not_lt.mp hfirst)
      by_cases hj : j < k
      · rw [← Nat.add_assoc, blit_at _ _ _ hj, hsrc j hj, Nat.add_assoc dest,
          blit_at m src dest (by omega), Nat.add_assoc]
      · rw [blit_of_le _ _ (by omega), blit_of_le m src (by omega), blit_of_le m src (by omega)]

/-- The `n` cells from `src` on. -/
def cells (m : ℕ → β) (src n : ℕ) : List β := (List.range n).map fun i => m (src + i)

@[simp] lemma length_cells (m : ℕ → β) (src n : ℕ) : (cells m src n).length = n := by
  simp [cells]

@[simp] lemma getElem_cells (m : ℕ → β) (src n : ℕ) {i : ℕ} (hi : i < (cells m src n).length) :
    (cells m src n)[i] = m (src + i) := by
  simp [cells]

@[simp] lemma cells_one (m : ℕ → β) (src : ℕ) : cells m src 1 = [m src] := rfl

lemma cells_add (m : ℕ → β) (src n k : ℕ) :
    cells m src (n + k) = cells m src n ++ cells m (src + n) k := by
  simp [cells, List.range_add, Nat.add_assoc]

lemma cells_congr (h : ∀ i, i < n → m (src + i) = m' (src + i)) :
    cells m src n = cells m' src n :=
  List.map_congr_left fun i hi => h i (List.mem_range.mp hi)

lemma cells_blit (m : ℕ → β) (src dest n : ℕ) :
    cells (blit m src dest n) dest n = cells m src n :=
  List.map_congr_left fun _ hi => blit_at m src dest (List.mem_range.mp hi)

/-! ## Filling -/

/-- The `n` cells from `dest` on are those of `f`. -/
def fill (m : ℕ → β) (dest n : ℕ) (f : ℕ → β) : ℕ → β :=
  fun a => if dest ≤ a ∧ a < dest + n then f (a - dest) else m a

@[simp] lemma fill_zero (m : ℕ → β) (dest : ℕ) (f : ℕ → β) : fill m dest 0 f = m := by
  funext a
  exact if_neg (by omega)

lemma fill_at (m : ℕ → β) (dest : ℕ) (f : ℕ → β) {i : ℕ} (hi : i < n) :
    fill m dest n f (dest + i) = f i := by
  rw [fill, if_pos (by omega), Nat.add_sub_cancel_left]

lemma fill_of_not_mem (m : ℕ → β) (f : ℕ → β) (h : a < dest ∨ dest + n ≤ a) :
    fill m dest n f a = m a :=
  if_neg (by omega)

/-- Filling piece by piece. -/
lemma fill_fill (m : ℕ → β) (dest n k : ℕ) (f : ℕ → β) :
    fill (fill m dest n f) (dest + n) k (fun i => f (n + i)) = fill m dest (n + k) f := by
  funext a
  by_cases hlow : a < dest
  · rw [fill_of_not_mem _ _ (by omega), fill_of_not_mem _ _ (.inl hlow),
      fill_of_not_mem _ _ (.inl hlow)]
  · obtain ⟨i, rfl⟩ := Nat.exists_eq_add_of_le (Nat.not_lt.mp hlow)
    by_cases hfirst : i < n
    · rw [fill_of_not_mem _ _ (by omega), fill_at _ _ _ hfirst, fill_at _ _ _ (by omega)]
    · obtain ⟨j, rfl⟩ := Nat.exists_eq_add_of_le (Nat.not_lt.mp hfirst)
      by_cases hj : j < k
      · rw [← Nat.add_assoc, fill_at _ _ _ hj, Nat.add_assoc, fill_at _ _ _ (by omega)]
      · rw [fill_of_not_mem _ _ (by omega), fill_of_not_mem _ _ (by omega),
          fill_of_not_mem _ _ (by omega)]

end RangeCopy
