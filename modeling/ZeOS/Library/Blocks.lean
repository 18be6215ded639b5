import Mathlib.Tactic.Lemma
import Mathlib.Logic.Function.Basic
import Mathlib.Data.List.Nodup
import Mathlib.Data.Int.Basic
import Mathlib.Data.List.GetD

/-!
# Data in a list of blocks

A store of cells is divided into blocks of `B` cells, and a sequence of values is kept in a
list of blocks, in order: value `k` is in block `k / B` of the list, at position `k % B`.

`addr B blocks k` is the cell of value `k`, and `stored B cells blocks n` are the first `n`
values.  Different positions have different cells, within one duplicate-free list of blocks
(`addr_inj`) and between disjoint ones (`addr_ne`), so writing the next value appends it
(`stored_write`), writing an earlier one replaces it (`stored_overwrite`), and both leave the data
in other blocks alone (`stored_write_other`).

`splice c o d` is a list with a part of it replaced, from position `o` on.
-/

namespace BlockData

variable {β : Type*} {B : ℕ} {blocks blocks' : List ℤ} {cells : ℤ → β}

/-- The cell of value `k`. -/
def addr (B : ℕ) (blocks : List ℤ) (k : ℕ) : ℤ := blocks.getD (k / B) 0 * B + (k % B : ℕ)

/-- The first `n` values. -/
def stored (B : ℕ) (cells : ℤ → β) (blocks : List ℤ) (n : ℕ) : List β :=
  (List.range n).map (fun k => cells (addr B blocks k))

@[simp] lemma length_stored (n : ℕ) : (stored B cells blocks n).length = n := by
  simp [stored]

lemma stored_getElem {n k : ℕ} (hk : k < n) :
    (stored B cells blocks n)[k]? = some (cells (addr B blocks k)) := by
  simp [stored, hk]

/-- Two cells in blocks of the same size agree only in the same block and position. -/
lemma block_eq (hB : 0 < B) {x y : ℤ} {k l : ℕ}
    (h : x * B + (k % B : ℕ) = y * B + (l % B : ℕ)) : x = y ∧ k % B = l % B := by
  have hk := Nat.mod_lt k hB
  have hl := Nat.mod_lt l hB
  have hxy : x = y := by
    by_contra hne
    rcases Int.lt_or_gt_of_ne hne with hlt | hlt
    · have : (x + 1) * B ≤ y * B := Int.mul_le_mul_of_nonneg_right hlt (by omega)
      rw [Int.add_mul] at this
      omega
    · have : (y + 1) * B ≤ x * B := Int.mul_le_mul_of_nonneg_right hlt (by omega)
      rw [Int.add_mul] at this
      omega
  subst hxy
  exact ⟨rfl, by omega⟩

lemma getD_mem {i : ℕ} (hi : i < blocks.length) : blocks.getD i 0 ∈ blocks := by
  rw [List.getD_eq_getElem _ _ hi]
  exact List.getElem_mem hi

lemma addr_inj (hB : 0 < B) (hnd : blocks.Nodup) {k l : ℕ} (hk : k / B < blocks.length)
    (hl : l / B < blocks.length) (h : addr B blocks k = addr B blocks l) : k = l := by
  obtain ⟨hblock, hmod⟩ := block_eq hB h
  rw [List.getD_eq_getElem _ _ hk, List.getD_eq_getElem _ _ hl] at hblock
  have hdiv := (List.Nodup.getElem_inj_iff hnd).mp hblock
  rw [← Nat.div_add_mod k B, ← Nat.div_add_mod l B, hdiv, hmod]

lemma addr_ne (hB : 0 < B) (hdisj : blocks.Disjoint blocks') {k l : ℕ}
    (hk : k / B < blocks.length) (hl : l / B < blocks'.length) :
    addr B blocks k ≠ addr B blocks' l := by
  intro h
  have hblock := (block_eq hB h).1
  exact hdisj (getD_mem hk) (hblock ▸ getD_mem hl)

/-- More blocks at the end do not move the values. -/
lemma addr_append {k : ℕ} (hk : k / B < blocks.length) :
    addr B (blocks ++ blocks') k = addr B blocks k := by
  rw [addr, addr, List.getD_append _ _ _ _ hk]

/-- The data depends on its own cells only. -/
lemma stored_congr {cells' : ℤ → β} {n : ℕ}
    (h : ∀ k < n, cells' (addr B blocks' k) = cells (addr B blocks k)) :
    stored B cells' blocks' n = stored B cells blocks n := by
  refine List.map_congr_left (fun k hk => h k (List.mem_range.mp hk))

/-- The blocks hold `n` values. -/
def Fits (B : ℕ) (blocks : List ℤ) (n : ℕ) : Prop := n ≤ B * blocks.length

lemma Fits.div_lt (hB : 0 < B) {n k : ℕ} (h : Fits B blocks n) (hk : k < n) :
    k / B < blocks.length := by
  rw [Nat.div_lt_iff_lt_mul hB, Nat.mul_comm]
  exact lt_of_lt_of_le hk h

/-- Writing the next value appends it. -/
lemma stored_write (hB : 0 < B) (hnd : blocks.Nodup) {n : ℕ} (b : β)
    (h : Fits B blocks (n + 1)) :
    stored B (Function.update cells (addr B blocks n) b) blocks (n + 1) =
      stored B cells blocks n ++ [b] := by
  have hn := h.div_lt hB (Nat.lt_succ_self n)
  rw [stored, List.range_succ, List.map_append, List.map_cons, List.map_nil, Function.update_self]
  congr 1
  refine List.map_congr_left (fun k hk => Function.update_of_ne ?_ _ _)
  intro heq
  have hk' : k < n := List.mem_range.mp hk
  have := addr_inj hB hnd (h.div_lt hB (by omega)) hn heq
  omega

/-- Writing an earlier value replaces it. -/
lemma stored_overwrite (hB : 0 < B) (hnd : blocks.Nodup) {n k : ℕ} (b : β) (h : Fits B blocks n)
    (hk : k < n) :
    stored B (Function.update cells (addr B blocks k) b) blocks n =
      (stored B cells blocks n).set k b := by
  refine List.ext_getElem? (fun j => ?_)
  by_cases hj : j < n
  · rw [stored_getElem hj, List.getElem?_set]
    by_cases hjk : k = j
    · subst hjk
      rw [if_pos rfl, if_pos (by simpa using hk), Function.update_self]
    · have hne : addr B blocks j ≠ addr B blocks k := fun heq =>
        hjk (addr_inj hB hnd (h.div_lt hB hj) (h.div_lt hB hk) heq).symm
      rw [if_neg hjk, Function.update_of_ne hne, stored_getElem hj]
  · rw [List.getElem?_eq_none (by simpa using hj), List.getElem?_eq_none (by simpa using hj)]

/-- Writing a value leaves the data in other blocks alone. -/
lemma stored_write_other (hB : 0 < B) (hdisj : blocks.Disjoint blocks') {n m : ℕ} (b : β)
    (h : Fits B blocks n) (hm : m / B < blocks'.length) :
    stored B (Function.update cells (addr B blocks' m) b) blocks n = stored B cells blocks n := by
  refine stored_congr (fun k hk => Function.update_of_ne ?_ _ _)
  exact addr_ne hB hdisj (h.div_lt hB hk) hm

/-! ## Replacing a part of a list -/

/-- The list `c` with `d` from position `o` on. -/
def splice (c : List β) (o : ℕ) (d : List β) : List β := c.take o ++ d ++ c.drop (o + d.length)

@[simp] lemma splice_nil (c : List β) (o : ℕ) : splice c o [] = c := by
  simp [splice]

lemma splice_length_self (c : List β) (b : β) : splice c c.length [b] = c ++ [b] := by
  simp [splice]

lemma splice_set {c : List β} {o : ℕ} (ho : o < c.length) (b : β) : splice c o [b] = c.set o b := by
  rw [splice, List.set_eq_take_append_cons_drop, if_pos ho, List.append_assoc]
  rfl

lemma splice_snoc {c : List β} {o : ℕ} (ho : o ≤ c.length) (d : List β) (b : β) :
    splice (splice c o d) (o + d.length) [b] = splice c o (d ++ [b]) := by
  have hlen : (c.take o ++ d).length = o + d.length := by simp [ho]
  rw [splice, splice, List.take_left' hlen, List.length_singleton, List.drop_append, hlen,
    List.drop_of_length_le (by omega), Nat.add_sub_cancel_left, List.drop_drop, splice,
    List.length_append, List.length_singleton, Nat.add_assoc, List.nil_append]
  simp only [List.append_assoc]

end BlockData
