import Mathlib.Tactic.Lemma
import Mathlib.Logic.Function.Iterate
import Mathlib.Data.List.Nodup

/-!
# Null-terminated chains in an array of successors

A table `next : α → α` gives each cell its successor, and one distinguished value `nil` is
no cell.  A *chain* starts at a cell, or at `nil`, and follows the table to `nil`; several
chains share the table and are changed in place by writing single entries.

`IsChain next nil i xs` says that the chain from `i` visits exactly `xs`, in order.  The
rules say how a chain survives a write away from it (`IsChain.congr`), how it is cut behind a
cell (`IsChain.cut`) and how two chains are linked (`IsChain.link`).  `walkLast` is the loop that
runs to the last cell of a chain: on a well-formed chain it ends, and the fuel needed is the length
(`IsChain.walkLast_eq`).

`Chains next nil start C` is a family of chains in one table that share no cell.  Its rules
are the moves an allocator makes: the head of one chain is taken off (`Chains.pop`), becomes
a chain of its own (`Chains.single`) or the new end of a chain (`Chains.extend`), and a whole
chain is appended to another (`Chains.join`).
-/

namespace LinkChain

variable {α : Type*} {next next' : α → α} {nil : α}

/-- The chain from a cell, following `next` until `nil`, visits exactly the listed cells. -/
def IsChain (next : α → α) (nil : α) : α → List α → Prop
  | i, [] => i = nil
  | i, x :: xs => i = x ∧ x ≠ nil ∧ IsChain next nil (next x) xs

@[simp] lemma isChain_nil {i : α} : IsChain next nil i [] ↔ i = nil := Iff.rfl

@[simp] lemma isChain_cons {i x : α} {xs : List α} :
    IsChain next nil i (x :: xs) ↔ i = x ∧ x ≠ nil ∧ IsChain next nil (next x) xs := Iff.rfl

/-- A chain only depends on the successors of its own cells. -/
lemma IsChain.congr {xs : List α} :
    ∀ {i : α}, IsChain next nil i xs → (∀ x ∈ xs, next' x = next x) →
      IsChain next' nil i xs := by
  induction xs with
  | nil =>
    intro i h _
    exact h
  | cons x xs ih =>
    intro i h hagree
    obtain ⟨hi, hx, hc⟩ := h
    refine ⟨hi, hx, ?_⟩
    rw [hagree x (List.mem_cons_self ..)]
    exact ih hc (fun y hy => hagree y (List.mem_cons_of_mem _ hy))

/-- The start of a chain determines it. -/
lemma IsChain.unique {xs : List α} :
    ∀ {i : α} {ys : List α}, IsChain next nil i xs → IsChain next nil i ys → xs = ys := by
  induction xs with
  | nil =>
    intro i ys hx hy
    cases ys with
    | nil => rfl
    | cons y ys => exact absurd (hy.1.symm.trans hx) hy.2.1
  | cons x xs ih =>
    intro i ys hx hy
    cases ys with
    | nil => exact absurd (hx.1.symm.trans hy) hx.2.1
    | cons y ys =>
      obtain ⟨rfl, -, hcx⟩ := hx
      obtain ⟨rfl, -, hcy⟩ := hy
      rw [ih hcx hcy]

/-- Following the table from the start gives the cells in order. -/
lemma IsChain.iterate_eq {xs : List α} :
    ∀ {i : α} {j : ℕ}, IsChain next nil i xs → j < xs.length → xs[j]? = some (next^[j] i) := by
  induction xs with
  | nil =>
    intro i j _ hj
    simp at hj
  | cons x xs ih =>
    intro i j h hj
    obtain ⟨rfl, -, hc⟩ := h
    cases j with
    | zero => rfl
    | succ j =>
      rw [List.getElem?_cons_succ, Function.iterate_succ_apply]
      exact ih hc (by simpa using hj)

/-- Pointing the last cell of a chain at another chain joins the two. -/
lemma IsChain.link [DecidableEq α] {xs ys : List α} {x j : α} :
    ∀ {i : α}, IsChain next nil i (xs ++ [x]) → (xs ++ [x]).Nodup → x ∉ ys →
      IsChain next nil j ys →
      IsChain (Function.update next x j) nil i (xs ++ x :: ys) := by
  induction xs with
  | nil =>
    intro i h _ hx hj
    refine ⟨h.1, h.2.1, ?_⟩
    rw [Function.update_self]
    refine hj.congr (fun y hy => Function.update_of_ne ?_ _ _)
    rintro rfl
    exact hx hy
  | cons y xs ih =>
    intro i h hnd hx hj
    obtain ⟨hi, hy, hc⟩ := h
    rw [List.cons_append, List.nodup_cons] at hnd
    have hyx : y ≠ x := fun hyx => hnd.1 (by simp [hyx])
    refine ⟨hi, hy, ?_⟩
    rw [Function.update_of_ne hyx]
    exact ih hc hnd.2 hx hj

/-- Pointing a cell of a chain at `nil` cuts the chain in two behind it. -/
lemma IsChain.cut [DecidableEq α] {xs ys : List α} {x : α} :
    ∀ {i : α}, IsChain next nil i (xs ++ x :: ys) → (xs ++ x :: ys).Nodup →
      IsChain (Function.update next x nil) nil i (xs ++ [x]) ∧
        IsChain (Function.update next x nil) nil (next x) ys := by
  induction xs with
  | nil =>
    intro i h hnd
    obtain ⟨hi, hx, hc⟩ := h
    refine ⟨⟨hi, hx, Function.update_self ..⟩, hc.congr fun y hy => Function.update_of_ne ?_ _ _⟩
    rintro rfl
    exact (List.nodup_cons.mp hnd).1 hy
  | cons y xs ih =>
    intro i h hnd
    obtain ⟨hi, hy, hc⟩ := h
    rw [List.cons_append, List.nodup_cons] at hnd
    have hyx : y ≠ x := fun hyx => hnd.1 (by simp [hyx])
    obtain ⟨hfirst, hrest⟩ := ih hc hnd.2
    refine ⟨⟨hi, hy, ?_⟩, hrest⟩
    rw [Function.update_of_ne hyx]
    exact hfirst

section

variable [DecidableEq α]

/-- The loop `for (i = h; next[i] != nil; i = next[i]);`, with a bound on its turns. -/
def walkLast (next : α → α) (nil : α) : ℕ → α → Option α
  | 0, _ => none
  | n + 1, i => if next i = nil then some i else walkLast next nil n (next i)

/-- On a non-empty chain the loop ends in its last cell. -/
lemma IsChain.walkLast_eq {xs : List α} {x : α} :
    ∀ {i : α}, IsChain next nil i (xs ++ [x]) → ∀ {fuel : ℕ}, xs.length < fuel →
      walkLast next nil fuel i = some x := by
  induction xs with
  | nil =>
    intro i h fuel hf
    obtain ⟨n, rfl⟩ : ∃ n, fuel = n + 1 := ⟨fuel - 1, by omega⟩
    obtain ⟨rfl, -, hn⟩ := h
    rw [walkLast, if_pos (isChain_nil.mp hn)]
  | cons y ys ih =>
    intro i h fuel hf
    obtain ⟨n, rfl⟩ : ∃ n, fuel = n + 1 := ⟨fuel - 1, by omega⟩
    obtain ⟨rfl, -, hc⟩ := h
    have hne : next i ≠ nil := by
      cases ys with
      | nil => exact fun hnil => hc.2.1 (hc.1.symm.trans hnil)
      | cons z zs => exact fun hnil => hc.2.1 (hc.1.symm.trans hnil)
    rw [walkLast, if_neg hne]
    exact ih hc (by simpa using hf)

end

/-! ## Families of chains in one table -/

/-- The chains from the given starts visit the listed cells, none of them twice, and no two
chains share a cell. -/
structure Chains {ι : Type*} (next : α → α) (nil : α) (start : ι → α) (C : ι → List α) :
    Prop where
  chain : ∀ i, IsChain next nil (start i) (C i)
  nodup : ∀ i, (C i).Nodup
  disjoint : ∀ i j, i ≠ j → (C i).Disjoint (C j)

namespace Chains

variable {ι : Type*} [DecidableEq ι] {start : ι → α} {C : ι → List α} {i j : ι}

/-- A cell of no chain that points to `nil` becomes a chain. -/
lemma single (h : Chains next nil start C) {x : α} (hx : x ≠ nil) (hnext : next x = nil)
    (hfresh : ∀ k, x ∉ C k) (j : ι) :
    Chains next nil (Function.update start j x) (Function.update C j [x]) := by
  refine ⟨fun k => ?_, fun k => ?_, fun k l hkl => ?_⟩
  · by_cases hk : k = j
    · subst hk
      simpa using ⟨hx, hnext⟩
    · simpa [hk] using h.chain k
  · by_cases hk : k = j
    · subst hk
      simp
    · simpa [hk] using h.nodup k
  · by_cases hk : k = j
    · subst hk
      rw [Function.update_self, Function.update_of_ne (Ne.symm hkl)]
      simpa using hfresh l
    · by_cases hl : l = j
      · subst hl
        rw [Function.update_self, Function.update_of_ne hk]
        simpa using hfresh k
      · simpa [hk, hl] using h.disjoint k l hkl

/-- An empty chain takes over another one, which gives up its start. -/
lemma move (h : Chains next nil start C) (hij : i ≠ j) (hi : C i = []) :
    Chains next nil (Function.update (Function.update start i (start j)) j nil)
      (Function.update (Function.update C i (C j)) j []) := by
  refine ⟨fun k => ?_, fun k => ?_, fun k m hkm => ?_⟩
  · by_cases hk : k = j
    · subst hk
      simp
    · by_cases hk' : k = i
      · subst hk'
        simpa [hk] using h.chain j
      · simpa [hk, hk'] using h.chain k
  · by_cases hk : k = j
    · subst hk
      simp
    · by_cases hk' : k = i
      · subst hk'
        simpa [hk] using h.nodup j
      · simpa [hk, hk'] using h.nodup k
  · by_cases hk : k = j
    · subst hk
      simp
    · by_cases hm : m = j
      · subst hm
        simp
      · by_cases hk' : k = i
        · subst hk'
          simpa [hk, hm, Ne.symm hkm] using h.disjoint j m (Ne.symm hm)
        · by_cases hm' : m = i
          · subst hm'
            simpa [hk, hm, hkm] using h.disjoint k j hk
          · simpa [hk, hm, hk', hm'] using h.disjoint k m hkm

variable [DecidableEq α]

/-- The head of a chain is taken off and points to `nil`. -/
lemma pop (h : Chains next nil start C) {x : α} {xs : List α} (hi : C i = x :: xs) :
    Chains (Function.update next x nil) nil (Function.update start i (next x))
        (Function.update C i xs) ∧
      ∀ k, x ∉ Function.update C i xs k := by
  have hnd := h.nodup i
  rw [hi, List.nodup_cons] at hnd
  have hfresh : ∀ k, x ∉ Function.update C i xs k := by
    intro k
    by_cases hk : k = i
    · subst hk
      simpa using hnd.1
    · rw [Function.update_of_ne hk]
      intro hx
      exact h.disjoint k i hk hx (by simp [hi])
  have hagree : ∀ k, ∀ y ∈ Function.update C i xs k, Function.update next x nil y = next y := by
    intro k y hy
    refine Function.update_of_ne ?_ _ _
    rintro rfl
    exact hfresh k hy
  refine ⟨⟨fun k => ?_, fun k => ?_, fun k l hkl => ?_⟩, hfresh⟩
  · refine IsChain.congr ?_ (hagree k)
    by_cases hk : k = i
    · subst hk
      have hc := h.chain k
      rw [hi, isChain_cons] at hc
      simpa using hc.2.2
    · simpa [hk] using h.chain k
  · by_cases hk : k = i
    · subst hk
      simpa using hnd.2
    · simpa [hk] using h.nodup k
  · have hsub : ∀ m, Function.update C i xs m ⊆ C m := by
      intro m
      by_cases hm : m = i
      · subst hm
        simp [hi]
      · simp [hm]
    exact fun y hy hy' => h.disjoint k l hkl (hsub k hy) (hsub l hy')

/-- A cell of no chain that points to `nil` is linked after the last cell of a chain. -/
lemma extend (h : Chains next nil start C) {xs : List α} {l x : α} (hj : C j = xs ++ [l])
    (hx : x ≠ nil) (hnext : next x = nil) (hfresh : ∀ k, x ∉ C k) :
    Chains (Function.update next l x) nil start (Function.update C j (C j ++ [x])) := by
  have hlink : ∀ k, k ≠ j → l ∉ C k := fun k hk hl => h.disjoint k j hk hl (by simp [hj])
  have hc := h.chain j
  have hnd := h.nodup j
  rw [hj] at hc hnd
  refine ⟨fun k => ?_, fun k => ?_, fun k m hkm => ?_⟩
  · by_cases hk : k = j
    · subst hk
      rw [Function.update_self, hj, List.append_assoc]
      refine hc.link hnd ?_ ⟨rfl, hx, hnext⟩
      intro hl
      refine hfresh k ?_
      rw [← List.mem_singleton.mp hl, hj]
      simp
    · rw [Function.update_of_ne hk]
      refine (h.chain k).congr (fun y hy => Function.update_of_ne ?_ _ _)
      rintro rfl
      exact hlink k hk hy
  · by_cases hk : k = j
    · subst hk
      rw [Function.update_self]
      exact (h.nodup k).append (List.nodup_singleton x) (by simpa using hfresh k)
    · simpa [hk] using h.nodup k
  · by_cases hk : k = j
    · subst hk
      rw [Function.update_self, Function.update_of_ne (Ne.symm hkm), List.disjoint_append_left]
      exact ⟨h.disjoint k m hkm, by simpa using hfresh m⟩
    · by_cases hm : m = j
      · subst hm
        rw [Function.update_self, Function.update_of_ne hkm, List.disjoint_append_right]
        exact ⟨h.disjoint k m hkm, by simpa using hfresh k⟩
      · simpa [hk, hm] using h.disjoint k m hkm

/-- The last cell of a chain is pointed at another chain, which gives up its start. -/
lemma join (h : Chains next nil start C) (hij : i ≠ j) {xs : List α} {l : α}
    (hi : C i = xs ++ [l]) :
    Chains (Function.update next l (start j)) nil (Function.update start j nil)
      (Function.update (Function.update C i (C i ++ C j)) j []) := by
  have hlj : l ∉ C j := fun hl => h.disjoint i j hij (by simp [hi]) hl
  have hci := h.chain i
  have hndi := h.nodup i
  rw [hi] at hci hndi
  refine ⟨fun k => ?_, fun k => ?_, fun k m hkm => ?_⟩
  · by_cases hk : k = j
    · subst hk
      simp
    · rw [Function.update_of_ne hk, Function.update_of_ne hk]
      by_cases hk' : k = i
      · subst hk'
        rw [Function.update_self, hi, List.append_assoc]
        exact hci.link hndi hlj (h.chain j)
      · rw [Function.update_of_ne hk']
        refine (h.chain k).congr (fun y hy => Function.update_of_ne ?_ _ _)
        rintro rfl
        exact h.disjoint k i hk' hy (by simp [hi])
  · by_cases hk : k = j
    · subst hk
      simp
    · rw [Function.update_of_ne hk]
      by_cases hk' : k = i
      · subst hk'
        rw [Function.update_self]
        exact (h.nodup k).append (h.nodup j) (h.disjoint k j hij)
      · simpa [hk'] using h.nodup k
  · have key : ∀ a b, a ≠ b → a ≠ j → b ≠ j →
        (Function.update C i (C i ++ C j) a).Disjoint (Function.update C i (C i ++ C j) b) := by
      intro a b hab ha hb
      by_cases ha' : a = i
      · subst ha'
        rw [Function.update_self, Function.update_of_ne (Ne.symm hab), List.disjoint_append_left]
        exact ⟨h.disjoint a b hab, h.disjoint j b (Ne.symm hb)⟩
      · by_cases hb' : b = i
        · subst hb'
          rw [Function.update_self, Function.update_of_ne hab, List.disjoint_append_right]
          exact ⟨h.disjoint a b hab, h.disjoint a j ha⟩
        · simpa [ha', hb'] using h.disjoint a b hab
    by_cases hk : k = j
    · subst hk
      simp
    · by_cases hm : m = j
      · subst hm
        simp
      · rw [Function.update_of_ne hk, Function.update_of_ne hm]
        exact key k m hkm hk hm

end Chains

end LinkChain
