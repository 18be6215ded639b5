import ZeOS.Invariants.Boot
import ZeOS.Invariants.Fat

/-!
# The block allocator as a queue

`balloc` takes a chain off the front of the free list and `freeb` appends one at its end.  The
source calls `balloc` for one block at a time; the routine itself is written for any number, with
three cursors and a case of its own for a list of one block.  Here it is compared with a queue of
blocks, for every free list and every number asked for.
-/

namespace ZeOS

open LinkChain

namespace FileSystem

variable {fs : FileSystem} {L C : List ℤ}

/-- The free list is the sequence `L` of blocks of the disk, none of them twice. -/
structure FreeListIs (fs : FileSystem) (L : List ℤ) : Prop where
  chain : IsChain fs.fat (-1) fs.ffb L
  nodup : L.Nodup
  range : ∀ b ∈ L, 0 ≤ b ∧ b < maxBlocks

/-! ## Taking blocks -/

/-- The loop of `balloc` stops between two neighbours of the free list: `prev` is the last of the
`tot` blocks behind it, and either these are as many as asked for or `ffb` is the last free block. -/
lemma ballocLoop_spec {fat : ℤ → ℤ} {n : ℤ} {rs : List ℤ} :
    ∀ (prev tot : ℤ) {ffb : ℤ} {fuel : ℕ}, IsChain fat (-1) ffb (ffb :: rs) → rs.length < fuel →
      tot ≤ n → ∃ xs prev' ffb' zs, ballocLoop fat n fuel prev ffb tot =
          some (prev', ffb', tot + xs.length) ∧
        prev :: ffb :: rs = xs ++ prev' :: ffb' :: zs ∧ tot + xs.length ≤ n ∧
        (tot + xs.length = n ∨ zs = []) ∧ IsChain fat (-1) ffb' (ffb' :: zs) := by
  induction rs with
  | nil =>
    intro prev tot ffb fuel hc hfuel hn
    obtain ⟨k, rfl⟩ : ∃ k, fuel = k + 1 := ⟨fuel - 1, by omega⟩
    have hlast : fat ffb = -1 := hc.2.2
    refine ⟨[], prev, ffb, [], ?_, rfl, by simpa using hn, .inr rfl, hc⟩
    rw [ballocLoop, if_neg (fun h => h.2 hlast)]
    simp
  | cons r rs ih =>
    intro prev tot ffb fuel hc hfuel hn
    obtain ⟨k, rfl⟩ : ∃ k, fuel = k + 1 := ⟨fuel - 1, by omega⟩
    obtain ⟨hr, hrne, hrs⟩ := hc.2.2
    by_cases htot : tot = n
    · refine ⟨[], prev, ffb, r :: rs, ?_, rfl, by simpa using hn, .inl (by simpa using htot), hc⟩
      rw [ballocLoop, if_neg (fun h => h.1 htot)]
      simp
    · have hgo : tot ≠ n ∧ fat ffb ≠ -1 := ⟨htot, hr ▸ hrne⟩
      have hnext : IsChain fat (-1) r (r :: rs) := ⟨rfl, hrne, hrs⟩
      obtain ⟨xs, prev', ffb', zs, hloop, hsplit, hle, hstop, hchain⟩ :=
        ih ffb (tot + 1) hnext (by simpa using hfuel) (by omega)
      have hlen : tot + 1 + xs.length = tot + (prev :: xs).length := by
        rw [List.length_cons]
        push_cast
        omega
      refine ⟨prev :: xs, prev', ffb', zs, ?_, ?_, ?_, ?_, hchain⟩
      · rw [ballocLoop, if_pos hgo, hr, hloop, hlen]
      · rw [hsplit, List.cons_append]
      · rw [← hlen]
        exact hle
      · rw [← hlen]
        exact hstop

/-- The sequence `ys` is a chain of its own, from block `b`, and `L` is the free list. -/
structure Splits (fs : FileSystem) (b : ℤ) (ys L : List ℤ) : Prop where
  chain : IsChain fs.fat (-1) b ys
  free : fs.FreeListIs L

/-- Cutting the free list behind a block that is not the last. -/
lemma FreeListIs.cut {xs zs : List ℤ} {x z : ℤ} (h : fs.FreeListIs (xs ++ x :: z :: zs)) :
    Splits ({ fs with ffb := z }.setFat x (-1)) fs.ffb (xs ++ [x]) (z :: zs) := by
  obtain ⟨hfirst, hrest⟩ := h.chain.cut h.nodup
  have hz : fs.fat x = z := hrest.1
  have hnd := (List.nodup_append.mp h.nodup).2.1
  refine ⟨hfirst, ?_, (List.nodup_cons.mp hnd).2, fun b hb => h.range b ?_⟩
  · rw [hz] at hrest
    exact hrest
  · simp only [List.mem_append, List.mem_cons] at hb ⊢
    exact .inr (.inr hb)

/-- Taking the whole free list. -/
lemma FreeListIs.all (h : fs.FreeListIs L) : Splits { fs with ffb := -1 } fs.ffb L [] :=
  ⟨h.chain, rfl, List.nodup_nil, by simp⟩

/-- The ends of `balloc` on a list of two blocks or more: it cuts the list, takes the whole of it,
or rolls back. -/
lemma FreeListIs.balloc_cases {a b : ℤ} {rs : List ℤ} (h : fs.FreeListIs (a :: b :: rs)) {n : ℤ}
    (h1 : 1 ≤ n) :
    (∃ xs x z zs, a :: b :: rs = xs ++ x :: z :: zs ∧ n = xs.length + 1 ∧
      fs.balloc n = .ok (fs.ffb, { fs with ffb := z }.setFat x (-1))) ∨
    (n = (a :: b :: rs).length ∧ fs.balloc n = .ok (fs.ffb, { fs with ffb := -1 })) ∨
    ((a :: b :: rs).length < n ∧ fs.balloc n = .ok (-1, fs)) := by
  obtain ⟨ha, hane, hb, hbne, hrs⟩ := h.chain
  have hfuel : rs.length < maxBlocks := by
    have hlen := length_le_of_range h.nodup h.range
    simp only [List.length_cons] at hlen
    omega
  have hchain : IsChain fs.fat (-1) b (b :: rs) := ⟨rfl, hbne, hrs⟩
  obtain ⟨xs, x, z, zs, hloop, hsplit, hle, hstop, hz⟩ := ballocLoop_spec a 1 hchain hfuel h1
  have hguard : ¬ (fs.ffb = -1 ∨ n < 1) := by
    rintro (hffb | hlt)
    · exact hane (ha.symm.trans hffb)
    · omega
  have hmore : ¬ fs.fat fs.ffb = -1 := by
    rw [ha, hb]
    exact hbne
  have hlen : (a :: b :: rs).length = xs.length + 2 + zs.length := by
    rw [hsplit]
    simp only [List.length_append, List.length_cons]
    omega
  rw [FileSystem.balloc, if_neg hguard, if_neg hmore]
  simp only
  rw [ha, hb, hloop]
  simp only
  by_cases hn : 1 + (xs.length : ℤ) = n
  · -- as many blocks as asked for
    rw [if_neg (fun h => by omega), if_neg (fun h => by omega)]
    exact .inl ⟨xs, x, z, zs, hsplit, by omega, rfl⟩
  · -- the cursor is at the last free block
    obtain rfl : zs = [] := hstop.resolve_left hn
    have hlast : fs.fat z = -1 := hz.2.2
    have hsame : { fs with ffb := -1 }.setFat z (-1) = { fs with ffb := -1 } := by
      rw [setFat]
      congr 1
      rw [← hlast, Function.update_eq_self]
    rw [hlen, List.length_nil]
    push_cast
    by_cases hone : n - (1 + (xs.length : ℤ)) = 1
    · rw [if_pos ⟨hlast, hone⟩, hsame]
      exact .inr (.inl ⟨by omega, rfl⟩)
    · rw [if_neg (fun h => hone h.2), if_pos ⟨hlast, by omega⟩]
      refine .inr (.inr ⟨by omega, ?_⟩)
      rw [← ha]

/-- With enough free blocks, `balloc` takes the first `n` of them. -/
lemma FreeListIs.balloc (h : fs.FreeListIs L) {n : ℤ} (h1 : 1 ≤ n) (hn : n ≤ L.length) :
    ∃ fat ffb, fs.balloc n = .ok (fs.ffb, { fs with fat := fat, ffb := ffb }) ∧
      Splits { fs with fat := fat, ffb := ffb } fs.ffb (L.take n.toNat) (L.drop n.toNat) := by
  match L, h, hn with
  | [], _, hn =>
    simp only [List.length_nil, Nat.cast_zero] at hn
    omega
  | [a], h, hn =>
    obtain rfl : n = 1 := by
      simp only [List.length_singleton, Nat.cast_one] at hn
      omega
    obtain ⟨ha, hane, hlast⟩ := h.chain
    have hne : fs.ffb ≠ -1 := ha ▸ hane
    refine ⟨fs.fat, -1, ?_, h.all⟩
    rw [balloc_one, if_neg hne, popFree, ha, show fs.fat a = -1 from hlast, ← hlast,
      Function.update_eq_self]
  | a :: b :: rs, h, hn =>
    rcases h.balloc_cases h1 with ⟨xs, x, z, zs, hsplit, hlen, ho⟩ | ⟨hlen, ho⟩ | ⟨hlen, -⟩
    · have htake : xs.length + 1 = n.toNat := by omega
      refine ⟨_, z, ho, ?_⟩
      rw [hsplit] at h ⊢
      rw [← htake, show xs ++ x :: z :: zs = (xs ++ [x]) ++ z :: zs by simp,
        List.take_left' (by simp), List.drop_left' (by simp)]
      exact h.cut
    · refine ⟨fs.fat, -1, ho, ?_⟩
      rw [List.take_of_length_le (by omega), List.drop_of_length_le (by omega)]
      exact h.all
    · omega

/-- Otherwise `balloc` changes nothing. -/
lemma FreeListIs.balloc_refused (h : fs.FreeListIs L) {n : ℤ} (hn : ¬ (1 ≤ n ∧ n ≤ L.length)) :
    fs.balloc n = .ok (-1, fs) := by
  by_cases h1 : 1 ≤ n
  · match L, h, hn with
    | [], h, _ =>
      have hffb : fs.ffb = -1 := h.chain
      rw [FileSystem.balloc, if_pos (.inl hffb)]
    | [a], h, hn =>
      obtain ⟨ha, hane, hlast⟩ := h.chain
      have hguard : ¬ (fs.ffb = -1 ∨ n < 1) := by
        rintro (hffb | hlt)
        · exact hane (ha.symm.trans hffb)
        · omega
      have hone : ¬ n = 1 := by
        rintro rfl
        simp at hn
      rw [FileSystem.balloc, if_neg hguard, if_pos (by rw [ha]; exact hlast), if_neg hone]
    | a :: b :: rs, h, hn =>
      rcases h.balloc_cases h1 with ⟨xs, x, z, zs, hsplit, hlen, -⟩ | ⟨hlen, -⟩ | ⟨-, ho⟩
      · refine absurd ⟨h1, ?_⟩ hn
        rw [hsplit]
        simp only [List.length_append, List.length_cons]
        push_cast
        omega
      · exact absurd ⟨h1, hlen.le⟩ hn
      · exact ho
  · rw [FileSystem.balloc, if_pos (.inr (by omega))]

/-! ## Giving blocks back -/

/-- `freeb` appends a chain that shares no block with the free list. -/
lemma FreeListIs.freeb (h : fs.FreeListIs L) {b : ℤ} (hc : IsChain fs.fat (-1) b C) (hne : C ≠ [])
    (hnd : C.Nodup) (hrange : ∀ c ∈ C, 0 ≤ c ∧ c < maxBlocks) (hdisj : L.Disjoint C) :
    ∃ fat ffb, fs.freeb b = .ok (0, { fs with fat := fat, ffb := ffb }) ∧
      FreeListIs { fs with fat := fat, ffb := ffb } (L ++ C) := by
  obtain ⟨c, cs, rfl⟩ := List.exists_cons_of_ne_nil hne
  obtain rfl : b = c := hc.1
  have hb := hrange b (by simp)
  have hfirst : b ≠ fs.ffb := by
    intro heq
    cases L with
    | nil =>
      have hffb : fs.ffb = -1 := h.chain
      omega
    | cons a l => exact hdisj (a := a) (by simp) (by simp [heq, h.chain.1])
  have hguard : ¬ (b ≥ maxBlocks ∨ b < 0 ∨ b = fs.ffb) := by
    rintro (hge | hlt | heq)
    · exact absurd hb.2 (Int.not_lt.mpr hge)
    · omega
    · exact hfirst heq
  have hall : ∀ x ∈ L ++ b :: cs, 0 ≤ x ∧ x < maxBlocks := by
    intro x hx
    rcases List.mem_append.mp hx with hx | hx
    · exact h.range x hx
    · exact hrange x hx
  have hnodup : (L ++ b :: cs).Nodup := h.nodup.append hnd hdisj
  rw [FileSystem.freeb, if_neg hguard]
  obtain rfl | ⟨xs, l, rfl⟩ := List.eq_nil_or_concat' L
  · have hffb : fs.ffb = -1 := h.chain
    rw [if_pos hffb]
    exact ⟨fs.fat, b, rfl, hc, hnodup, hall⟩
  · have hffb : fs.ffb ≠ -1 := by
      cases xs with
      | nil => exact h.chain.1 ▸ h.chain.2.1
      | cons x xs => exact h.chain.1 ▸ h.chain.2.1
    have hlen : xs.length < maxBlocks := by
      have hle := length_le_of_range h.nodup h.range
      rwa [List.length_append, List.length_singleton] at hle
    rw [if_neg hffb, h.chain.walkLast_eq hlen]
    refine ⟨Function.update fs.fat l b, fs.ffb, rfl, ?_, hnodup, hall⟩
    rw [List.append_assoc, List.singleton_append]
    exact h.chain.link h.nodup (fun hl => hdisj (by simp) hl) hc

end FileSystem

open FileSystem in
/-- **The allocator refines a queue.**  On a free list `L`, `balloc` takes the first `n` blocks as
a chain of their own when there are as many, and otherwise returns -1 and changes nothing; `freeb`
appends a chain of other blocks. -/
theorem allocator_refines_queue {fs : FileSystem} {L : List ℤ} (h : fs.FreeListIs L) :
    (∀ n : ℤ, 1 ≤ n → n ≤ L.length →
      ∃ b fs', L.head? = some b ∧ fs.balloc n = .ok (b, fs') ∧
        IsChain fs'.fat (-1) b (L.take n.toNat) ∧ fs'.FreeListIs (L.drop n.toNat) ∧
        (n = L.length → fs'.ffb = -1)) ∧
    (∀ n : ℤ, ¬ (1 ≤ n ∧ n ≤ L.length) → fs.balloc n = .ok (-1, fs)) ∧
    ∀ (C : List ℤ) (b : ℤ), C.head? = some b → IsChain fs.fat (-1) b C → C.Nodup →
      (∀ c ∈ C, 0 ≤ c ∧ c < maxBlocks) → L.Disjoint C →
      ∃ fs', fs.freeb b = .ok (0, fs') ∧ fs'.FreeListIs (L ++ C) := by
  refine ⟨fun n h1 hn => ?_, fun n hn => h.balloc_refused hn, fun C b hb hc hnd hrange hdisj => ?_⟩
  · obtain ⟨fat, ffb, ho, hsplits⟩ := h.balloc h1 hn
    have hhead : L.head? = some fs.ffb := by
      cases L with
      | nil =>
        simp only [List.length_nil, Nat.cast_zero] at hn
        omega
      | cons a l => rw [List.head?_cons, h.chain.1]
    refine ⟨fs.ffb, _, hhead, ho, hsplits.chain, hsplits.free, fun hall => ?_⟩
    have hnil := hsplits.free.chain
    rw [List.drop_of_length_le (by omega)] at hnil
    exact hnil
  · have hne : C ≠ [] := by
      rintro rfl
      simp at hb
    obtain ⟨fat, ffb, ho, hfree⟩ := h.freeb hc hne hnd hrange hdisj
    exact ⟨_, ho, hfree⟩

open FileSystem in
/-- Right after boot all 80 blocks are free, and 81 are refused; two of them are taken, and given
back behind the others. -/
theorem allocator_refines_queue_at_boot : ∃ L, zeroEnv.boot.fs.FreeListIs L ∧
    zeroEnv.boot.fs.balloc 81 = .ok (-1, zeroEnv.boot.fs) ∧
    ∃ b fs₁ fs₂, L.head? = some b ∧ zeroEnv.boot.fs.balloc 2 = .ok (b, fs₁) ∧
      IsChain fs₁.fat (-1) b (L.take 2) ∧ fs₁.FreeListIs (L.drop 2) ∧
      fs₁.freeb b = .ok (0, fs₂) ∧ fs₂.FreeListIs (L.drop 2 ++ L.take 2) := by
  have hok := zeroEnv.boot_fatOk
  have hfree : zeroEnv.boot.fs.FreeListIs (freeChains none) :=
    ⟨hok.chains.chain none, hok.chains.nodup none, hok.range none⟩
  obtain ⟨htake, hrefuse, -⟩ := allocator_refines_queue hfree
  have hlen : (freeChains none).length = 80 := by simp [freeChains]
  obtain ⟨b, fs₁, hb, ho, hchain, hrest, -⟩ := htake 2 (by decide) (by rw [hlen]; decide)
  obtain ⟨-, -, hgive⟩ := allocator_refines_queue hrest
  have hhead : ((freeChains none).take 2).head? = some b := by rw [List.head?_take, if_neg (by decide), hb]
  obtain ⟨fs₂, hfreeb, hback⟩ := hgive _ b hhead hchain (hfree.nodup.sublist (List.take_sublist ..))
    (fun c hc => hfree.range c (List.mem_of_mem_take hc))
    (List.disjoint_take_drop hfree.nodup le_rfl).symm
  exact ⟨freeChains none, hfree, hrefuse 81 (by rw [hlen]; decide), b, fs₁, fs₂, hb, ho, hchain, hrest,
    hfreeb, hback⟩

end ZeOS
