import ZeOS.DiskSpace
import ZeOS.RoundTrip
import ZeOS.Invariants.Writes

/-!
# Where `sys_write_file` stores

`sys_write_file` stores into the last block of the file, from the byte that the offset has in its
own block, and goes on to the next byte of the disk array after each store.  It comes to another
block only when the size of the file is a multiple of the block size.  With an offset at the end of
the file the two keep step.  With an offset in an earlier block, or one behind the end whose byte is
ahead of that of the size, the stores run over the end of the last block before the file gets a new
one.

`storesLoop` is the byte loop again, with the list of its stores as the result.  Which writes run
over is told by the offset, the size and the length of the write (`stores_inside_iff`).
-/

namespace ZeOS

open LinkChain

namespace FileSystem

variable {fs : FileSystem} {C : Option FileId → List ℤ} {f : FileId}

/-! ## The stores of a write -/

/-- The stores of the byte loop of `sys_write_file`, each with the tables that it is made on, the
block and the byte. -/
def storesLoop (m : Memory) (v : FdtId) (f : FileId) (buffer : ℕ) :
    ℕ → ℕ → ℤ → ℤ → FileSystem → List (FileSystem × ℤ × ℤ)
  | 0, _, _, _, _ => []
  | n + 1, i, destBlock, destByte, fs =>
    match fs.growFile f destBlock destByte with
    | .error _ => []
    | .ok none => []
    | .ok (some (destBlock, destByte, fs)) =>
      if m.present (buffer + i) then
        let a := destBlock * blockSize + destByte
        (fs, destBlock, destByte) ::
          if 0 ≤ a ∧ a < maxBlocks * blockSize then
            storesLoop m v f buffer n (i + 1) destBlock (destByte + 1)
              ((fs.setDisk a (m.load (buffer + i))).advance v f)
          else []
      else []

/-- The stores of `sys_write_file`. -/
def stores (fs : FileSystem) (m : Memory) (v : FdtId) (f : FileId) (buffer size : ℕ) :
    List (FileSystem × ℤ × ℤ) :=
  match walkLast fs.fat (-1) maxBlocks (fs.dir f).firstBlock with
  | none => []
  | some destBlock => storesLoop m v f buffer size 0 destBlock ((fs.fdt v).offset % blockSize) fs

/-- A store goes to a byte of a block of the file. -/
def InFile (f : FileId) (x : FileSystem × ℤ × ℤ) : Prop :=
  x.1.OnChain (x.1.dir f).firstBlock x.2.1 ∧ 0 ≤ x.2.2 ∧ x.2.2 < blockSize

/-- One store of the byte loop, and those that follow. -/
def storeAndGo (m : Memory) (v : FdtId) (f : FileId) (buffer n i : ℕ) (b d : ℤ) (fs : FileSystem) :
    List (FileSystem × ℤ × ℤ) :=
  if m.present (buffer + i) then
    (fs, b, d) ::
      if 0 ≤ b * blockSize + d ∧ b * blockSize + d < maxBlocks * blockSize then
        storesLoop m v f buffer n (i + 1) b (d + 1)
          (fs.storeByte v f (b * blockSize + d) (m.load (buffer + i)))
      else []
  else []

lemma storesLoop_succ (m : Memory) (v : FdtId) (f : FileId) (buffer n i : ℕ) (b d : ℤ)
    (fs : FileSystem) :
    storesLoop m v f buffer (n + 1) i b d fs =
      if fs.NeedsBlock f then
        if fs.ffb = -1 then [] else storeAndGo m v f buffer n i fs.ffb 0 (fs.grown f b)
      else storeAndGo m v f buffer n i b d fs := by
  rw [storesLoop, growFile_eq]
  by_cases hn : fs.NeedsBlock f
  · by_cases hffb : fs.ffb = -1
    · simp only [if_pos hn, if_pos hffb]
    · simp only [if_pos hn, if_neg hffb]
      rfl
  · simp only [if_neg hn]
    rfl

/-! ## When the file gets its next block -/

/-- How many bytes the loop stores before it comes to a new block, from an offset and a size. -/
def untilBlock (o z : ℤ) : ℤ :=
  if z % 256 = 0 ∧ z ≠ 0 then 0
  else if o < z then 256 * (z / 256 + 1) - o
  else 256 - z % 256

/-- A store brings the new block one byte nearer. -/
lemma untilBlock_next {o z : ℤ} (hz : 0 ≤ z) (hn : ¬ (z % 256 = 0 ∧ z ≠ 0)) :
    untilBlock (o + 1) (if z < o + 1 then z + 1 else z) = untilBlock o z - 1 ∧
      0 < untilBlock o z := by
  unfold untilBlock
  rw [if_neg hn]
  split_ifs <;> omega

/-- After a store into a new block there are at most 255 to the next one. -/
lemma untilBlock_new {o z : ℤ} (hz : z % 256 = 0 ∧ z ≠ 0) :
    untilBlock (o + 1) (if z < o + 1 then z + 1 else z) ≤ 255 := by
  unfold untilBlock
  split_ifs <;> omega

/-- From byte `d` of a block, with `n` bytes to go and the next block `t` bytes away, the loop comes
to the end of the block first, and has the bytes to store there. -/
def RunsOver (m : Memory) (buffer i n : ℕ) (d t : ℤ) : Prop :=
  256 - d < t ∧ 256 - d < n ∧ ∀ j : ℕ, (j : ℤ) ≤ 256 - d → m.present (buffer + (i + j)) = true

lemma runsOver_next {m : Memory} {buffer i n : ℕ} {d t : ℤ} (hd : d < 256) :
    RunsOver m buffer i (n + 1) d t ↔
      m.present (buffer + i) = true ∧ RunsOver m buffer (i + 1) n (d + 1) (t - 1) := by
  constructor
  · rintro ⟨ht, hn, hp⟩
    refine ⟨hp 0 (by push_cast; omega), by omega, by push_cast at hn; omega, fun j hj => ?_⟩
    have := hp (j + 1) (by push_cast; omega)
    rwa [show i + (j + 1) = i + 1 + j by omega] at this
  · rintro ⟨h0, ht, hn, hp⟩
    refine ⟨by omega, by push_cast; omega, fun j hj => ?_⟩
    cases j with
    | zero => exact h0
    | succ j =>
      have := hp j (by push_cast at hj; omega)
      rwa [show i + 1 + j = i + (j + 1) by omega] at this

lemma FatOk.inFile (h : FatOk fs C) (hf : fs.IsRegular f) {b d : ℤ} (hb : b ∈ C (some f))
    (hd : 0 ≤ d ∧ d < 256) : InFile f (fs, b, d) :=
  ⟨(h.onChain_iff hf b).mpr hb, hd⟩

/-- The loop stores outside the file just when it runs over the end of a block. -/
lemma FatOk.storesLoop_inside_iff (m : Memory) (v : FdtId) (f : FileId) (buffer : ℕ) (n : ℕ) :
    ∀ {fs : FileSystem} {C : Option FileId → List ℤ} {xs : List ℤ} {b d : ℤ} (i : ℕ), FatOk fs C →
      fs.IsRegular f → C (some f) = xs ++ [b] → 0 ≤ d → d ≤ 256 →
      ((∀ x ∈ storesLoop m v f buffer n i b d fs, InFile f x) ↔
        ¬ RunsOver m buffer i n d (untilBlock (fs.fdt v).offset (fs.dir f).size)) := by
  induction n with
  | zero =>
    intro fs C xs b d i _ _ _ _ hd
    refine iff_of_true (fun x hx => absurd hx List.not_mem_nil) ?_
    rintro ⟨-, hn, -⟩
    push_cast at hn
    omega
  | succ n ih =>
    intro fs C xs b d i h hf hb hd0 hd
    -- a store inside the block, and then the rest
    have hgo : ∀ {fs : FileSystem} {C : Option FileId → List ℤ} {xs : List ℤ} {b d : ℤ},
        FatOk fs C → fs.IsRegular f → C (some f) = xs ++ [b] →
        (fs.dir f).size < blockSize * (fs.dir f).nBlocks → 0 ≤ d → d < 256 →
        ((∀ x ∈ storeAndGo m v f buffer n i b d fs, InFile f x) ↔
          ¬ (m.present (buffer + i) = true ∧ RunsOver m buffer (i + 1) n (d + 1)
            (untilBlock ((fs.fdt v).offset + 1)
              (if (fs.dir f).size < (fs.fdt v).offset + 1 then (fs.dir f).size + 1
                else (fs.dir f).size)))) := by
      intro fs C xs b d h hf hb hroom hd0 hd
      have hmem : b ∈ C (some f) := by simp [hb]
      have hrange := h.cell_range hmem hd0 hd
      have hdisk := h.withDisk (b * blockSize + d) (m.load (buffer + i))
      have hrest := ih (i + 1) (d := d + 1) (hdisk.advance hroom v) (isRegular_advance.mpr hf) hb
        (by omega) (by omega)
      rw [show ((fs.setDisk (b * blockSize + d) (m.load (buffer + i))).advance v f) =
        fs.storeByte v f (b * blockSize + d) (m.load (buffer + i)) from rfl, storeByte_offset,
        storeByte_size] at hrest
      unfold storeAndGo
      by_cases hp : m.present (buffer + i) = true
      · rw [if_pos hp, if_pos hrange, List.forall_mem_cons, hrest]
        simp [hp, h.inFile hf hmem ⟨hd0, hd⟩]
      · rw [if_neg hp]
        simp [hp]
    rw [storesLoop_succ]
    have hz := (h.regular f hf).size_nonneg
    by_cases hn : fs.NeedsBlock f
    · -- a new block: the loop starts at its first byte
      have hzero : untilBlock (fs.fdt v).offset (fs.dir f).size = 0 := if_pos hn
      rw [if_pos hn, hzero]
      have hfalse : ¬ RunsOver m buffer i (n + 1) d 0 := by
        rintro ⟨ht, -, -⟩
        omega
      refine iff_of_true ?_ hfalse
      by_cases hffb : fs.ffb = -1
      · rw [if_pos hffb]
        exact fun x hx => absurd hx List.not_mem_nil
      · obtain ⟨free, hfree⟩ := h.free_cons hffb
        rw [if_neg hffb]
        refine (hgo (h.grown hf hb hfree) hf (Function.update_self ..) (h.room_grown hf b)
          le_rfl (by decide)).mpr ?_
        rintro ⟨-, ht, -, -⟩
        have hle := untilBlock_new (o := (fs.fdt v).offset) hn
        rw [grown_dir] at ht
        exact absurd (lt_of_lt_of_le ht hle) (by decide)
    · rw [if_neg hn]
      obtain ⟨hnext, hpos⟩ := untilBlock_next (o := (fs.fdt v).offset) hz hn
      by_cases hlast : d = 256
      · -- the byte behind the block
        subst hlast
        unfold storeAndGo
        by_cases hp : m.present (buffer + i) = true
        · rw [if_pos hp, List.forall_mem_cons]
          refine iff_of_false (fun hx => absurd hx.1.2.2 (lt_irrefl _)) (not_not.mpr ?_)
          refine ⟨by omega, by push_cast; omega, fun j hj => ?_⟩
          obtain rfl : j = 0 := by omega
          exact hp
        · rw [if_neg hp]
          refine iff_of_true (fun x hx => absurd hx List.not_mem_nil) ?_
          rintro ⟨-, -, hall⟩
          exact hp (hall 0 (by simp))
      · rw [hgo h hf hb (h.room_of_not_needsBlock hf hn) hd0 (by omega), hnext,
          ← runsOver_next (by omega)]

/-! ## What the stores change -/

/-- The tables `fs'` come from `fs` by a write to a file: its chain may have grown, and no byte of
the disk has changed but in the blocks of that chain. -/
def WritesOwn (f : FileId) (C : Option FileId → List ℤ) (fs fs' : FileSystem) : Prop :=
  ∃ C', FatOk fs' C' ∧ (∀ b ∈ C (some f), b ∈ C' (some f)) ∧
    ∀ a, fs'.disk a ≠ fs.disk a → ∃ b ∈ C' (some f), ∃ k : ℤ, 0 ≤ k ∧ k < 256 ∧ a = b * 256 + k

/-- While all stores are inside the file, the loop changes its own blocks only and stays on the
disk. -/
lemma FatOk.writeLoop_own (m : Memory) (v : FdtId) (f : FileId) (buffer : ℕ) (n : ℕ) :
    ∀ {fs : FileSystem} {C : Option FileId → List ℤ} {xs : List ℤ} {b : ℤ} (i : ℕ) (d : ℤ),
      FatOk fs C → fs.IsRegular f → C (some f) = xs ++ [b] →
      (∀ x ∈ storesLoop m v f buffer n i b d fs, InFile f x) →
      (FileSystem.writeLoop m v f buffer n i b d fs).Leaves (WritesOwn f C fs) ∧
        FileSystem.writeLoop m v f buffer n i b d fs ≠ .stop .offDisk := by
  have hsame : ∀ {fs : FileSystem} {C : Option FileId → List ℤ}, FatOk fs C → WritesOwn f C fs fs :=
    fun h => ⟨_, h, fun _ hb => hb, fun _ ha => absurd rfl ha⟩
  induction n with
  | zero =>
    intro fs C xs b i d h _ _ _
    exact ⟨hsame h, by simp [FileSystem.writeLoop]⟩
  | succ n ih =>
    intro fs C xs b i d h hf hb hin
    have hbyte : ∀ {fs : FileSystem} {C : Option FileId → List ℤ} {xs : List ℤ} {b d : ℤ},
        FatOk fs C → fs.IsRegular f → C (some f) = xs ++ [b] →
        (fs.dir f).size < blockSize * (fs.dir f).nBlocks →
        (∀ x ∈ storeAndGo m v f buffer n i b d fs, InFile f x) →
        (writeByte m v f buffer n i b d fs).Leaves (WritesOwn f C fs) ∧
          writeByte m v f buffer n i b d fs ≠ .stop .offDisk := by
      intro fs C xs b d h hf hb hroom hin
      unfold writeByte
      unfold storeAndGo at hin
      by_cases hp : m.present (buffer + i) = true
      · rw [if_pos hp] at hin ⊢
        rw [List.forall_mem_cons] at hin
        have hd : 0 ≤ d ∧ d < 256 := hin.1.2
        have hmem : b ∈ C (some f) := by simp [hb]
        have hrange := h.cell_range hmem hd.1 hd.2
        rw [if_pos hrange] at hin ⊢
        have hdisk := h.withDisk (b * blockSize + d) (m.load (buffer + i))
        obtain ⟨hown, hne⟩ := ih (i + 1) (d + 1) (hdisk.advance hroom v)
          (isRegular_advance.mpr hf) hb hin.2
        refine ⟨hown.imp fun fs' hfs' => ?_, hne⟩
        obtain ⟨C', hC', hsub, hcell⟩ := hfs'
        refine ⟨C', hC', hsub, fun a ha => ?_⟩
        by_cases hat : a = b * 256 + d
        · exact ⟨b, hsub b hmem, d, hd.1, hd.2, hat⟩
        · refine hcell a fun heq => ha ?_
          rw [heq]
          exact (congrFun (storeByte_disk fs v f (b * blockSize + d) (m.load (buffer + i))) a).trans
            (Function.update_of_ne hat ..)
      · rw [if_neg hp]
        exact ⟨hsame h, by simp⟩
    rw [storesLoop_succ] at hin
    rw [writeLoop_succ]
    by_cases hn : fs.NeedsBlock f
    · rw [if_pos hn] at hin ⊢
      by_cases hffb : fs.ffb = -1
      · rw [if_pos hffb]
        exact ⟨hsame h, by simp⟩
      · rw [if_neg hffb] at hin ⊢
        obtain ⟨free, hfree⟩ := h.free_cons hffb
        obtain ⟨hown, hne⟩ := hbyte (h.grown hf hb hfree) hf (Function.update_self ..)
          (h.room_grown hf b) hin
        refine ⟨hown.imp fun fs' hfs' => ?_, hne⟩
        obtain ⟨C', hC', hsub, hcell⟩ := hfs'
        refine ⟨C', hC', fun x hx => hsub x ?_, hcell⟩
        rw [grownChains, Function.update_self]
        exact List.mem_append_left _ hx
    · rw [if_neg hn] at hin ⊢
      exact hbyte h hf hb (h.room_of_not_needsBlock hf hn) hin

/-- In the tables after such a write, the free blocks, the blocks of the other files and what lies
behind the disk are as before. -/
lemma WritesOwn.disk_eq {fs' : FileSystem} (h : WritesOwn f C fs fs') {b k : ℤ}
    (hb : fs'.OnChain fs'.ffb b ∨ maxBlocks ≤ b ∨
      ∃ g, g ≠ f ∧ fs'.IsRegular g ∧ fs'.OnChain (fs'.dir g).firstBlock b)
    (hk : 0 ≤ k ∧ k < blockSize) : fs'.disk (b * blockSize + k) = fs.disk (b * blockSize + k) := by
  obtain ⟨C', hC', -, hcell⟩ := h
  by_contra hne
  obtain ⟨b', hb', k', hk0, hk', heq⟩ := hcell _ hne
  obtain rfl : b = b' := by
    change 0 ≤ k ∧ k < 256 at hk
    change b * 256 + k = b' * 256 + k' at heq
    omega
  obtain hfree | hlarge | ⟨g, hgf, hg, hon⟩ := hb
  · rw [hC'.onChain_free_iff] at hfree
    exact hC'.chains.disjoint none (some f) (by simp) hfree hb'
  · exact absurd (hC'.range _ b hb').2 (not_lt.mpr hlarge)
  · rw [hC'.onChain_iff hg] at hon
    exact hC'.chains.disjoint (some g) (some f) (by simpa using hgf) hon hb'

/-! ## A whole write -/

/-- A write of `n` bytes runs over the end of the last block of the file: the offset is in an
earlier block than the size, or behind the size and with its byte ahead of that of the size; the
write does not begin with a new block; and it has a byte to store behind the block. -/
def Overruns (fs : FileSystem) (m : Memory) (v : FdtId) (f : FileId) (buffer n : ℕ) : Prop :=
  ¬ ((fs.dir f).size % 256 = 0 ∧ (fs.dir f).size ≠ 0) ∧
    (if (fs.fdt v).offset < (fs.dir f).size then (fs.fdt v).offset / 256 < (fs.dir f).size / 256
      else (fs.dir f).size % 256 < (fs.fdt v).offset % 256) ∧
    256 - (fs.fdt v).offset % 256 < n ∧
    ∀ j : ℕ, (j : ℤ) ≤ 256 - (fs.fdt v).offset % 256 → m.present (buffer + j) = true

lemma overruns_iff (fs : FileSystem) (m : Memory) (v : FdtId) (f : FileId) (buffer n : ℕ) :
    fs.Overruns m v f buffer n ↔ RunsOver m buffer 0 n ((fs.fdt v).offset % 256)
      (untilBlock (fs.fdt v).offset (fs.dir f).size) := by
  unfold Overruns RunsOver untilBlock
  simp only [Nat.zero_add]
  rw [← and_assoc]
  refine and_congr_left fun _ => ?_
  by_cases hn : (fs.dir f).size % 256 = 0 ∧ (fs.dir f).size ≠ 0
  · rw [if_pos hn]
    constructor
    · exact fun h => absurd hn h.1
    · intro h
      omega
  · rw [if_neg hn]
    by_cases hlt : (fs.fdt v).offset < (fs.dir f).size
    · rw [if_pos hlt, if_pos hlt]
      constructor
      · intro h
        omega
      · exact fun h => ⟨hn, by omega⟩
    · rw [if_neg hlt, if_neg hlt]
      constructor
      · intro h
        omega
      · exact fun h => ⟨hn, by omega⟩

lemma FatOk.stores_inFile_iff (h : FatOk fs C) (hf : fs.IsRegular f) (m : Memory) (v : FdtId)
    (buffer n : ℕ) :
    (∀ x ∈ fs.stores m v f buffer n, InFile f x) ↔ ¬ fs.Overruns m v f buffer n := by
  obtain ⟨xs, b, hb⟩ := h.last hf
  rw [stores, h.walkLast_eq hf hb, overruns_iff]
  exact FatOk.storesLoop_inside_iff m v f buffer n 0 h hf hb (Int.emod_nonneg _ (by decide))
    (Int.emod_lt_of_pos _ (by decide)).le

lemma FatOk.sysWriteFile_own (h : FatOk fs C) (hf : fs.IsRegular f) {m : Memory} {v : FdtId}
    {buffer n : ℕ} (hin : ∀ x ∈ fs.stores m v f buffer n, InFile f x) :
    (fs.sysWriteFile m v f buffer n).Leaves (WritesOwn f C fs) ∧
      fs.sysWriteFile m v f buffer n ≠ .stop .offDisk := by
  obtain ⟨xs, b, hb⟩ := h.last hf
  rw [stores, h.walkLast_eq hf hb] at hin
  rw [FileSystem.sysWriteFile, h.walkLast_eq hf hb]
  exact FatOk.writeLoop_own m v f buffer n 0 _ h hf hb hin

end FileSystem

/-! ## Runs -/

namespace Kernel

open FileSystem

variable {s t : Kernel} {e : Event}

/-- No offset is negative. -/
def OffsetsOk (s : Kernel) : Prop := ∀ v, 0 ≤ (s.fs.fdt v).offset

lemma OffsetsOk.step (h : s.OffsetsOk) (hok : s.TableOk) (hst : s.step e = .ok t) :
    t.OffsetsOk := by
  intro w
  by_cases hfork : e.act = .fork
  · rcases (step_fork_files hfork hst).1 with hfs | hfs
    · rw [hfs]
      exact h w
    · rw [hfs, forkRefs_offset]
      exact h w
  · have hopened : ∀ (fs : FileSystem) (v : FdtId) (f : FileId) (mode : ℤ),
        0 ≤ (fs.fdt w).offset → 0 ≤ ((fs.opened v f mode).fdt w).offset := by
      intro fs v f mode hw
      by_cases hwv : w = v
      · simp [hwv]
      · simpa [hwv] using hw
    have heff := hasEffect_step hok hfork hst
    rw [HasEffect] at heff
    generalize t.fs = fs at heff ⊢
    generalize t.fds = D at heff
    cases heff with
    | same hsame => exact (h w).trans (hsame.offset w)
    | opens => exact hopened _ _ _ _ (h w)
    | creates => exact hopened _ _ _ _ (h w)
    | dups =>
      rw [incRefs_offset]
      exact h w
    | @closes v fd f _ _ _ =>
      by_cases hw : w = v
      · subst hw
        simpa using h w
      · simpa [hw] using h w
    | unlinks _ _ _ hfdt =>
      rw [hfdt]
      exact h w

end Kernel

lemma Env.boot_offsetsOk (E : Env) : E.boot.OffsetsOk := by
  intro v
  rw [show E.boot.fs.fdt = zeroEnv.boot.fs.fdt from rfl]
  revert v
  decide

open FileSystem in
/-- **Where file stores go.**  In every state that a run from boot reaches, for every entry of
`fdt[]` and every regular file, whatever the offset (which is never negative) and the size: every
byte that a write stores goes to a block of the file's own chain, and to a byte of that block, just
when the write does not run over the end of the last block.  Then the write stays on the disk, and
no byte of a free block, of a block of another file or behind the disk is changed. -/
theorem stores_inside_iff (E : Env) (es : List Event) (s : Kernel) (hrun : AnyRun E.boot es s)
    (v : FdtId) (f : FileId) (hf : s.fs.IsRegular f) (buffer n : ℕ) :
    0 ≤ (s.fs.fdt v).offset ∧
    ((∀ x ∈ s.fs.stores s.mm v f buffer n, InFile f x) ↔ ¬ s.fs.Overruns s.mm v f buffer n) ∧
    (¬ s.fs.Overruns s.mm v f buffer n →
      s.fs.sysWriteFile s.mm v f buffer n ≠ .stop .offDisk ∧
      (s.fs.sysWriteFile s.mm v f buffer n).Leaves fun fs' =>
        ∀ b k : ℤ, (fs'.OnChain fs'.ffb b ∨ maxBlocks ≤ b ∨
            ∃ g, g ≠ f ∧ fs'.IsRegular g ∧ fs'.OnChain (fs'.dir g).firstBlock b) →
          0 ≤ k ∧ k < blockSize →
          fs'.disk (b * blockSize + k) = s.fs.disk (b * blockSize + k)) := by
  have hboot : E.boot.TableOk ∧ E.boot.OffsetsOk := ⟨E.boot_tableOk, E.boot_offsetsOk⟩
  have hstep : ∀ (s : Kernel) (e : Event) (t : Kernel), s.TableOk ∧ s.OffsetsOk → True →
      s.step e = .ok t → t.TableOk ∧ t.OffsetsOk :=
    fun s e t hs _ hst => ⟨hs.1.step hst, hs.2.step hs.1 hst⟩
  have hinv : s.TableOk ∧ s.OffsetsOk := hrun.invariant hstep hboot
  obtain ⟨⟨C, hC⟩, hoff⟩ := hinv
  have hiff := hC.stores_inFile_iff hf s.mm v buffer n
  refine ⟨hoff v, hiff, fun hno => ?_⟩
  obtain ⟨hown, hne⟩ := hC.sysWriteFile_own hf (hiff.mpr hno)
  exact ⟨hne, hown.imp fun fs' hfs' b k hb hk => hfs'.disk_eq hb hk⟩

open FileSystem in
/-- A write of any length at the start of a new file stays inside it. -/
theorem stores_inside_iff_new_file :
    ∃ t, AnyRun linkedEnv.boot [plain (.open lUserStart nameF (oCreat + oRdwr))] t ∧
      ∃ v f, t.fs.IsRegular f ∧ ∀ n, ∀ x ∈ t.fs.stores t.mm v f dataStart n, InFile f x := by
  obtain ⟨t, C, n, hst, -, -, hlog, -, hnil, -⟩ := linkedEnv_create
  have hn := hlog.files n (List.mem_singleton.mpr rfl)
  have hend := hlog.atEnd (List.mem_singleton.mpr rfl)
  rw [hnil] at hend
  have hrun : AnyRun linkedEnv.boot [plain (.open lUserStart nameF (oCreat + oRdwr))] t :=
    .cons trivial hst (.nil t)
  refine ⟨t, hrun, n.handle.entry, n.handle.file, hn.regular, fun k => ?_⟩
  refine (stores_inside_iff linkedEnv _ t hrun _ _ hn.regular dataStart k).2.1.mpr ?_
  rintro ⟨-, hbyte, -⟩
  rw [hend.offset, hend.size] at hbyte
  simp at hbyte

/-! ## Files of any size -/

namespace FileSystem

/-- The chains of a table are determined by it. -/
lemma FatOk.chains_unique {fs : FileSystem} {C C' : Option FileId → List ℤ} (h : FatOk fs C)
    (h' : FatOk fs C') : C = C' :=
  funext fun i => (h.chains.chain i).unique (h'.chains.chain i)

/-- With a single file, the blocks that it does not have are free. -/
lemma FatOk.length_free {fs : FileSystem} {C : Option FileId → List ℤ} (h : FatOk fs C)
    (hcov : Covers C) {f : FileId} (honly : ∀ g, fs.IsRegular g → g = f) :
    (C none).length + (C (some f)).length = 80 := by
  have hnodup : (C none ++ C (some f)).Nodup :=
    List.Nodup.append (h.chains.nodup _) (h.chains.nodup _) (h.chains.disjoint _ _ (by simp))
  have hdisk : ((List.range 80).map fun k : ℕ => (k : ℤ)).Nodup :=
    List.Nodup.map (fun _ _ heq => by exact_mod_cast heq) List.nodup_range
  have hperm := (List.perm_ext_iff_of_nodup hnodup hdisk).mpr fun b => ?_
  · have hlen := hperm.length_eq
    rwa [List.length_append, List.length_map, List.length_range] at hlen
  · rw [List.mem_append, List.mem_map]
    constructor
    · intro hb
      have hr : 0 ≤ b ∧ b < 80 := hb.elim (h.range _ b) (h.range _ b)
      exact ⟨b.toNat, List.mem_range.mpr (by omega), by omega⟩
    · rintro ⟨k, hk, rfl⟩
      have hk := List.mem_range.mp hk
      obtain ⟨i, hi⟩ := hcov k (by omega) (by change (k : ℤ) < 80; omega)
      cases i with
      | none => exact .inl hi
      | some g =>
        by_cases hg : fs.IsRegular g
        · exact .inr (honly g hg ▸ hi)
        · rw [h.not_regular_nil hg] at hi
          exact absurd hi List.not_mem_nil

end FileSystem

open FileSystem

/-- A write changes no counter and no table of operations. -/
lemma Kernel.sameRefs_write {s t : Kernel} {e : Event} (hok : s.TableOk) {fd size : ℤ} {buffer : ℕ}
    (hact : e.act = .write fd buffer size) (hst : s.step e = .ok t) : SameRefs s.fs t.fs := by
  have heff := Kernel.hasEffect_step hok (by simp [hact]) hst
  rw [Kernel.HasEffect, hact] at heff
  generalize t.fs = fs at heff ⊢
  generalize t.fds = D at heff
  cases heff with
  | same hsame => exact hsame
  | opens hact => cases hact
  | creates hact => cases hact
  | dups hact => cases hact
  | closes hact => cases hact
  | unlinks hact => cases hact

/-- The first data page is a valid buffer for `sys_read` and `sys_write`. -/
lemma linkedEnv_buffer {k : ℕ} (hk : k < 4095) :
    linkedEnv.boot.mm.accessOk 1 dataStart k = true ∧
      ∀ j < k, linkedEnv.boot.mm.present (dataStart + j) = true := by
  constructor
  · have hne : dataStart ≠ 0 := by decide
    have haddr : Memory.checkAddress dataStart k = true := by
      have hsmall : ¬ ((k : ℤ) % 2 ^ 32 > (numPagCode + numPagData) * pageSize) := by
        change ¬ ((k : ℤ) % 4294967296 > (8 + 20) * 4096)
        omega
      have hlow : ¬ dataStart < lUserStart := by decide
      have hhigh : ¬ dataStart > lUserStart + (numPagCode + numPagData) * pageSize := by decide
      simp only [Memory.checkAddress, hsmall, hlow, hhigh]
      rfl
    have hmax : ((1 + (k : ℤ)) % 2 ^ 32).toNat / pageSize = 0 := by
      change ((1 + (k : ℤ)) % 4294967296).toNat / 4096 = 0
      omega
    simp only [Memory.accessOk, hne, haddr, hmax, linkedEnv_boot_page_zero, if_false]
    decide
  · intro j hj
    have htable := linkedEnv.boot_table_data 0
    rw [show pagLogInitDataP0 + (0 : Fin numPagData).val = 264 from rfl] at htable
    have hpage : (dataStart + j) / pageSize = 264 := by
      change (264 * 4096 + j) / 4096 = 264
      omega
    rw [Memory.present, hpage, htable]
    rfl

/-- The run in which task 0 creates a file and writes to it `j` times `k` bytes. -/
abbrev writesOf (r : ℤ) (j k : ℕ) : List Event :=
  plain (.open lUserStart nameF (oCreat + oRdwr)) :: List.replicate j (plain (.write r dataStart k))

/-- Task 0 has created a file that is the only one, and has appended `k` bytes to it through
descriptor `r`. -/
structure HasFile (t : Kernel) (n : NewFile) (r : ℤ) (k : ℕ) : Prop where
  log : ∃ C, LogOk linkedEnv.boot.fs t { files := [n], readers := [] } C
  space : t.SpaceOk
  only : ∀ g, t.fs.IsRegular g → g = n.handle.file
  path : n.path = nameF
  size : n.data.length = k
  desc : n.handle.Is t.cur r
  mm : t.mm = linkedEnv.boot.mm
  refs : (t.fs.fdt 3).refs = 0
  fds : t.fds t.cur 4 = none

namespace HasFile

variable {t : Kernel} {n : NewFile} {r : ℤ} {k : ℕ}

/-- The chains, with the number of the blocks that are left. -/
lemma chains (h : HasFile t n r k) :
    ∃ C, LogOk linkedEnv.boot.fs t { files := [n], readers := [] } C ∧
      AtEnd t.fs C n.handle.entry n.handle.file k ∧ (C none).length + blocksFor k = 80 := by
  obtain ⟨C, hlog⟩ := h.log
  obtain ⟨C', hC', hcov, -⟩ := h.space
  have hend := hlog.atEnd (List.mem_singleton.mpr rfl)
  rw [h.size] at hend
  have hlen := hC'.length_free hcov h.only
  rw [hC'.chains_unique hlog.fat, hend.tight] at hlen
  exact ⟨C, hlog, hend, hlen⟩

/-- After the file has been created. -/
lemma create : ∃ r t n, AnyRun linkedEnv.boot (writesOf r 0 k) t ∧ HasFile t n r 0 := by
  obtain ⟨t, C, n, hst, -, -, hlog, hpath, hnil, his, hmm, -, hrefs, hfds, honly⟩ := linkedEnv_create
  have hspace := linkedEnv.boot_spaceOk.step (by rintro ⟨_, _, _, hact, -⟩; simp [plain] at hact) hst
  exact ⟨t.result, t, n, .cons trivial hst (.nil t),
    ⟨⟨C, hlog⟩, hspace, honly, hpath, by rw [hnil]; rfl, his, hmm, hrefs, hfds⟩⟩

/-- A further write of `j` bytes, while there are blocks. -/
lemma write (h : HasFile t n r k) {j : ℕ} (hj : j < 4095) (hroom : blocksFor (k + j) ≤ 80) :
    ∃ u n', t.step (plain (.write r dataStart j)) = .ok u ∧ HasFile u n' r (k + j) := by
  obtain ⟨C, hlog, hend, hlen⟩ := h.chains
  have hn : n ∈ [n] := List.mem_singleton.mpr rfl
  have hcan : CanWrite t { files := [n], readers := [] } r dataStart j := by
    refine ⟨by omega, ?_, ?_, ?_, n, hn, h.desc, C none, hlog.fat.chains.chain none, ?_⟩
    · change (j : ℤ) ≤ 20 * 4096 - 1024
      omega
    · rw [h.mm]
      exact (linkedEnv_buffer hj).1
    · rw [h.mm]
      exact (linkedEnv_buffer hj).2
    · rw [h.size, Int.toNat_natCast]
      omega
  obtain ⟨u, C', hst, hlog', -, hsame⟩ := hlog.write (e := plain (.write r dataStart j)) rfl hcan
  have hrefs := Kernel.sameRefs_write ⟨C, hlog.fat⟩ rfl hst
  have hupd : Log.update t (plain (.write r dataStart j)) u { files := [n], readers := [] } =
      { files := [{ n with data := n.data ++ userBytes t.mm dataStart j }], readers := [] } := by
    change Log.wrote _ _ _ _ = _
    rw [Log.wrote, List.map_singleton, if_pos h.desc, Int.toNat_natCast]
  rw [hupd] at hlog'
  refine ⟨u, _, hst, ⟨C', hlog'⟩, h.space.step (by rintro ⟨_, _, _, hact, -⟩; simp [plain] at hact) hst,
    fun g hg => ?_, h.path, ?_, ?_, hsame.mm.trans h.mm, (hsame.refs 3).trans h.refs, ?_⟩
  · rw [FileSystem.IsRegular, hrefs.ops] at hg
    exact h.only g hg
  · simp [userBytes, h.size]
  · rw [hsame.cur]
    exact h.desc
  · rw [hsame.fds, hsame.cur]
    exact h.fds

/-- The run of `j` writes of `k` bytes. -/
lemma writes {k : ℕ} (hk : k < 4095) (j : ℕ) (hroom : blocksFor (k * j) ≤ 80) :
    ∃ r t n, AnyRun linkedEnv.boot (writesOf r j k) t ∧ HasFile t n r (k * j) := by
  induction j with
  | zero => exact create
  | succ j ih =>
    have hmono : blocksFor (k * j) ≤ blocksFor (k * (j + 1)) := by
      rw [Nat.mul_succ]
      unfold blocksFor
      omega
    obtain ⟨r, t, n, hrun, hfile⟩ := ih (hmono.trans hroom)
    rw [Nat.mul_succ] at hroom ⊢
    obtain ⟨u, n', hst, hfile'⟩ := hfile.write hk hroom
    refine ⟨r, u, n', ?_, hfile'⟩
    have hsnoc : writesOf r (j + 1) k = writesOf r j k ++ [plain (.write r dataStart k)] := by
      rw [writesOf, List.replicate_succ']
      rfl
    rw [hsnoc]
    exact hrun.snoc trivial hst

end HasFile

/-- Task 0 has opened its file again: descriptor `fd`, at the start of a file `f` of `k` bytes with
no block that it does not need. -/
structure Reopened (t : Kernel) (C : Option FileId → List ℤ) (fd : Fd) (v : FdtId) (f : FileId)
    (k : ℕ) : Prop where
  fat : FatOk t.fs C
  regular : t.fs.IsRegular f
  fd : t.fds t.cur fd = some v
  entry : t.fs.fdt v = { accessMode := oRdwr, refs := 1, offset := 0, logicDev := some f }
  size : (t.fs.dir f).size = k
  blocks : (C (some f)).length = blocksFor k
  free : (C none).length + blocksFor k = 80
  mm : t.mm = linkedEnv.boot.mm

section

variable {t : Kernel} {C : Option FileId → List ℤ} {fd : Fd} {v : FdtId} {f : FileId} {k : ℕ}

lemma Reopened.length (h : Reopened t C fd v f k) : (t.fs.contents f).length = k := by
  rw [length_contents, h.size]
  rfl

lemma Reopened.offset (h : Reopened t C fd v f k) : (t.fs.fdt v).offset = 0 := by
  rw [h.entry]

end

/-- A file can be opened again at any size. -/
lemma HasFile.reopen {s : Kernel} {n : NewFile} {r : ℤ} {k : ℕ} (h : HasFile s n r k) :
    ∃ t C fd v f, s.step (plain (.open lUserStart nameF oRdwr)) = .ok t ∧ Reopened t C fd v f k := by
  obtain ⟨C, hlog, hend, hlen⟩ := h.chains
  have hok := hlog.files n (List.mem_singleton.mpr rfl)
  have hv : s.fs.freeFdt.isSome := by
    rw [List.find?_isSome]
    exact ⟨3, List.mem_finRange 3, by simp [h.refs]⟩
  have hfd : (freeFd (s.fds s.cur)).isSome := by
    rw [List.find?_isSome]
    exact ⟨4, List.mem_finRange 4, by simp [h.fds]⟩
  obtain ⟨v, hv⟩ := Option.isSome_iff_exists.mp hv
  obtain ⟨fd, hfd⟩ := Option.isSome_iff_exists.mp hfd
  have hlook : s.fs.lookup nameF = some n.handle.file := lookup_eq_some (h.path ▸ hok.named)
  have hentry : s.fs.OpensEntry nameF oRdwr n.handle.file oRdwr :=
    ⟨by decide, hlook, by decide, by decide, by decide, .inl hok.allow⟩
  have hpathOk : s.mm.PathOk lUserStart nameF := by
    rw [h.mm]
    exact linkedEnv.boot_userMapped.pathOk_nameF
  have hst := Kernel.step_of_done
    (Kernel.dispatch_open (e := plain (.open lUserStart nameF oRdwr)) rfl hpathOk hentry hv hfd)
  have hopens := Kernel.opens_afterOpen n.handle.file oRdwr hv hfd rfl
    (plain (.open lUserStart nameF oRdwr)).regs
  refine ⟨_, C, fd, v, n.handle.file, hst, hlog.fat.opened v n.handle.file oRdwr, hok.regular,
    hopens.handleOk.fd, ?_, ?_, hend.tight, hlen, h.mm⟩
  · change (s.fs.opened v n.handle.file oRdwr).fdt v = _
    simp
  · change ((s.fs.opened v n.handle.file oRdwr).dir n.handle.file).size = _
    simp [hend.size]

/-- The runs in which task 0 writes a file and opens it again. -/
lemma exists_reopened {k : ℕ} (hk : k < 4095) (j : ℕ) (hroom : blocksFor (k * j) ≤ 80) :
    ∃ r t C fd v f, AnyRun linkedEnv.boot
        (writesOf r j k ++ [plain (.open lUserStart nameF oRdwr)]) t ∧
      Reopened t C fd v f (k * j) := by
  obtain ⟨r, s, n, hrun, hfile⟩ := HasFile.writes hk j hroom
  obtain ⟨t, C, fd, v, f, hst, hopen⟩ := hfile.reopen
  exact ⟨r, t, C, fd, v, f, hrun.snoc trivial hst, hopen⟩

/-- Task 0 creates a file, writes 257 bytes to it and opens it again for writing.  The new
descriptor is at the start of a file of two blocks, so that a write of 257 bytes through it stores
the last of them behind the second block. -/
theorem stores_outside_after_reopen :
    ∃ r t, AnyRun linkedEnv.boot [plain (.open lUserStart nameF (oCreat + oRdwr)),
        plain (.write r dataStart 257), plain (.open lUserStart nameF oRdwr)] t ∧
      ∃ fd v f, t.fds t.cur fd = some v ∧ (t.fs.fdt v).logicDev = some f ∧
        (t.fs.fdt v).accessMode = oRdwr ∧ t.fs.IsRegular f ∧
        t.mm.accessOk 1 dataStart 257 = true ∧
        ¬ ∀ x ∈ t.fs.stores t.mm v f dataStart 257, InFile f x := by
  obtain ⟨r, t, C, fd, v, f, hrun, h⟩ := exists_reopened (k := 257) (by decide) 1 (by decide)
  obtain ⟨haccess, hbuffer⟩ := linkedEnv_buffer (k := 257) (by decide)
  rw [← h.mm] at haccess hbuffer
  have hsize : (t.fs.dir f).size = 257 := h.size
  refine ⟨r, t, hrun, fd, v, f, h.fd, by rw [h.entry], by rw [h.entry], h.regular, haccess, ?_⟩
  refine fun hall => (h.fat.stores_inFile_iff h.regular t.mm v dataStart 257).mp hall ?_
  rw [Overruns, h.offset, hsize]
  refine ⟨by decide, by decide, by decide, fun j hj => hbuffer j ?_⟩
  simp at hj
  omega

end ZeOS
