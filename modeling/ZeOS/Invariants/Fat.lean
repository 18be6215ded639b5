import ZeOS.Invariants.Tables
import Mathlib.Order.Interval.Finset.Nat
import Mathlib.Data.Int.Interval

/-!
# The allocation table

`FatOk fs C` is the invariant of the block structure: `C none` is the free list and
`C (some f)` the chain of the regular file `f`, all in one table and with no block in two of
them.  Each routine of `filesystem.c` that writes the table is one move of
`LinkChain.Chains`, and the invariant follows it: `balloc (1)` pops the free list,
`create_file` makes the block a chain, the head of the byte loop of `sys_write_file` links it
behind the last block of its file, and `sys_release_file` joins a chain to the free list.
-/

namespace ZeOS

open LinkChain

namespace FileSystem

/-- A directory entry whose operations are the file routines. -/
abbrev IsRegular (fs : FileSystem) (f : FileId) : Prop := fs.ops f = fileOps

/-- Where the chains start: the free list, and the chain of each regular file. -/
def heads (fs : FileSystem) : Option FileId → ℤ
  | none => fs.ffb
  | some f => if fs.IsRegular f then (fs.dir f).firstBlock else -1

/-- A directory entry agrees with the blocks of its chain. -/
structure RegularOk (d : File) (blocks : List ℤ) : Prop where
  nonempty : blocks ≠ []
  nBlocks : d.nBlocks = blocks.length
  size_nonneg : 0 ≤ d.size
  size_le : d.size ≤ blockSize * d.nBlocks

/-- The free list and the chains of the files are well formed and share no block. -/
structure FatOk (fs : FileSystem) (C : Option FileId → List ℤ) : Prop where
  chains : Chains fs.fat (-1) fs.heads C
  /-- All blocks are blocks of the disk. -/
  range : ∀ i, ∀ b ∈ C i, 0 ≤ b ∧ b < maxBlocks
  regular : ∀ f, fs.IsRegular f → RegularOk (fs.dir f) (C (some f))
  /-- An entry has all the file routines, or neither the one that writes nor the one that
  releases blocks. -/
  ops : ∀ f, fs.IsRegular f ∨
    ((fs.ops f).sysWriteDev ≠ .sysWriteFile ∧ (fs.ops f).sysReleaseDev = .null)

/-- Every block of the chains `C` is in a chain of `C'`. -/
def Keeps (C C' : Option FileId → List ℤ) : Prop := ∀ i, ∀ b ∈ C i, ∃ j, b ∈ C' j

lemma Keeps.refl (C : Option FileId → List ℤ) : Keeps C C := fun i _ hb => ⟨i, hb⟩

lemma Keeps.trans {C C' C'' : Option FileId → List ℤ} (h : Keeps C C') (h' : Keeps C' C'') :
    Keeps C C'' := by
  intro i b hb
  obtain ⟨j, hj⟩ := h i b hb
  exact h' j b hj

@[simp] lemma heads_none (fs : FileSystem) : fs.heads none = fs.ffb := rfl

lemma heads_regular {fs : FileSystem} {f : FileId} (h : fs.IsRegular f) :
    fs.heads (some f) = (fs.dir f).firstBlock := if_pos h

lemma heads_not_regular {fs : FileSystem} {f : FileId} (h : ¬ fs.IsRegular f) :
    fs.heads (some f) = -1 := if_neg h

lemma not_isRegular_noOps {fs : FileSystem} {f : FileId} (h : fs.ops f = noOps) :
    ¬ fs.IsRegular f := by
  rw [IsRegular, h]
  decide

/-! ## Consequences -/

/-- A duplicate-free sequence of blocks is no longer than the disk. -/
lemma length_le_of_range {L : List ℤ} (hnd : L.Nodup) (hrange : ∀ b ∈ L, 0 ≤ b ∧ b < maxBlocks) :
    L.length ≤ maxBlocks := by
  have hsub : L.toFinset ⊆ Finset.Ico (0 : ℤ) maxBlocks :=
    fun b hb => Finset.mem_Ico.mpr (hrange b (List.mem_toFinset.mp hb))
  have hcard := Finset.card_le_card hsub
  rw [List.toFinset_card_of_nodup hnd, Int.card_Ico] at hcard
  exact hcard

namespace FatOk

variable {fs : FileSystem} {C : Option FileId → List ℤ} {f : FileId}

lemma length_le (h : FatOk fs C) (i : Option FileId) : (C i).length ≤ maxBlocks :=
  length_le_of_range (h.chains.nodup i) (h.range i)

lemma last (h : FatOk fs C) (hf : fs.IsRegular f) : ∃ xs l, C (some f) = xs ++ [l] := by
  obtain hnil | ⟨xs, l, hl⟩ := List.eq_nil_or_concat' (C (some f))
  · exact absurd hnil (h.regular f hf).nonempty
  · exact ⟨xs, l, hl⟩

/-- The walk of `sys_write_file` ends in the last block of the file. -/
lemma walkLast_eq (h : FatOk fs C) (hf : fs.IsRegular f) {xs : List ℤ} {l : ℤ}
    (hl : C (some f) = xs ++ [l]) :
    walkLast fs.fat (-1) maxBlocks (fs.dir f).firstBlock = some l := by
  have hc := h.chains.chain (some f)
  have hlen := h.length_le (some f)
  rw [heads_regular hf, hl] at hc
  rw [hl, List.length_append, List.length_singleton] at hlen
  exact hc.walkLast_eq hlen

lemma not_regular_nil (h : FatOk fs C) (hf : ¬ fs.IsRegular f) : C (some f) = [] := by
  have hc := h.chains.chain (some f)
  rw [heads_not_regular hf] at hc
  exact hc.unique rfl

/-- With a free block the free list is not empty. -/
lemma free_cons (h : FatOk fs C) (hffb : fs.ffb ≠ -1) : ∃ xs, C none = fs.ffb :: xs := by
  have hc := h.chains.chain none
  cases hC : C none with
  | nil =>
    rw [hC] at hc
    exact absurd hc hffb
  | cons x xs =>
    rw [hC] at hc
    exact ⟨xs, by rw [← heads_none fs, hc.1]⟩

lemma free_nil_iff (h : FatOk fs C) : C none = [] ↔ fs.ffb = -1 := by
  have hc := h.chains.chain none
  constructor
  · intro hnil
    rw [hnil] at hc
    exact hc
  · intro hffb
    rw [heads_none, hffb] at hc
    exact hc.unique rfl

/-- The invariant only looks at the blocks, the operations and the sizes. -/
lemma congr {fs' : FileSystem} (h : FatOk fs C) (hfat : fs'.fat = fs.fat) (hffb : fs'.ffb = fs.ffb)
    (hops : fs'.ops = fs.ops)
    (hdir : ∀ f, (fs'.dir f).firstBlock = (fs.dir f).firstBlock ∧
      (fs'.dir f).nBlocks = (fs.dir f).nBlocks ∧ (fs'.dir f).size = (fs.dir f).size) :
    FatOk fs' C := by
  have hreg : ∀ f, fs'.IsRegular f ↔ fs.IsRegular f := fun f => by rw [IsRegular, hops]
  have hheads : fs'.heads = fs.heads := by
    funext i
    cases i with
    | none => exact hffb
    | some f => simp only [heads, hreg, (hdir f).1]
  refine ⟨?_, h.range, ?_, ?_⟩
  · rw [hfat, hheads]
    exact h.chains
  · intro f hf
    obtain ⟨hne, hn, hpos, hle⟩ := h.regular f ((hreg f).mp hf)
    obtain ⟨-, hnb, hsz⟩ := hdir f
    exact ⟨hne, hnb.trans hn, hsz.symm ▸ hpos, by rw [hnb, hsz]; exact hle⟩
  · intro f
    rw [hreg, hops]
    exact h.ops f

/-- It looks neither at the bytes on the disk nor at open files. -/
lemma withDisk (h : FatOk fs C) (a : ℤ) (b : Byte) : FatOk (fs.setDisk a b) C :=
  h.congr rfl rfl rfl (fun _ => ⟨rfl, rfl, rfl⟩)

lemma withFdt (h : FatOk fs C) (v : FdtId) (g : Virtual → Virtual) : FatOk (fs.updFdt v g) C :=
  h.congr rfl rfl rfl (fun _ => ⟨rfl, rfl, rfl⟩)

/-- The bytes of a block of a chain are on the disk. -/
lemma cell_range (h : FatOk fs C) {i : Option FileId} {b y : ℤ} (hb : b ∈ C i) (h0 : 0 ≤ y)
    (hy : y < blockSize) :
    0 ≤ b * blockSize + y ∧ b * blockSize + y < maxBlocks * blockSize := by
  have hr := h.range i b hb
  change 0 ≤ b ∧ b < 80 at hr
  change y < 256 at hy
  change 0 ≤ b * 256 + y ∧ b * 256 + y < 80 * 256
  omega

end FatOk

/-! ## Taking a block -/

/-- The free list without its first block. -/
def popFree (fs : FileSystem) : FileSystem :=
  { fs with ffb := fs.fat fs.ffb, fat := Function.update fs.fat fs.ffb (-1) }

@[simp] lemma popFree_dir (fs : FileSystem) : fs.popFree.dir = fs.dir := rfl

@[simp] lemma popFree_ops (fs : FileSystem) : fs.popFree.ops = fs.ops := rfl

@[simp] lemma popFree_fdt (fs : FileSystem) : fs.popFree.fdt = fs.fdt := rfl

/-- `balloc (1)`, the only call of the source, never walks the table. -/
lemma balloc_one (fs : FileSystem) :
    fs.balloc 1 = .ok (if fs.ffb = -1 then (-1, fs) else (fs.ffb, fs.popFree)) := by
  unfold balloc
  by_cases hffb : fs.ffb = -1
  · simp [hffb]
  · by_cases hlast : fs.fat fs.ffb = -1
    · simp only [hffb, hlast, popFree, if_false, if_true, Int.reduceLT, or_false]
      rw [← hlast, Function.update_eq_self]
    · simp [hffb, hlast, ballocLoop, popFree, setFat]

lemma FatOk.popFree {fs : FileSystem} {C : Option FileId → List ℤ} (h : FatOk fs C)
    {xs : List ℤ} (hC : C none = fs.ffb :: xs) :
    FatOk fs.popFree (Function.update C none xs) ∧
      ∀ k, fs.ffb ∉ Function.update C none xs k := by
  obtain ⟨hchains, hfresh⟩ := h.chains.pop hC
  have hheads : fs.popFree.heads = Function.update fs.heads none (fs.fat fs.ffb) := by
    funext i
    cases i with
    | none => rfl
    | some f => rfl
  have hsome : ∀ f : FileId, Function.update C none xs (some f) = C (some f) :=
    fun f => Function.update_of_ne (by simp) _ _
  refine ⟨⟨?_, ?_, ?_, h.ops⟩, hfresh⟩
  · rw [hheads]
    exact hchains
  · intro i b hb
    cases i with
    | none =>
      refine h.range none b ?_
      rw [hC]
      exact List.mem_cons_of_mem _ (by simpa using hb)
    | some f => exact h.range (some f) b (by simpa using hb)
  · intro f hf
    rw [hsome]
    exact h.regular f hf

/-! ## Creating a file -/

/-- The directory after `create_file` with its new block. -/
def newFile (fs : FileSystem) (i : FileId) (path : List Byte) (fblock : ℤ) : FileSystem :=
  (fs.updOps i fileOps).updDir i fun d =>
    { name := copyName path d.name, accessModeAllow := oRdwr, firstBlock := fblock,
      nBlocks := 1, size := 0, nRefs := 0 }

section

variable (fs : FileSystem) (i : FileId) (path : List Byte) (fblock : ℤ)

@[simp] lemma newFile_dir_self : (fs.newFile i path fblock).dir i =
    { name := copyName path (fs.dir i).name, accessModeAllow := oRdwr, firstBlock := fblock,
      nBlocks := 1, size := 0, nRefs := 0 } := by
  simp [newFile, updDir, updOps]

@[simp] lemma newFile_dir_of_ne {f : FileId} (h : f ≠ i) :
    (fs.newFile i path fblock).dir f = fs.dir f := by
  simp [newFile, updDir, updOps, h]

@[simp] lemma newFile_ops_self : (fs.newFile i path fblock).ops i = fileOps := by
  simp [newFile, updDir, updOps]

@[simp] lemma newFile_ops_of_ne {f : FileId} (h : f ≠ i) :
    (fs.newFile i path fblock).ops f = fs.ops f := by
  simp [newFile, updDir, updOps, h]

@[simp] lemma newFile_fdt : (fs.newFile i path fblock).fdt = fs.fdt := rfl

end

/-- The directory entry that `create_file` takes. -/
abbrev freeDir (fs : FileSystem) : Option FileId :=
  (List.finRange maxFiles).find? (fun f => (fs.dir f).nRefs = -1)

/-- `create_file` has no entry for a new file, or no room for its name, or no block. -/
def CreateRefused (fs : FileSystem) (path : List Byte) : Prop :=
  fs.freeDir = none ∨ maxNameLength - 1 < path.length ∨ fs.ffb = -1

/-- `create_file` fails and changes nothing, or takes the first free entry and the first free
block. -/
lemma createFile_cases (fs : FileSystem) (hffb : fs.ffb = -1 ∨ 0 ≤ fs.ffb) (path : List Byte) :
    (fs.CreateRefused path ∧ ∃ code < 0, fs.createFile path = .ok (.error code, fs)) ∨
    ∃ i, fs.freeDir = some i ∧
      path.length ≤ maxNameLength - 1 ∧ fs.ffb ≠ -1 ∧
      fs.createFile path = .ok (.file i, fs.popFree.newFile i path fs.ffb) := by
  unfold createFile
  cases hi : (List.finRange maxFiles).find? (fun f => (fs.dir f).nRefs = -1) with
  | none => exact .inl ⟨.inl hi, -eNfile, by decide, rfl⟩
  | some i =>
    simp only [balloc_one]
    by_cases hlen : path.length > maxNameLength - 1
    · exact .inl ⟨.inr (.inl hlen), -eNametoolong, by decide, by rw [if_pos hlen]⟩
    · rw [if_neg hlen]
      rcases hffb with hffb | hffb
      · exact .inl ⟨.inr (.inr hffb), -eNospc, by decide, by simp [hffb]⟩
      · have hne : fs.ffb ≠ -1 := by omega
        refine .inr ⟨i, hi, by omega, hne, ?_⟩
        simp [hne, newFile, Int.not_lt.mpr hffb]

lemma FatOk.ffb_cases {fs : FileSystem} {C : Option FileId → List ℤ} (h : FatOk fs C) :
    fs.ffb = -1 ∨ 0 ≤ fs.ffb := by
  by_cases hffb : fs.ffb = -1
  · exact .inl hffb
  · obtain ⟨xs, hxs⟩ := h.free_cons hffb
    exact .inr (h.range none fs.ffb (by simp [hxs])).1

/-- A block of no chain that points to nothing becomes the chain of a new file, whatever its
directory entry held before. -/
lemma FatOk.newFile {fs : FileSystem} {C : Option FileId → List ℤ} (h : FatOk fs C) {x : ℤ}
    (hx : 0 ≤ x ∧ x < maxBlocks) (hnext : fs.fat x = -1) (hfresh : ∀ k, x ∉ C k) (i : FileId)
    (path : List Byte) : FatOk (fs.newFile i path x) (Function.update C (some i) [x]) := by
  have hops : ∀ f, (fs.newFile i path x).ops f = if f = i then fileOps else fs.ops f := by
    intro f
    simp [FileSystem.newFile, updDir, updOps, Function.update_apply]
  have hdir : ∀ f, f ≠ i → (fs.newFile i path x).dir f = fs.dir f := by
    intro f hf
    simp [hf]
  have hreg : ∀ f, f ≠ i → ((fs.newFile i path x).IsRegular f ↔ fs.IsRegular f) := by
    intro f hf
    rw [IsRegular, hops, if_neg hf]
  have hnew : (fs.newFile i path x).dir i =
      { name := copyName path (fs.dir i).name, accessModeAllow := oRdwr, firstBlock := x,
        nBlocks := 1, size := 0, nRefs := 0 } := by
    simp
  have hheads : (fs.newFile i path x).heads = Function.update fs.heads (some i) x := by
    funext k
    cases k with
    | none => simp [FileSystem.newFile, updDir, updOps]
    | some f =>
      by_cases hf : f = i
      · subst hf
        rw [Function.update_self, heads_regular (by rw [IsRegular, hops, if_pos rfl]), hnew]
      · rw [Function.update_of_ne (by simpa using hf)]
        simp only [heads, hreg f hf, hdir f hf]
  have hother : ∀ f, f ≠ i → Function.update C (some i) [x] (some f) = C (some f) :=
    fun f hf => Function.update_of_ne (by simpa using hf) _ _
  refine ⟨?_, ?_, ?_, ?_⟩
  · rw [hheads]
    exact h.chains.single (by omega) hnext hfresh (some i)
  · intro k b hb
    by_cases hk : k = some i
    · subst hk
      have : b = x := by simpa using hb
      exact this ▸ hx
    · exact h.range k b (by simpa [hk] using hb)
  · intro f hf
    by_cases hfi : f = i
    · subst hfi
      rw [Function.update_self, hnew]
      exact ⟨by simp, by simp, by simp, by simp⟩
    · rw [hother f hfi, hdir f hfi]
      exact h.regular f ((hreg f hfi).mp hf)
  · intro f
    by_cases hfi : f = i
    · exact .inl (by rw [IsRegular, hops, if_pos hfi])
    · rw [hreg f hfi, hops, if_neg hfi]
      exact h.ops f

/-! ## Writing -/

/-- A block of no chain is linked behind the last block of a file. -/
lemma FatOk.addBlock {fs : FileSystem} {C : Option FileId → List ℤ} (h : FatOk fs C) {f : FileId}
    (hf : fs.IsRegular f) {xs : List ℤ} {l x : ℤ} (hl : C (some f) = xs ++ [l])
    (hx : 0 ≤ x ∧ x < maxBlocks) (hnext : fs.fat x = -1) (hfresh : ∀ k, x ∉ C k) :
    FatOk ((fs.addBlock l x).updDir f fun d => { d with nBlocks := d.nBlocks + 1 })
      (Function.update C (some f) (C (some f) ++ [x])) := by
  have hlx : x ≠ l := by
    rintro rfl
    exact hfresh (some f) (by simp [hl])
  have hfat : (fs.addBlock l x).fat = Function.update fs.fat l x := by
    simp only [FileSystem.addBlock, setFat]
    rw [← hnext, Function.update_comm hlx.symm, Function.update_eq_self]
  have hdir : ∀ g, g ≠ f → ((fs.addBlock l x).updDir f fun d =>
      { d with nBlocks := d.nBlocks + 1 }).dir g = fs.dir g := by
    intro g hg
    simp [FileSystem.addBlock, setFat, hg]
  have hdirf : ((fs.addBlock l x).updDir f fun d => { d with nBlocks := d.nBlocks + 1 }).dir f =
      { fs.dir f with nBlocks := (fs.dir f).nBlocks + 1 } := by
    simp [FileSystem.addBlock, setFat]
  have hreg : ∀ g, ((fs.addBlock l x).updDir f fun d =>
      { d with nBlocks := d.nBlocks + 1 }).IsRegular g ↔ fs.IsRegular g := fun g => Iff.rfl
  have hheads : ((fs.addBlock l x).updDir f fun d => { d with nBlocks := d.nBlocks + 1 }).heads =
      fs.heads := by
    funext k
    cases k with
    | none => rfl
    | some g =>
      by_cases hg : g = f
      · subst hg
        simp only [heads, hreg, hdirf]
      · simp only [heads, hreg, hdir g hg]
  have hother : ∀ g, g ≠ f →
      Function.update C (some f) (C (some f) ++ [x]) (some g) = C (some g) :=
    fun g hg => Function.update_of_ne (by simpa using hg) _ _
  refine ⟨?_, ?_, ?_, h.ops⟩
  · rw [hheads]
    have hext := h.chains.extend hl (by omega) hnext hfresh
    rw [← hfat] at hext
    exact hext
  · intro k b hb
    by_cases hk : k = some f
    · subst hk
      rw [Function.update_self, List.mem_append, List.mem_singleton] at hb
      rcases hb with hb | rfl
      · exact h.range _ b hb
      · exact hx
    · exact h.range k b (by simpa [hk] using hb)
  · intro g hg
    by_cases hgf : g = f
    · subst hgf
      obtain ⟨hne, hn, hpos, hle⟩ := h.regular g hf
      rw [hdirf, Function.update_self]
      refine ⟨by simp, by simp [hn], hpos, ?_⟩
      change (fs.dir g).size ≤ 256 * (fs.dir g).nBlocks at hle
      change (fs.dir g).size ≤ 256 * ((fs.dir g).nBlocks + 1)
      omega
    · rw [hother g hgf, hdir g hgf]
      exact h.regular g hg

/-- The file takes the first free block for its next byte. -/
def grown (fs : FileSystem) (f : FileId) (destBlock : ℤ) : FileSystem :=
  (fs.popFree.addBlock destBlock fs.ffb).updDir f fun d => { d with nBlocks := d.nBlocks + 1 }

/-- The chains after `grown`, with the rest of the free list. -/
def grownChains (fs : FileSystem) (C : Option FileId → List ℤ) (f : FileId) (free : List ℤ) :
    Option FileId → List ℤ :=
  Function.update (Function.update C none free) (some f) (C (some f) ++ [fs.ffb])

/-- The size calls for a new block before the next byte. -/
abbrev NeedsBlock (fs : FileSystem) (f : FileId) : Prop :=
  (fs.dir f).size % blockSize = 0 ∧ (fs.dir f).size ≠ 0

lemma growFile_eq (fs : FileSystem) (f : FileId) (destBlock destByte : ℤ) :
    fs.growFile f destBlock destByte =
      if fs.NeedsBlock f then
        if fs.ffb = -1 then .ok none else .ok (some (fs.ffb, 0, fs.grown f destBlock))
      else .ok (some (destBlock, destByte, fs)) := by
  unfold growFile
  by_cases hn : fs.NeedsBlock f
  · rw [if_pos hn, if_pos hn, balloc_one]
    by_cases hffb : fs.ffb = -1
    · simp [hffb]
    · simp [hffb, grown]
  · rw [if_neg hn, if_neg hn]

lemma FatOk.grown {fs : FileSystem} {C : Option FileId → List ℤ} (h : FatOk fs C) {f : FileId}
    (hf : fs.IsRegular f) {xs free : List ℤ} {l : ℤ} (hl : C (some f) = xs ++ [l])
    (hfree : C none = fs.ffb :: free) :
    FatOk (fs.grown f l) (fs.grownChains C f free) := by
  obtain ⟨hpop, hfresh⟩ := h.popFree hfree
  have hsome : Function.update C none free (some f) = C (some f) :=
    Function.update_of_ne (by simp) _ _
  have hadd := hpop.addBlock hf (hsome.trans hl) (h.range none fs.ffb (by simp [hfree]))
    (by simp [FileSystem.popFree]) hfresh
  rw [hsome] at hadd
  exact hadd

lemma keeps_grownChains (fs : FileSystem) {C : Option FileId → List ℤ} (f : FileId) {free : List ℤ}
    (hfree : C none = fs.ffb :: free) : Keeps C (fs.grownChains C f free) := by
  intro i b hb
  cases i with
  | none =>
    rw [hfree] at hb
    rcases List.mem_cons.mp hb with rfl | hb
    · exact ⟨some f, by simp [grownChains]⟩
    · exact ⟨none, by simpa [grownChains] using hb⟩
  | some g =>
    by_cases hg : g = f
    · subst hg
      exact ⟨some g, by simp [grownChains, hb]⟩
    · exact ⟨some g, by simpa [grownChains, hg] using hb⟩

/-- The offset moves on in a file that has room in its last block. -/
lemma FatOk.advance {fs : FileSystem} {C : Option FileId → List ℤ} (h : FatOk fs C) {f : FileId}
    (hroom : (fs.dir f).size < blockSize * (fs.dir f).nBlocks) (v : FdtId) :
    FatOk (fs.advance v f) C := by
  have hoff : FatOk (fs.updFdt v fun w => { w with offset := w.offset + 1 }) C := h.withFdt v _
  unfold FileSystem.advance
  simp only
  split_ifs
  · refine ⟨?_, hoff.range, fun g hg => ?_, hoff.ops⟩
    · have hheads : ∀ fs' : FileSystem,
          (fs'.updDir f fun d => { d with size := d.size + 1 }).heads = fs'.heads := by
        intro fs'
        funext k
        cases k with
        | none => rfl
        | some g => by_cases hg : g = f <;> simp [heads, updDir, hg]
      rw [hheads]
      exact hoff.chains
    · by_cases hgf : g = f
      · subst hgf
        obtain ⟨hne, hn, hpos, -⟩ := hoff.regular g hg
        simp only [updDir, Function.update_self]
        exact ⟨hne, hn, Int.le_add_one hpos, hroom⟩
      · simpa [hgf] using hoff.regular g hg
  · exact hoff

lemma FatOk.room_of_not_needsBlock {fs : FileSystem} {C : Option FileId → List ℤ} (h : FatOk fs C)
    {f : FileId} (hf : fs.IsRegular f) (hn : ¬ fs.NeedsBlock f) :
    (fs.dir f).size < blockSize * (fs.dir f).nBlocks := by
  obtain ⟨hne, hnb, hpos, hle⟩ := h.regular f hf
  have hlen := List.length_pos_of_ne_nil hne
  change (fs.dir f).size ≤ 256 * (fs.dir f).nBlocks at hle
  change ¬ ((fs.dir f).size % 256 = 0 ∧ (fs.dir f).size ≠ 0) at hn
  change (fs.dir f).size < 256 * (fs.dir f).nBlocks
  omega

@[simp] lemma grown_dir (fs : FileSystem) (f : FileId) (l : ℤ) :
    (fs.grown f l).dir f = { fs.dir f with nBlocks := (fs.dir f).nBlocks + 1 } := by
  simp [grown, addBlock, setFat]

lemma grown_dir_of_ne (fs : FileSystem) {f g : FileId} (h : g ≠ f) (l : ℤ) :
    (fs.grown f l).dir g = fs.dir g := by
  simp [grown, addBlock, setFat, h]

lemma FatOk.room_grown {fs : FileSystem} {C : Option FileId → List ℤ} (h : FatOk fs C)
    {f : FileId} (hf : fs.IsRegular f) (l : ℤ) :
    ((fs.grown f l).dir f).size < blockSize * ((fs.grown f l).dir f).nBlocks := by
  obtain ⟨-, -, -, hle⟩ := h.regular f hf
  change (fs.dir f).size ≤ 256 * (fs.dir f).nBlocks at hle
  rw [grown_dir]
  change (fs.dir f).size < 256 * ((fs.dir f).nBlocks + 1)
  omega

/-- A turn of the byte loop of `sys_write_file` after its head. -/
def writeByte (m : Memory) (v : FdtId) (f : FileId) (buffer : ℕ) (n i : ℕ)
    (destBlock destByte : ℤ) (fs : FileSystem) : Outcome FileSystem ℤ :=
  if m.present (buffer + i) then
    if 0 ≤ destBlock * blockSize + destByte ∧
        destBlock * blockSize + destByte < maxBlocks * blockSize then
      writeLoop m v f buffer n (i + 1) destBlock (destByte + 1)
        ((fs.setDisk (destBlock * blockSize + destByte) (m.load (buffer + i))).advance v f)
    else .stop .offDisk
  else .fault fs

lemma writeLoop_succ (m : Memory) (v : FdtId) (f : FileId) (buffer : ℕ) (n i : ℕ)
    (destBlock destByte : ℤ) (fs : FileSystem) :
    writeLoop m v f buffer (n + 1) i destBlock destByte fs =
      if fs.NeedsBlock f then
        if fs.ffb = -1 then .ret (-eNospc) fs
        else writeByte m v f buffer n i fs.ffb 0 (fs.grown f destBlock)
      else writeByte m v f buffer n i destBlock destByte fs := by
  rw [writeLoop, growFile_eq]
  by_cases hn : fs.NeedsBlock f
  · by_cases hffb : fs.ffb = -1
    · simp only [if_pos hn, if_pos hffb]
    · simp only [if_pos hn, if_neg hffb, writeByte]
  · simp only [if_neg hn, writeByte]

lemma writeLoop_ne_diverge (m : Memory) (v : FdtId) (f : FileId) (buffer : ℕ) (n : ℕ) :
    ∀ (i : ℕ) (destBlock destByte : ℤ) (fs : FileSystem),
      writeLoop m v f buffer n i destBlock destByte fs ≠ .stop .diverge := by
  induction n with
  | zero =>
    intro i destBlock destByte fs
    simp [writeLoop]
  | succ n ih =>
    intro i destBlock destByte fs
    have hbyte : ∀ b y fs, writeByte m v f buffer n i b y fs ≠ .stop .diverge := by
      intro b y fs
      unfold writeByte
      split_ifs
      · exact ih _ _ _ _
      · simp
      · simp
    rw [writeLoop_succ]
    split_ifs
    · simp
    · exact hbyte _ _ _
    · exact hbyte _ _ _

lemma isRegular_advance {fs : FileSystem} {v : FdtId} {f g : FileId} :
    (fs.advance v f).IsRegular g ↔ fs.IsRegular g := by
  unfold advance
  simp only
  split_ifs <;> exact Iff.rfl

/-- Every way out of the byte loop leaves the table well formed, with all its blocks. -/
lemma FatOk.writeLoop (m : Memory) (v : FdtId) (f : FileId) (buffer : ℕ) (n : ℕ) :
    ∀ {fs : FileSystem} {C : Option FileId → List ℤ} {xs : List ℤ} {destBlock : ℤ} (i : ℕ)
      (destByte : ℤ), FatOk fs C → fs.IsRegular f → C (some f) = xs ++ [destBlock] →
      (FileSystem.writeLoop m v f buffer n i destBlock destByte fs).Leaves
        (fun fs' => ∃ C', FatOk fs' C' ∧ Keeps C C') := by
  induction n with
  | zero =>
    intro fs C xs destBlock i destByte h hf hl
    exact ⟨C, h, .refl C⟩
  | succ n ih =>
    intro fs C xs destBlock i destByte h hf hl
    -- one byte, in a state with room for it
    have hbyte : ∀ {fs : FileSystem} {C : Option FileId → List ℤ} {xs : List ℤ} {b : ℤ} (y : ℤ),
        FatOk fs C → fs.IsRegular f → C (some f) = xs ++ [b] →
        (fs.dir f).size < blockSize * (fs.dir f).nBlocks →
        (writeByte m v f buffer n i b y fs).Leaves (fun fs' => ∃ C', FatOk fs' C' ∧ Keeps C C') := by
      intro fs C xs b y h hf hl hroom
      unfold writeByte
      split_ifs with hp ha
      · exact ih (i + 1) (y + 1) ((h.withDisk ..).advance hroom v) (isRegular_advance.mpr hf) hl
      · trivial
      · exact ⟨C, h, .refl C⟩
    rw [writeLoop_succ]
    split_ifs with hn hffb
    · exact ⟨C, h, .refl C⟩
    · obtain ⟨free, hfree⟩ := h.free_cons hffb
      refine (hbyte 0 (h.grown hf hl hfree) hf (Function.update_self ..)
        (h.room_grown hf destBlock)).imp (fun fs' hfs' => ?_)
      obtain ⟨C', hC', hkeep⟩ := hfs'
      exact ⟨C', hC', (keeps_grownChains fs f hfree).trans hkeep⟩
    · exact hbyte destByte h hf hl (h.room_of_not_needsBlock hf hn)

/-- `sys_write_file` on a regular file keeps the table well formed, and its walk ends. -/
lemma FatOk.sysWriteFile {fs : FileSystem} {C : Option FileId → List ℤ} (h : FatOk fs C)
    {f : FileId} (hf : fs.IsRegular f) (m : Memory) (v : FdtId) (buffer size : ℕ) :
    (fs.sysWriteFile m v f buffer size).Leaves (fun fs' => ∃ C', FatOk fs' C' ∧ Keeps C C') ∧
      fs.sysWriteFile m v f buffer size ≠ .stop .diverge := by
  obtain ⟨xs, l, hl⟩ := h.last hf
  rw [FileSystem.sysWriteFile, h.walkLast_eq hf hl]
  exact ⟨FatOk.writeLoop m v f buffer size 0 _ h hf hl, writeLoop_ne_diverge _ _ _ _ _ _ _ _ _⟩

/-! ## Giving blocks back -/

/-- The walk of `freeb` ends in the last block of the free list. -/
lemma FatOk.walkFree_eq {fs : FileSystem} {C : Option FileId → List ℤ} (h : FatOk fs C)
    (hffb : fs.ffb ≠ -1) :
    ∃ xs l, C none = xs ++ [l] ∧ walkLast fs.fat (-1) maxBlocks fs.ffb = some l := by
  obtain hnil | ⟨xs, l, hl⟩ := List.eq_nil_or_concat' (C none)
  · exact absurd (h.free_nil_iff.mp hnil) hffb
  · have hc := h.chains.chain none
    have hlen := h.length_le none
    rw [heads_none, hl] at hc
    rw [hl, List.length_append, List.length_singleton] at hlen
    exact ⟨xs, l, hl, hc.walkLast_eq hlen⟩

lemma FatOk.freeb_ne_error {fs : FileSystem} {C : Option FileId → List ℤ} (h : FatOk fs C)
    (index : ℤ) (r : Stop) : fs.freeb index ≠ .error r := by
  unfold freeb
  split_ifs with h1 hffb
  · simp
  · simp
  · obtain ⟨xs, l, -, hw⟩ := h.walkFree_eq hffb
    rw [hw]
    simp

/-- The loop of `balloc` ends within the length of the free list. -/
lemma ballocLoop_ne_none {fat : ℤ → ℤ} (nblocks : ℤ) {xs : List ℤ} :
    ∀ (prev tot : ℤ) {ffb : ℤ} {fuel : ℕ}, IsChain fat (-1) ffb xs → xs ≠ [] →
      xs.length ≤ fuel → ballocLoop fat nblocks fuel prev ffb tot ≠ none := by
  induction xs with
  | nil =>
    intro prev tot ffb fuel _ hne
    exact absurd rfl hne
  | cons x xs ih =>
    intro prev tot ffb fuel hc _ hlen
    obtain ⟨n, rfl⟩ : ∃ n, fuel = n + 1 := ⟨fuel - 1, by simp at hlen; omega⟩
    obtain ⟨rfl, -, hc⟩ := hc
    rw [ballocLoop]
    split_ifs with hcond
    · refine ih _ _ hc ?_ (by simpa using hlen)
      rintro rfl
      exact hcond.2 hc
    · simp

/-- The walk of `balloc` over the free list ends, whatever is asked for. -/
lemma FatOk.balloc_ne_error {fs : FileSystem} {C : Option FileId → List ℤ} (h : FatOk fs C)
    (nblocks : ℤ) (r : Stop) : fs.balloc nblocks ≠ .error r := by
  unfold balloc
  split_ifs with h1 h2 h3
  · simp
  · simp
  · simp
  · obtain ⟨free, hfree⟩ := h.free_cons (fun hffb => h1 (.inl hffb))
    have hc := h.chains.chain none
    have hlen := h.length_le none
    rw [heads_none, hfree] at hc
    rw [hfree, List.length_cons] at hlen
    have hne : free ≠ [] := by
      rintro rfl
      exact h2 hc.2.2
    have hloop := ballocLoop_ne_none nblocks fs.ffb 1 hc.2.2 hne (Nat.le_of_succ_le hlen)
    simp only
    split
    · next hnone => exact absurd hnone hloop
    · split_ifs <;> simp

/-- `freeb` of the first block of a file gives its whole chain to the free list. -/
lemma FatOk.freeb_firstBlock {fs : FileSystem} {C : Option FileId → List ℤ} (h : FatOk fs C)
    {f : FileId} (hf : fs.IsRegular f) :
    ∃ fat' ffb', fs.freeb (fs.dir f).firstBlock = .ok (0, { fs with fat := fat', ffb := ffb' }) ∧
      Chains fat' (-1) (Function.update (Function.update fs.heads none ffb') (some f) (-1))
        (Function.update (Function.update C none (C none ++ C (some f))) (some f) []) := by
  have hc := h.chains.chain (some f)
  rw [heads_regular hf] at hc
  obtain ⟨b, bs, hbs⟩ := List.exists_cons_of_ne_nil (h.regular f hf).nonempty
  have hb : (fs.dir f).firstBlock = b := by
    rw [hbs] at hc
    exact hc.1
  have hmem : (fs.dir f).firstBlock ∈ C (some f) := by simp [hb, hbs]
  have hrange := h.range _ _ hmem
  have hne : (fs.dir f).firstBlock ≠ fs.ffb := by
    intro heq
    have hffb : fs.ffb ≠ -1 := by omega
    obtain ⟨free, hfree⟩ := h.free_cons hffb
    exact h.chains.disjoint none (some f) (by simp) (by simp [hfree]) (heq ▸ hmem)
  have hguard : ¬ ((fs.dir f).firstBlock ≥ maxBlocks ∨ (fs.dir f).firstBlock < 0 ∨
      (fs.dir f).firstBlock = fs.ffb) := by
    rintro (hge | hlt | heq)
    · exact absurd hrange.2 (Int.not_lt.mpr hge)
    · omega
    · exact hne heq
  unfold freeb
  rw [if_neg hguard]
  by_cases hffb : fs.ffb = -1
  · have hnil := h.free_nil_iff.mpr hffb
    refine ⟨fs.fat, (fs.dir f).firstBlock, by rw [if_pos hffb], ?_⟩
    have hmove := h.chains.move (i := none) (j := some f) (by simp) hnil
    rw [heads_regular hf] at hmove
    rwa [hnil, List.nil_append]
  · obtain ⟨xs, l, hl, hw⟩ := h.walkFree_eq hffb
    refine ⟨Function.update fs.fat l (fs.dir f).firstBlock, fs.ffb, ?_, ?_⟩
    · rw [if_neg hffb, hw]
      rfl
    · have hjoin := h.chains.join (i := none) (j := some f) (by simp) hl
      rw [heads_regular hf] at hjoin
      have hheads : Function.update fs.heads none fs.ffb = fs.heads := Function.update_eq_self none _
      rwa [hheads]

/-- A directory entry is taken out of use, and the chains are as `C'` says. -/
lemma FatOk.remove {fs fs' : FileSystem} {C C' : Option FileId → List ℤ} (h : FatOk fs C)
    {f : FileId} (hops : fs'.ops = Function.update fs.ops f noOps)
    (hchains : Chains fs'.fat (-1)
      (Function.update (Function.update fs.heads none fs'.ffb) (some f) (-1)) C')
    (hmem : ∀ i, ∀ b ∈ C' i, ∃ j, b ∈ C j)
    (hdir : ∀ g, g ≠ f → fs'.dir g = fs.dir g ∧ C' (some g) = C (some g)) : FatOk fs' C' := by
  have hops' : ∀ g, g ≠ f → fs'.ops g = fs.ops g := by
    intro g hg
    rw [hops, Function.update_of_ne hg]
  have hnot : ¬ fs'.IsRegular f := by
    refine not_isRegular_noOps ?_
    rw [hops, Function.update_self]
  have hheads : fs'.heads =
      Function.update (Function.update fs.heads none fs'.ffb) (some f) (-1) := by
    funext k
    cases k with
    | none => simp
    | some g =>
      by_cases hg : g = f
      · subst hg
        rw [Function.update_self, heads_not_regular hnot]
      · rw [Function.update_of_ne (by simpa using hg), Function.update_of_ne (by simp)]
        simp only [heads, IsRegular, hops' g hg, (hdir g hg).1]
  refine ⟨hheads ▸ hchains, ?_, ?_, ?_⟩
  · intro i b hb
    obtain ⟨j, hj⟩ := hmem i b hb
    exact h.range j b hj
  · intro g hg
    have hgf : g ≠ f := by
      rintro rfl
      exact hnot hg
    rw [IsRegular, hops' g hgf] at hg
    obtain ⟨hd, hc⟩ := hdir g hgf
    rw [hd, hc]
    exact h.regular g hg
  · intro g
    by_cases hgf : g = f
    · right
      rw [hops, hgf, Function.update_self]
      decide
    · rw [IsRegular, hops' g hgf]
      exact h.ops g

/-- `sys_unlink` keeps the table well formed, and does not run out of its loops. -/
lemma FatOk.sysUnlink {fs : FileSystem} {C : Option FileId → List ℤ} (h : FatOk fs C)
    (path : List Byte) :
    ∃ r fs' C', fs.sysUnlink path = .ok (r, fs') ∧ FatOk fs' C' ∧ Keeps C C' := by
  unfold FileSystem.sysUnlink
  split_ifs with hlen
  · exact ⟨_, fs, C, rfl, h, .refl C⟩
  · split
    · exact ⟨_, fs, C, rfl, h, .refl C⟩
    · next f _ =>
      split_ifs with hrefs
      · by_cases hf : fs.IsRegular f
        · obtain ⟨fat', ffb', hfree, hchains⟩ := h.freeb_firstBlock hf
          have hrel : (fs.ops f).sysReleaseDev = .sysReleaseFile := by
            rw [show fs.ops f = fileOps from hf]
            rfl
          simp only [hrel, sysReleaseFile, hfree]
          refine ⟨_, _, _, rfl, h.remove (f := f) rfl hchains ?_ ?_, ?_⟩
          · intro i b hb
            by_cases hi : i = some f
            · simp [hi] at hb
            · cases i with
              | none =>
                rw [Function.update_of_ne (by simp), Function.update_self, List.mem_append] at hb
                exact hb.elim (fun hb => ⟨_, hb⟩) (fun hb => ⟨_, hb⟩)
              | some g => exact ⟨some g, by simpa [hi] using hb⟩
          · intro g hg
            simp [hg]
          · intro i b hb
            cases i with
            | none => exact ⟨none, by simp [hb]⟩
            | some g =>
              by_cases hg : g = f
              · subst hg
                exact ⟨none, by simp [hb]⟩
              · exact ⟨some g, by simpa [hg] using hb⟩
        · have hrel := ((h.ops f).resolve_left hf).2
          have hheads : Function.update (Function.update fs.heads none fs.ffb) (some f) (-1) =
              fs.heads := by
            rw [← heads_not_regular hf, ← heads_none fs, Function.update_eq_self,
              Function.update_eq_self]
          simp only [hrel]
          refine ⟨_, _, C, rfl, h.remove (f := f) rfl ?_ (fun i b hb => ⟨i, hb⟩) ?_, .refl C⟩
          · exact hheads.symm ▸ h.chains
          · intro g hg
            simp [hg]
      · exact ⟨_, fs, C, rfl, h, .refl C⟩

/-! ## Opening, duplicating and closing -/

/-- The tables after a successful `sys_open` of an entry. -/
def opened (fs : FileSystem) (v : FdtId) (file : FileId) (mode : ℤ) : FileSystem :=
  (fs.updFdt v fun _ =>
    { accessMode := mode, refs := 1, offset := 0, logicDev := some file }).updDir file
      fun d => { d with nRefs := d.nRefs + 1 }

section

variable (fs : FileSystem) (v : FdtId) (file : FileId) (mode : ℤ)

@[simp] lemma opened_dir_self :
    (fs.opened v file mode).dir file = { fs.dir file with nRefs := (fs.dir file).nRefs + 1 } := by
  simp [opened, updDir, updFdt]

@[simp] lemma opened_dir_of_ne {f : FileId} (h : f ≠ file) :
    (fs.opened v file mode).dir f = fs.dir f := by
  simp [opened, updDir, updFdt, h]

@[simp] lemma opened_fdt_self : (fs.opened v file mode).fdt v =
    { accessMode := mode, refs := 1, offset := 0, logicDev := some file } := by
  simp [opened, updDir, updFdt]

@[simp] lemma opened_fdt_of_ne {w : FdtId} (h : w ≠ v) :
    (fs.opened v file mode).fdt w = fs.fdt w := by
  simp [opened, updDir, updFdt, h]

@[simp] lemma opened_ops : (fs.opened v file mode).ops = fs.ops := rfl

end

/-- The entry of `fdt[]` that `sys_open` takes. -/
abbrev freeFdt (fs : FileSystem) : Option FdtId :=
  (List.finRange maxOpenFiles).find? (fun v => ¬ (fs.fdt v).refs > 0)

/-- The descriptor that `sys_open` and `sys_dup` take. -/
abbrev freeFd (fds : Descriptors) : Option Fd :=
  (List.finRange maxFds).find? (fun fd => (fds fd).isNone)

/-- `sys_open` finds an entry for the name and may open it. -/
structure OpensEntry (fs : FileSystem) (path : List Byte) (flags : ℤ) (file : FileId) (mode : ℤ) :
    Prop where
  len : path.length ≤ maxNameLength
  lookup : fs.lookup path = some file
  flags_nonneg : 0 ≤ flags
  not_excl : flags < 0xC
  mode_eq : mode = if flags ≥ oCreat then flags - oCreat else flags
  allowed : (fs.dir file).accessModeAllow = oRdwr ∨ mode = (fs.dir file).accessModeAllow

/-- `sys_open` finds no entry for the name and may create one. -/
structure CreatesEntry (fs : FileSystem) (path : List Byte) (flags : ℤ) (i : FileId) (mode : ℤ) :
    Prop where
  len : path.length ≤ maxNameLength - 1
  lookup : fs.lookup path = none
  free : fs.freeDir = some i
  space : fs.ffb ≠ -1
  creat : oCreat ≤ flags
  flags_le : flags ≤ 0xF
  mode_eq : mode = (if flags ≥ oExcl then flags - oExcl else flags) - oCreat

/-- `sys_open` comes to the lookup. -/
structure ComesToLookup (fs : FileSystem) (fds : Descriptors) (path : List Byte) (flags : ℤ) :
    Prop where
  len : path.length ≤ maxNameLength
  fdt : fs.freeFdt.isSome
  fd : (freeFd fds).isSome
  flags_nonneg : 0 ≤ flags
  flags_le : flags ≤ 0xF

/-- A new file is asked for, and `create_file` refuses. -/
structure PointsToError (fs : FileSystem) (fds : Descriptors) (path : List Byte) (flags : ℤ) :
    Prop where
  comes : fs.ComesToLookup fds path flags
  missing : fs.lookup path = none
  creat : oCreat ≤ flags
  refused : fs.CreateRefused path

/-- The part of `sys_open` from the lookup on. -/
lemma ComesToLookup.sysOpen_eq {fs : FileSystem} {fds : Descriptors} {path : List Byte} {flags : ℤ}
    (h : fs.ComesToLookup fds path flags) {v : FdtId} {fd : Fd}
    (hv : fs.freeFdt = some v) (hfd : freeFd fds = some fd) :
    fs.sysOpen fds path flags =
      match fs.lookup path with
      | none =>
        if flags < oCreat then .ok (-eNoent, fs, fds)
        else
          match fs.createFile path with
          | .error r => .error r
          | .ok (.error _, _) => .error .errorPointer
          | .ok (.file file, fs) => .ok (fs.openEntry fds v fd file
              ((if flags ≥ oExcl then flags - oExcl else flags) - oCreat))
      | some file =>
        if flags ≥ 0xC then .ok (-eExist, fs, fds)
        else .ok (fs.openEntry fds v fd file (if flags ≥ oCreat then flags - oCreat else flags)) := by
  have hrange : ¬ (flags < 0 ∨ flags > 0xF) := by
    have h0 := h.flags_nonneg
    have hle := h.flags_le
    omega
  unfold sysOpen
  rw [if_neg (Nat.not_lt.mpr h.len), show (List.finRange maxOpenFiles).find? _ = some v from hv,
    show (List.finRange maxFds).find? _ = some fd from hfd]
  exact if_neg hrange

/-- A call that does not come to the lookup is refused. -/
lemma sysOpen_of_not_comesToLookup {fs : FileSystem} {fds : Descriptors} {path : List Byte}
    {flags : ℤ} (h : ¬ fs.ComesToLookup fds path flags) :
    ∃ code < 0, fs.sysOpen fds path flags = .ok (code, fs, fds) := by
  unfold sysOpen
  by_cases hlen : path.length > maxNameLength
  · exact ⟨-eNametoolong, by decide, if_pos hlen⟩
  · rw [if_neg hlen]
    cases hv : (List.finRange maxOpenFiles).find? (fun v => ¬ (fs.fdt v).refs > 0) with
    | none => exact ⟨-eNfile, by decide, rfl⟩
    | some v =>
      cases hfd : (List.finRange maxFds).find? (fun fd => (fds fd).isNone) with
      | none => exact ⟨-eMfile, by decide, rfl⟩
      | some fd =>
        have hflags : flags < 0 ∨ flags > 0xF := by
          by_contra hrange
          exact h ⟨by omega, Option.isSome_of_eq_some hv, Option.isSome_of_eq_some hfd, by omega,
            by omega⟩
        exact ⟨-eInval, by decide, if_pos hflags⟩

/-- The four ends of `sys_open`: an error that changes nothing, the use of an error as a
pointer, an existing entry, and a new file. -/
lemma sysOpen_cases (fs : FileSystem) (hffb : fs.ffb = -1 ∨ 0 ≤ fs.ffb) (fds : Descriptors)
    (path : List Byte) (flags : ℤ) :
    (∃ code < 0, fs.sysOpen fds path flags = .ok (code, fs, fds)) ∨
    (fs.PointsToError fds path flags ∧ fs.sysOpen fds path flags = .error .errorPointer) ∨
    (∃ v fd, fs.freeFdt = some v ∧ freeFd fds = some fd ∧
      ((∃ file mode, fs.OpensEntry path flags file mode ∧
          fs.sysOpen fds path flags =
            .ok (fd.val, fs.opened v file mode, Function.update fds fd (some v))) ∨
        (∃ i mode, fs.CreatesEntry path flags i mode ∧
          fs.sysOpen fds path flags =
            .ok (fd.val, (fs.popFree.newFile i path fs.ffb).opened v i mode,
              Function.update fds fd (some v))))) := by
  by_cases hcomes : fs.ComesToLookup fds path flags
  · obtain ⟨v, hv⟩ := Option.isSome_iff_exists.mp hcomes.fdt
    obtain ⟨fd, hfd⟩ := Option.isSome_iff_exists.mp hcomes.fd
    have h0 := hcomes.flags_nonneg
    have hle := hcomes.flags_le
    rw [hcomes.sysOpen_eq hv hfd]
    cases hlook : fs.lookup path with
    | none =>
      by_cases hcreat : flags < oCreat
      · exact .inl ⟨-eNoent, by decide, if_pos hcreat⟩
      · simp only [if_neg hcreat]
        rcases fs.createFile_cases hffb path with ⟨href, code, -, h⟩ | ⟨i, hi, hpath, hne, h⟩
        · refine .inr (.inl ⟨⟨hcomes, hlook, by omega, href⟩, ?_⟩)
          rw [h]
        · refine .inr (.inr ⟨v, fd, hv, hfd, .inr ⟨i, _,
            ⟨hpath, hlook, hi, hne, by omega, hle, rfl⟩, ?_⟩⟩)
          rw [h]
          simp [openEntry, opened]
    | some file =>
      by_cases hexcl : flags ≥ 0xC
      · exact .inl ⟨-eExist, by decide, if_pos hexcl⟩
      · simp only [if_neg hexcl]
        by_cases hacc : (fs.dir file).accessModeAllow ≠ oRdwr ∧
            (if flags ≥ oCreat then flags - oCreat else flags) ≠ (fs.dir file).accessModeAllow
        · exact .inl ⟨-eAcces, by decide, by rw [openEntry, if_pos hacc]⟩
        · refine .inr (.inr ⟨v, fd, hv, hfd, .inl ⟨file, _,
            ⟨hcomes.len, hlook, h0, by omega, rfl, ?_⟩, ?_⟩⟩)
          · by_cases hrw : (fs.dir file).accessModeAllow = oRdwr
            · exact .inl hrw
            · exact .inr (not_not.mp (fun hne => hacc ⟨hrw, hne⟩))
          · rw [openEntry, if_neg hacc]
            rfl
  · exact .inl (sysOpen_of_not_comesToLookup hcomes)

lemma openEntry_of_rdwr (fs : FileSystem) (fds : Descriptors) (v : FdtId) (fd : Fd) (flags : ℤ)
    {file : FileId} (h : (fs.dir file).accessModeAllow = oRdwr) :
    fs.openEntry fds v fd file flags =
      ((fd.val : ℤ), fs.opened v file flags, Function.update fds fd (some v)) := by
  rw [openEntry, if_neg (fun hne => hne.1 h)]
  rfl

/-- `sys_open` of a name that it may create. -/
lemma CreatesEntry.sysOpen {fs : FileSystem} {fds : Descriptors} {path : List Byte} {flags mode : ℤ}
    {i : FileId} {v : FdtId} {fd : Fd} (h : fs.CreatesEntry path flags i mode) (hffb : 0 ≤ fs.ffb)
    (hv : fs.freeFdt = some v) (hfd : freeFd fds = some fd) :
    fs.sysOpen fds path flags =
      .ok (fd.val, (fs.popFree.newFile i path fs.ffb).opened v i mode,
        Function.update fds fd (some v)) := by
  obtain ⟨hlen, hlook, hi, hne, hcreat, hle, rfl⟩ := h
  have hlen' : ¬ path.length > maxNameLength := by
    change path.length ≤ 9 at hlen
    change ¬ path.length > 10
    omega
  have hcreate : fs.createFile path = .ok (.file i, fs.popFree.newFile i path fs.ffb) := by
    unfold createFile
    rw [show (List.finRange maxFiles).find? (fun f => (fs.dir f).nRefs = -1) = some i from hi]
    simp only [balloc_one, if_neg hne, if_neg (Nat.not_lt.mpr hlen), Int.not_lt.mpr hffb, if_false]
    rfl
  have hrange : ¬ (flags < 0 ∨ flags > 0xF) := by
    change 4 ≤ flags at hcreat
    omega
  unfold FileSystem.sysOpen
  rw [if_neg hlen', show (List.finRange maxOpenFiles).find? _ = some v from hv,
    show (List.finRange maxFds).find? _ = some fd from hfd]
  simp only [hlook, hcreate, if_neg hrange, if_neg (Int.not_lt.mpr hcreat)]
  rw [openEntry_of_rdwr _ _ _ _ _ (by simp)]

/-- With `O_CREAT | O_RDWR`, an unused short name and room in all tables, `sys_open` makes a new
file. -/
lemma sysOpen_create {fs : FileSystem} {fds : Descriptors} {path : List Byte} {v : FdtId} {fd : Fd}
    {i : FileId} (hlen : path.length ≤ maxNameLength - 1) (hlook : fs.lookup path = none)
    (hv : fs.freeFdt = some v) (hfd : freeFd fds = some fd) (hi : fs.freeDir = some i)
    (hffb : 0 ≤ fs.ffb) :
    fs.sysOpen fds path (oCreat + oRdwr) =
      .ok (fd.val, (fs.popFree.newFile i path fs.ffb).opened v i oRdwr,
        Function.update fds fd (some v)) := by
  have hnew : fs.CreatesEntry path (oCreat + oRdwr) i oRdwr :=
    ⟨hlen, hlook, hi, by omega, by decide, by decide, by decide⟩
  exact hnew.sysOpen hffb hv hfd

/-- `sys_open` of an entry that it finds and may open. -/
lemma OpensEntry.sysOpen {fs : FileSystem} {fds : Descriptors} {path : List Byte} {flags mode : ℤ}
    {file : FileId} {v : FdtId} {fd : Fd} (h : fs.OpensEntry path flags file mode)
    (hv : fs.freeFdt = some v) (hfd : freeFd fds = some fd) :
    fs.sysOpen fds path flags =
      .ok (fd.val, fs.opened v file mode, Function.update fds fd (some v)) := by
  obtain ⟨hlen, hlook, h0, hexcl, rfl, hallow⟩ := h
  have hrange : ¬ (flags < 0 ∨ flags > 0xF) := by omega
  have hacc : ¬ ((fs.dir file).accessModeAllow ≠ oRdwr ∧
      (if flags ≥ oCreat then flags - oCreat else flags) ≠ (fs.dir file).accessModeAllow) := by
    rintro ⟨hrw, hne⟩
    exact hallow.elim hrw hne
  unfold FileSystem.sysOpen
  rw [if_neg (Nat.not_lt.mpr hlen), show (List.finRange maxOpenFiles).find? _ = some v from hv,
    show (List.finRange maxFds).find? _ = some fd from hfd]
  simp only [hlook, if_neg hrange, if_neg (Int.not_le.mpr hexcl), openEntry, if_neg hacc]
  rfl

/-- Counting references and pointing descriptors does not touch the blocks. -/
lemma FatOk.opened {fs : FileSystem} {C : Option FileId → List ℤ} (h : FatOk fs C) (v : FdtId)
    (file : FileId) (mode : ℤ) : FatOk (fs.opened v file mode) C := by
  refine h.congr rfl rfl rfl (fun g => ?_)
  by_cases hg : g = file <;> simp [hg]

/-- A new file takes the first free block. -/
lemma FatOk.create {fs : FileSystem} {C : Option FileId → List ℤ} (h : FatOk fs C) {free : List ℤ}
    (hfree : C none = fs.ffb :: free) (i : FileId) (path : List Byte) :
    FatOk (fs.popFree.newFile i path fs.ffb)
      (Function.update (Function.update C none free) (some i) [fs.ffb]) := by
  obtain ⟨hpop, hfresh⟩ := h.popFree hfree
  have hrange := h.range none fs.ffb (by simp [hfree])
  exact hpop.newFile hrange (by simp [FileSystem.popFree]) hfresh i path

/-- The entry that `create_file` takes has no chain. -/
def FreeUnused (fs : FileSystem) : Prop := ∀ f, fs.freeDir = some f → ¬ fs.IsRegular f

/-- A new file loses no block when its entry had none. -/
lemma FatOk.keeps_create {fs : FileSystem} {C : Option FileId → List ℤ} (h : FatOk fs C)
    {free : List ℤ} (hfree : C none = fs.ffb :: free) {i : FileId} (hi : ¬ fs.IsRegular i) :
    Keeps C (Function.update (Function.update C none free) (some i) [fs.ffb]) := by
  intro k b hb
  cases k with
  | none =>
    rw [hfree] at hb
    rcases List.mem_cons.mp hb with rfl | hb
    · exact ⟨some i, by simp⟩
    · exact ⟨none, by simpa using hb⟩
  | some g =>
    by_cases hg : g = i
    · subst hg
      rw [h.not_regular_nil hi] at hb
      simp at hb
    · exact ⟨some g, by simpa [hg] using hb⟩

lemma FatOk.sysOpen {fs : FileSystem} {C : Option FileId → List ℤ} (h : FatOk fs C)
    (fds : Descriptors) (path : List Byte) (flags : ℤ) :
    fs.sysOpen fds path flags = .error .errorPointer ∨
      ∃ r fs' fds' C', fs.sysOpen fds path flags = .ok (r, fs', fds') ∧ FatOk fs' C' ∧
        (fs.FreeUnused → Keeps C C') := by
  rcases fs.sysOpen_cases h.ffb_cases fds path flags with ⟨code, -, ho⟩ | ⟨-, ho⟩ | ⟨v, fd, -, -, ho⟩
  · exact .inr ⟨_, _, _, C, ho, h, fun _ => .refl C⟩
  · exact .inl ho
  · rcases ho with ⟨file, mode, -, ho⟩ | ⟨i, mode, hnew, ho⟩
    · exact .inr ⟨_, _, _, C, ho, h.opened v file mode, fun _ => .refl C⟩
    · obtain ⟨free, hfree⟩ := h.free_cons hnew.space
      exact .inr ⟨_, _, _, _, ho, (h.create hfree i path).opened v i mode,
        fun hun => h.keeps_create hfree (hun i hnew.free)⟩

lemma FatOk.incRefs {fs : FileSystem} {C : Option FileId → List ℤ} (h : FatOk fs C) (v : FdtId) :
    FatOk (fs.incRefs v) C := by
  unfold FileSystem.incRefs
  simp only
  split
  · next f _ =>
    refine h.congr rfl rfl rfl (fun g => ?_)
    by_cases hg : g = f <;> simp [hg]
  · exact h.congr rfl rfl rfl (fun g => ⟨rfl, rfl, rfl⟩)

lemma FatOk.sysDup {fs : FileSystem} {C : Option FileId → List ℤ} (h : FatOk fs C)
    (fds : Descriptors) (fd : ℤ) : FatOk (fs.sysDup fds fd).2.1 C := by
  unfold FileSystem.sysDup
  split_ifs
  · split
    · exact h
    · split
      · exact h
      · exact h.incRefs _
  · exact h

lemma FatOk.sysClose {fs fs' : FileSystem} {C : Option FileId → List ℤ} (h : FatOk fs C)
    {fds fds' : Descriptors} {fd r : ℤ} (hc : fs.sysClose fds fd = .ok (r, fs', fds')) :
    FatOk fs' C := by
  unfold FileSystem.sysClose at hc
  split_ifs at hc
  · simp only at hc
    split at hc
    · simp only [Except.ok.injEq, Prod.mk.injEq] at hc
      exact hc.2.1 ▸ h
    · split at hc
      · simp at hc
      · next f _ =>
        simp only [Except.ok.injEq, Prod.mk.injEq] at hc
        rw [← hc.2.1]
        refine h.congr rfl rfl rfl (fun g => ?_)
        by_cases hg : g = f <;> simp [hg]
  · simp only [Except.ok.injEq, Prod.mk.injEq] at hc
    exact hc.2.1 ▸ h

lemma FatOk.forkRefs {fs : FileSystem} {C : Option FileId → List ℤ} (h : FatOk fs C)
    (fds : Descriptors) : FatOk (fs.forkRefs fds) C := by
  unfold FileSystem.forkRefs
  generalize List.finRange maxFds = l
  induction l generalizing fs with
  | nil => exact h
  | cons fd l ih =>
    rw [List.foldl_cons]
    refine ih ?_
    split
    · exact h.incRefs _
    · exact h

/-- A read only moves the offset of its open file. -/
lemma FatOk.readLoop (v : FdtId) (f : FileId) (buffer size : ℕ) {C : Option FileId → List ℤ}
    (n : ℕ) : ∀ (i : ℕ) (block0 byte0 : ℤ) {st : FileSystem × Memory}, FatOk st.1 C →
      (FileSystem.readLoop v f buffer size n i block0 byte0 st).Leaves (fun u => FatOk u.1 C) := by
  induction n with
  | zero =>
    intro i block0 byte0 st h
    exact h
  | succ n ih =>
    rintro i block0 byte0 ⟨fs, m⟩ h
    have hoff : FatOk (fs.updFdt v fun w => { w with offset := w.offset + 1 }) C := h.withFdt v _
    simp only [FileSystem.readLoop]
    split_ifs
    all_goals first
      | exact h
      | exact ih _ _ _ hoff

end FileSystem

/-! ## The calls -/

namespace Kernel

open FileSystem

/-- The table of a kernel state is well formed. -/
def TableOk (s : Kernel) : Prop := ∃ C, FatOk s.fs C

/-- From tables `fs` with the chains `C` a call has come to well formed tables, and it has lost no
block unless `create_file` took an entry that has some. -/
def TablesFrom (fs : FileSystem) (C : Option FileId → List ℤ) (t : Kernel) : Prop :=
  ∃ C', FatOk t.fs C' ∧ (fs.FreeUnused → Keeps C C')

section

variable {fs : FileSystem} {C : Option FileId → List ℤ} {s t : Kernel}

lemma TablesFrom.of_sameFiles (s t : Kernel) (h : SameFiles s t) (hs : TablesFrom fs C s) :
    TablesFrom fs C t := by
  obtain ⟨C', hC'⟩ := hs
  exact ⟨C', h.fs.symm ▸ hC'⟩

lemma TablesFrom.same (h : FatOk t.fs C) : TablesFrom fs C t := ⟨C, h, fun _ => .refl C⟩

lemma tables_sysWrite (h : FatOk s.fs C) (fd : ℤ) (buffer : ℕ) (size : ℤ) :
    (s.sysWrite fd buffer size).Leaves (TablesFrom s.fs C) := by
  unfold sysWrite
  split
  · exact .same h
  · split_ifs
    all_goals try exact TablesFrom.same h
    split
    · trivial
    · next f _ =>
      split
      · exact .same h
      · exact Outcome.leaves_lift (fun sc => .same h) _
      · next hw =>
        have hf : s.fs.IsRegular f := (h.ops f).resolve_right (fun h => h.1 hw)
        refine (h.sysWriteFile hf ..).1.lift (fun fs hfs => ?_)
        obtain ⟨C', hC', hkeep⟩ := hfs
        exact ⟨C', hC', fun _ => hkeep⟩

lemma tables_sysRead (h : FatOk s.fs C) (fd : ℤ) (buffer : ℕ) (size : ℤ) :
    (s.sysRead fd buffer size).Leaves (TablesFrom s.fs C) := by
  unfold sysRead
  split
  · exact .same h
  · split_ifs
    all_goals try exact TablesFrom.same h
    simp only
    split
    · trivial
    · split
      · exact .same h
      · refine (sameFiles_sysReadKeyboard ..).imp (fun t ht => ?_)
        exact .same (ht.fs.symm ▸ h)
      · exact (FatOk.readLoop _ _ _ _ _ _ _ _ h).lift (fun st hst => .same hst)

/-- `sys_fork` changes no table but the counts of references, and copies the descriptors of the
running process to the slot it finds, in any state and even when it fails for lack of frames. -/
lemma sysFork_files {s t : Kernel} {r : ℤ} (h : s.sysFork = .ok (r, t)) :
    (t.fs = s.fs ∨ t.fs = s.fs.forkRefs s.current.fileDescriptors) ∧
      ∀ u, (t.task u).fileDescriptors =
        if s.srchFreeTask = some u then s.current.fileDescriptors
        else (s.task u).fileDescriptors := by
  unfold sysFork at h
  split at h
  · next hnone =>
    simp only [Except.ok.injEq, Prod.mk.injEq] at h
    exact ⟨.inl (h.2 ▸ rfl), fun u => by simp [← h.2, hnone]⟩
  · next new hnew =>
    simp only at h
    split at h
    · simp only [Except.ok.injEq, Prod.mk.injEq] at h
      refine ⟨.inl (h.2 ▸ rfl), fun u => ?_⟩
      by_cases hu : u = new
      · subst hu
        simp [← h.2, hnew, updTask, copyTask]
      · simp [← h.2, hnew, updTask, copyTask, hu, Ne.symm hu]
    · split_ifs at h
      simp only [Except.ok.injEq, Prod.mk.injEq] at h
      obtain ⟨-, rfl⟩ := h
      constructor
      · refine .inr ?_
        simp [initChild, updTask, copyTask]
      · intro u
        by_cases hu : u = new
        · subst hu
          simp [hnew, initChild, updTask, copyTask]
        · simp [hnew, initChild, updTask, copyTask, hu, Ne.symm hu]

lemma tables_sysOpen (h : FatOk s.fs C) (addr : ℕ) (path : List Byte) (flags : ℤ) :
    (s.sysOpen addr path flags).Leaves (TablesFrom s.fs C) := by
  refine leaves_sysOpen (.same h) fun r fs fds _ ho => ?_
  rcases h.sysOpen s.current.fileDescriptors path flags with hf | ⟨r', fs', fds', C', hf, hC'⟩
  · simp [hf] at ho
  · simp only [hf, Except.ok.injEq, Prod.mk.injEq] at ho
    obtain ⟨-, rfl, -⟩ := ho
    exact ⟨C', hC'⟩

lemma tables_sysClose (h : FatOk s.fs C) {fd r : ℤ} (ho : s.sysClose fd = .ok (r, t)) :
    TablesFrom s.fs C t := by
  unfold sysClose at ho
  split at ho
  · simp at ho
  · next hc =>
    simp only [Except.ok.injEq, Prod.mk.injEq] at ho
    refine .same ?_
    rw [← ho.2]
    exact h.sysClose hc

lemma tables_sysUnlink (h : FatOk s.fs C) (addr : ℕ) (path : List Byte) :
    (s.sysUnlink addr path).Leaves (TablesFrom s.fs C) := by
  refine leaves_sysUnlink (.same h) fun r fs _ hu => ?_
  obtain ⟨r', fs', C', hf, hC', hkeep⟩ := h.sysUnlink path
  simp only [hf, Except.ok.injEq, Prod.mk.injEq] at hu
  obtain ⟨-, rfl⟩ := hu
  exact ⟨C', hC', fun _ => hkeep⟩

lemma tables_sysFork (h : FatOk s.fs C) {r : ℤ} (ho : s.sysFork = .ok (r, t)) :
    TablesFrom s.fs C t := by
  rcases (sysFork_files ho).1 with hfs | hfs
  · exact .same (hfs.symm ▸ h)
  · exact .same (hfs.symm ▸ h.forkRefs _)

lemma tables_dispatch (h : FatOk s.fs C) (e : Event) :
    (s.dispatch e).Leaves (TablesFrom s.fs C) := by
  have htables : ∀ t u, SameData t u → TablesFrom s.fs C t → TablesFrom s.fs C u :=
    fun t u htu => .of_sameFiles t u htu.toSameFiles
  have henter : (s.enter e.regs).fs = s.fs := (s.sameFiles_enter e.regs).fs
  have h' : FatOk (s.enter e.regs).fs C := henter.symm ▸ h
  by_cases hfile : FileAction e.act
  · unfold dispatch
    cases hact : e.act with
    | write fd buffer size => exact leaves_finish htables (tables_sysWrite h' ..)
    | read fd buffer size => exact leaves_finish htables (tables_sysRead h' ..)
    | «open» addr path flags => exact leaves_finish htables (tables_sysOpen h' ..)
    | close fd => exact leaves_finishExcept htables (fun r t ht => tables_sysClose (s := s.enter e.regs) h' ht)
    | dup fd =>
      refine leaves_finishExcept htables (fun r t ht => ?_)
      simp only [sysDup, Except.ok.injEq, Prod.mk.injEq] at ht
      refine .same ?_
      rw [← ht.2]
      exact h'.sysDup _ _
    | unlink addr path => exact leaves_finish htables (tables_sysUnlink h' ..)
    | fork => exact leaves_finishExcept htables (fun r t ht => tables_sysFork (s := s.enter e.regs) h' ht)
    | _ => simp [hact, FileAction] at hfile
  · exact (s.sameFiles_dispatch e hfile).imp (fun t ht => .same (ht.fs.symm ▸ h))

/-- What a step makes of the table. -/
lemma tables_step {e : Event} (h : FatOk s.fs C) (hst : s.step e = .ok t) : TablesFrom s.fs C t :=
  leaves_step (fun t u htu => .of_sameFiles t u htu.toSameFiles) (tables_dispatch h e) hst

/-- Every step keeps the table well formed. -/
lemma TableOk.step {e : Event} (h : s.TableOk) (hst : s.step e = .ok t) : t.TableOk := by
  obtain ⟨C, hC⟩ := h
  obtain ⟨C', hC', -⟩ := tables_step hC hst
  exact ⟨C', hC'⟩

end

/-- The step that creates a file. -/
lemma dispatch_create {s : Kernel} {e : Event} {addr : ℕ} {path : List Byte} {v : FdtId} {fd : Fd}
    {i : FileId} (hact : e.act = .open addr path (oCreat + oRdwr))
    (hpath : s.mm.PathOk addr path) (hlen : path.length ≤ maxNameLength - 1)
    (hlook : s.fs.lookup path = none) (hv : s.fs.freeFdt = some v)
    (hfd : freeFd s.current.fileDescriptors = some fd) (hi : s.fs.freeDir = some i)
    (hffb : 0 ≤ s.fs.ffb) :
    s.dispatch e = .done (((s.enter e.regs).withFiles
      ((s.fs.popFree.newFile i path s.fs.ffb).opened v i oRdwr)
      (Function.update s.current.fileDescriptors fd (some v))).setEax fd.val) := by
  have hfds : (s.enter e.regs).current.fileDescriptors = s.current.fileDescriptors := by
    simp [enter, current]
  have hopen := sysOpen_create hlen hlook hv hfd hi hffb
  have hpath' : (s.enter e.regs).mm.PathOk addr path := hpath
  rw [dispatch, hact]
  simp only
  rw [sysOpen_of_pathOk hpath', hfds, show (s.enter e.regs).fs = s.fs from rfl, hopen]
  rfl

end Kernel

/-! ## Boot -/

namespace FileSystem

/-- Every block points to the next one, and the last to none. -/
def AllFree (fat : ℤ → ℤ) : Prop :=
  ∀ i : ℤ, 0 ≤ i → i < 80 → fat i = if i < 79 then i + 1 else -1

lemma AllFree.isChain {fat : ℤ → ℤ} (h : AllFree fat) (n : ℕ) :
    ∀ k, k + n = 80 → IsChain fat (-1) (if n = 0 then -1 else (k : ℤ))
      ((List.range' k n).map (fun i : ℕ => (i : ℤ))) := by
  induction n with
  | zero =>
    intro k _
    exact isChain_nil.mpr (if_pos rfl)
  | succ n ih =>
    intro k hk
    have hnext : fat k = if n = 0 then -1 else ((k + 1 : ℕ) : ℤ) := by
      rw [h k (by omega) (by omega)]
      split_ifs <;> omega
    rw [List.range'_succ, List.map_cons, isChain_cons, hnext, if_neg (Nat.succ_ne_zero n)]
    exact ⟨rfl, by omega, ih (k + 1) (by omega)⟩

/-- The chains when every block is free. -/
def freeChains : Option FileId → List ℤ := fun k =>
  if k = none then (List.range' 0 maxBlocks).map (fun i : ℕ => (i : ℤ)) else []

/-- After `init_filesystem` every block is free and no entry is a regular file. -/
lemma fatOk_init (fs : FileSystem) (hffb : fs.ffb = 0) (hfat : AllFree fs.fat)
    (hops : ∀ f, (fs.ops f).sysWriteDev ≠ .sysWriteFile ∧ (fs.ops f).sysReleaseDev = .null) :
    FatOk fs freeChains := by
  unfold freeChains
  have hreg : ∀ f, ¬ fs.IsRegular f := by
    intro f hf
    refine (hops f).1 ?_
    rw [show fs.ops f = fileOps from hf]
    rfl
  refine ⟨⟨?_, ?_, ?_⟩, ?_, fun f hf => absurd hf (hreg f), fun f => .inr (hops f)⟩
  · intro k
    cases k with
    | none =>
      rw [if_pos rfl, heads_none, hffb]
      exact hfat.isChain maxBlocks 0 (Nat.zero_add _)
    | some f =>
      rw [if_neg (by simp), heads_not_regular (hreg f)]
      exact isChain_nil.mpr rfl
  · intro k
    split_ifs
    · exact (List.nodup_range' ..).map Nat.cast_injective
    · exact List.nodup_nil
  · intro k l hkl
    split_ifs with hk hl
    · exact absurd (hk.trans hl.symm) hkl
    · simp
    · simp
    · simp
  · intro k b hb
    split_ifs at hb
    · simp only [List.mem_map, List.mem_range'_1] at hb
      obtain ⟨i, hi, rfl⟩ := hb
      exact ⟨Int.natCast_nonneg i, by exact_mod_cast (by omega : i < maxBlocks)⟩
    · simp at hb

end FileSystem

namespace Env

variable (E : Env)

/-- At boot no entry has the routines of a file. -/
lemma boot_ops (f : FileId) : (E.boot.fs.ops f).sysWriteDev ≠ .sysWriteFile ∧
    (E.boot.fs.ops f).sysReleaseDev = .null := by
  have hops : E.boot.fs.ops f = if f = 1 then
      { FileSystem.noOps with sysWriteDev := .sysWriteConsole }
    else if f = 0 then { FileSystem.noOps with sysReadDev := .sysReadKeyboard }
    else FileSystem.noOps := by
    change Function.update (Function.update _ 0 _) 1 _ f = _
    simp only [Function.update_apply]
    rfl
  rw [hops]
  split_ifs <;> decide

lemma boot_fatOk : FileSystem.FatOk E.boot.fs FileSystem.freeChains := by
  refine FileSystem.fatOk_init _ rfl ?_ E.boot_ops
  intro i h0 h80
  change (if 0 ≤ i ∧ i < 80 - 1 then i + 1 else if i = 80 - 1 then -1 else E.fat i) = _
  split_ifs <;> omega

lemma boot_tableOk : E.boot.TableOk := ⟨_, E.boot_fatOk⟩

lemma boot_not_regular (f : FileId) : ¬ E.boot.fs.IsRegular f := by
  intro hf
  refine (E.boot_ops f).1 ?_
  rw [show E.boot.fs.ops f = FileSystem.fileOps from hf]
  rfl

end Env

end ZeOS
