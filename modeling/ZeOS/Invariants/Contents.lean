import ZeOS.Invariants.Fat
import ZeOS.Library.Blocks

/-!
# The contents of files

`contents fs f` are the bytes of a file, found as a reader finds them: byte `k` is at position
`k % BLOCK_SIZE` of the block that is `k / BLOCK_SIZE` links from `first_block`.  The writer
gets there in another way, from the last block of the chain and the size of the file.

`sysWriteFile_append` says that a write at the end of a file whose blocks are all in use
appends exactly the bytes of the user buffer, whatever the split into blocks, and
`sysReadFile_next` that a read delivers the bytes that follow its offset.
-/

namespace ZeOS

open LinkChain BlockData

namespace FileSystem

/-- The bytes of a file. -/
def contents (fs : FileSystem) (f : FileId) : List Byte :=
  (List.range (fs.dir f).size.toNat).map fun k =>
    fs.disk (fs.fat^[k / blockSize] (fs.dir f).firstBlock * blockSize + (k % blockSize : ℕ))

section

variable {fs : FileSystem} {C : Option FileId → List ℤ} {f g : FileId}

lemma FatOk.fits (h : FatOk fs C) (hf : fs.IsRegular f) :
    Fits blockSize (C (some f)) (fs.dir f).size.toNat := by
  obtain ⟨-, hn, hpos, hle⟩ := h.regular f hf
  rw [hn] at hle
  have : (fs.dir f).size.toNat ≤ ((blockSize * (C (some f)).length : ℕ) : ℤ) := by
    rw [Int.toNat_of_nonneg hpos]
    push_cast
    exact hle
  exact_mod_cast this

/-- The block of a byte, as a reader finds it. -/
lemma FatOk.iterate_eq (h : FatOk fs C) (hf : fs.IsRegular f) {j : ℕ}
    (hj : j < (C (some f)).length) :
    fs.fat^[j] (fs.dir f).firstBlock = (C (some f)).getD j 0 := by
  have hc := h.chains.chain (some f)
  rw [heads_regular hf] at hc
  rw [List.getD_eq_getElem?_getD, hc.iterate_eq hj]
  rfl

lemma FatOk.contents_eq (h : FatOk fs C) (hf : fs.IsRegular f) :
    fs.contents f = stored blockSize fs.disk (C (some f)) (fs.dir f).size.toNat := by
  refine List.map_congr_left (fun k hk => ?_)
  have hdiv := (h.fits hf).div_lt (by decide) (List.mem_range.mp hk)
  rw [h.iterate_eq hf hdiv]
  rfl

/-- A new block at the end of a file holds none of its bytes yet. -/
lemma FatOk.contents_grown (h : FatOk fs C) (hf : fs.IsRegular f) {xs free : List ℤ} {l : ℤ}
    (hl : C (some f) = xs ++ [l]) (hfree : C none = fs.ffb :: free) (hg : fs.IsRegular g) :
    (fs.grown f l).contents g = fs.contents g := by
  have hgrown := h.grown hf hl hfree
  rw [hgrown.contents_eq hg, h.contents_eq hg]
  have hdir : ((fs.grown f l).dir g).size = (fs.dir g).size := by
    by_cases hgf : g = f
    · rw [hgf, grown_dir]
    · rw [grown_dir_of_ne fs hgf]
  rw [hdir]
  refine stored_congr (fun k hk => ?_)
  have hdiv := (h.fits hg).div_lt (by decide) hk
  have haddr : addr blockSize (fs.grownChains C f free (some g)) k = addr blockSize (C (some g)) k := by
    by_cases hgf : g = f
    · subst hgf
      rw [grownChains, Function.update_self]
      exact addr_append hdiv
    · rw [grownChains, Function.update_of_ne (by simpa using hgf), Function.update_of_ne (by simp)]
  rw [haddr]
  rfl

/-! ## Storing one byte -/

/-- A byte stored behind the last one, with the offset at the end of the file. -/
def storeByte (fs : FileSystem) (v : FdtId) (f : FileId) (a : ℤ) (b : Byte) : FileSystem :=
  (fs.setDisk a b).advance v f

lemma storeByte_dir {v : FdtId} {a : ℤ} {b : Byte} (hoff : (fs.fdt v).offset = (fs.dir f).size) :
    (fs.storeByte v f a b).dir = Function.update fs.dir f
      { fs.dir f with size := (fs.dir f).size + 1 } := by
  have hlt : (fs.dir f).size < (fs.fdt v).offset + 1 := by omega
  simp [storeByte, advance, setDisk, updFdt, updDir, hlt]

/-- Storing the next byte of a file appends it to that file and to no other. -/
lemma FatOk.storeByte (h : FatOk fs C) (hf : fs.IsRegular f) {v : FdtId} {n : ℕ} {b : Byte}
    (hsize : (fs.dir f).size = n) (hoff : (fs.fdt v).offset = n)
    (hroom : (fs.dir f).size < blockSize * (fs.dir f).nBlocks) :
    FatOk (fs.storeByte v f (addr blockSize (C (some f)) n) b) C ∧
      (fs.storeByte v f (addr blockSize (C (some f)) n) b).contents f = fs.contents f ++ [b] ∧
      ∀ g, g ≠ f → fs.IsRegular g →
        (fs.storeByte v f (addr blockSize (C (some f)) n) b).contents g = fs.contents g := by
  have hok : FatOk (fs.storeByte v f (addr blockSize (C (some f)) n) b) C :=
    (h.withDisk ..).advance hroom v
  have hreg : ∀ g, (fs.storeByte v f (addr blockSize (C (some f)) n) b).IsRegular g ↔
      fs.IsRegular g := fun g => isRegular_advance
  have hdir := storeByte_dir (a := addr blockSize (C (some f)) n) (b := b) (hoff.trans hsize.symm)
  have hcells : (fs.storeByte v f (addr blockSize (C (some f)) n) b).disk =
      Function.update fs.disk (addr blockSize (C (some f)) n) b := by
    unfold FileSystem.storeByte FileSystem.advance
    simp only
    split_ifs <;> rfl
  have hfits : Fits blockSize (C (some f)) (n + 1) := by
    have := hok.fits ((hreg f).mpr hf)
    rwa [hdir, Function.update_self, hsize, Int.toNat_natCast_add_one] at this
  have hn : n / blockSize < (C (some f)).length := hfits.div_lt (by decide) (Nat.lt_succ_self n)
  refine ⟨hok, ?_, fun g hgf hg => ?_⟩
  · rw [hok.contents_eq ((hreg f).mpr hf), h.contents_eq hf, hcells, hdir, Function.update_self,
      hsize, Int.toNat_natCast_add_one, Int.toNat_natCast]
    exact stored_write (by decide) (h.chains.nodup _) b hfits
  · rw [hok.contents_eq ((hreg g).mpr hg), h.contents_eq hg, hcells, hdir,
      Function.update_of_ne hgf]
    exact stored_write_other (by decide) (h.chains.disjoint _ _ (by simpa using hgf)) b (h.fits hg) hn

/-! ## Appending -/

/-- The number of blocks of a file of `n` bytes that was only ever appended to. -/
def blocksFor (n : ℕ) : ℕ := max 1 ((n + 255) / 256)

/-- The open file `v` stands at the end of file `f`, which has `n` bytes and no block that it
does not need. -/
structure AtEnd (fs : FileSystem) (C : Option FileId → List ℤ) (v : FdtId) (f : FileId) (n : ℕ) :
    Prop where
  fat : FatOk fs C
  regular : fs.IsRegular f
  size : (fs.dir f).size = n
  offset : (fs.fdt v).offset = n
  tight : (C (some f)).length = blocksFor n

/-- What a write changes besides the contents: the offset of its open file, and the size and
the blocks of its file. -/
structure Rewrites (v : FdtId) (f : FileId) (fs fs' : FileSystem) : Prop where
  ops : fs'.ops = fs.ops
  fdt : ∀ w, fs'.fdt w = if w = v then { fs.fdt w with offset := (fs'.fdt w).offset } else fs.fdt w
  name : ∀ g, (fs'.dir g).name = (fs.dir g).name
  allow : ∀ g, (fs'.dir g).accessModeAllow = (fs.dir g).accessModeAllow
  nRefs : ∀ g, (fs'.dir g).nRefs = (fs.dir g).nRefs
  dir : ∀ g, g ≠ f → fs'.dir g = fs.dir g

namespace Rewrites

lemma refl (v : FdtId) (f : FileId) (fs : FileSystem) : Rewrites v f fs fs := by
  refine ⟨rfl, fun w => ?_, fun _ => rfl, fun _ => rfl, fun _ => rfl, fun _ _ => rfl⟩
  split_ifs <;> rfl

lemma trans {v : FdtId} {f : FileId} {fs fs' fs'' : FileSystem} (h : Rewrites v f fs fs')
    (h' : Rewrites v f fs' fs'') : Rewrites v f fs fs'' := by
  refine ⟨h'.ops.trans h.ops, fun w => ?_, fun g => (h'.name g).trans (h.name g),
    fun g => (h'.allow g).trans (h.allow g), fun g => (h'.nRefs g).trans (h.nRefs g),
    fun g hg => (h'.dir g hg).trans (h.dir g hg)⟩
  have h₁ := h.fdt w
  have h₂ := h'.fdt w
  split_ifs at h₁ h₂ ⊢
  · rw [h₂, h₁]
  · rw [h₂, h₁]

lemma isRegular {v : FdtId} {f : FileId} {fs fs' : FileSystem} (h : Rewrites v f fs fs') (g : FileId) :
    fs'.IsRegular g ↔ fs.IsRegular g := by
  rw [IsRegular, h.ops]

lemma fdt_of_ne {v w : FdtId} {f : FileId} {fs fs' : FileSystem} (h : Rewrites v f fs fs')
    (hw : w ≠ v) : fs'.fdt w = fs.fdt w := by
  rw [h.fdt, if_neg hw]

lemma refs {v : FdtId} {f : FileId} {fs fs' : FileSystem} (h : Rewrites v f fs fs') (w : FdtId) :
    (fs'.fdt w).refs = (fs.fdt w).refs := by
  rw [h.fdt]
  split_ifs <;> rfl

lemma grown (v : FdtId) (fs : FileSystem) (f : FileId) (l : ℤ) :
    Rewrites v f fs (fs.grown f l) := by
  have hdir : ∀ g, ((fs.grown f l).dir g).name = (fs.dir g).name ∧
      ((fs.grown f l).dir g).accessModeAllow = (fs.dir g).accessModeAllow ∧
      ((fs.grown f l).dir g).nRefs = (fs.dir g).nRefs := by
    intro g
    by_cases hg : g = f
    · rw [hg, grown_dir]
      exact ⟨rfl, rfl, rfl⟩
    · rw [grown_dir_of_ne fs hg]
      exact ⟨rfl, rfl, rfl⟩
  refine ⟨rfl, fun w => ?_, fun g => (hdir g).1, fun g => (hdir g).2.1, fun g => (hdir g).2.2,
    fun g hg => grown_dir_of_ne fs hg l⟩
  split_ifs <;> rfl

lemma storeByte (v : FdtId) (fs : FileSystem) (f : FileId) (a : ℤ) (b : Byte)
    (hoff : (fs.fdt v).offset = (fs.dir f).size) : Rewrites v f fs (fs.storeByte v f a b) := by
  have hdir := storeByte_dir (a := a) (b := b) hoff
  have hfdt : (fs.storeByte v f a b).fdt =
      Function.update fs.fdt v { fs.fdt v with offset := (fs.fdt v).offset + 1 } := by
    unfold FileSystem.storeByte FileSystem.advance
    simp only
    split_ifs <;> rfl
  refine ⟨?_, fun w => ?_, ?_, ?_, ?_, fun g hg => ?_⟩
  · unfold FileSystem.storeByte FileSystem.advance
    simp only
    split_ifs <;> rfl
  rotate_right
  · rw [hdir, Function.update_of_ne hg]
  · rw [hfdt]
    by_cases hw : w = v
    · subst hw
      simp
    · simp [hw]
  all_goals
    intro g
    rw [hdir]
    by_cases hg : g = f
    · subst hg
      simp
    · simp [hg]

end Rewrites

lemma storeByte_offset (fs : FileSystem) (v : FdtId) (f : FileId) (a : ℤ) (b : Byte) :
    ((fs.storeByte v f a b).fdt v).offset = (fs.fdt v).offset + 1 := by
  unfold FileSystem.storeByte FileSystem.advance
  simp only
  split_ifs <;> simp [setDisk]

lemma storeByte_size (fs : FileSystem) (v : FdtId) (f : FileId) (a : ℤ) (b : Byte) :
    ((fs.storeByte v f a b).dir f).size =
      if (fs.dir f).size < (fs.fdt v).offset + 1 then (fs.dir f).size + 1 else (fs.dir f).size := by
  unfold FileSystem.storeByte FileSystem.advance
  simp only [updFdt, setDisk, Function.update_self]
  split_ifs
  · simp
  · rfl

lemma storeByte_disk (fs : FileSystem) (v : FdtId) (f : FileId) (a : ℤ) (b : Byte) :
    (fs.storeByte v f a b).disk = Function.update fs.disk a b := by
  unfold FileSystem.storeByte FileSystem.advance
  simp only
  split_ifs <;> rfl

/-- The bytes of user memory from an address on. -/
def userBytes (m : Memory) (buffer n : ℕ) : List Byte :=
  (List.range n).map fun k => m.load (buffer + k)

lemma userBytes_succ (m : Memory) (buffer n : ℕ) :
    userBytes m buffer (n + 1) = m.load buffer :: userBytes m (buffer + 1) n := by
  rw [userBytes, List.range_succ_eq_map, List.map_cons, List.map_map, userBytes]
  refine congrArg₂ _ rfl (List.map_congr_left (fun k _ => ?_))
  simp only [Function.comp_apply]
  congr 1
  omega

lemma userBytes_snoc (m : Memory) (buffer n : ℕ) :
    userBytes m buffer (n + 1) = userBytes m buffer n ++ [m.load (buffer + n)] := by
  simp [userBytes, List.range_succ]

@[simp] lemma length_userBytes (m : Memory) (buffer n : ℕ) : (userBytes m buffer n).length = n := by
  simp [userBytes]

lemma blocksFor_succ (n : ℕ) :
    blocksFor (n + 1) = blocksFor n + if n % 256 = 0 ∧ n ≠ 0 then 1 else 0 := by
  unfold blocksFor
  split_ifs <;> omega

lemma AtEnd.needsBlock_iff {v : FdtId} {n : ℕ} (h : AtEnd fs C v f n) :
    fs.NeedsBlock f ↔ n % 256 = 0 ∧ n ≠ 0 := by
  rw [NeedsBlock, h.size]
  change (n : ℤ) % 256 = 0 ∧ (n : ℤ) ≠ 0 ↔ _
  omega

/-- Without a new block, the next byte goes into the last block of the file. -/
lemma AtEnd.addr_last {v : FdtId} {n : ℕ} (h : AtEnd fs C v f n) (hn : ¬ (n % 256 = 0 ∧ n ≠ 0))
    {xs : List ℤ} {b : ℤ} (hb : C (some f) = xs ++ [b]) :
    addr blockSize (C (some f)) n = b * blockSize + (n % 256 : ℕ) := by
  have hlen := h.tight
  rw [hb, List.length_append, List.length_singleton] at hlen
  have hdiv : n / 256 = xs.length := by
    unfold blocksFor at hlen
    omega
  change (C (some f)).getD (n / 256) 0 * blockSize + (n % 256 : ℕ) = _
  rw [hb, hdiv, List.getD_append_right _ _ _ _ (le_refl _)]
  simp

/-- One turn of the byte loop after its head stores the byte behind the last one. -/
lemma FatOk.writeByte_eq (h : FatOk fs C) (m : Memory) (v : FdtId)
    (buffer n i : ℕ) {k : ℕ} {b y : ℤ} (hb : b ∈ C (some f)) (hy : y = (k % 256 : ℕ))
    (hp : m.present (buffer + i) = true) :
    writeByte m v f buffer n i b y fs =
      FileSystem.writeLoop m v f buffer n (i + 1) b (y + 1)
        (fs.storeByte v f (b * blockSize + (k % 256 : ℕ)) (m.load (buffer + i))) := by
  have ha : 0 ≤ b * blockSize + y ∧ b * blockSize + y < maxBlocks * blockSize :=
    h.cell_range hb (by omega) (by show y < 256; omega)
  rw [writeByte, if_pos hp, if_pos ha, hy]
  rfl

/-- The code returns `r` after it has appended `n` bytes of user memory to file `f`, which had
`k` bytes, and to no other. -/
def Appends (m : Memory) (v : FdtId) (f : FileId) (buffer n k r : ℕ) (fs : FileSystem)
    (o : Outcome FileSystem ℤ) : Prop :=
  ∃ fs' C', o = .ret r fs' ∧ AtEnd fs' C' v f (k + n) ∧ Rewrites v f fs fs' ∧
    fs'.contents f = fs.contents f ++ userBytes m buffer n ∧
    ∀ g, g ≠ f → fs.IsRegular g → fs'.contents g = fs.contents g

/-- One turn of the byte loop and the turns after it, from the state after its head: there is
room for byte `k` in the last block. -/
lemma writeByte_append {m : Memory} {v : FdtId} {buffer n i k : ℕ} {xs : List ℤ} {b : ℤ}
    (hrest : ∀ fs', AtEnd fs' C v f (k + 1) → Appends m v f (buffer + (i + 1)) n (k + 1) (i + 1 + n)
      fs' (writeLoop m v f buffer n (i + 1) b ((k % 256 : ℕ) + 1) fs'))
    (h : FatOk fs C) (hf : fs.IsRegular f) (hsize : (fs.dir f).size = k)
    (hoff : (fs.fdt v).offset = k) (hlen : (C (some f)).length = blocksFor (k + 1))
    (hb : C (some f) = xs ++ [b])
    (haddr : addr blockSize (C (some f)) k = b * blockSize + (k % 256 : ℕ))
    (hroom : (fs.dir f).size < blockSize * (fs.dir f).nBlocks)
    (hp : m.present (buffer + i) = true) :
    Appends m v f (buffer + i) (n + 1) k (i + (n + 1)) fs
      (writeByte m v f buffer n i b (k % 256 : ℕ) fs) := by
  obtain ⟨hok, hcont, hother⟩ := h.storeByte (b := m.load (buffer + i)) hf hsize hoff hroom
  have hrew := Rewrites.storeByte v fs f (addr blockSize (C (some f)) k)
    (m.load (buffer + i)) (hoff.trans hsize.symm)
  rw [h.writeByte_eq m v buffer n i (by simp [hb]) rfl hp, ← haddr]
  have hend : AtEnd (fs.storeByte v f (addr blockSize (C (some f)) k) (m.load (buffer + i)))
      C v f (k + 1) := by
    refine ⟨hok, isRegular_advance.mpr hf, ?_, ?_, hlen⟩
    · rw [storeByte_dir (hoff.trans hsize.symm), Function.update_self, hsize]
      push_cast
      rfl
    · rw [storeByte_offset, hoff]
      push_cast
      rfl
  obtain ⟨fs', C', hloop, hend', hrew', hcont', hother'⟩ := hrest _ hend
  refine ⟨fs', C', ?_, ?_, hrew.trans hrew', ?_, fun g hg hgr => ?_⟩
  · rw [hloop, Nat.add_assoc i 1 n, Nat.add_comm 1 n]
  · rwa [show k + (n + 1) = k + 1 + n by omega]
  · rw [hcont', hcont, userBytes_succ, List.append_assoc, List.singleton_append]
    rfl
  · rw [hother' g hg (isRegular_advance.mpr hgr), hother g hg hgr]

/-- A write at the end of a file appends the bytes of the buffer, when there are blocks for
them. -/
lemma writeLoop_append (m : Memory) (v : FdtId) (f : FileId) (buffer : ℕ) (n : ℕ) :
    ∀ {fs : FileSystem} {C : Option FileId → List ℤ} {i k : ℕ} {xs : List ℤ} {b y : ℤ},
      AtEnd fs C v f k → C (some f) = xs ++ [b] →
      (¬ (k % 256 = 0 ∧ k ≠ 0) → y = (k % 256 : ℕ)) →
      blocksFor (k + n) ≤ blocksFor k + (C none).length →
      (∀ j < n, m.present (buffer + i + j) = true) →
      Appends m v f (buffer + i) n k (i + n) fs (writeLoop m v f buffer n i b y fs) := by
  induction n with
  | zero =>
    intro fs C i k xs b y h _ _ _ _
    exact ⟨fs, C, rfl, h, .refl v f fs, by simp [userBytes], fun g _ _ => rfl⟩
  | succ n ih =>
    intro fs C i k xs b y h hb hy hfree hp
    -- the turns after this one, which leaves `k + 1` bytes
    have hrest : ∀ {C₁ : Option FileId → List ℤ} {xs₁ : List ℤ} {b₁ : ℤ},
        C₁ (some f) = xs₁ ++ [b₁] →
        blocksFor (k + 1 + n) ≤ blocksFor (k + 1) + (C₁ none).length →
        ∀ fs', AtEnd fs' C₁ v f (k + 1) → Appends m v f (buffer + (i + 1)) n (k + 1) (i + 1 + n)
          fs' (writeLoop m v f buffer n (i + 1) b₁ ((k % 256 : ℕ) + 1) fs') := by
      intro C₁ xs₁ b₁ hb₁ hfree₁ fs' hend
      refine ih hend hb₁ (fun hno => ?_) hfree₁ (fun j hj => ?_)
      · omega
      · have := hp (j + 1) (by omega)
        rwa [show buffer + (i + 1) + j = buffer + i + (j + 1) by omega]
    have hp₀ : m.present (buffer + i) = true := hp 0 (Nat.succ_pos n)
    have hsucc := blocksFor_succ k
    rw [show k + (n + 1) = k + 1 + n by omega] at hfree
    rw [writeLoop_succ]
    by_cases hneed : k % 256 = 0 ∧ k ≠ 0
    · -- the byte takes the first free block
      rw [if_pos (h.needsBlock_iff.mpr hneed)]
      rw [if_pos hneed] at hsucc
      have hmono : blocksFor (k + 1) ≤ blocksFor (k + 1 + n) := by
        unfold blocksFor
        omega
      have hffb : fs.ffb ≠ -1 := by
        intro hffb
        rw [h.fat.free_nil_iff.mpr hffb, List.length_nil] at hfree
        omega
      rw [if_neg hffb]
      obtain ⟨free, hC⟩ := h.fat.free_cons hffb
      have hblocks : fs.grownChains C f free (some f) = C (some f) ++ [fs.ffb] :=
        Function.update_self ..
      have hfree₁ : blocksFor (k + 1 + n) ≤
          blocksFor (k + 1) + (fs.grownChains C f free none).length := by
        rw [grownChains, Function.update_of_ne (by simp), Function.update_self, hsucc]
        rw [hC, List.length_cons] at hfree
        omega
      have hlen : (fs.grownChains C f free (some f)).length = blocksFor (k + 1) := by
        rw [hblocks, List.length_append, h.tight, hsucc]
        rfl
      have haddr : addr blockSize (fs.grownChains C f free (some f)) k =
          fs.ffb * blockSize + (k % 256 : ℕ) := by
        have hdiv : k / 256 = (C (some f)).length := by
          rw [h.tight]
          unfold blocksFor
          omega
        rw [hblocks]
        change (C (some f) ++ [fs.ffb]).getD (k / 256) 0 * blockSize + (k % 256 : ℕ) = _
        rw [hdiv, List.getD_append_right _ _ _ _ (le_refl _)]
        simp
      have hcont : ∀ g, fs.IsRegular g → (fs.grown f b).contents g = fs.contents g :=
        fun g hg => h.fat.contents_grown h.regular hb hC hg
      have hbyte := writeByte_append (hrest hblocks hfree₁) (h.fat.grown h.regular hb hC) h.regular
        (by rw [grown_dir]; exact h.size) h.offset hlen hblocks haddr (h.fat.room_grown h.regular b)
        hp₀
      obtain ⟨fs', C', hloop, hend, hrew, hcont', hother⟩ := hbyte
      rw [show ((k % 256 : ℕ) : ℤ) = 0 by rw [hneed.1]; rfl] at hloop
      refine ⟨fs', C', hloop, hend, (Rewrites.grown v fs f b).trans hrew, ?_, fun g hg hgr => ?_⟩
      · rw [hcont', hcont f h.regular]
      · rw [hother g hg hgr, hcont g hgr]
    · have hroom : ¬ fs.NeedsBlock f := fun hn => hneed (h.needsBlock_iff.mp hn)
      rw [if_neg hneed, Nat.add_zero] at hsucc
      rw [if_neg hroom, hy hneed]
      exact writeByte_append (hrest hb (by rwa [hsucc])) h.fat h.regular h.size h.offset
        (h.tight.trans hsucc.symm) hb (h.addr_last hneed hb)
        (h.fat.room_of_not_needsBlock h.regular hroom) hp₀

/-- `sys_write_file` through the open file at the end. -/
lemma AtEnd.sysWriteFile {v : FdtId} {k n : ℕ} (h : AtEnd fs C v f k) (m : Memory) (buffer : ℕ)
    (hfree : blocksFor (k + n) ≤ blocksFor k + (C none).length)
    (hp : ∀ j < n, m.present (buffer + j) = true) :
    Appends m v f buffer n k n fs (fs.sysWriteFile m v f buffer n) := by
  obtain ⟨xs, b, hb⟩ := h.fat.last h.regular
  rw [FileSystem.sysWriteFile, h.fat.walkLast_eq h.regular hb]
  have hloop := writeLoop_append m v f buffer n (i := 0) (y := (fs.fdt v).offset % blockSize) h hb
    (fun _ => by rw [h.offset]; rfl) hfree hp
  rwa [Nat.zero_add] at hloop

end

end FileSystem

/-! ## User memory -/

namespace Memory

/-- The bytes of a list stored one after the other. -/
def storeAll : ℕ → List Byte → Memory → Memory
  | _, [], m => m
  | dest, b :: bs, m => storeAll (dest + 1) bs (m.store dest b)

lemma storeAll_table (bs : List Byte) :
    ∀ (dest : ℕ) (m : Memory), (storeAll dest bs m).pagusrTable = m.pagusrTable := by
  induction bs with
  | nil =>
    intro dest m
    rfl
  | cons b bs ih =>
    intro dest m
    rw [storeAll, ih]
    rfl

/-- A user buffer: its bytes are mapped, to different bytes of memory. -/
structure ValidBuffer (m : Memory) (buffer n : ℕ) : Prop where
  present : ∀ j < n, m.present (buffer + j) = true
  distinct : ∀ j < n, ∀ k < n, m.frameOf (buffer + j) = m.frameOf (buffer + k) →
    (buffer + j) % pageSize = (buffer + k) % pageSize → j = k

lemma ValidBuffer.load_store {m : Memory} {buffer n : ℕ} (h : m.ValidBuffer buffer n) {j k : ℕ}
    (hj : j < n) (hk : k < n) (hjk : j ≠ k) (b : Byte) :
    (m.store (buffer + k) b).load (buffer + j) = m.load (buffer + j) := by
  refine load_store_of_ne m b ?_
  by_contra hno
  push Not at hno
  exact hjk (h.distinct j hj k hk hno.1 hno.2)

lemma ValidBuffer.congr {m m' : Memory} {buffer n : ℕ} (h : m.ValidBuffer buffer n)
    (hsame : SamePages m m') : m'.ValidBuffer buffer n := by
  refine ⟨fun j hj => ?_, fun j hj k hk hf hm => ?_⟩
  · rw [hsame.present]
    exact h.present j hj
  · rw [hsame.frameOf, hsame.frameOf] at hf
    exact h.distinct j hj k hk hf hm

/-- A part of a user buffer. -/
lemma ValidBuffer.part {m : Memory} {buffer n o k : ℕ} (h : m.ValidBuffer buffer n)
    (hk : o + k ≤ n) : m.ValidBuffer (buffer + o) k := by
  refine ⟨fun j hj => ?_, fun j hj l hl hf hm => ?_⟩
  · rw [Nat.add_assoc]
    exact h.present (o + j) (by omega)
  · rw [Nat.add_assoc, Nat.add_assoc] at hf hm
    have := h.distinct (o + j) (by omega) (o + l) (by omega) hf hm
    omega

/-! ## Copies to user memory -/

lemma copyBytes_of_present (bs : List Byte) :
    ∀ (m : Memory) (dest : ℕ), (∀ j < bs.length, m.present (dest + j) = true) →
      m.copyBytes dest bs = .ret 0 (storeAll dest bs m) := by
  induction bs with
  | nil =>
    intro m dest _
    rfl
  | cons b bs ih =>
    intro m dest hp
    have h0 : m.present dest = true := hp 0 (by simp)
    rw [copyBytes, if_pos h0, storeAll]
    refine ih _ _ fun j hj => ?_
    rw [Nat.add_assoc, Nat.add_comm 1 j]
    exact hp (j + 1) (by simpa using hj)

/-- A copy to pages that are present stores every byte. -/
lemma copyToUser_of_present (m : Memory) (dest : ℕ) (bs : List Byte)
    (hp : ∀ j < bs.length, m.present (dest + j) = true) :
    m.copyToUser dest bs = .ret 0 (storeAll dest bs m) := by
  induction m, dest, bs using copyToUser.induct with
  | case1 m dest b₀ b₁ b₂ b₃ b₄ bs hword ih =>
    rw [copyToUser, if_pos hword]
    refine ih fun j hj => ?_
    rw [Nat.add_assoc, Nat.add_comm 4 j]
    exact hp (j + 4) (by simpa using hj)
  | case2 m dest b₀ b₁ b₂ b₃ b₄ bs hword =>
    refine absurd ?_ hword
    rw [Bool.and_eq_true]
    exact ⟨hp 0 (by simp), hp 3 (by simp)⟩
  | case3 m dest bs hbs =>
    rw [copyToUser.eq_2 _ _ _ hbs]
    exact copyBytes_of_present bs m dest hp

/-- A byte of a frame that nothing is stored to. -/
lemma storeAll_frame_of_ne {f x : ℕ} (bs : List Byte) :
    ∀ {m : Memory} {dest : ℕ}, (∀ k < bs.length, f ≠ m.frameOf (dest + k) ∨
        x ≠ (dest + k) % pageSize) → (storeAll dest bs m).frame f x = m.frame f x := by
  induction bs with
  | nil =>
    intro m dest _
    rfl
  | cons b bs ih =>
    intro m dest h
    rw [storeAll, ih]
    · rcases h 0 (by simp) with hf | hx
      · exact congrFun (Function.update_of_ne hf _ _) x
      · by_cases hf : f = m.frameOf dest
        · subst hf
          show Function.update m.frame _ _ _ x = _
          rw [Function.update_self]
          exact Function.update_of_ne hx _ _
        · exact congrFun (Function.update_of_ne hf _ _) x
    · intro k hk
      rw [Nat.add_assoc, Nat.add_comm 1 k]
      exact h (k + 1) (by simpa using hk)

/-- A byte of memory that nothing is stored to. -/
lemma load_storeAll_of_ne {a : ℕ} (bs : List Byte) {m : Memory} {dest : ℕ}
    (h : ∀ k < bs.length, m.frameOf a ≠ m.frameOf (dest + k) ∨
      a % pageSize ≠ (dest + k) % pageSize) : (storeAll dest bs m).load a = m.load a := by
  rw [load, frameOf, storeAll_table]
  exact storeAll_frame_of_ne bs h

/-- A byte of a buffer outside the part that is stored. -/
lemma ValidBuffer.load_storeAll_of_lt {m : Memory} {buffer n o j : ℕ} (h : m.ValidBuffer buffer n)
    {bs : List Byte} (hbs : o + bs.length ≤ n) (hj : j < o) :
    (storeAll (buffer + o) bs m).load (buffer + j) = m.load (buffer + j) := by
  refine load_storeAll_of_ne bs fun k hk => ?_
  by_contra hno
  push Not at hno
  rw [Nat.add_assoc] at hno
  have := h.distinct j (by omega) (o + k) (by omega) hno.1 hno.2
  omega

/-- The bytes of a buffer that has been stored. -/
lemma load_storeAll (bs : List Byte) :
    ∀ {m : Memory} {dest : ℕ}, m.ValidBuffer dest bs.length →
      ∀ j (hj : j < bs.length), (storeAll dest bs m).load (dest + j) = bs[j] := by
  induction bs with
  | nil =>
    intro m dest _ j hj
    simp at hj
  | cons b bs ih =>
    intro m dest hv j hj
    have hsame : SamePages m (m.store dest b) := m.samePages_store (hv.present 0 (by simp)) b
    rw [storeAll]
    cases j with
    | zero =>
      rw [load_storeAll_of_ne]
      · simp
      · intro k hk
        by_contra hno
        push Not at hno
        have := hv.distinct 0 (by simp) (k + 1) (by simpa using hk)
          (by rw [← Nat.add_assoc, Nat.add_right_comm]; exact hno.1)
          (by rw [← Nat.add_assoc, Nat.add_right_comm]; exact hno.2)
        omega
    | succ j =>
      have hrest : (m.store dest b).ValidBuffer (dest + 1) bs.length := by
        refine ⟨fun k hk => ?_, fun k hk l hl hf hm => ?_⟩
        · rw [hsame.present, Nat.add_assoc, Nat.add_comm 1 k]
          exact hv.present (k + 1) (by simpa using hk)
        · rw [hsame.frameOf, hsame.frameOf, Nat.add_assoc, Nat.add_assoc, Nat.add_comm 1 k,
            Nat.add_comm 1 l] at hf
          rw [Nat.add_assoc, Nat.add_assoc, Nat.add_comm 1 k, Nat.add_comm 1 l] at hm
          have := hv.distinct (k + 1) (by simpa using hk) (l + 1) (by simpa using hl) hf hm
          omega
      have h := ih hrest j (by simpa using hj)
      rw [Nat.add_assoc, Nat.add_comm 1 j] at h
      rw [h]
      rfl

end Memory

namespace FileSystem

/-! ## Reading -/

/-- The offset of an open file is set. -/
def seek (fs : FileSystem) (v : FdtId) (o : ℤ) : FileSystem :=
  fs.updFdt v fun w => { w with offset := o }

lemma Rewrites.seek (v : FdtId) (f : FileId) (fs : FileSystem) (o : ℤ) : Rewrites v f fs (fs.seek v o) := by
  refine ⟨rfl, fun w => ?_, fun _ => rfl, fun _ => rfl, fun _ => rfl, fun _ _ => rfl⟩
  by_cases hw : w = v <;> simp [FileSystem.seek, hw]

@[simp] lemma seek_seek (fs : FileSystem) (v : FdtId) (o o' : ℤ) :
    (fs.seek v o).seek v o' = fs.seek v o' := by
  simp [seek, updFdt]

lemma seek_self {fs : FileSystem} {v : FdtId} {o : ℤ} (h : (fs.fdt v).offset = o) :
    fs.seek v o = fs := by
  subst h
  simp [seek, updFdt]

@[simp] lemma seek_offset (fs : FileSystem) (v : FdtId) (o : ℤ) :
    ((fs.seek v o).fdt v).offset = o := by
  simp [seek]

/-- Where the reader stands before byte `o`: in its block, or behind the last byte of the block
before. -/
def Stands (blocks : List ℤ) (o : ℕ) (block0 byte0 : ℤ) : Prop :=
  (byte0 = (o % 256 : ℕ) ∧ block0 = blocks.getD (o / 256) 0) ∨
  (o % 256 = 0 ∧ o ≠ 0 ∧ byte0 = 256 ∧ block0 = blocks.getD (o / 256 - 1) 0)

section

variable {fs : FileSystem} {C : Option FileId → List ℤ} {f : FileId}

lemma FatOk.fat_getD (h : FatOk fs C) (hf : fs.IsRegular f) {j : ℕ}
    (hj : j + 1 < (C (some f)).length) :
    fs.fat ((C (some f)).getD j 0) = (C (some f)).getD (j + 1) 0 := by
  rw [← h.iterate_eq hf hj, ← h.iterate_eq hf (Nat.lt_of_succ_lt hj),
    Function.iterate_succ_apply']

/-- The code returns `i + k` after it has delivered the `k` bytes of a file from `o` on to user
memory. -/
def Delivers (fs : FileSystem) (m : Memory) (v : FdtId) (f : FileId) (buffer i n o : ℕ)
    (out : Outcome (FileSystem × Memory) ℤ) (k : ℕ) : Prop :=
  ∃ m', out = .ret ((i + k : ℕ) : ℤ) (fs.seek v ((o + k : ℕ) : ℤ), m') ∧ k ≤ n ∧
    o + k ≤ (fs.contents f).length ∧ SamePages m m' ∧
    (∀ j < i, m'.load (buffer + j) = m.load (buffer + j)) ∧
    ∀ j < k, (fs.contents f)[o + j]? = some (m'.load (buffer + i + j))

@[simp] lemma length_contents (fs : FileSystem) (f : FileId) :
    (fs.contents f).length = (fs.dir f).size.toNat := by
  simp [contents]

lemma FatOk.contents_getElem (h : FatOk fs C) (hf : fs.IsRegular f) {o : ℕ}
    (ho : o < (fs.dir f).size.toNat) :
    (fs.contents f)[o]? =
      some (fs.disk ((C (some f)).getD (o / 256) 0 * blockSize + (o % 256 : ℕ))) := by
  rw [h.contents_eq hf, stored_getElem ho]
  rfl

/-- The head of a turn of the read loop: a reader behind the last byte of a block goes on to the
next block. -/
lemma Stands.enter (h : FatOk fs C) (hf : fs.IsRegular f) {o : ℕ} {block0 byte0 : ℤ}
    (hs : Stands (C (some f)) o block0 byte0) (ho : o < (fs.dir f).size.toNat) :
    (if byte0 % blockSize = 0 ∧ byte0 ≠ 0 then fs.fat block0 else block0) =
        (C (some f)).getD (o / 256) 0 ∧
      (if byte0 % blockSize = 0 ∧ byte0 ≠ 0 then 0 else byte0) = (o % 256 : ℕ) := by
  rcases hs with ⟨hbyte, hblock⟩ | ⟨hmod, hne, hbyte, hblock⟩
  · have hno : ¬ (byte0 % blockSize = 0 ∧ byte0 ≠ 0) := by
      change ¬ (byte0 % 256 = 0 ∧ byte0 ≠ 0)
      omega
    rw [if_neg hno, if_neg hno]
    exact ⟨hblock, hbyte⟩
  · have hyes : byte0 % blockSize = 0 ∧ byte0 ≠ 0 := by
      change byte0 % 256 = 0 ∧ byte0 ≠ 0
      omega
    have hdiv : o / 256 < (C (some f)).length := (h.fits hf).div_lt (by decide) ho
    rw [if_pos hyes, if_pos hyes, hblock, hmod, h.fat_getD hf (by omega)]
    exact ⟨by congr 1; omega, rfl⟩

lemma stands_succ (blocks : List ℤ) (o : ℕ) :
    Stands blocks (o + 1) (blocks.getD (o / 256) 0) ((o % 256 : ℕ) + 1) := by
  unfold Stands
  by_cases hmod : (o + 1) % 256 = 0
  · refine .inr ⟨hmod, by omega, by omega, ?_⟩
    congr 1
    omega
  · refine .inl ⟨by omega, ?_⟩
    congr 1
    omega

/-- The read loop delivers the bytes that follow the offset, and at least one when it starts
inside a block before the end of the file. -/
lemma readLoop_next (v : FdtId) (f : FileId) (buffer size : ℕ) (n : ℕ) :
    ∀ {fs : FileSystem} {m : Memory} {i o : ℕ} {block0 byte0 : ℤ}, FatOk fs C → fs.IsRegular f →
      (fs.fdt v).offset = o → o ≤ (fs.dir f).size.toNat →
      (o < (fs.dir f).size.toNat → Stands (C (some f)) o block0 byte0) →
      m.ValidBuffer buffer (i + n) →
      ∃ k, Delivers fs m v f buffer i n o (readLoop v f buffer size n i block0 byte0 (fs, m)) k ∧
        (o < (fs.dir f).size.toNat → 0 < n → byte0 ≠ 256 → 0 < k) := by
  induction n with
  | zero =>
    intro fs m i o block0 byte0 _ _ hoff ho _ _
    refine ⟨0, ⟨m, ?_, le_refl _, by simpa using ho, .refl m, fun _ _ => rfl, by simp⟩, by simp⟩
    rw [Nat.add_zero, Nat.add_zero, seek_self hoff]
    rfl
  | succ n ih =>
    intro fs m i o block0 byte0 h hf hoff ho hs hbuf
    have hpos := (h.regular f hf).size_nonneg
    have hstop : Delivers fs m v f buffer i (n + 1) o (.ret (i : ℤ) (fs, m)) 0 := by
      refine ⟨m, ?_, Nat.zero_le _, by simpa using ho, .refl m, fun _ _ => rfl, by simp⟩
      rw [Nat.add_zero, Nat.add_zero, seek_self hoff]
    rw [readLoop]
    by_cases hlt : o < (fs.dir f).size.toNat
    · rw [if_pos (show (fs.fdt v).offset < (fs.dir f).size by omega)]
      simp only
      by_cases hret : (byte0 % blockSize = 0 ∧ byte0 ≠ 0) ∧
          ((fs.fdt v).offset = size ∨ fs.fat block0 = -1)
      · -- the early return at the end of a block
        rw [if_pos hret]
        refine ⟨0, hstop, fun _ _ hne => ?_⟩
        rcases hs hlt with ⟨hbyte, -⟩ | ⟨-, -, hbyte, -⟩
        · exfalso
          have hend : byte0 % 256 = 0 ∧ byte0 ≠ 0 := hret.1
          omega
        · exact absurd hbyte hne
      · rw [if_neg hret, if_pos (hbuf.present i (by omega)), ((hs hlt).enter h hf hlt).1,
          ((hs hlt).enter h hf hlt).2]
        -- one byte is stored, and the rest of the loop follows
        set byte := fs.disk ((C (some f)).getD (o / 256) 0 * blockSize + (o % 256 : ℕ)) with hbyte
        have hcont : (fs.contents f)[o]? = some byte := h.contents_getElem hf hlt
        have hseek : (fs.updFdt v fun w => { w with offset := w.offset + 1 }) =
            fs.seek v ((o + 1 : ℕ) : ℤ) := by
          simp [seek, updFdt, hoff]
        have hsame := m.samePages_store (hbuf.present i (by omega)) byte
        have hbuf' : (m.store (buffer + i) byte).ValidBuffer buffer (i + 1 + n) := by
          rw [Nat.add_assoc, Nat.add_comm 1 n]
          exact hbuf.congr hsame
        have hfat' : FatOk (fs.seek v ((o + 1 : ℕ) : ℤ)) C := h.withFdt v _
        rw [hseek]
        obtain ⟨k, ⟨m', hout, hk, hlen, hpages, hearlier, hbytes⟩, -⟩ :=
          ih hfat' hf (seek_offset ..) hlt (fun _ => stands_succ _ o) hbuf'
        refine ⟨k + 1, ⟨m', ?_, by omega, ?_, hsame.trans hpages, fun j hj => ?_, fun j hj => ?_⟩,
          fun _ _ _ => Nat.succ_pos k⟩
        · rw [hout, seek_seek, show i + 1 + k = i + (k + 1) by omega,
            show o + 1 + k = o + (k + 1) by omega]
        · have : o + 1 + k ≤ (fs.contents f).length := hlen
          omega
        · rw [hearlier j (by omega)]
          exact hbuf.load_store (by omega) (by omega) (by omega) byte
        · cases j with
          | zero =>
            rw [Nat.add_zero, Nat.add_zero, hcont, hearlier i (Nat.lt_succ_self i),
              Memory.load_store_self]
          | succ j =>
            have := hbytes j (by omega)
            rw [show o + (j + 1) = o + 1 + j by omega,
              show buffer + i + (j + 1) = buffer + (i + 1) + j by omega]
            exact this
    · rw [if_neg (show ¬ (fs.fdt v).offset < (fs.dir f).size by omega)]
      exact ⟨0, hstop, fun hlt' => absurd hlt' hlt⟩

/-- The place where `sys_read_file` starts. -/
lemma FatOk.stands_offset (h : FatOk fs C) (hf : fs.IsRegular f) {v : FdtId} {o : ℕ}
    (hoff : (fs.fdt v).offset = o) (hlt : o < (fs.dir f).size.toNat) : Stands (C (some f)) o
      (fs.fat^[((fs.fdt v).offset / blockSize).toNat] (fs.dir f).firstBlock)
      ((fs.fdt v).offset % blockSize) := by
  have hdiv := (h.fits hf).div_lt (by decide) hlt
  have hnth : ((fs.fdt v).offset / blockSize).toNat = o / 256 := by
    rw [hoff]
    rfl
  refine .inl ⟨by rw [hoff]; rfl, ?_⟩
  rw [hnth, h.iterate_eq hf hdiv]

/-- `sys_read_file` delivers the bytes that follow the offset; a read of positive size returns 0
only at the end of the file. -/
lemma FatOk.sysReadFile (h : FatOk fs C) (hf : fs.IsRegular f) {v : FdtId} {o n buffer : ℕ}
    {m : Memory} (hoff : (fs.fdt v).offset = o) (ho : o ≤ (fs.contents f).length) (hn : 0 < n)
    (hbuf : m.ValidBuffer buffer n) :
    ∃ (k : ℕ) (m' : Memory),
      fs.sysReadFile m v f buffer n = .ret (k : ℤ) (fs.seek v ((o + k : ℕ) : ℤ), m') ∧
      SamePages m m' ∧ userBytes m' buffer k = ((fs.contents f).drop o).take k ∧
      o + k ≤ (fs.contents f).length ∧ (k = 0 ↔ o = (fs.contents f).length) := by
  rw [length_contents] at ho
  have hne : (fs.fdt v).offset % blockSize ≠ 256 := by
    change (fs.fdt v).offset % 256 ≠ 256
    omega
  obtain ⟨k, ⟨m', hout, -, hlen, hpages, -, hbytes⟩, hpos⟩ :=
    readLoop_next (i := 0) v f buffer n n h hf hoff ho (h.stands_offset hf hoff)
      (by rwa [Nat.zero_add])
  refine ⟨k, m', ?_, hpages, ?_, hlen, ?_⟩
  · rw [FileSystem.sysReadFile, hout, Nat.zero_add]
  · refine List.ext_getElem? (fun j => ?_)
    rw [List.getElem?_take]
    by_cases hj : j < k
    · rw [if_pos hj, List.getElem?_drop, hbytes j hj]
      simp [userBytes, hj]
    · rw [if_neg hj]
      simp [userBytes, Nat.not_lt.mp hj]
  · rw [length_contents] at hlen ⊢
    constructor
    · intro hk
      by_contra hlt
      have := hpos (by omega) hn hne
      omega
    · intro heq
      omega

end

end FileSystem

/-! ## Opening a file -/

namespace FileSystem

lemma contents_opened (fs : FileSystem) (v : FdtId) (f g : FileId) (mode : ℤ) :
    (fs.opened v f mode).contents g = fs.contents g := by
  have hdir : ((fs.opened v f mode).dir g).size = (fs.dir g).size ∧
      ((fs.opened v f mode).dir g).firstBlock = (fs.dir g).firstBlock := by
    by_cases hg : g = f <;> simp [opened, hg]
  rw [contents, contents, hdir.1, hdir.2]
  rfl

/-- What creating and opening a file does to the directory: entry `i` is a new, empty file, and
the other entries are as they were. -/
structure Creates (fs fs' : FileSystem) (i : FileId) (path : List Byte) : Prop where
  fresh : ¬ fs.IsRegular i
  regular : ∀ g, fs'.IsRegular g ↔ g = i ∨ fs.IsRegular g
  other : ∀ g, g ≠ i → fs'.dir g = fs.dir g
  entry : fs'.dir i =
    { name := copyName path (fs.dir i).name, accessModeAllow := oRdwr, firstBlock := fs.ffb,
      nBlocks := 1, size := 0, nRefs := 1 }
  contents : ∀ g, fs.IsRegular g → fs'.contents g = fs.contents g

lemma Creates.contents_new {fs fs' : FileSystem} {i : FileId} {path : List Byte}
    (h : Creates fs fs' i path) : fs'.contents i = [] := by
  simp [FileSystem.contents, h.entry]

lemma Creates.ne {fs fs' : FileSystem} {i g : FileId} {path : List Byte}
    (h : Creates fs fs' i path) (hg : fs.IsRegular g) : g ≠ i := by
  rintro rfl
  exact h.fresh hg

lemma FatOk.creates {fs : FileSystem} {C : Option FileId → List ℤ} (h : FatOk fs C)
    {free : List ℤ} (hfree : C none = fs.ffb :: free) {i : FileId} (hi : ¬ fs.IsRegular i)
    (path : List Byte) (v : FdtId) (mode : ℤ) :
    Creates fs ((fs.popFree.newFile i path fs.ffb).opened v i mode) i path := by
  have hnew := h.create hfree i path
  have hreg : ∀ g, (fs.popFree.newFile i path fs.ffb).IsRegular g ↔ g = i ∨ fs.IsRegular g := by
    intro g
    by_cases hg : g = i
    · simp [IsRegular, hg]
    · simp [IsRegular, hg]
  have hdir : ∀ g, g ≠ i → (fs.popFree.newFile i path fs.ffb).dir g = fs.dir g := by
    intro g hg
    simp [hg]
  have hdisk : (fs.popFree.newFile i path fs.ffb).disk = fs.disk := rfl
  refine ⟨hi, hreg, fun g hg => ?_, ?_, fun g hg => ?_⟩
  · rw [← hdir g hg]
    simp [hg]
  · simp
  · have hgi : g ≠ i := by
      rintro rfl
      exact hi hg
    rw [contents_opened, hnew.contents_eq ((hreg g).mpr (.inr hg)), h.contents_eq hg, hdir g hgi,
      hdisk, Function.update_of_ne (by simpa using hgi), Function.update_of_ne (by simp)]

end FileSystem

/-! ## Names -/

lemma strcmp_eq_zero_iff : ∀ {as bs : List Byte}, strcmp as bs = 0 ↔ as = bs
  | [], [] => by simp [strcmp]
  | [], _ :: _ => by simp [strcmp]
  | _ :: _, [] => by simp [strcmp]
  | a :: as, b :: bs => by
    by_cases hab : a = b
    · rw [strcmp, if_pos hab, strcmp_eq_zero_iff, List.cons.injEq]
      exact ⟨fun h => ⟨hab, h⟩, fun h => h.2⟩
    · rw [strcmp, if_neg hab, List.cons.injEq]
      constructor
      · intro h
        split_ifs at h
        omega
      · exact fun h => absurd h.1 hab

namespace FileSystem

/-- The name that `create_file` writes is the one it was given. -/
lemma cString_copyName {path : List Byte} (hlen : path.length ≤ maxNameLength - 1)
    (hzero : (0 : Byte) ∉ path) (name : Fin maxNameLength → Byte) :
    cString (copyName path name) = path := by
  change path.length ≤ 9 at hlen
  have hsplit : List.ofFn (copyName path name) =
      path ++ (List.ofFn (copyName path name)).drop path.length := by
    conv_lhs => rw [← List.take_append_drop path.length (List.ofFn (copyName path name))]
    congr 1
    refine List.ext_getElem ?_ (fun j h₁ h₂ => ?_)
    · rw [List.length_take, List.length_ofFn]
      exact Nat.min_eq_left (Nat.le_succ_of_le hlen)
    · rw [List.getElem_take, List.getElem_ofFn, copyName, dif_pos h₂]
      rfl
  have hdrop : ∃ tl, (List.ofFn (copyName path name)).drop path.length = 0 :: tl := by
    have hlt : path.length < (List.ofFn (copyName path name)).length := by
      rw [List.length_ofFn]
      exact Nat.lt_succ_of_le hlen
    rw [List.drop_eq_getElem_cons hlt, List.getElem_ofFn, copyName, dif_neg (Nat.lt_irrefl _),
      if_pos rfl]
    exact ⟨_, rfl⟩
  obtain ⟨tl, htl⟩ := hdrop
  have hall : ∀ b ∈ path, (decide (b ≠ 0)) = true := by
    intro b hb
    have : b ≠ 0 := by
      rintro rfl
      exact hzero hb
    simpa using this
  rw [cString, hsplit, htl, List.takeWhile_append_of_pos hall]
  simp

lemma lookup_eq_none_iff {fs : FileSystem} {path : List Byte} :
    fs.lookup path = none ↔ ∀ g, cString (fs.dir g).name ≠ path := by
  simp [lookup, List.find?_eq_none, strcmp_eq_zero_iff]

/-- A name that only one entry has is found there. -/
lemma lookup_eq_some {fs : FileSystem} {path : List Byte} {f : FileId}
    (h : ∀ g, cString (fs.dir g).name = path ↔ g = f) : fs.lookup path = some f := by
  cases hl : fs.lookup path with
  | none =>
    have := lookup_eq_none_iff.mp hl f
    exact absurd ((h f).mpr rfl) this
  | some g =>
    have hg := List.find?_some hl
    rw [decide_eq_true_eq, strcmp_eq_zero_iff, h g] at hg
    rw [hg]

end FileSystem

end ZeOS
