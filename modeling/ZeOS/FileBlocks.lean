import ZeOS.FileStores
import ZeOS.UserPointers

/-!
# How many blocks a file has

The byte loop of `sys_write_file` takes a block when the size of the file is a whole number of
blocks, whatever the offset and before it looks at the byte.  A block is therefore taken in vain in
two cases: the offset is before the end, so that the size does not grow, or the byte is not mapped,
so that the process ends there.  Neither block is ever used up or given back while the file is
there.

`blocks_needed_iff` says that a run in which no write takes such a block, and no other, has in all
its states only files with the blocks that they need.
-/

namespace ZeOS

open FileSystem LinkChain

namespace FileSystem

variable {fs : FileSystem} {C : Option FileId → List ℤ} {f : FileId} {v : FdtId} {m : Memory}

/-! ## The blocks of a write -/

/-- The size after `k` bytes of a write from offset `o` to a file of `z` bytes. -/
def sizeAfter (o z k : ℕ) : ℕ := if o < z then max z (o + k) else z + k

lemma sizeAfter_zero (o z : ℕ) : sizeAfter o z 0 = z := by
  unfold sizeAfter
  split_ifs <;> omega

lemma sizeAfter_succ (o z k : ℕ) :
    sizeAfter o z (k + 1) =
      if sizeAfter o z k < o + k + 1 then sizeAfter o z k + 1 else sizeAfter o z k := by
  unfold sizeAfter
  split_ifs <;> omega

lemma sizeAfter_mono (o z : ℕ) {j k : ℕ} (h : j ≤ k) : sizeAfter o z j ≤ sizeAfter o z k := by
  unfold sizeAfter
  split_ifs <;> omega

lemma blocksFor_mono {n n' : ℕ} (h : n ≤ n') : blocksFor n ≤ blocksFor n' := by
  unfold blocksFor
  omega

/-- Byte `j` of the write takes a block in vain: the loop comes to it with a file that is full and
with one of the `free` blocks left, and the byte does not make the file longer or is not mapped. -/
structure SpareAt (m : Memory) (buffer free o z j : ℕ) : Prop where
  before : ∀ i < j, m.present (buffer + i) = true
  full : sizeAfter o z j % 256 = 0 ∧ sizeAfter o z j ≠ 0
  block : blocksFor (sizeAfter o z j) < blocksFor z + free
  vain : o + j < sizeAfter o z j ∨ ¬ m.present (buffer + j) = true

/-- The loop before byte `k`: the file has the blocks that it needs. -/
structure Needed (fs : FileSystem) (v : FdtId) (f : FileId) (free o z k : ℕ) (c : Cursor) : Prop where
  ok : ∃ C, c.Ok f C ∧ (C (some f)).length = blocksFor (sizeAfter o z k) ∧
    (C none).length + blocksFor (sizeAfter o z k) = free + blocksFor z
  size : (c.fs.dir f).size = sizeAfter o z k
  offset : (c.fs.fdt v).offset = (o + k : ℕ)
  other : ∀ g, g ≠ f → c.fs.dir g = fs.dir g

/-- The file has a block that it does not need. -/
structure Loose (f : FileId) (c : Cursor) : Prop where
  ok : ∃ C, c.Ok f C ∧ blocksFor (c.fs.dir f).size.toNat < (C (some f)).length

section

variable {free o z k : ℕ} {c : Cursor} {b : Byte}

lemma Needed.needsBlock_iff (h : Needed fs v f free o z k c) :
    c.fs.NeedsBlock f ↔ sizeAfter o z k % 256 = 0 ∧ sizeAfter o z k ≠ 0 := by
  have hdef : c.fs.NeedsBlock f ↔ (c.fs.dir f).size % 256 = 0 ∧ (c.fs.dir f).size ≠ 0 := Iff.rfl
  rw [hdef, h.size]
  omega

/-- A turn that takes a block only for a byte behind the end. -/
lemma Needed.turn (h : Needed fs v f free o z k c) (hfull : ¬ c.Full f)
    (hend : c.fs.NeedsBlock f → sizeAfter o z k ≤ o + k) :
    Needed fs v f free o z (k + 1) ((c.head f).put v f b) := by
  obtain ⟨C, hC, hlen, hfree⟩ := h.ok
  obtain ⟨C', hC', hchain, hroom, -, htake, hkeep⟩ := hC.head hfull
  have hneeds := h.needsBlock_iff
  have hsucc := sizeAfter_succ o z k
  have hlen' : (C' (some f)).length = blocksFor (sizeAfter o z (k + 1)) ∧
      (C' none).length + blocksFor (sizeAfter o z (k + 1)) = free + blocksFor z := by
    by_cases hn : c.fs.NeedsBlock f
    · have hle := hend hn
      rw [if_pos (by omega)] at hsucc
      have hblocks := blocksFor_succ (sizeAfter o z k)
      rw [if_pos (hneeds.mp hn)] at hblocks
      rw [hchain, if_pos hn, List.length_append, List.length_singleton, hlen, hsucc, hblocks]
      rw [htake hn, List.length_cons] at hfree
      exact ⟨rfl, by omega⟩
    · have hblocks : blocksFor (sizeAfter o z (k + 1)) = blocksFor (sizeAfter o z k) := by
        rw [hsucc]
        split_ifs
        · have hstep := blocksFor_succ (sizeAfter o z k)
          rw [if_neg fun hno => hn (hneeds.mpr hno)] at hstep
          exact hstep
        · rfl
      rw [hchain, if_neg hn, List.append_nil, hblocks, hkeep hn]
      exact ⟨hlen, hfree⟩
  refine ⟨⟨C', hC'.put hroom v b, hlen'⟩, ?_, ?_, fun g hg => ?_⟩
  · rw [Cursor.put_size, Cursor.head_size, Cursor.head_offset, h.size, h.offset, hsucc]
    split_ifs <;> omega
  · rw [Cursor.put_offset, Cursor.head_offset, h.offset]
    push_cast
    omega
  · rw [Cursor.put_dir_of_ne _ _ hg, Cursor.head_dir_of_ne _ hg, h.other g hg]

/-- A block taken for a byte that the loop has not stored yet. -/
lemma Needed.loose_head (h : Needed fs v f free o z k c) (hfull : ¬ c.Full f)
    (hn : c.fs.NeedsBlock f) : Loose f (c.head f) := by
  obtain ⟨C, hC, hlen, -⟩ := h.ok
  obtain ⟨C', hC', hchain, -⟩ := hC.head hfull
  refine ⟨C', hC', ?_⟩
  rw [Cursor.head_size, h.size, hchain, if_pos hn, List.length_append, hlen]
  exact Nat.lt_succ_self _

lemma Loose.head (h : Loose f c) (hfull : ¬ c.Full f) : Loose f (c.head f) := by
  obtain ⟨C, hC, hlt⟩ := h.ok
  obtain ⟨C', hC', hchain, -⟩ := hC.head hfull
  refine ⟨C', hC', ?_⟩
  rw [Cursor.head_size, hchain, List.length_append]
  omega

/-- A byte that makes the file longer does not need the block that is too much. -/
lemma Loose.put_head (h : Loose f c) (hfull : ¬ c.Full f) (v : FdtId) (b : Byte) :
    Loose f ((c.head f).put v f b) := by
  obtain ⟨C, hC, hlt⟩ := h.ok
  obtain ⟨C', hC', hchain, hroom, -⟩ := hC.head hfull
  have hpos := (hC.fat.regular f hC.regular).size_nonneg
  have hblocks : blocksFor ((c.fs.dir f).size.toNat + 1) ≤
      blocksFor (c.fs.dir f).size.toNat + if c.fs.NeedsBlock f then 1 else 0 := by
    have hdef : c.fs.NeedsBlock f ↔ (c.fs.dir f).size % 256 = 0 ∧ (c.fs.dir f).size ≠ 0 := Iff.rfl
    rw [blocksFor_succ]
    by_cases hn : c.fs.NeedsBlock f
    · rw [if_pos hn]
      split_ifs <;> omega
    · rw [if_neg hn, if_neg]
      intro hmod
      exact hn (hdef.mpr (by omega))
  have hlen : (C' (some f)).length = (C (some f)).length + if c.fs.NeedsBlock f then 1 else 0 := by
    rw [hchain, List.length_append]
    split_ifs <;> rfl
  refine ⟨C', hC'.put hroom v b, ?_⟩
  have hmono := blocksFor_mono (Nat.le_succ (c.fs.dir f).size.toNat)
  rw [Cursor.put_size, Cursor.head_size]
  split_ifs
  · rw [show ((c.fs.dir f).size + 1).toNat = (c.fs.dir f).size.toNat + 1 by omega]
    omega
  · omega

/-- A turn that takes a block for a byte before the end. -/
lemma Needed.turn_loose (h : Needed fs v f free o z k c) (hfull : ¬ c.Full f)
    (hn : c.fs.NeedsBlock f) (hlt : o + k < sizeAfter o z k) : Loose f ((c.head f).put v f b) := by
  obtain ⟨C, hC, hlen, -⟩ := h.ok
  obtain ⟨C', hC', hchain, hroom, -⟩ := hC.head hfull
  refine ⟨C', hC'.put hroom v b, ?_⟩
  rw [Cursor.put_size, Cursor.head_size, Cursor.head_offset, h.size, h.offset, if_neg (by omega),
    hchain, if_pos hn, List.length_append, hlen]
  exact Nat.lt_succ_self _

/-- A block is left when the loop takes one. -/
lemma Needed.block_left (h : Needed fs v f free o z k c) (hfull : ¬ c.Full f)
    (hn : c.fs.NeedsBlock f) : blocksFor (sizeAfter o z k) < blocksFor z + free := by
  obtain ⟨C, hC, -, hfree⟩ := h.ok
  obtain ⟨tail, htail⟩ := hC.fat.free_cons fun hffb => hfull ⟨hn, hffb⟩
  rw [htail, List.length_cons] at hfree
  omega

/-- While no byte takes a block in vain, a block is taken only behind the end. -/
lemma Needed.behind_end (h : Needed fs v f free o z k c) (hfull : ¬ c.Full f) {buffer : ℕ}
    (hbefore : ∀ i < k, m.present (buffer + i) = true) (hno : ¬ SpareAt m buffer free o z k)
    (hn : c.fs.NeedsBlock f) : sizeAfter o z k ≤ o + k := by
  by_contra hlt
  exact hno ⟨hbefore, h.needsBlock_iff.mp hn, h.block_left hfull hn, .inl (by omega)⟩

lemma Needed.nBlocks (h : Needed fs v f free o z k c) :
    (c.fs.dir f).nBlocks = blocksFor (c.fs.dir f).size.toNat := by
  obtain ⟨C, hC, hlen, -⟩ := h.ok
  rw [(hC.fat.regular f hC.regular).nBlocks, hlen, h.size]
  rfl

lemma Loose.nBlocks_ne (h : Loose f c) :
    (c.fs.dir f).nBlocks ≠ blocksFor (c.fs.dir f).size.toNat := by
  obtain ⟨C, hC, hlt⟩ := h.ok
  rw [(hC.fat.regular f hC.regular).nBlocks]
  omega

end

/-! ## A whole write -/

/-- A file with the blocks that it needs, before a write. -/
structure BeforeWrite (fs : FileSystem) (C : Option FileId → List ℤ) (v : FdtId) (f : FileId)
    (o z : ℕ) : Prop where
  fat : FatOk fs C
  regular : fs.IsRegular f
  offset : (fs.fdt v).offset = o
  size : (fs.dir f).size = z
  blocks : (fs.dir f).nBlocks = blocksFor z

lemma BeforeWrite.needed {o z : ℕ} (h : BeforeWrite fs C v f o z) {b y : ℤ}
    (hok : Cursor.Ok f C ⟨b, y, fs⟩) : Needed fs v f (C none).length o z 0 ⟨b, y, fs⟩ := by
  have hlen : (C (some f)).length = blocksFor z := by
    have := (h.fat.regular f h.regular).nBlocks
    rw [h.blocks] at this
    omega
  refine ⟨⟨C, hok, ?_, ?_⟩, ?_, h.offset, fun _ _ => rfl⟩
  · rw [sizeAfter_zero, hlen]
  · rw [sizeAfter_zero]
  · rw [sizeAfter_zero]
    exact h.size

/-- A write of which no byte takes a block in vain keeps the blocks of all files. -/
lemma BeforeWrite.leaves_needed {o z : ℕ} (h : BeforeWrite fs C v f o z) {buffer n : ℕ}
    (hno : ∀ j < n, ¬ SpareAt m buffer (C none).length o z j) :
    (fs.sysWriteFile m v f buffer n).Leaves fun (fs' : FileSystem) =>
      (fs'.dir f).nBlocks = blocksFor (fs'.dir f).size.toNat ∧ ∀ g, g ≠ f → fs'.dir g = fs.dir g := by
  have hends : WriteEnds m f buffer n
      (fun k c => Needed fs v f (C none).length o z k c ∧ ∀ i < k, m.present (buffer + i) = true)
      (fs.sysWriteFile m v f buffer n) := by
    refine h.fat.sysWriteFile_rule h.regular (fun b hb => ⟨h.needed hb, by simp⟩)
      (fun k hk c hc hfull hp => ⟨hc.1.turn hfull (hc.1.behind_end hfull hc.2 (hno k hk)), ?_⟩)
    intro i hi
    rcases Nat.lt_succ_iff_lt_or_eq.mp hi with hlt | rfl
    · exact hc.2 i hlt
    · exact hp
  refine hends.leaves (fun c hc => ⟨hc.1.nBlocks, hc.1.other⟩)
    (fun k _ c hc _ => ⟨hc.1.nBlocks, hc.1.other⟩) (fun k hk c hc hfull hp => ?_)
  -- a byte that is not mapped, and then no block was taken for it
  have hn : ¬ c.fs.NeedsBlock f := fun hn =>
    hno k hk ⟨hc.2, hc.1.needsBlock_iff.mp hn, hc.1.block_left hfull hn, .inr hp⟩
  rw [Cursor.head_of_not_needsBlock hn]
  exact ⟨hc.1.nBlocks, hc.1.other⟩

/-- A write of which a byte takes a block in vain leaves the file with a block too many. -/
lemma BeforeWrite.leaves_loose {o z : ℕ} (h : BeforeWrite fs C v f o z) {buffer n : ℕ}
    (hspare : ∃ j < n, SpareAt m buffer (C none).length o z j) :
    (fs.sysWriteFile m v f buffer n).Leaves fun (fs' : FileSystem) =>
      (fs'.dir f).nBlocks ≠ blocksFor (fs'.dir f).size.toNat := by
  classical
  -- the first byte of that kind
  obtain ⟨j, ⟨hjn, hj⟩, hmin⟩ : ∃ j, (j < n ∧ SpareAt m buffer (C none).length o z j) ∧
      ∀ k < j, ¬ (k < n ∧ SpareAt m buffer (C none).length o z k) :=
    ⟨Nat.find hspare, Nat.find_spec hspare, fun k hk => Nat.find_min hspare hk⟩
  have hends : WriteEnds m f buffer n
      (fun k c => (k ≤ j → Needed fs v f (C none).length o z k c) ∧ (j < k → Loose f c))
      (fs.sysWriteFile m v f buffer n) := by
    refine h.fat.sysWriteFile_rule h.regular
      (fun b hb => ⟨fun _ => h.needed hb, fun hlt => absurd hlt (by omega)⟩)
      (fun k hk c hc hfull hp => ?_)
    rcases Nat.lt_trichotomy k j with hlt | rfl | hgt
    · have hneeded := hc.1 hlt.le
      refine ⟨fun _ => hneeded.turn hfull (hneeded.behind_end hfull (fun i hi => hj.before i (by omega))
        (fun hk' => hmin k hlt ⟨hk, hk'⟩)), fun hno => absurd hno (by omega)⟩
    · have hneeded := hc.1 le_rfl
      have hvain := hj.vain.resolve_right (not_not.mpr hp)
      exact ⟨fun hno => absurd hno (by omega),
        fun _ => hneeded.turn_loose hfull (hneeded.needsBlock_iff.mpr hj.full) hvain⟩
    · exact ⟨fun hno => absurd hno (by omega), fun _ => (hc.2 hgt).put_head hfull v _⟩
  refine hends.leaves (fun c hc => (hc.2 hjn).nBlocks_ne) (fun k hk c hc hfull => ?_)
    (fun k hk c hc hfull hp => ?_)
  · rcases Nat.lt_or_ge j k with hgt | hle
    · exact (hc.2 hgt).nBlocks_ne
    · -- the disk is not full before the first byte of that kind
      exfalso
      obtain ⟨C', hC', -, hfree⟩ := (hc.1 hle).ok
      rw [hC'.fat.free_nil_iff.mpr hfull.2, List.length_nil] at hfree
      have hmono := blocksFor_mono (sizeAfter_mono o z hle)
      have hblock := hj.block
      omega
  · rcases Nat.lt_trichotomy k j with hlt | rfl | hgt
    · exact absurd (hj.before k hlt) hp
    · have hneeded := hc.1 le_rfl
      exact (hneeded.loose_head hfull (hneeded.needsBlock_iff.mpr hj.full)).nBlocks_ne
    · exact ((hc.2 hgt).head hfull).nBlocks_ne

/-- Every regular file has the blocks that its size needs, and one if it is empty. -/
def BlocksNeeded (fs : FileSystem) : Prop :=
  ∀ f, fs.IsRegular f →
    (fs.dir f).nBlocks = max 1 (((fs.dir f).size + (blockSize - 1)) / blockSize)

lemma FatOk.blocksNeeded_iff (h : FatOk fs C) (hf : fs.IsRegular f) :
    (fs.dir f).nBlocks = max 1 (((fs.dir f).size + (blockSize - 1)) / blockSize) ↔
      (fs.dir f).nBlocks = blocksFor (fs.dir f).size.toNat := by
  have hpos := (h.regular f hf).size_nonneg
  have heq : max 1 (((fs.dir f).size + (blockSize - 1)) / blockSize) =
      (blocksFor (fs.dir f).size.toNat : ℤ) := by
    change max 1 (((fs.dir f).size + (256 - 1)) / 256) = _
    unfold blocksFor
    omega
  rw [heq]

end FileSystem

/-! ## Runs -/

namespace Kernel

variable {s t : Kernel} {e : Event}

/-- The event is a write that comes to `sys_write_file` and takes a block in vain. -/
def TakesSpareBlock (s : Kernel) (e : Event) : Prop :=
  ∃ (fd : ℤ) (buffer : ℕ) (size : ℤ) (v : FdtId) (f : FileId) (free : List ℤ) (j : ℕ),
    e.act = .write fd buffer size ∧ s.WritesDevice fd buffer size v f ∧ s.fs.IsRegular f ∧
    IsChain s.fs.fat (-1) s.fs.ffb free ∧ j < size.toNat ∧
    SpareAt s.mm buffer free.length (s.fs.fdt v).offset.toNat (s.fs.dir f).size.toNat j

lemma openFile_enter (s : Kernel) (regs : SavedRegs) (fd : ℤ) :
    (s.enter regs).openFile fd = s.openFile fd := by
  have hfds : (s.enter regs).current.fileDescriptors = s.current.fileDescriptors := by
    simp [enter, current]
  unfold openFile
  rw [hfds]

lemma writesDevice_enter (s : Kernel) (regs : SavedRegs) (fd : ℤ) (buffer : ℕ) (size : ℤ) (v : FdtId)
    (f : FileId) :
    (s.enter regs).WritesDevice fd buffer size v f ↔ s.WritesDevice fd buffer size v f := by
  constructor
  · intro h
    exact ⟨(s.openFile_enter regs fd).symm.trans h.descriptor, h.le, h.nonneg, h.mode, h.access,
      h.device, h.routine⟩
  · intro h
    exact ⟨(s.openFile_enter regs fd).trans h.descriptor, h.le, h.nonneg, h.mode, h.access, h.device,
      h.routine⟩

/-- A write that comes to `sys_write_file` leaves the tables as that does. -/
lemma step_writeFile {fd : ℤ} {buffer : ℕ} {size : ℤ} {v : FdtId} {f : FileId}
    (hact : e.act = .write fd buffer size) (hw : s.WritesDevice fd buffer size v f)
    (hf : s.fs.IsRegular f) {Q : FileSystem → Prop}
    (hQ : (s.fs.sysWriteFile s.mm v f buffer size.toNat).Leaves Q) (hst : s.step e = .ok t) :
    Q t.fs := by
  have hdata : ∀ t u : Kernel, SameData t u → Q t.fs → Q u.fs := by
    intro t u htu ht
    rw [htu.fs]
    exact ht
  refine leaves_step (P := fun t => Q t.fs) hdata ?_ hst
  rw [dispatch, hact]
  refine leaves_finish hdata ?_
  have hwrite : ((s.enter e.regs).fs.ops f).sysWriteDev = .sysWriteFile := by
    rw [show (s.enter e.regs).fs.ops f = fileOps from hf]
    rfl
  rw [((s.writesDevice_enter e.regs fd buffer size v f).mpr hw).sysWrite_eq, writeDev, hwrite]
  exact Outcome.Leaves.lift (P := Q) hQ (fun fs hfs => hfs)

/-- Any other write leaves the tables alone. -/
lemma step_write_fs (hok : s.TableOk) {fd : ℤ} {buffer : ℕ} {size : ℤ}
    (hact : e.act = .write fd buffer size)
    (hno : ∀ v f, s.WritesDevice fd buffer size v f → ¬ s.fs.IsRegular f) (hst : s.step e = .ok t) :
    t.fs = s.fs := by
  obtain ⟨C, hC⟩ := hok
  have hdata : ∀ t u : Kernel, SameData t u → t.fs = s.fs → u.fs = s.fs :=
    fun t u htu ht => htu.fs.trans ht
  refine leaves_step (P := fun t => t.fs = s.fs) hdata ?_ hst
  rw [dispatch, hact]
  refine leaves_finish hdata ?_
  rcases (s.enter e.regs).sysWrite_writesDevice fd buffer size with
    ⟨v, f, hw, heq⟩ | ⟨-, ⟨r, heq, -⟩ | heq⟩
  · have hnot := (hC.ops f).resolve_left
      (hno v f ((s.writesDevice_enter e.regs fd buffer size v f).mp hw))
    rw [heq, writeDev]
    split
    · exact rfl
    · refine Outcome.leaves_lift (fun sc => ?_) _
      rfl
    · next hfile => exact absurd hfile hnot.1
  · rw [heq]
    exact rfl
  · rw [heq]
    trivial

/-- The invariant: well-formed tables, offsets that are not negative and no block too many. -/
structure BlocksOk (s : Kernel) : Prop where
  table : s.TableOk
  offsets : s.OffsetsOk
  needed : s.fs.BlocksNeeded

lemma BlocksOk.beforeWrite (h : s.BlocksOk) {C : Option FileId → List ℤ} (hC : FatOk s.fs C)
    {f : FileId} (hf : s.fs.IsRegular f) (v : FdtId) :
    BeforeWrite s.fs C v f (s.fs.fdt v).offset.toNat (s.fs.dir f).size.toNat := by
  have hoff := h.offsets v
  have hpos := (hC.regular f hf).size_nonneg
  exact ⟨hC, hf, (Int.toNat_of_nonneg hoff).symm, (Int.toNat_of_nonneg hpos).symm,
    (hC.blocksNeeded_iff hf).mp (h.needed f hf)⟩

/-- A step that takes no block in vain keeps the invariant. -/
lemma BlocksOk.step (h : s.BlocksOk) (hno : ¬ s.TakesSpareBlock e) (hst : s.step e = .ok t) :
    t.BlocksOk := by
  refine ⟨h.table.step hst, h.offsets.step h.table hst, fun g hg => ?_⟩
  obtain ⟨C, hC⟩ := h.table
  rcases step_dir h.table hst g with ⟨⟨fd, buffer, size, hact⟩, hsame⟩ | ⟨⟨n, hn⟩, hops⟩ |
    ⟨hnew, -⟩ | ⟨-, hops⟩
  · have hg' : s.fs.IsRegular g := by
      rw [FileSystem.IsRegular, hsame.ops] at hg
      exact hg
    by_cases hdev : ∃ v f, s.WritesDevice fd buffer size v f ∧ s.fs.IsRegular f
    · obtain ⟨v, f, hw, hf⟩ := hdev
      have hleaves := (h.beforeWrite hC hf v).leaves_needed (m := s.mm) (n := size.toNat)
        fun j hj hspare => hno ⟨fd, buffer, size, v, f, C none, j, hact, hw, hf,
          hC.chains.chain none, hj, hspare⟩
      obtain ⟨hblocks, hother⟩ := step_writeFile hact hw hf hleaves hst
      by_cases hgf : g = f
      · subst hgf
        obtain ⟨C', hC'⟩ := h.table.step hst
        exact (hC'.blocksNeeded_iff hg).mpr hblocks
      · rw [hother g hgf]
        exact h.needed g hg'
    · rw [step_write_fs h.table hact (fun v f hw hf => hdev ⟨v, f, hw, hf⟩) hst]
      exact h.needed g hg'
  · rw [hn]
    exact h.needed g (by rw [FileSystem.IsRegular, ← hops]; exact hg)
  · rw [hnew]
    exact (by decide : (1 : ℤ) = max 1 ((0 + ((blockSize : ℤ) - 1)) / blockSize))
  · rw [FileSystem.IsRegular, hops] at hg
    exact absurd hg (by decide)

/-- A block taken in vain stays. -/
lemma TakesSpareBlock.not_blocksNeeded (h : s.TakesSpareBlock e) (hs : s.BlocksOk)
    (hst : s.step e = .ok t) : ¬ t.fs.BlocksNeeded := by
  obtain ⟨fd, buffer, size, v, f, free, j, hact, hw, hf, hfree, hj, hspare⟩ := h
  obtain ⟨C, hC⟩ := hs.table
  rw [hfree.unique (hC.chains.chain none)] at hspare
  have hloose := step_writeFile hact hw hf
    ((hs.beforeWrite hC hf v).leaves_loose ⟨j, hj, hspare⟩) hst
  obtain ⟨C', hC'⟩ := hs.table.step hst
  have hf' : t.fs.IsRegular f := by
    rw [FileSystem.IsRegular, (sameRefs_write hs.table hact hst).ops]
    exact hf
  exact fun hneeded => hloose ((hC'.blocksNeeded_iff hf').mp (hneeded f hf'))

end Kernel

lemma Env.boot_blocksOk (E : Env) : E.boot.BlocksOk :=
  ⟨E.boot_tableOk, E.boot_offsetsOk, fun f hf => absurd hf (E.boot_not_regular f)⟩

/-- **No block too many.**  In all the states of a run from boot every regular file has the blocks
that its size needs, just when no write of the run takes a block in vain: none has a byte that comes
to a file of whole blocks while a block is free, and is before the end of the file or not mapped. -/
theorem blocks_needed_iff (E : Env) (es : List Event) (t : Kernel) (hrun : AnyRun E.boot es t) :
    (∀ pre u, pre <+: es → AnyRun E.boot pre u → u.fs.BlocksNeeded) ↔
      GuardedRun.Run Kernel.step (fun s e => True ∧ ¬ s.TakesSpareBlock e) E.boot es t := by
  refine hrun.forall_prefix_iff (fun s hs => Kernel.BlocksOk.needed hs) ?_ ?_ E.boot_blocksOk
  · intro s e t hs _ hno hst
    exact Kernel.BlocksOk.step hs hno hst
  · intro s e t hs _ hno hst
    exact (not_not.mp hno).not_blocksNeeded hs hst

/-- Task 0 creates a file and writes 300 bytes to it. -/
theorem blocks_needed_iff_append :
    ∃ r t, AnyRun linkedEnv.boot (writesOf r 1 300) t ∧
      ((∀ pre u, pre <+: writesOf r 1 300 → AnyRun linkedEnv.boot pre u → u.fs.BlocksNeeded) ↔
        GuardedRun.Run Kernel.step (fun s e => True ∧ ¬ s.TakesSpareBlock e) linkedEnv.boot
          (writesOf r 1 300) t) := by
  obtain ⟨r, t, n, hrun, -⟩ := HasFile.writes (k := 300) (by decide) 1 (by decide)
  exact ⟨r, t, hrun, blocks_needed_iff linkedEnv _ t hrun⟩

/-- Task 0 writes a file of 256 bytes and opens it again.  A write of a byte through the new
descriptor, which is at the start, gives the file a second block. -/
theorem block_taken_in_vain :
    ∃ r fd t, AnyRun linkedEnv.boot (writesOf r 1 256 ++ [plain (.open lUserStart nameF oRdwr),
      plain (.write fd dataStart 1)]) t ∧ ¬ t.fs.BlocksNeeded := by
  obtain ⟨r, s, C, fd, v, f, hrun, h⟩ := exists_reopened (k := 256) (by decide) 1 (by decide)
  have hbuffer := linkedEnv_buffer (k := 1) (by decide)
  rw [← h.mm] at hbuffer
  have hffb : s.fs.ffb ≠ -1 := by
    intro hffb
    have hfree := h.free
    rw [h.fat.free_nil_iff.mpr hffb] at hfree
    exact absurd hfree (by decide)
  -- the step
  obtain ⟨fs', hwrite⟩ := h.fat.sysWriteFile_one h.regular (fun _ => hffb)
    (hbuffer.2 0 Nat.one_pos) v
  have hmode : (s.fs.fdt v).accessMode ≠ oRdonly := by
    rw [h.entry]
    exact fun heq : oRdwr = oRdonly => absurd heq (by decide)
  have hdev : (s.fs.fdt v).logicDev = some f := by rw [h.entry]
  have hst := Kernel.step_of_done (Kernel.dispatch_write
    (e := plain (.write fd.val dataStart 1)) rfl h.fd (by decide) (by decide) hmode hbuffer.1 hdev
    h.regular hwrite)
  have hrun' := hrun.snoc trivial hst
  rw [List.append_assoc, List.singleton_append] at hrun'
  refine ⟨r, fd.val, _, hrun', fun hneeded => ?_⟩
  -- the new block holds no byte of the file
  have hbefore : BeforeWrite s.fs C v f 0 256 :=
    ⟨h.fat, h.regular, h.offset, h.size, by rw [(h.fat.regular f h.regular).nBlocks, h.blocks]⟩
  have hspare : SpareAt s.mm dataStart (C none).length 0 256 0 := by
    have hfree : (C none).length + 1 = 80 := h.free
    refine ⟨by simp, by decide, ?_, .inl (by decide)⟩
    show 1 < 1 + (C none).length
    omega
  have hloose := hbefore.leaves_loose (n := 1) ⟨0, Nat.one_pos, hspare⟩
  rw [Nat.add_zero] at hwrite
  rw [hwrite] at hloose
  have hok : s.TableOk := ⟨C, h.fat⟩
  obtain ⟨C', hC'⟩ := hok.step hst
  have hf' : fs'.IsRegular f := by
    have hops := (Kernel.sameRefs_write hok rfl hst).ops
    rw [FileSystem.IsRegular, show fs'.ops = s.fs.ops from hops]
    exact h.regular
  exact hloose ((hC'.blocksNeeded_iff hf').mp (hneeded f hf'))

end ZeOS
