import ZeOS.FileStores
import ZeOS.UserPointers

/-!
# What a write before the end of a file does

`sys_write_file` looks for its place from the last block of the chain, and takes only the byte
inside the block from the offset.  Before the end of the file this is the place of the offset just
when the offset is in the last block; and when the size is a whole number of blocks the first byte
goes to a new block in any case.  `overwrite_in_place_iff` says that writes to these places, and no
others, replace the bytes at the offset.

`failed_write_unchanged_iff` is about the writes that fail: the loop stores byte by byte and does
not undo, so that nothing has changed just when the very first byte has no block.
-/

namespace ZeOS

open FileSystem BlockData

namespace FileSystem

variable {fs : FileSystem} {C : Option FileId → List ℤ} {f : FileId} {v : FdtId}

/-! ## Writing in place -/

/-- A byte stored at its own place replaces the byte there, or is appended. -/
lemma FatOk.contents_storeByte (h : FatOk fs C) (hf : fs.IsRegular f) {p : ℕ} (b : Byte)
    (hoff : (fs.fdt v).offset = p) (hp : p ≤ (fs.dir f).size.toNat)
    (hroom : (fs.dir f).size < blockSize * (fs.dir f).nBlocks) :
    (fs.storeByte v f (addr blockSize (C (some f)) p) b).contents f =
      splice (fs.contents f) p [b] := by
  have hpos := (h.regular f hf).size_nonneg
  by_cases hlt : p < (fs.dir f).size.toNat
  · have hok : FatOk (fs.storeByte v f (addr blockSize (C (some f)) p) b) C :=
      (h.withDisk ..).advance hroom v
    have hsize := storeByte_size fs v f (addr blockSize (C (some f)) p) b
    rw [if_neg (by omega)] at hsize
    rw [hok.contents_eq (isRegular_advance.mpr hf), h.contents_eq hf, hsize, storeByte_disk,
      stored_overwrite (by decide) (h.chains.nodup _) b (h.fits hf) hlt]
    exact (splice_set (by simpa using hlt) b).symm
  · have hsize : (fs.dir f).size = p := by omega
    have hlen : p = (fs.contents f).length := by
      rw [length_contents]
      omega
    rw [(h.storeByte (b := b) hf hsize hoff hroom).2.1, hlen, splice_length_self]

/-- The loop has replaced `k` bytes from `o` on, of a file that had `z` bytes. -/
structure Overwrote (m : Memory) (v : FdtId) (f : FileId) (buffer z o : ℕ) (orig : List Byte) (k : ℕ)
    (c : Cursor) : Prop where
  ok : ∃ C, c.Ok f C ∧ (C (some f)).length = blocksFor (max z (o + k))
  size : (c.fs.dir f).size = (max z (o + k) : ℕ)
  offset : (c.fs.fdt v).offset = (o + k : ℕ)
  byte : ¬ c.fs.NeedsBlock f → c.byte = ((o + k) % 256 : ℕ)
  contents : c.fs.contents f = splice orig o (userBytes m buffer k)

/-- A turn from a place in the last block, of a file with no block that it does not need. -/
lemma Overwrote.turn {m : Memory} {buffer z o : ℕ} {orig : List Byte} {k : ℕ} {c : Cursor}
    (hz : z % 256 ≠ 0) (ho : o ≤ z) (hblock : o / 256 = z / 256) (horig : orig.length = z)
    (h : Overwrote m v f buffer z o orig k c) (hfull : ¬ c.Full f) :
    Overwrote m v f buffer z o orig (k + 1) ((c.head f).put v f (m.load (buffer + k))) := by
  obtain ⟨C, hC, htight⟩ := h.ok
  obtain ⟨C', hC', hchain, hroom, hcont, -⟩ := hC.head hfull
  have hneeds : c.fs.NeedsBlock f ↔ max z (o + k) % 256 = 0 := by
    have hdef : c.fs.NeedsBlock f ↔ (c.fs.dir f).size % 256 = 0 ∧ (c.fs.dir f).size ≠ 0 := Iff.rfl
    rw [hdef, h.size]
    omega
  -- the cursor is at the place of the offset
  have hlen : (C' (some f)).length = (o + k) / 256 + 1 := by
    rw [hchain, List.length_append, htight]
    unfold blocksFor
    by_cases hn : c.fs.NeedsBlock f
    · rw [if_pos hn]
      have := hneeds.mp hn
      simp only [List.length_singleton]
      omega
    · rw [if_neg hn]
      have := fun hmod => hn (hneeds.mpr hmod)
      simp only [List.length_nil]
      omega
  have hbyte : (c.head f).byte = ((o + k) % 256 : ℕ) := by
    by_cases hn : c.fs.NeedsBlock f
    · have := hneeds.mp hn
      rw [Cursor.head_of_needsBlock hn]
      change (0 : ℤ) = _
      omega
    · rw [Cursor.head_of_not_needsBlock hn]
      exact h.byte hn
  have haddr : (c.head f).block * blockSize + (c.head f).byte =
      addr blockSize (C' (some f)) (o + k) := by
    obtain ⟨xs, hlast⟩ := hC'.last
    have hxs : xs.length = (o + k) / 256 := by
      rw [hlast, List.length_append, List.length_singleton] at hlen
      omega
    change _ = (C' (some f)).getD ((o + k) / 256) 0 * blockSize + ((o + k) % 256 : ℕ)
    rw [hbyte, hlast, ← hxs, List.getD_append_right _ _ _ _ (le_refl _)]
    simp
  have hoff : ((c.head f).fs.fdt v).offset = (o + k : ℕ) := (Cursor.head_offset c).trans h.offset
  have hsize : ((c.head f).fs.dir f).size = (max z (o + k) : ℕ) := (Cursor.head_size c).trans h.size
  have hsize' : (((c.head f).put v f (m.load (buffer + k))).fs.dir f).size =
      (max z (o + (k + 1)) : ℕ) := by
    rw [Cursor.put_size, hsize, hoff]
    split_ifs <;> omega
  refine ⟨⟨C', hC'.put hroom v _, ?_⟩, hsize', ?_, fun hn => ?_, ?_⟩
  · rw [hlen]
    unfold blocksFor
    omega
  · rw [Cursor.put_offset, hoff]
    push_cast
    omega
  · -- the next place is in the same block, or the file needs a new one
    have hmod : ¬ max z (o + (k + 1)) % 256 = 0 := by
      intro hmod
      have hdef : ((c.head f).put v f (m.load (buffer + k))).fs.NeedsBlock f ↔
        (((c.head f).put v f (m.load (buffer + k))).fs.dir f).size % 256 = 0 ∧
        (((c.head f).put v f (m.load (buffer + k))).fs.dir f).size ≠ 0 := Iff.rfl
      rw [hdef, hsize'] at hn
      omega
    change (c.head f).byte + 1 = _
    rw [hbyte]
    omega
  · change ((c.head f).fs.storeByte v f ((c.head f).block * blockSize + (c.head f).byte) _).contents f = _
    rw [haddr, hC'.fat.contents_storeByte hC'.regular _ hoff (by omega) hroom, hcont, h.contents,
      userBytes_snoc, ← splice_snoc (by omega), length_userBytes]

/-- A write that starts in the last block, of a file whose size is not a whole number of blocks,
replaces the bytes at the offset. -/
lemma FatOk.sysWriteFile_overwrote (h : FatOk fs C) (hf : fs.IsRegular f) {o : ℕ}
    (hoff : (fs.fdt v).offset = o) (hlt : o < (fs.contents f).length)
    (hmod : (fs.dir f).size % 256 ≠ 0) (hlast : (o : ℤ) / 256 + 1 = (fs.dir f).nBlocks) (m : Memory)
    (buffer n : ℕ) :
    WriteEnds m f buffer n
      (Overwrote m v f buffer (fs.contents f).length o (fs.contents f))
      (fs.sysWriteFile m v f buffer n) := by
  obtain ⟨-, hn, hpos, hle⟩ := h.regular f hf
  change (fs.dir f).size ≤ 256 * (fs.dir f).nBlocks at hle
  have hsize : ((fs.contents f).length : ℤ) = (fs.dir f).size := by
    rw [length_contents, Int.toNat_of_nonneg hpos]
  have hmax : max (fs.contents f).length (o + 0) = (fs.contents f).length := by omega
  refine h.sysWriteFile_rule hf (fun b hb => ⟨⟨C, hb, ?_⟩, ?_, ?_, fun _ => ?_, ?_⟩)
    (fun k _ c hc hfull _ => hc.turn (by omega) hlt.le (by omega) rfl hfull)
  · rw [hmax]
    unfold blocksFor
    omega
  · rw [hmax]
    exact hsize.symm
  · exact hoff
  · change (fs.fdt v).offset % 256 = _
    rw [hoff]
    rfl
  · exact (splice_nil ..).symm

/-! ## Writing elsewhere -/

/-- The cell of byte `o` has kept its value `x`. -/
structure Missed (f : FileId) (blocks : List ℤ) (z o : ℕ) (x : Byte) (c : Cursor) : Prop where
  ok : ∃ C, c.Ok f C ∧ blocks <+: C (some f)
  size : (z : ℤ) ≤ (c.fs.dir f).size
  cell : c.fs.disk (addr blockSize blocks o) = x

/-- A turn that stores somewhere else, or the value that is there. -/
lemma Missed.turn {blocks : List ℤ} {z o : ℕ} {x b : Byte} {c : Cursor}
    (h : Missed f blocks z o x c) (hfull : ¬ c.Full f)
    (hb : b = x ∨ (c.head f).block * blockSize + (c.head f).byte ≠ addr blockSize blocks o) :
    Missed f blocks z o x ((c.head f).put v f b) := by
  obtain ⟨C, hC, hpre⟩ := h.ok
  obtain ⟨C', hC', hchain, hroom, -⟩ := hC.head hfull
  refine ⟨⟨C', hC'.put hroom v b, ?_⟩, ?_, ?_⟩
  · rw [hchain]
    exact hpre.trans (List.prefix_append _ _)
  · have hsize := h.size
    rw [Cursor.put_size, Cursor.head_size]
    split_ifs <;> omega
  · rw [Cursor.put_disk, Cursor.head_disk]
    rcases hb with rfl | hne
    · by_cases heq : addr blockSize blocks o = (c.head f).block * blockSize + (c.head f).byte
      · rw [heq, Function.update_self]
      · rw [Function.update_of_ne heq, h.cell]
    · rw [Function.update_of_ne hne.symm, h.cell]

/-- The byte of the contents that a missed cell holds. -/
lemma Missed.contents {blocks : List ℤ} {z o : ℕ} {x : Byte} {c : Cursor}
    (h : Missed f blocks z o x c) (ho : o < z) (hdiv : o / 256 < blocks.length) :
    (c.fs.contents f)[o]? = some x := by
  obtain ⟨C, hC, ys, hys⟩ := h.ok
  have hsize := h.size
  rw [hC.fat.contents_getElem hC.regular (by omega), ← hys, List.getD_append _ _ _ _ hdiv]
  exact congrArg some h.cell

/-- The first store of a write goes elsewhere, if the size is a whole number of blocks or the offset
is not in the last block. -/
lemma FatOk.first_store_ne (h : FatOk fs C) {o : ℕ} {b : ℤ}
    (hok : Cursor.Ok f C ⟨b, (fs.fdt v).offset % blockSize, fs⟩) (hoff : (fs.fdt v).offset = o)
    (hdiv : o / 256 < (C (some f)).length)
    (hcase : fs.NeedsBlock f ∨ o / 256 + 1 ≠ (C (some f)).length)
    (hfull : ¬ Cursor.Full f ⟨b, (fs.fdt v).offset % blockSize, fs⟩) :
    (Cursor.head f ⟨b, (fs.fdt v).offset % blockSize, fs⟩).block * blockSize +
      (Cursor.head f ⟨b, (fs.fdt v).offset % blockSize, fs⟩).byte ≠
      addr blockSize (C (some f)) o := by
  have hmem := getD_mem hdiv
  by_cases hn : fs.NeedsBlock f
  · -- a new block, which was free
    obtain ⟨free, hfree⟩ := h.free_cons fun hffb => hfull ⟨hn, hffb⟩
    rw [Cursor.head_of_needsBlock hn]
    intro heq
    have hblock : fs.ffb = (C (some f)).getD (o / 256) 0 := by
      change fs.ffb * 256 + 0 = (C (some f)).getD (o / 256) 0 * 256 + (o % 256 : ℕ) at heq
      omega
    exact h.chains.disjoint none (some f) (by simp) (by rw [hfree]; simp) (hblock ▸ hmem)
  · -- the last block, which is not the block of the offset
    rw [Cursor.head_of_not_needsBlock hn]
    intro heq
    have hblock : b = (C (some f)).getD (o / 256) 0 := by
      change b * 256 + (fs.fdt v).offset % 256 =
        (C (some f)).getD (o / 256) 0 * 256 + (o % 256 : ℕ) at heq
      omega
    obtain ⟨xs, hxs⟩ := hok.last
    have hlen : o / 256 < xs.length := by
      have := hcase.resolve_left hn
      rw [hxs, List.length_append, List.length_singleton] at this hdiv
      omega
    have hnodup := h.chains.nodup (some f)
    rw [hxs, List.nodup_append] at hnodup
    rw [hxs, List.getD_append _ _ _ _ hlen] at hblock
    exact hnodup.2.2 _ (getD_mem hlen) b (by simp) hblock.symm

/-- A write that starts elsewhere, with the byte at the offset for all its bytes but the first,
leaves the byte at the offset as it was. -/
lemma FatOk.sysWriteFile_missed (h : FatOk fs C) (hf : fs.IsRegular f) {o : ℕ}
    (hoff : (fs.fdt v).offset = o) (hlt : o < (fs.contents f).length) {x : Byte}
    (hx : (fs.contents f)[o]? = some x)
    (hcase : fs.NeedsBlock f ∨ o / 256 + 1 ≠ (C (some f)).length) {m : Memory} {buffer n : ℕ}
    (hm : ∀ k < n, 0 < k → m.load (buffer + k) = x) {fs' : FileSystem}
    (hret : fs.sysWriteFile m v f buffer n = .ret (n : ℤ) fs') : (fs'.contents f)[o]? = some x := by
  have hpos := (h.regular f hf).size_nonneg
  rw [length_contents] at hlt
  have hdiv : o / 256 < (C (some f)).length := (h.fits hf).div_lt (by decide) hlt
  have hcell : fs.disk (addr blockSize (C (some f)) o) = x := by
    rw [h.contents_getElem hf hlt, Option.some.injEq] at hx
    exact hx
  have hends : WriteEnds m f buffer n
      (fun k c => Missed f (C (some f)) (fs.dir f).size.toNat o x c ∧
        (k = 0 → ¬ c.Full f → (c.head f).block * blockSize + (c.head f).byte ≠
          addr blockSize (C (some f)) o))
      (fs.sysWriteFile m v f buffer n) := h.sysWriteFile_rule hf
    (fun b hb => ⟨⟨⟨C, hb, List.prefix_refl _⟩, (Int.toNat_of_nonneg hpos).le, hcell⟩,
      fun _ hfull => h.first_store_ne hb hoff hdiv hcase hfull⟩)
    (fun k hk c hc hfull _ => ⟨hc.1.turn hfull ?_, fun h0 => absurd h0 (Nat.succ_ne_zero k)⟩)
  · rw [hret] at hends
    rcases hends with ⟨c, hc, -, rfl⟩ | ⟨k, hk, c, -, -, hr, -⟩
    · exact hc.1.contents hlt hdiv
    · exfalso
      change (n : ℤ) = -28 at hr
      omega
  · by_cases hk0 : k = 0
    · exact .inr (hc.2 hk0 hfull)
    · exact .inl (hm k hk (Nat.pos_of_ne_zero hk0))

/-! ## The same write with other data -/

lemma storeByte_setCells (fs : FileSystem) (v : FdtId) (f : FileId) (a : ℤ) (b b' : Byte)
    (d : ℤ → Byte) :
    ({ fs with disk := d } : FileSystem).storeByte v f a b' =
      { fs.storeByte v f a b with disk := Function.update d a b' } := by
  unfold FileSystem.storeByte FileSystem.advance setDisk updFdt updDir
  simp only
  split_ifs <;> rfl

/-- Whether a write gets to its end depends neither on the data nor on what is on the disk. -/
lemma writeLoop_ret_of_ret {m m' : Memory} {v : FdtId} {f : FileId} {buffer buffer' : ℕ}
    {N : ℕ} (hp : ∀ j < N, m.present (buffer + j) = true → m'.present (buffer' + j) = true) (n : ℕ) :
    ∀ {i : ℕ} {b y : ℤ} {fs fs₁ : FileSystem} (d : ℤ → Byte), i + n = N →
      writeLoop m v f buffer n i b y fs = .ret (N : ℤ) fs₁ →
      ∃ fs₂, writeLoop m' v f buffer' n i b y { fs with disk := d } = .ret (N : ℤ) fs₂ := by
  induction n with
  | zero =>
    intro i b y fs fs₁ d hi _
    exact ⟨_, by rw [writeLoop, ← hi, Nat.add_zero]⟩
  | succ n ih =>
    intro i b y fs fs₁ d hi hret
    -- a turn after its head
    have hbyte : ∀ {fs : FileSystem} {b y : ℤ} (d : ℤ → Byte),
        writeByte m v f buffer n i b y fs = .ret (N : ℤ) fs₁ →
        ∃ fs₂, writeByte m' v f buffer' n i b y { fs with disk := d } = .ret (N : ℤ) fs₂ := by
      intro fs b y d hret
      unfold writeByte at hret ⊢
      split_ifs at hret with hpres hrange
      rw [if_pos (hp i (by omega) hpres), if_pos hrange]
      obtain ⟨fs₂, hfs₂⟩ := ih (Function.update d (b * blockSize + y) (m'.load (buffer' + i)))
        (by omega) hret
      have hstore := storeByte_setCells fs v f (b * blockSize + y) (m.load (buffer + i))
        (m'.load (buffer' + i)) d
      rw [FileSystem.storeByte] at hstore
      exact ⟨fs₂, hstore ▸ hfs₂⟩
    have hneeds : ({ fs with disk := d } : FileSystem).NeedsBlock f ↔ fs.NeedsBlock f := Iff.rfl
    rw [writeLoop_succ] at hret ⊢
    by_cases hn : fs.NeedsBlock f
    · rw [if_pos hn] at hret
      rw [if_pos (hneeds.mpr hn)]
      by_cases hffb : fs.ffb = -1
      · exfalso
        rw [if_pos hffb, Outcome.ret.injEq] at hret
        have hr : (-28 : ℤ) = N := hret.1
        omega
      · rw [if_neg hffb] at hret
        change ∃ fs₂, (if fs.ffb = -1 then _ else _) = _
        rw [if_neg hffb]
        exact hbyte d hret
    · rw [if_neg hn] at hret
      rw [if_neg fun hyes => hn (hneeds.mp hyes)]
      exact hbyte d hret

/-- The memory in which all pages are mapped, each to the frame of its own number, with given
bytes. -/
def flatMemory (data : ℕ → Byte) : Memory where
  physMem := fun _ => .used
  pagusrTable := fun page => { present := true, rw := true, user := true, pbaseAddr := page }
  frame := fun p k => data (p * pageSize + k)

lemma load_flatMemory (data : ℕ → Byte) (a : ℕ) : (flatMemory data).load a = data a := by
  change data (a / pageSize * pageSize + a % pageSize) = data a
  rw [Nat.div_add_mod']

lemma present_flatMemory {m : Memory} {a : ℕ} (h : m.present a = true) (data : ℕ → Byte) :
    (flatMemory data).present a = true := by
  have hlt : a / pageSize < totalPages := by
    rw [Memory.present, Bool.and_eq_true, decide_eq_true_eq] at h
    exact h.1
  rw [Memory.present, decide_eq_true hlt]
  rfl

/-- A write that returns its size returns it with any other bytes. -/
lemma FatOk.sysWriteFile_ret_flat (h : FatOk fs C) (hf : fs.IsRegular f) {m : Memory} {buffer n : ℕ}
    {fs₁ : FileSystem} (hret : fs.sysWriteFile m v f buffer n = .ret (n : ℤ) fs₁)
    (data : ℕ → Byte) :
    ∃ fs₂, fs.sysWriteFile (flatMemory data) v f buffer n = .ret (n : ℤ) fs₂ := by
  obtain ⟨xs, b, hb⟩ := h.last hf
  rw [FileSystem.sysWriteFile, h.walkLast_eq hf hb] at hret ⊢
  exact writeLoop_ret_of_ret (fun j _ hp => present_flatMemory hp data) n fs.disk (Nat.zero_add n)
    hret

/-- A write of `n` bytes through `v` replaces the bytes at the offset, if it returns `n`. -/
def OverwritesInPlace (fs : FileSystem) (m : Memory) (v : FdtId) (f : FileId) (buffer n : ℕ) : Prop :=
  ∀ fs', fs.sysWriteFile m v f buffer n = .ret (n : ℤ) fs' →
    let o := (fs.fdt v).offset.toNat
    fs'.contents f = (fs.contents f).take o ++ userBytes m buffer n ++ (fs.contents f).drop (o + n) ∧
    (fs'.dir f).size = max (fs.dir f).size ((o + n : ℕ) : ℤ) ∧ (fs'.fdt v).offset = ((o + n : ℕ) : ℤ)

lemma overwritesInPlace_zero (h : FatOk fs C) (hf : fs.IsRegular f) {o : ℕ}
    (hoff : (fs.fdt v).offset = o) (hlt : o < (fs.contents f).length) (m : Memory) (buffer : ℕ) :
    OverwritesInPlace fs m v f buffer 0 := by
  intro fs' hret
  obtain ⟨xs, b, hb⟩ := h.last hf
  rw [FileSystem.sysWriteFile, h.walkLast_eq hf hb] at hret
  obtain rfl : fs = fs' := (Outcome.ret.inj hret).2
  rw [length_contents] at hlt
  simp only [hoff, Int.toNat_natCast]
  refine ⟨by simp [userBytes], ?_, rfl⟩
  omega

lemma FatOk.overwritesInPlace (h : FatOk fs C) (hf : fs.IsRegular f) {o : ℕ}
    (hoff : (fs.fdt v).offset = o) (hlt : o < (fs.contents f).length)
    (hmod : (fs.dir f).size % 256 ≠ 0) (hlast : (o : ℤ) / 256 + 1 = (fs.dir f).nBlocks) (m : Memory)
    (buffer n : ℕ) : OverwritesInPlace fs m v f buffer n := by
  intro fs' hret
  have hends := h.sysWriteFile_overwrote hf hoff hlt hmod hlast m buffer n
  rw [hret] at hends
  have hpos := (h.regular f hf).size_nonneg
  simp only [hoff, Int.toNat_natCast]
  rcases hends with ⟨c, hc, -, rfl⟩ | ⟨k, hk, c, -, -, hr, -⟩
  · refine ⟨?_, ?_, hc.offset⟩
    · rw [hc.contents, splice, length_userBytes]
    · rw [hc.size, length_contents]
      omega
  · exfalso
    change (n : ℤ) = -28 at hr
    omega

/-- The bytes that a write elsewhere does not put in place: a first byte that differs from the byte
at the offset, and then copies of that one. -/
lemma FatOk.not_overwritesInPlace (h : FatOk fs C) (hf : fs.IsRegular f) {o n : ℕ}
    (hoff : (fs.fdt v).offset = o) (hlt : o < (fs.contents f).length) (hn : 0 < n)
    (hcase : fs.NeedsBlock f ∨ o / 256 + 1 ≠ (C (some f)).length) {m : Memory} {buffer : ℕ} {x : Byte}
    (hx : (fs.contents f)[o]? = some x) (hfirst : m.load buffer ≠ x)
    (hm : ∀ k < n, 0 < k → m.load (buffer + k) = x) {fs' : FileSystem}
    (hret : fs.sysWriteFile m v f buffer n = .ret (n : ℤ) fs') :
    ¬ OverwritesInPlace fs m v f buffer n := by
  intro hover
  have hkept := h.sysWriteFile_missed hf hoff hlt hx hcase hm hret
  have hcont := (hover fs' hret).1
  simp only [hoff, Int.toNat_natCast] at hcont
  have hlen : ((fs.contents f).take o).length = o := List.length_take_of_le hlt.le
  rw [hcont, List.append_assoc, List.getElem?_append_right (by omega), hlen, Nat.sub_self,
    List.getElem?_append_left (by simpa using hn)] at hkept
  have hget : (userBytes m buffer n)[0]? = some (m.load buffer) := by simp [userBytes, hn]
  rw [hget, Option.some.injEq] at hkept
  exact hfirst hkept

lemma exists_byte_ne (x : Byte) : ∃ y, y ≠ x := by
  by_cases h0 : x = 0
  · exact ⟨1, by rw [h0]; decide⟩
  · exact ⟨0, fun heq => h0 heq.symm⟩

end FileSystem

/-- **Overwriting in place.**  In a well-formed table, for a descriptor before the end of a regular
file and a number of bytes that can be written there: whatever the bytes, a write that returns their
number replaces the bytes at the offset, just when there are none, or the size is not a whole number
of blocks and the offset is in the last block of the file. -/
theorem overwrite_in_place_iff {fs : FileSystem} {C : Option FileId → List ℤ} (h : FatOk fs C)
    {f : FileId} (hf : fs.IsRegular f) {v : FdtId} {o : ℕ} (hoff : (fs.fdt v).offset = o)
    (hlt : o < (fs.contents f).length) {n : ℕ} {m₀ : Memory} {buffer₀ : ℕ} {fs₀ : FileSystem}
    (hret : fs.sysWriteFile m₀ v f buffer₀ n = .ret (n : ℤ) fs₀) :
    (∀ m buffer, OverwritesInPlace fs m v f buffer n) ↔
      n = 0 ∨ ((fs.dir f).size % blockSize ≠ 0 ∧ (o : ℤ) / blockSize + 1 = (fs.dir f).nBlocks) := by
  constructor
  · intro hall
    by_contra hno
    obtain ⟨hn, hplace⟩ := not_or.mp hno
    -- a memory with a first byte that differs from the byte at the offset
    have hx : (fs.contents f)[o]? = some ((fs.contents f)[o]) := List.getElem?_eq_getElem hlt
    generalize (fs.contents f)[o] = x at hx
    obtain ⟨y, hy⟩ := exists_byte_ne x
    obtain ⟨fs₂, hret₂⟩ := h.sysWriteFile_ret_flat hf hret fun a => if a = buffer₀ then y else x
    have hcase : fs.NeedsBlock f ∨ o / 256 + 1 ≠ (C (some f)).length := by
      by_contra hcase
      obtain ⟨hneeds, hlast⟩ := not_or.mp hcase
      have hnb := (h.regular f hf).nBlocks
      rw [length_contents] at hlt
      refine hplace ⟨fun hmod => hneeds ⟨hmod, by omega⟩, ?_⟩
      change (o : ℤ) / 256 + 1 = _
      omega
    refine h.not_overwritesInPlace hf hoff hlt (Nat.pos_of_ne_zero hn) hcase hx ?_ (fun k _ hk => ?_)
      hret₂ (hall _ buffer₀)
    · rw [load_flatMemory, if_pos rfl]
      exact hy
    · rw [load_flatMemory, if_neg (by omega)]
  · rintro (rfl | ⟨hmod, hlast⟩) m buffer
    · exact overwritesInPlace_zero h hf hoff hlt m buffer
    · exact h.overwritesInPlace hf hoff hlt hmod hlast m buffer n

/-- A write at the start of a file of ten bytes. -/
theorem overwrite_in_place_iff_one_block :
    ∃ r t, AnyRun linkedEnv.boot (writesOf r 1 10 ++ [plain (.open lUserStart nameF oRdwr)]) t ∧
      ∃ v f, t.fs.IsRegular f ∧ (t.fs.fdt v).offset = 0 ∧ (t.fs.contents f).length = 10 ∧
        ∀ m buffer, OverwritesInPlace t.fs m v f buffer 1 := by
  obtain ⟨r, t, C, fd, v, f, hrun, h⟩ := exists_reopened (k := 10) (by decide) 1 (by decide)
  have hsize : (t.fs.dir f).size = 10 := h.size
  have hblocks : (t.fs.dir f).nBlocks = 1 := by
    rw [(h.fat.regular f h.regular).nBlocks, h.blocks]
    rfl
  have hlen : (t.fs.contents f).length = 10 := h.length
  have hneeds : ¬ t.fs.NeedsBlock f := by
    rw [NeedsBlock, hsize]
    decide
  obtain ⟨fs', hret⟩ := h.fat.sysWriteFile_one h.regular (fun hn => absurd hn hneeds)
    (m := t.mm) (by rw [h.mm]; exact (linkedEnv_buffer (k := 1) (by decide)).2 0 (by decide)) v
  refine ⟨r, t, hrun, v, f, h.regular, h.offset, hlen, ?_⟩
  refine (overwrite_in_place_iff h.fat h.regular h.offset (by rw [hlen]; decide) hret).mpr (.inr ?_)
  rw [hsize, hblocks]
  decide

/-- Task 0 writes a file of 300 bytes, opens it again and changes the first byte of its buffer.  A
write of that byte goes to the second block of the file, and the first byte of the file stays as it
was. -/
theorem write_at_start_misplaced :
    ∃ r t, AnyRun linkedEnv.boot (writesOf r 1 300 ++ [plain (.open lUserStart nameF oRdwr)]) t ∧
      ∃ fd v f y, t.fds t.cur fd = some v ∧ (t.fs.fdt v).logicDev = some f ∧
        (t.fs.fdt v).accessMode = oRdwr ∧ t.fs.IsRegular f ∧ (t.fs.fdt v).offset = 0 ∧
        (t.fs.contents f).length = 300 ∧
        (∃ fs', t.fs.sysWriteFile (t.mm.store dataStart y) v f dataStart 1 = .ret 1 fs') ∧
        ¬ OverwritesInPlace t.fs (t.mm.store dataStart y) v f dataStart 1 := by
  obtain ⟨r, t, C, fd, v, f, hrun, h⟩ := exists_reopened (k := 300) (by decide) 1 (by decide)
  have hsize : (t.fs.dir f).size = 300 := h.size
  have hlen : (t.fs.contents f).length = 300 := h.length
  have hneeds : ¬ t.fs.NeedsBlock f := by
    rw [NeedsBlock, hsize]
    decide
  have hlt : 0 < (t.fs.contents f).length := by
    rw [hlen]
    decide
  obtain ⟨y, hy⟩ := exists_byte_ne (t.fs.contents f)[0]
  have hp : (t.mm.store dataStart y).present dataStart = true := by
    change t.mm.present dataStart = true
    rw [h.mm]
    exact (linkedEnv_buffer (k := 1) (by decide)).2 0 (by decide)
  obtain ⟨fs', hret⟩ := h.fat.sysWriteFile_one h.regular (fun hn => absurd hn hneeds) hp v
  refine ⟨r, t, hrun, fd, v, f, y, h.fd, by rw [h.entry], by rw [h.entry], h.regular, h.offset, hlen,
    ⟨fs', hret⟩, ?_⟩
  refine h.fat.not_overwritesInPlace h.regular h.offset hlt Nat.one_pos (.inr ?_)
    (List.getElem?_eq_getElem hlt) ?_ (fun k hk hk0 => by omega) hret
  · rw [h.blocks]
    decide
  · rw [Memory.load_store_self]
    exact hy

/-! ## Writes that fail -/

namespace FileSystem

variable {fs fs' : FileSystem} {C : Option FileId → List ℤ} {f : FileId} {v : FdtId}

/-- Nothing of a file, of the free list and of an entry of `fdt[]` has changed. -/
structure Untouched (v : FdtId) (f : FileId) (fs fs' : FileSystem) : Prop where
  contents : fs'.contents f = fs.contents f
  size : (fs'.dir f).size = (fs.dir f).size
  nBlocks : (fs'.dir f).nBlocks = (fs.dir f).nBlocks
  chain : ∀ xs, LinkChain.IsChain fs'.fat (-1) (fs'.dir f).firstBlock xs ↔
    LinkChain.IsChain fs.fat (-1) (fs.dir f).firstBlock xs
  free : ∀ xs, LinkChain.IsChain fs'.fat (-1) fs'.ffb xs ↔ LinkChain.IsChain fs.fat (-1) fs.ffb xs
  offset : (fs'.fdt v).offset = (fs.fdt v).offset

lemma Untouched.refl (v : FdtId) (f : FileId) (fs : FileSystem) : Untouched v f fs fs :=
  ⟨rfl, rfl, rfl, fun _ => Iff.rfl, fun _ => Iff.rfl, rfl⟩

/-- A write that runs out of blocks has stored the bytes before, and none just when the first byte
had no block. -/
lemma FatOk.untouched_iff (h : FatOk fs C) (hf : fs.IsRegular f) {m : Memory} {buffer n : ℕ} {r : ℤ}
    (hret : fs.sysWriteFile m v f buffer n = .ret r fs') (hneg : r < 0) :
    Untouched v f fs fs' ↔ fs.NeedsBlock f ∧ fs.ffb = -1 := by
  have hends : WriteEnds m f buffer n
      (fun k c => (c.fs.fdt v).offset = (fs.fdt v).offset + k ∧ (k = 0 → c.fs = fs) ∧
        (0 < k → ¬ (fs.NeedsBlock f ∧ fs.ffb = -1)))
      (fs.sysWriteFile m v f buffer n) := by
    refine h.sysWriteFile_rule hf (fun b hb => ⟨by simp, fun _ => rfl, fun h0 => absurd h0 (by simp)⟩)
      (fun k _ c hc hfull _ => ⟨?_, fun h0 => absurd h0 (Nat.succ_ne_zero k), fun _ => ?_⟩)
    · rw [Cursor.put_offset, Cursor.head_offset, hc.1]
      push_cast
      omega
    · by_cases hk : k = 0
      · rw [← hc.2.1 hk]
        exact hfull
      · exact hc.2.2 (Nat.pos_of_ne_zero hk)
  rw [hret] at hends
  rcases hends with ⟨c, -, hr, -⟩ | ⟨k, -, c, ⟨hoff, hfirst, hlater⟩, hfull, -, rfl⟩
  · omega
  · by_cases hk : k = 0
    · rw [hfirst hk]
      exact iff_of_true (.refl v f fs) (hfirst hk ▸ hfull)
    · refine iff_of_false (fun hun => ?_) (hlater (Nat.pos_of_ne_zero hk))
      have := hun.offset
      omega

/-- On a full disk, a write at the end of a file for which the last block is too small fails. -/
lemma AtEnd.sysWriteFile_full {z n : ℕ} (h : AtEnd fs C v f z) (hffb : fs.ffb = -1) (hz : 0 < z)
    (hlarge : 256 * blocksFor z < z + n) {m : Memory} {buffer : ℕ}
    (hp : ∀ j < n, m.present (buffer + j) = true) :
    ∃ fs', fs.sysWriteFile m v f buffer n = .ret (-eNospc) fs' := by
  have hends : WriteEnds m f buffer n
      (fun k c => c.fs.ffb = -1 ∧ (c.fs.dir f).size = (z + k : ℕ) ∧
        (c.fs.fdt v).offset = (z + k : ℕ) ∧ z + k ≤ 256 * blocksFor z)
      (fs.sysWriteFile m v f buffer n) := by
    refine h.fat.sysWriteFile_rule h.regular (fun b hb => ⟨hffb, h.size, h.offset, ?_⟩)
      (fun k _ c hc hfull _ => ?_)
    · unfold blocksFor
      omega
    · obtain ⟨hffb, hsize, hoff, hle⟩ := hc
      have hn : ¬ c.fs.NeedsBlock f := fun hn => hfull ⟨hn, hffb⟩
      have hroom : ¬ ((c.fs.dir f).size % 256 = 0 ∧ (c.fs.dir f).size ≠ 0) := hn
      rw [hsize] at hroom
      refine ⟨?_, ?_, ?_, by omega⟩
      · rw [Cursor.head_of_not_needsBlock hn, Cursor.put_ffb, hffb]
      · rw [Cursor.put_size, Cursor.head_size, Cursor.head_offset, hsize, hoff, if_pos (by omega)]
        push_cast
        omega
      · rw [Cursor.put_offset, Cursor.head_offset, hoff]
        push_cast
        omega
  have hover : ¬ fs.Overruns m v f buffer n := by
    rintro ⟨-, hbyte, -⟩
    rw [h.offset, h.size] at hbyte
    simp at hbyte
  have hdisk := (h.fat.sysWriteFile_own h.regular
    ((h.fat.stores_inFile_iff h.regular m v buffer n).mpr hover)).2
  cases hout : fs.sysWriteFile m v f buffer n with
  | ret r fs' =>
    rw [hout] at hends
    rcases hends with ⟨c, hc, -⟩ | ⟨k, -, c, -, -, rfl, -⟩
    · exact absurd hc.2.2.2 (by omega)
    · exact ⟨fs', rfl⟩
  | switched fs' =>
    rw [hout] at hends
    exact hends.elim
  | fault fs' =>
    rw [hout] at hends
    obtain ⟨k, hk, c, -, -, hno, -⟩ := hends
    exact absurd (hp k hk) hno
  | stop r =>
    rw [hout] at hends hdisk
    exact absurd (congrArg Outcome.stop hends) hdisk

end FileSystem

/-- Task 0 has filled the disk with one file, to which twenty bytes more do not go. -/
lemma exists_full_disk {k : ℕ} (hk : k < 4095) (j : ℕ) (hall : blocksFor (k * j) = 80)
    (hlarge : 256 * 80 < k * j + 20) :
    ∃ r t C v f u, AnyRun linkedEnv.boot (writesOf r j k) t ∧
      (t.enter fun _ => 0).openFile r = some v ∧ (t.fs.fdt v).logicDev = some f ∧
      AtEnd t.fs C v f (k * j) ∧ t.fs.ffb = -1 ∧
      (t.enter fun _ => 0).WritesDevice r dataStart 20 v f ∧
      (t.enter fun _ => 0).sysWrite r dataStart 20 = .ret (-eNospc) u ∧
      t.fs.sysWriteFile t.mm v f dataStart 20 = .ret (-eNospc) u.fs := by
  obtain ⟨r, t, n, hrun, h⟩ := HasFile.writes hk j hall.le
  obtain ⟨C, hlog, hend, hlen⟩ := h.chains
  have hok := hlog.files n (List.mem_singleton.mpr rfl)
  have hbuffer := linkedEnv_buffer (k := 20) (by decide)
  rw [← h.mm] at hbuffer
  have hffb : t.fs.ffb = -1 :=
    hend.fat.free_nil_iff.mp (List.length_eq_zero_iff.mp (by omega))
  obtain ⟨fs', hout⟩ :=
    hend.sysWriteFile_full hffb (by omega) (n := 20) (by rw [hall]; exact hlarge) hbuffer.2
  have hopen : (t.enter fun _ => 0).openFile r = some n.handle.entry := by
    rw [← h.desc.2, Kernel.openFile_of_fd, ← h.desc.1]
    exact hok.handle.fd
  have hentry := hok.handle.entry
  have hmode : (t.fs.fdt n.handle.entry).accessMode ≠ oRdonly := by
    rw [hentry]
    exact fun heq : oRdwr = oRdonly => absurd heq (by decide)
  have hwrite : (t.fs.ops n.handle.file).sysWriteDev = .sysWriteFile := by
    rw [show t.fs.ops n.handle.file = fileOps from hok.regular]
    rfl
  have hdevice : (t.enter fun _ => 0).WritesDevice r dataStart 20 n.handle.entry n.handle.file :=
    ⟨hopen, by decide, by decide, hmode, hbuffer.1, congrArg Virtual.logicDev hentry,
      fun hnull => absurd (hwrite.symm.trans hnull) (by decide)⟩
  have hret : (t.enter fun _ => 0).sysWrite r dataStart 20 =
      .ret (-eNospc) { t.enter (fun _ => 0) with fs := fs' } := by
    rw [hdevice.sysWrite_eq, Kernel.writeDev,
      show ((t.enter fun _ => 0).fs.ops n.handle.file).sysWriteDev = _ from hwrite]
    exact Outcome.lift_eq_ret_iff.mpr ⟨fs', hout, rfl⟩
  exact ⟨r, t, C, n.handle.entry, n.handle.file, _, hrun, hopen, by rw [hentry], hend, hffb, hdevice,
    hret, hout⟩

/-- **Failed writes.**  In every state that a run reaches, when `sys_write` on a descriptor of a
regular file returns a negative value: the file, the free list and the offset are as before just
when one of the checks of `sys_write` refused the call, or the file needed a block for the first
byte and there was none. -/
theorem failed_write_unchanged_iff (E : Env) (es : List Event) (s : Kernel)
    (hrun : AnyRun E.boot es s) (regs : SavedRegs) {fd : ℤ} {v : FdtId} {f : FileId}
    (hfd : (s.enter regs).openFile fd = some v) (hdev : (s.fs.fdt v).logicDev = some f)
    (hf : s.fs.IsRegular f) (buffer : ℕ) (size : ℤ) {r : ℤ} {t : Kernel}
    (hret : (s.enter regs).sysWrite fd buffer size = .ret r t) (hneg : r < 0) :
    Untouched v f s.fs t.fs ↔
      ¬ (s.enter regs).WritesDevice fd buffer size v f ∨ (s.fs.NeedsBlock f ∧ s.fs.ffb = -1) := by
  have hstep : ∀ (s : Kernel) (e : Event) (t : Kernel), s.TableOk → True → s.step e = .ok t →
      t.TableOk := fun s e t hs _ hst => hs.step hst
  obtain ⟨C, hC⟩ := hrun.invariant hstep E.boot_tableOk
  rcases (s.enter regs).sysWrite_writesDevice fd buffer size with
    ⟨v', f', hw, heq⟩ | ⟨hno, ⟨r', heq, -⟩ | heq⟩
  · obtain rfl : v' = v := Option.some.inj (hw.descriptor.symm.trans hfd)
    obtain rfl : f' = f := Option.some.inj (hw.device.symm.trans hdev)
    have hwrite : ((s.enter regs).fs.ops f').sysWriteDev = .sysWriteFile := by
      rw [show (s.enter regs).fs.ops f' = fileOps from hf]
      rfl
    rw [heq, Kernel.writeDev, hwrite] at hret
    obtain ⟨fs', hout, rfl⟩ := Outcome.lift_eq_ret_iff.mp hret
    rw [hC.untouched_iff hf hout hneg]
    exact ⟨.inr, fun h => h.resolve_left (not_not.mpr hw)⟩
  · rw [heq, Outcome.ret.injEq] at hret
    rw [← hret.2]
    exact iff_of_true (.refl v f s.fs) (.inl (hno v f))
  · rw [heq] at hret
    cases hret

/-- Task 0 fills the disk with a file of 80 whole blocks.  A write of twenty bytes more returns
`-ENOSPC` and has changed nothing. -/
theorem failed_write_unchanged_iff_no_space :
    ∃ r t, AnyRun linkedEnv.boot (writesOf r 8 2560) t ∧
      ∃ (v : FdtId) (f : FileId) (u : Kernel), (t.enter fun _ => 0).openFile r = some v ∧
        (t.fs.fdt v).logicDev = some f ∧ t.fs.IsRegular f ∧
        (t.enter fun _ => 0).WritesDevice r dataStart 20 v f ∧
        (t.enter fun _ => 0).sysWrite r dataStart 20 = .ret (-eNospc) u ∧
        Untouched v f t.fs u.fs := by
  obtain ⟨r, t, C, v, f, u, hrun, hopen, hdev, hend, hffb, hdevice, hret, -⟩ :=
    exists_full_disk (k := 2560) (by decide) 8 (by decide) (by decide)
  have hneeds : t.fs.NeedsBlock f := hend.needsBlock_iff.mpr (by decide)
  exact ⟨r, t, hrun, v, f, u, hopen, hdev, hend.regular, hdevice, hret,
    (failed_write_unchanged_iff linkedEnv _ t hrun (fun _ => 0) hopen hdev hend.regular dataStart 20
      hret (by decide)).mpr (.inr ⟨hneeds, hffb⟩)⟩

/-- Task 0 fills the disk with a file, up to ten bytes.  A write of twenty more returns `-ENOSPC`
and has moved the offset. -/
theorem failed_write_stores :
    ∃ r t, AnyRun linkedEnv.boot (writesOf r 5 4094) t ∧
      ∃ (v : FdtId) (f : FileId) (u : Kernel), (t.enter fun _ => 0).openFile r = some v ∧
        (t.fs.fdt v).logicDev = some f ∧ t.fs.IsRegular f ∧
        (t.enter fun _ => 0).sysWrite r dataStart 20 = .ret (-eNospc) u ∧
        ¬ Untouched v f t.fs u.fs := by
  obtain ⟨r, t, C, v, f, u, hrun, hopen, hdev, hend, -, -, hret, hout⟩ :=
    exists_full_disk (k := 4094) (by decide) 5 (by decide) (by decide)
  refine ⟨r, t, hrun, v, f, u, hopen, hdev, hend.regular, hret, fun hun => ?_⟩
  have hneeds := ((hend.fat.untouched_iff hend.regular hout (by decide)).mp hun).1
  rw [hend.needsBlock_iff] at hneeds
  exact absurd hneeds (by decide)

end ZeOS
