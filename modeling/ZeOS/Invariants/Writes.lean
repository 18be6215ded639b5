import ZeOS.Invariants.Contents

/-!
# The byte loop of `sys_write_file`, turn by turn

A `Cursor` is where the loop stands before a turn: the block and the byte that it would store to,
and the tables.  A turn takes a new block if the size of the file says so (`Cursor.head`), and then
stores a byte and moves on (`Cursor.put`).

`writeLoop_rule` is the rule for invariants of the loop: what holds at the start and is kept by a
turn holds where the loop ends, and there are four ends: after the last byte, on a full disk, at a
byte of the buffer that is not mapped, and behind the disk.
-/

namespace ZeOS

open LinkChain BlockData

namespace FileSystem

/-- Where the byte loop stands. -/
structure Cursor where
  block : ℤ
  byte : ℤ
  fs : FileSystem

namespace Cursor

variable {f : FileId} {v : FdtId} {c : Cursor} {C : Option FileId → List ℤ}

/-- The turn needs a new block and there is none. -/
def Full (f : FileId) (c : Cursor) : Prop := c.fs.NeedsBlock f ∧ c.fs.ffb = -1

/-- The head of a turn: a new block, if the file needs one. -/
def head (f : FileId) (c : Cursor) : Cursor :=
  if c.fs.NeedsBlock f then { block := c.fs.ffb, byte := 0, fs := c.fs.grown f c.block } else c

/-- The rest of a turn: a byte is stored. -/
def put (v : FdtId) (f : FileId) (b : Byte) (c : Cursor) : Cursor :=
  { block := c.block
    byte := c.byte + 1
    fs := c.fs.storeByte v f (c.block * blockSize + c.byte) b }

/-- The tables are well formed, and the cursor is in the last block of the file. -/
structure Ok (f : FileId) (C : Option FileId → List ℤ) (c : Cursor) : Prop where
  fat : FatOk c.fs C
  regular : c.fs.IsRegular f
  last : ∃ xs, C (some f) = xs ++ [c.block]

lemma head_of_needsBlock (h : c.fs.NeedsBlock f) :
    c.head f = { block := c.fs.ffb, byte := 0, fs := c.fs.grown f c.block } := if_pos h

lemma head_of_not_needsBlock (h : ¬ c.fs.NeedsBlock f) : c.head f = c := if_neg h

lemma head_offset (c : Cursor) : ((c.head f).fs.fdt v).offset = (c.fs.fdt v).offset := by
  unfold head
  split_ifs <;> rfl

lemma head_disk (c : Cursor) : (c.head f).fs.disk = c.fs.disk := by
  unfold head
  split_ifs <;> rfl

lemma head_size (c : Cursor) : ((c.head f).fs.dir f).size = (c.fs.dir f).size := by
  unfold head
  split_ifs
  · rw [grown_dir]
  · rfl

lemma head_dir_of_ne (c : Cursor) {g : FileId} (hg : g ≠ f) : (c.head f).fs.dir g = c.fs.dir g := by
  unfold head
  split_ifs
  · exact grown_dir_of_ne c.fs hg c.block
  · rfl

lemma put_dir_of_ne (c : Cursor) (b : Byte) {g : FileId} (hg : g ≠ f) :
    (c.put v f b).fs.dir g = c.fs.dir g := by
  unfold put FileSystem.storeByte FileSystem.advance
  simp only
  split_ifs
  · simp [setDisk, hg]
  · rfl

lemma put_offset (c : Cursor) (b : Byte) :
    ((c.put v f b).fs.fdt v).offset = (c.fs.fdt v).offset + 1 := storeByte_offset ..

lemma put_ffb (c : Cursor) (b : Byte) : (c.put v f b).fs.ffb = c.fs.ffb := by
  unfold put FileSystem.storeByte FileSystem.advance
  simp only
  split_ifs <;> rfl

lemma put_disk (c : Cursor) (b : Byte) :
    (c.put v f b).fs.disk = Function.update c.fs.disk (c.block * blockSize + c.byte) b :=
  storeByte_disk ..

lemma put_size (c : Cursor) (b : Byte) :
    ((c.put v f b).fs.dir f).size =
      if (c.fs.dir f).size < (c.fs.fdt v).offset + 1 then (c.fs.dir f).size + 1
      else (c.fs.dir f).size := storeByte_size ..

/-- The chains after the head of a turn, with room for the byte. -/
lemma Ok.head (h : c.Ok f C) (hfull : ¬ c.Full f) :
    ∃ C', (c.head f).Ok f C' ∧
      C' (some f) = C (some f) ++ (if c.fs.NeedsBlock f then [c.fs.ffb] else []) ∧
      ((c.head f).fs.dir f).size < blockSize * ((c.head f).fs.dir f).nBlocks ∧
      (c.head f).fs.contents f = c.fs.contents f ∧
      (c.fs.NeedsBlock f → C none = c.fs.ffb :: C' none) ∧
      (¬ c.fs.NeedsBlock f → C' none = C none) := by
  obtain ⟨xs, hl⟩ := h.last
  by_cases hn : c.fs.NeedsBlock f
  · obtain ⟨free, hfree⟩ := h.fat.free_cons fun hffb => hfull ⟨hn, hffb⟩
    rw [head_of_needsBlock hn, if_pos hn]
    refine ⟨_, ⟨h.fat.grown h.regular hl hfree, h.regular, C (some f), Function.update_self ..⟩,
      Function.update_self .., h.fat.room_grown h.regular c.block,
      h.fat.contents_grown h.regular hl hfree h.regular, fun _ => ?_, fun hno => absurd hn hno⟩
    rw [grownChains, Function.update_of_ne (by simp), Function.update_self, hfree]
  · rw [head_of_not_needsBlock hn, if_neg hn, List.append_nil]
    exact ⟨C, h, rfl, h.fat.room_of_not_needsBlock h.regular hn, rfl, fun hyes => absurd hyes hn,
      fun _ => rfl⟩

/-- A store leaves the chains alone. -/
lemma Ok.put (h : c.Ok f C) (hroom : (c.fs.dir f).size < blockSize * (c.fs.dir f).nBlocks)
    (v : FdtId) (b : Byte) : (c.put v f b).Ok f C :=
  ⟨(h.fat.withDisk ..).advance hroom v, isRegular_advance.mpr h.regular, h.last⟩

end Cursor

/-! ## The rule of the loop -/

/-- How the byte loop for `n` bytes ends, when `P k` holds of the cursor before byte `k`. -/
def WriteEnds (m : Memory) (f : FileId) (buffer n : ℕ) (P : ℕ → Cursor → Prop) :
    Outcome FileSystem ℤ → Prop
  | .ret r fs' => (∃ c, P n c ∧ r = n ∧ fs' = c.fs) ∨
      ∃ k < n, ∃ c, P k c ∧ c.Full f ∧ r = -eNospc ∧ fs' = c.fs
  | .fault fs' => ∃ k < n, ∃ c, P k c ∧ ¬ c.Full f ∧ ¬ m.present (buffer + k) = true ∧
      fs' = (c.head f).fs
  | .switched _ => False
  | .stop r => r = .offDisk

/-- What a turn keeps holds where the loop ends. -/
lemma writeLoop_rule {m : Memory} {v : FdtId} {f : FileId} {buffer : ℕ} {N : ℕ}
    {P : ℕ → Cursor → Prop}
    (hturn : ∀ k < N, ∀ c, P k c → ¬ c.Full f → m.present (buffer + k) = true →
      P (k + 1) ((c.head f).put v f (m.load (buffer + k)))) :
    ∀ {n i : ℕ} {c : Cursor}, i + n = N → P i c →
      WriteEnds m f buffer N P (writeLoop m v f buffer n i c.block c.byte c.fs) := by
  intro n
  induction n with
  | zero =>
    intro i c hi hc
    rw [Nat.add_zero] at hi
    exact .inl ⟨c, hi ▸ hc, by rw [hi], rfl⟩
  | succ n ih =>
    intro i c hi hc
    have hlt : i < N := by omega
    -- the rest of the turn, from the cursor behind its head
    have hbyte : ¬ c.Full f → WriteEnds m f buffer N P
        (writeByte m v f buffer n i (c.head f).block (c.head f).byte (c.head f).fs) := by
      intro hfull
      unfold writeByte
      by_cases hp : m.present (buffer + i) = true
      · rw [if_pos hp]
        split_ifs
        · exact ih (c := (c.head f).put v f (m.load (buffer + i))) (by omega)
            (hturn i hlt c hc hfull hp)
        · rfl
      · rw [if_neg hp]
        exact ⟨i, hlt, c, hc, hfull, hp, rfl⟩
    rw [writeLoop_succ]
    by_cases hn : c.fs.NeedsBlock f
    · rw [if_pos hn]
      by_cases hffb : c.fs.ffb = -1
      · rw [if_pos hffb]
        exact .inr ⟨i, hlt, c, hc, ⟨hn, hffb⟩, rfl, rfl⟩
      · rw [if_neg hffb]
        rw [Cursor.head_of_needsBlock hn] at hbyte
        exact hbyte fun hfull => hffb hfull.2
    · rw [if_neg hn]
      rw [Cursor.head_of_not_needsBlock hn] at hbyte
      exact hbyte fun hfull => hn hfull.1

/-- What holds at the ends of the loop holds of the state it leaves. -/
lemma WriteEnds.leaves {m : Memory} {f : FileId} {buffer n : ℕ} {P : ℕ → Cursor → Prop}
    {Q : FileSystem → Prop} {o : Outcome FileSystem ℤ} (h : WriteEnds m f buffer n P o)
    (hret : ∀ c, P n c → Q c.fs) (hfull : ∀ k < n, ∀ c, P k c → c.Full f → Q c.fs)
    (hfault : ∀ k < n, ∀ c, P k c → ¬ c.Full f → ¬ m.present (buffer + k) = true →
      Q (c.head f).fs) : o.Leaves Q := by
  cases o with
  | ret r fs' =>
    rcases h with ⟨c, hc, -, rfl⟩ | ⟨k, hk, c, hc, hno, -, rfl⟩
    · exact hret c hc
    · exact hfull k hk c hc hno
  | switched fs' => exact h.elim
  | fault fs' =>
    obtain ⟨k, hk, c, hc, hno, hp, rfl⟩ := h
    exact hfault k hk c hc hno hp
  | stop r => trivial

/-- The rule for `sys_write_file`, with the cursor that it starts from. -/
lemma FatOk.sysWriteFile_rule {fs : FileSystem} {C : Option FileId → List ℤ} {f : FileId}
    (h : FatOk fs C) (hf : fs.IsRegular f) {m : Memory} {v : FdtId} {buffer n : ℕ}
    {P : ℕ → Cursor → Prop}
    (hstart : ∀ b, Cursor.Ok f C ⟨b, (fs.fdt v).offset % blockSize, fs⟩ →
      P 0 ⟨b, (fs.fdt v).offset % blockSize, fs⟩)
    (hturn : ∀ k < n, ∀ c, P k c → ¬ c.Full f → m.present (buffer + k) = true →
      P (k + 1) ((c.head f).put v f (m.load (buffer + k)))) :
    WriteEnds m f buffer n P (fs.sysWriteFile m v f buffer n) := by
  obtain ⟨xs, b, hb⟩ := h.last hf
  rw [FileSystem.sysWriteFile, h.walkLast_eq hf hb]
  exact writeLoop_rule hturn (c := ⟨b, (fs.fdt v).offset % blockSize, fs⟩) (Nat.zero_add n)
    (hstart b ⟨h, hf, xs, hb⟩)

/-- A byte that has a block is written. -/
lemma FatOk.sysWriteFile_one {fs : FileSystem} {C : Option FileId → List ℤ} {f : FileId}
    (h : FatOk fs C) (hf : fs.IsRegular f) (hspace : fs.NeedsBlock f → fs.ffb ≠ -1) {m : Memory}
    {buffer : ℕ} (hp : m.present buffer = true) (v : FdtId) :
    ∃ fs', fs.sysWriteFile m v f buffer 1 = .ret ((1 : ℕ) : ℤ) fs' := by
  obtain ⟨xs, b, hb⟩ := h.last hf
  rw [FileSystem.sysWriteFile, h.walkLast_eq hf hb]
  by_cases hn : fs.NeedsBlock f
  · obtain ⟨free, hfree⟩ := h.free_cons (hspace hn)
    have hcell : 0 ≤ fs.ffb * blockSize + 0 ∧ fs.ffb * blockSize + 0 < maxBlocks * blockSize :=
      h.cell_range (i := none) (by rw [hfree]; simp) le_rfl (by decide)
    simp only [writeLoop_succ, if_pos hn, if_neg (hspace hn), writeByte, Nat.add_zero, if_pos hp,
      if_pos hcell]
    exact ⟨_, rfl⟩
  · have hcell : 0 ≤ b * blockSize + (fs.fdt v).offset % blockSize ∧
        b * blockSize + (fs.fdt v).offset % blockSize < maxBlocks * blockSize :=
      h.cell_range (i := some f) (by rw [hb]; simp) (Int.emod_nonneg _ (by decide))
        (Int.emod_lt_of_pos _ (by decide))
    simp only [writeLoop_succ, if_neg hn, writeByte, Nat.add_zero, if_pos hp, if_pos hcell]
    exact ⟨_, rfl⟩

end FileSystem

end ZeOS
