import ZeOS.FileStores

/-!
# What a read of a file returns

`sys_read_file` goes byte by byte from the offset to the end of the file or of the request.  At the
end of each block it also compares the offset, which counts from the start of the file, with the
size of the request, and returns when they are the same.  A request of `n` bytes, a multiple of the
block size, that starts inside the first `n` bytes of a longer file therefore ends at byte `n` of the
file, before it has got what it asked for.  No other request does (`read_count_iff`).
-/

namespace ZeOS

open FileSystem

namespace FileSystem

variable {fs : FileSystem} {C : Option FileId → List ℤ} {v : FdtId} {f : FileId} {size : ℕ}

/-- One turn of the read loop before the end of the file, from a place inside a block or from the end
of one that is not the end of the request. -/
lemma FatOk.readLoop_turn (h : FatOk fs C) (hf : fs.IsRegular f) (m : Memory) (buffer n i : ℕ)
    {o : ℕ} {block0 byte0 : ℤ} (hoff : (fs.fdt v).offset = o) (hlt : o < (fs.dir f).size.toNat)
    (hs : Stands (C (some f)) o block0 byte0) (hret : ¬ (byte0 = 256 ∧ o = size)) :
    ∃ b, (fs.contents f)[o]? = some b ∧
      FileSystem.readLoop v f buffer size (n + 1) i block0 byte0 (fs, m) =
        if m.present (buffer + i) = true then
          FileSystem.readLoop v f buffer size n (i + 1) ((C (some f)).getD (o / 256) 0)
            ((o % 256 : ℕ) + 1) (fs.seek v ((o + 1 : ℕ) : ℤ), m.store (buffer + i) b)
        else .fault (fs, m) := by
  have hpos := (h.regular f hf).size_nonneg
  have hend : byte0 % blockSize = 0 ∧ byte0 ≠ 0 ↔ byte0 = 256 := by
    change byte0 % 256 = 0 ∧ byte0 ≠ 0 ↔ byte0 = 256
    rcases hs with ⟨hbyte, -⟩ | ⟨-, -, hbyte, -⟩ <;> omega
  -- a block that ends before the file does is followed by another one
  have hnext : byte0 = 256 → fs.fat block0 ≠ -1 := by
    intro hbyte
    have hdiv : o / 256 < (C (some f)).length := (h.fits hf).div_lt (by decide) hlt
    rcases hs with ⟨hbyte', -⟩ | ⟨hmod, hne, -, hblock⟩
    · omega
    · rw [hblock, h.fat_getD hf (by omega)]
      have hmem := BlockData.getD_mem (i := o / 256 - 1 + 1) (by omega : _ < (C (some f)).length)
      have := (h.range _ _ hmem).1
      omega
  have hgo : ¬ ((byte0 % blockSize = 0 ∧ byte0 ≠ 0) ∧
      ((fs.fdt v).offset = size ∨ fs.fat block0 = -1)) := by
    rw [hend]
    rintro ⟨hbyte, heq | hlast⟩
    · rw [hoff] at heq
      exact hret ⟨hbyte, by exact_mod_cast heq⟩
    · exact hnext hbyte hlast
  refine ⟨_, h.contents_getElem hf hlt, ?_⟩
  have hseek : (fs.updFdt v fun w => { w with offset := w.offset + 1 }) =
      fs.seek v ((o + 1 : ℕ) : ℤ) := by
    simp [seek, updFdt, hoff]
  rw [FileSystem.readLoop, if_pos (show (fs.fdt v).offset < (fs.dir f).size by omega)]
  simp only [if_neg hgo, (hs.enter h hf hlt).1, (hs.enter h hf hlt).2, hseek]

/-- A read that meets no end of a block at the end of the request gets all it asks for, up to the end
of the file. -/
lemma readLoop_all (v : FdtId) (f : FileId) (buffer size : ℕ) (n : ℕ) :
    ∀ {fs : FileSystem} {m : Memory} {i o : ℕ} {block0 byte0 : ℤ}, FatOk fs C → fs.IsRegular f →
      (fs.fdt v).offset = o → o ≤ (fs.dir f).size.toNat →
      (o < (fs.dir f).size.toNat → Stands (C (some f)) o block0 byte0) →
      (∀ j < n, (0 < j ∨ byte0 = 256) → (o + j) % 256 = 0 → o + j < (fs.dir f).size.toNat →
        o + j ≠ size) →
      (∀ j < min n ((fs.dir f).size.toNat - o), m.present (buffer + i + j) = true) →
      readLoop v f buffer size n i block0 byte0 (fs, m) =
        .ret ((i + min n ((fs.dir f).size.toNat - o) : ℕ) : ℤ)
          (fs.seek v ((o + min n ((fs.dir f).size.toNat - o) : ℕ) : ℤ),
            Memory.storeAll (buffer + i)
              (((fs.contents f).drop o).take (min n ((fs.dir f).size.toNat - o))) m) := by
  induction n with
  | zero =>
    intro fs m i o block0 byte0 _ _ hoff _ _ _ _
    simp [readLoop, Memory.storeAll, seek_self hoff]
  | succ n ih =>
    intro fs m i o block0 byte0 h hf hoff ho hs hgo hp
    have hpos := (h.regular f hf).size_nonneg
    by_cases hlt : o < (fs.dir f).size.toNat
    · have hret : ¬ (byte0 = 256 ∧ o = size) := by
        rintro ⟨hbyte, heq⟩
        rcases hs hlt with ⟨hbyte', -⟩ | ⟨hmod, -⟩
        · omega
        · exact hgo 0 (by omega) (.inr hbyte) hmod hlt heq
      obtain ⟨b, hb, hturn⟩ := h.readLoop_turn hf m buffer n i hoff hlt (hs hlt) hret
      have hfat : FatOk (fs.seek v ((o + 1 : ℕ) : ℤ)) C := h.withFdt v _
      have hsplit : min (n + 1) ((fs.dir f).size.toNat - o) =
          min n ((fs.dir f).size.toNat - (o + 1)) + 1 := by omega
      have hp₀ : m.present (buffer + i) = true := hp 0 (by omega)
      have hsame := m.samePages_store hp₀ b
      have hrest := ih (m := m.store (buffer + i) b) (i := i + 1) hfat hf (seek_offset ..) hlt
        (fun _ => stands_succ _ o) (fun j hj _ hmod hjlt => ?_) (fun j hj => ?_)
      · rw [hturn, if_pos hp₀, hrest, hsplit]
        -- one byte more on both sides
        have hdrop : (fs.contents f).drop o = b :: (fs.contents f).drop (o + 1) := by
          obtain ⟨hlen, hget⟩ := List.getElem?_eq_some_iff.mp hb
          rw [← hget]
          exact List.drop_eq_getElem_cons hlen
        rw [hdrop, List.take_succ_cons, Memory.storeAll, seek_seek]
        have hcount : ∀ k, i + 1 + k = i + (k + 1) ∧ o + 1 + k = o + (k + 1) := by omega
        rw [(hcount _).1, (hcount _).2]
        rfl
      · have := hgo (j + 1) (by omega) (.inl (by omega))
        rw [show o + 1 + j = o + (j + 1) by omega] at hmod hjlt ⊢
        exact this hmod hjlt
      · rw [hsame.present, show buffer + (i + 1) + j = buffer + i + (j + 1) by omega]
        refine hp (j + 1) ?_
        change j < min n ((fs.dir f).size.toNat - (o + 1)) at hj
        omega
    · have hzero : (fs.dir f).size.toNat - o = 0 := by omega
      rw [readLoop, if_neg (show ¬ (fs.fdt v).offset < (fs.dir f).size by omega), hzero]
      simp [Memory.storeAll, seek_self hoff]

/-- What one turn of the read loop can do. -/
lemma readLoop_succ_cases (v : FdtId) (f : FileId) (buffer size n i : ℕ) (block0 byte0 : ℤ)
    (fs : FileSystem) (m : Memory) :
    readLoop v f buffer size (n + 1) i block0 byte0 (fs, m) = .ret i (fs, m) ∨
    readLoop v f buffer size (n + 1) i block0 byte0 (fs, m) = .fault (fs, m) ∨
    m.present (buffer + i) = true ∧ ∃ block byte fs' b,
      readLoop v f buffer size (n + 1) i block0 byte0 (fs, m) =
        readLoop v f buffer size n (i + 1) block byte (fs', m.store (buffer + i) b) := by
  rw [readLoop]
  simp only
  by_cases hlt : (fs.fdt v).offset < (fs.dir f).size
  · rw [if_pos hlt]
    by_cases hret : (byte0 % blockSize = 0 ∧ byte0 ≠ 0) ∧
        ((fs.fdt v).offset = size ∨ fs.fat block0 = -1)
    · exact .inl (if_pos hret)
    · rw [if_neg hret]
      by_cases hp : m.present (buffer + i) = true
      · exact .inr (.inr ⟨hp, _, _, _, _, if_pos hp⟩)
      · exact .inr (.inl (if_neg hp))
  · exact .inl (if_neg hlt)

/-- Every byte that a read has delivered went to a page that is present. -/
lemma readLoop_present (v : FdtId) (f : FileId) (buffer size : ℕ) (n : ℕ) :
    ∀ {fs : FileSystem} {m : Memory} {i : ℕ} {block0 byte0 r : ℤ} {st : FileSystem × Memory},
      readLoop v f buffer size n i block0 byte0 (fs, m) = .ret r st →
      ∀ j : ℕ, i ≤ j → (j : ℤ) < r → m.present (buffer + j) = true := by
  induction n with
  | zero =>
    intro fs m i block0 byte0 r st h j hij hjr
    simp only [readLoop, Outcome.ret.injEq] at h
    omega
  | succ n ih =>
    intro fs m i block0 byte0 r st h j hij hjr
    rcases readLoop_succ_cases v f buffer size n i block0 byte0 fs m with
      hret | hfault | ⟨hp, block, byte, fs', b, hturn⟩
    · rw [hret, Outcome.ret.injEq] at h
      omega
    · simp [hfault] at h
    · by_cases hj : j = i
      · rw [hj]
        exact hp
      · rw [hturn] at h
        have := ih h j (by omega) hjr
        rwa [(m.samePages_store hp b).present] at this

/-- A read that comes to the end of the request at the end of a block goes no further. -/
lemma readLoop_le (v : FdtId) (f : FileId) (buffer size : ℕ) (hsize : size % 256 = 0) (n : ℕ) :
    ∀ {fs : FileSystem} {m : Memory} {i o : ℕ} {block0 byte0 r : ℤ} {st : FileSystem × Memory},
      FatOk fs C → fs.IsRegular f → (fs.fdt v).offset = o → o ≤ size →
      size < (fs.dir f).size.toNat → Stands (C (some f)) o block0 byte0 →
      (o = size → byte0 = 256) →
      readLoop v f buffer size n i block0 byte0 (fs, m) = .ret r st → r ≤ i + (size - o : ℕ) := by
  induction n with
  | zero =>
    intro fs m i o block0 byte0 r st _ _ _ _ _ _ _ hout
    simp only [readLoop, Outcome.ret.injEq] at hout
    omega
  | succ n ih =>
    intro fs m i o block0 byte0 r st h hf hoff ho hlt hs hend hout
    by_cases heq : o = size
    · have hret : (byte0 % blockSize = 0 ∧ byte0 ≠ 0) ∧
          ((fs.fdt v).offset = size ∨ fs.fat block0 = -1) := by
        rw [hend heq, hoff, heq]
        exact ⟨by decide, .inl rfl⟩
      rw [readLoop, if_pos (show (fs.fdt v).offset < (fs.dir f).size by omega)] at hout
      simp only [if_pos hret, Outcome.ret.injEq] at hout
      omega
    · obtain ⟨b, -, hturn⟩ := h.readLoop_turn hf m buffer n i hoff (by omega) hs
        (fun hr => heq hr.2)
      rw [hturn] at hout
      split_ifs at hout with hp
      have hfat : FatOk (fs.seek v ((o + 1 : ℕ) : ℤ)) C := h.withFdt v _
      have := ih hfat hf (seek_offset ..) (by omega) hlt (stands_succ _ o) (fun h1 => by omega) hout
      omega

/-- A read of `n` bytes through `v` gets all that there is: it returns the smaller of `n` and the
number of bytes behind the offset, has these bytes in the buffer and the offset behind them, and has
changed nothing else. -/
def ReadsAll (fs : FileSystem) (m : Memory) (v : FdtId) (f : FileId) (buffer n : ℕ) : Prop :=
  let o := (fs.fdt v).offset.toNat
  let k := min n ((fs.contents f).length - o)
  fs.sysReadFile m v f buffer n = .ret (k : ℤ)
    (fs.seek v ((o + k : ℕ) : ℤ), Memory.storeAll buffer (((fs.contents f).drop o).take k) m)

/-- A read that does not start inside a request of whole blocks gets all that there is. -/
lemma FatOk.readsAll (h : FatOk fs C) (hf : fs.IsRegular f) {o : ℕ} (hoff : (fs.fdt v).offset = o)
    (ho : o ≤ (fs.contents f).length) {m : Memory} {buffer n : ℕ}
    (hp : ∀ j < min n ((fs.contents f).length - o), m.present (buffer + j) = true)
    (hno : ¬ (n % blockSize = 0 ∧ 0 < o ∧ o < n ∧ n < (fs.contents f).length)) :
    ReadsAll fs m v f buffer n := by
  have hnat : (fs.fdt v).offset.toNat = o := by
    rw [hoff]
    rfl
  have hbyte : (fs.fdt v).offset % blockSize ≠ 256 := by
    change (fs.fdt v).offset % 256 ≠ 256
    omega
  rw [length_contents] at ho hp hno
  unfold ReadsAll FileSystem.sysReadFile
  simp only [hnat, length_contents]
  have hall := readLoop_all v f buffer n n (m := m) (i := 0) h hf hoff ho (h.stands_offset hf hoff)
    (fun j hj hstart hmod hjlt heq => ?_) hp
  · rw [hall, Nat.zero_add]
    rfl
  · have hj0 := hstart.resolve_right hbyte
    refine hno ⟨?_, by omega, by omega, by omega⟩
    change n % 256 = 0
    rwa [heq] at hmod

/-- A read from inside a request of whole blocks ends with the first `n` bytes of the file. -/
lemma FatOk.sysReadFile_le (h : FatOk fs C) (hf : fs.IsRegular f) {o : ℕ}
    (hoff : (fs.fdt v).offset = o) {m : Memory} {buffer n : ℕ} (hmod : n % 256 = 0) (hlt : o < n)
    (hin : n < (fs.contents f).length) {r : ℤ} {st : FileSystem × Memory}
    (hread : fs.sysReadFile m v f buffer n = .ret r st) : r ≤ (n - o : ℕ) := by
  rw [length_contents] at hin
  have hle := readLoop_le v f buffer n hmod n h hf hoff hlt.le hin
    (h.stands_offset hf hoff (hlt.trans hin)) (fun heq => absurd heq hlt.ne) hread
  omega

end FileSystem

/-- **Read count.**  In a well-formed table, a read from any offset of a regular file gets all that
there is just when the bytes of the buffer that it has to fill are mapped, and the request is not a
whole number of blocks that is ahead of the offset and inside the file, with the offset not at the
start.  (In a request of that kind the loop takes the end of the first `n` bytes of the file for the
end of the request.) -/
theorem read_count_iff {fs : FileSystem} {C : Option FileId → List ℤ} (h : FatOk fs C) {f : FileId}
    (hf : fs.IsRegular f) {v : FdtId} {o : ℕ} (hoff : (fs.fdt v).offset = o)
    (ho : o ≤ (fs.contents f).length) (m : Memory) (buffer n : ℕ) :
    ReadsAll fs m v f buffer n ↔
      (∀ j < min n ((fs.contents f).length - o), m.present (buffer + j) = true) ∧
      ¬ (n % blockSize = 0 ∧ 0 < o ∧ o < n ∧ n < (fs.contents f).length) := by
  refine ⟨fun hread => ?_, fun ⟨hp, hno⟩ => h.readsAll hf hoff ho hp hno⟩
  have hnat : (fs.fdt v).offset.toNat = o := by
    rw [hoff]
    rfl
  simp only [ReadsAll, hnat] at hread
  constructor
  · intro j hj
    exact readLoop_present v f buffer n n hread j (Nat.zero_le j) (by omega)
  · rintro ⟨hmod, hpos, hlt, hin⟩
    have hle := h.sysReadFile_le hf hoff hmod hlt hin hread
    omega

/-- A read of 256 bytes from the start of a file of 300. -/
theorem read_count_iff_from_start :
    ∃ r t, AnyRun linkedEnv.boot (writesOf r 1 300 ++ [plain (.open lUserStart nameF oRdwr)]) t ∧
      ∃ v f, t.fs.IsRegular f ∧ (t.fs.contents f).length = 300 ∧
        ReadsAll t.fs t.mm v f dataStart 256 := by
  obtain ⟨r, t, C, fd, v, f, hrun, h⟩ := exists_reopened (k := 300) (by decide) 1 (by decide)
  have hbuffer := (linkedEnv_buffer (k := 256) (by decide)).2
  rw [← h.mm] at hbuffer
  refine ⟨r, t, hrun, v, f, h.regular, h.length, ?_⟩
  refine (read_count_iff h.fat h.regular h.offset (Nat.zero_le _) t.mm dataStart 256).mpr
    ⟨fun j hj => hbuffer j (by omega), ?_⟩
  rintro ⟨-, hpos, -⟩
  exact absurd hpos (lt_irrefl 0)

/-- Task 0 writes a file of 300 bytes, opens it again and reads a byte.  The next read, of 256
bytes, gets 255 although 299 are left. -/
theorem short_read_before_end :
    ∃ r t, AnyRun linkedEnv.boot (writesOf r 1 300 ++ [plain (.open lUserStart nameF oRdwr)]) t ∧
      ∃ v f m', t.fs.IsRegular f ∧ (t.fs.contents f).length = 300 ∧
        t.fs.sysReadFile t.mm v f dataStart 1 = .ret 1 (t.fs.seek v 1, m') ∧
        ((t.fs.seek v 1).fdt v).offset = 1 ∧
        (∀ j < 256, m'.present (dataStart + j) = true) ∧
        ¬ ReadsAll (t.fs.seek v 1) m' v f dataStart 256 := by
  obtain ⟨r, t, C, fd, v, f, hrun, h⟩ := exists_reopened (k := 300) (by decide) 1 (by decide)
  have hbuffer := (linkedEnv_buffer (k := 256) (by decide)).2
  rw [← h.mm] at hbuffer
  have hlen : (t.fs.contents f).length = 300 := h.length
  have hone : ReadsAll t.fs t.mm v f dataStart 1 :=
    h.fat.readsAll h.regular h.offset (Nat.zero_le _) (fun j hj => hbuffer j (by omega))
      (fun hno => absurd hno.2.1 (lt_irrefl 0))
  have hmin : min 1 ((t.fs.contents f).length - (0 : ℤ).toNat) = 1 := by
    rw [hlen]
    rfl
  simp only [ReadsAll, h.offset, hmin] at hone
  refine ⟨r, t, hrun, v, f, _, h.regular, hlen, hone, seek_offset .., fun j hj => ?_, fun hread => ?_⟩
  · rw [Memory.present, Memory.storeAll_table]
    exact hbuffer j hj
  · have hfat : FatOk (t.fs.seek v 1) C := h.fat.withFdt v _
    have hlen' : ((t.fs.seek v 1).contents f).length = 300 := hlen
    simp only [ReadsAll, seek_offset, hlen'] at hread
    have hle := hfat.sysReadFile_le (o := 1) h.regular (seek_offset ..) (by decide) (by decide)
      (by rw [hlen']; decide) hread
    exact absurd hle (by decide)

end ZeOS
