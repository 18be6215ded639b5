import ZeOS.Kernel.Loader
import ZeOS.Invariants.Frames
import ZeOS.UtilityRoutines

/-!
# What is built is what runs

The disk image goes through three programs that agree on it by its layout alone: `build` writes it,
the boot sector loads it, and `main` finds the user program in what was loaded.  `built_image_boots`
follows it all the way.

The loop of `read_it` is the part with an argument in it.  It reads as much as it can at once, up to
the end of the track or of the 64 kB segment, and keeps its place on the disk and its place in memory
in five registers and variables; `Loading` says how these hang together when `n` sectors are loaded.
Every round adds at least one sector and never leaves the segment, so that the loop comes to the ends
of segments, where alone it can return.
-/

namespace ZeOS

open RangeCopy

/-! ## The bytes of numbers -/

@[simp] lemma length_bytesOf (n v : ℕ) : (bytesOf n v).length = n := by
  induction n generalizing v with
  | zero => rfl
  | succ n ih => rw [bytesOf, List.length_cons, ih]

namespace Ram

variable {m m' : Ram} {p q : ℕ}

lemma loadHalf_congr (h : ∀ i < 2, m (p + i) = m' (q + i)) : m.loadHalf p = m'.loadHalf q := by
  have h0 : m p = m' q := h 0 (by decide)
  rw [loadHalf, loadHalf, h0, h 1 (by decide)]

lemma loadWord_congr (h : ∀ i < 4, m (p + i) = m' (q + i)) : m.loadWord p = m'.loadWord q := by
  have h0 : m p = m' q := h 0 (by decide)
  rw [loadWord, loadWord, h0, h 1 (by decide), h 2 (by decide), h 3 (by decide)]

/-- The two bytes of a number are read back. -/
lemma loadHalf_bytesOf {v : ℕ} (h : ∀ i < 2, m (p + i) = (bytesOf 2 v).getD i 0) :
    m.loadHalf p = v % 2 ^ 16 := by
  have hv : m.loadHalf p = loadHalf (fun i => (bytesOf 2 v).getD i 0) 0 :=
    loadHalf_congr fun i hi => by rw [h i hi, Nat.zero_add]
  have hbytes : m.loadHalf p = v % 256 + 256 * (v / 256 % 256) := hv
  omega

/-- The three bytes of a length, with 0 behind them. -/
lemma loadWord_bytesOf {v : ℕ} (hv : v < 2 ^ 24)
    (h : ∀ i < 4, m (p + i) = (bytesOf 3 v ++ [0]).getD i 0) : m.loadWord p = v := by
  have hload : m.loadWord p = loadWord (fun i => (bytesOf 3 v ++ [0]).getD i 0) 0 :=
    loadWord_congr fun i hi => by rw [h i hi, Nat.zero_add]
  have hbytes : m.loadWord p = v % 256 + 256 * (v / 256 % 256) + 65536 * (v / 256 / 256 % 256)
      + 16777216 * 0 := hload
  omega

/-- `rep movsw` copies a range that does not overlap its destination. -/
lemma movsw_eq_blit (m : Ram) (src dest n : ℕ) (h : Apart src dest (2 * n)) :
    m.movsw src dest n = blit m src dest (2 * n) := by
  induction n generalizing m src dest with
  | zero => exact (blit_zero m src dest).symm
  | succ n ih =>
    have hn : 2 * (n + 1) = 2 + 2 * n := by omega
    rw [hn] at h ⊢
    rw [movsw, ih _ _ _ (by unfold Apart at h ⊢; omega), blit_blit m h]

end Ram

/-! ## What `build` writes -/

lemma appendFile_eq (out file : List Byte) (sz : ℕ) :
    appendFile out file sz = out ++ file.take sz := by
  fun_induction appendFile out file sz with
  | case1 out file sz hpos l ih =>
    have hl : l ≤ sz := by
      show (if sz > bufSize then bufSize else sz) ≤ sz
      split <;> omega
    have hsz : sz = l + (sz - l) := by omega
    rw [ih, List.append_assoc]
    conv_rhs => rw [hsz, List.take_add]
  | case2 out file sz hzero =>
    rw [show sz = 0 by omega, List.take_zero, List.append_nil]

lemma getD_takeD (l : List Byte) (n i : ℕ) :
    (l.takeD n 0).getD i 0 = if i < n then l.getD i 0 else 0 := by
  induction n generalizing l i with
  | zero => simp
  | succ n ih =>
    cases i with
    | zero => cases l <;> simp
    | succ i =>
      cases l with
      | nil => simp
      | cons b l => simpa using ih l i

/-- `lseek` and `write` fill a range of the output. -/
lemma getD_writeAt (out : List Byte) (pos : ℕ) (bytes : List Byte) :
    (fun i => (writeAt out pos bytes).getD i 0) =
      fill (fun i => out.getD i 0) pos bytes.length fun i => bytes.getD i 0 := by
  have hpos : (out.takeD pos 0).length = pos := List.takeD_length ..
  funext i
  rw [writeAt, List.append_assoc]
  by_cases hlow : i < pos
  · rw [List.getD_append _ _ _ _ (by omega), getD_takeD, if_pos hlow, fill_of_not_mem _ _ (.inl hlow)]
  · obtain ⟨j, rfl⟩ := Nat.exists_eq_add_of_le (Nat.not_lt.mp hlow)
    rw [List.getD_append_right _ _ _ _ (by omega), hpos, Nat.add_sub_cancel_left]
    by_cases hj : j < bytes.length
    · rw [List.getD_append _ _ _ _ hj, fill_at _ _ _ hj]
    · obtain ⟨k, rfl⟩ := Nat.exists_eq_add_of_le (Nat.not_lt.mp hj)
      rw [List.getD_append_right _ _ _ _ (by omega), Nat.add_sub_cancel_left,
        fill_of_not_mem _ _ (by omega)]
      simp [Nat.add_assoc]

/-- The output of `build` before the lengths are written. -/
def plainImage (sector sys usr : List Byte) : List Byte :=
  (sector.set 508 0).set 509 0 ++ sys ++ usr

/-- The number of paragraphs of the image without the boot sector. -/
def imSize (sys usr : List Byte) : ℕ := (sys.length + usr.length + 15) / 16

/-- When `build` succeeds, its output is the three files with the lengths written over them. -/
lemma build_eq_ok {w : ℕ} {file sys usr image : List Byte}
    (h : build w (some file) (some sys) (some usr) = .ok image) (hsys : sys.length < 2 ^ 32)
    (husr : usr.length < 2 ^ 32) :
    (file.drop minixHeaderLen).length = 512 ∧
      image = writeAt (writeAt (writeAt (writeAt (plainImage (file.drop minixHeaderLen) sys usr)
        500 (bytesOf 2 (imSize sys usr))) 512 (bytesOf 3 sys.length ++ [0]))
        516 (bytesOf 3 usr.length ++ [0])) 520 (bytesOf 3 0x7DAA ++ [0]) := by
  have hfs : fileSize sys = sys.length := Nat.mod_eq_of_lt hsys
  have hfu : fileSize usr = usr.length := Nat.mod_eq_of_lt husr
  rw [build] at h
  cases hopen : minixOpen w (some file) with
  | error r => rw [hopen] at h; cases h
  | ok rest =>
    have hrest : rest = file.drop minixHeaderLen := by
      rw [minixOpen] at hopen
      split_ifs at hopen
      cases hopen
      rfl
    rw [hopen] at h
    simp only [bind, Except.bind, openPlain, throw, throwThe, MonadExceptOf.throw, pure, Except.pure,
      hfs, hfu, appendFile_eq, List.take_length] at h
    split_ifs at h with hlen hflag
    have hall : rest.length = 512 := by
      rw [not_not, List.length_take] at hlen
      change min 1024 rest.length = 512 at hlen
      omega
    have htake : rest.take bufSize = rest := List.take_of_length_le (by rw [hall]; decide)
    rw [htake] at h
    refine ⟨hrest ▸ hall, ?_⟩
    rw [← hrest]
    exact (Except.ok.inj h).symm

/-- What the disk holds: the boot sector with the length of the image, and the system with its own
length and that of the user program behind it. -/
structure HoldsImage (disk : Floppy) (sector sys usr : List Byte) : Prop where
  sector : ∀ i < 508, ¬ (500 ≤ i ∧ i < 502) → disk i = sector.getD i 0
  syssize : Ram.loadHalf disk syssizeOffset = imSize sys usr % 2 ^ 16
  sysSize : Ram.loadWord disk 512 = sys.length
  usrSize : Ram.loadWord disk 516 = usr.length
  rdtr : Ram.loadWord disk 520 = 0x7DAA
  system : ∀ i, 12 ≤ i → i < sys.length → disk (512 + i) = sys.getD i 0
  user : ∀ j < usr.length, disk (512 + sys.length + j) = usr.getD j 0

lemma length_writeAt {out bytes : List Byte} {pos n : ℕ} (h : out.length = n)
    (hpos : pos + bytes.length ≤ n) : (writeAt out pos bytes).length = n := by
  have htake : (out.takeD pos 0).length = pos := List.takeD_length ..
  rw [writeAt, List.length_append, List.length_append, htake, List.length_drop]
  omega

/-- A disk with the image on it. -/
lemma holdsImage_of_build {w : ℕ} {file sys usr image : List Byte} {disk : Floppy}
    (h : build w (some file) (some sys) (some usr) = .ok image)
    (hdisk : ∀ i < image.length, disk i = image.getD i 0) (hsys : 12 ≤ sys.length)
    (hsys' : sys.length < 2 ^ 24) (husr : usr.length < 2 ^ 24) :
    HoldsImage disk (file.drop minixHeaderLen) sys usr := by
  obtain ⟨hsector, himage⟩ := build_eq_ok h (by omega) (by omega)
  set sector := file.drop minixHeaderLen
  have hplain : (plainImage sector sys usr).length = 512 + sys.length + usr.length := by
    simp [plainImage, hsector, Nat.add_assoc]
  have hlen : image.length = 512 + sys.length + usr.length := by
    have hword : ∀ v, (bytesOf 3 v ++ [0]).length = 4 := fun v => by simp
    rw [himage]
    exact length_writeAt (length_writeAt (length_writeAt (length_writeAt hplain
      (by rw [length_bytesOf]; omega)) (by rw [hword]; omega)) (by rw [hword]; omega))
      (by rw [hword]; omega)
  have hbytes : (fun i => image.getD i 0) =
      fill (fill (fill (fill (fun i => (plainImage sector sys usr).getD i 0)
        500 2 fun i => (bytesOf 2 (imSize sys usr)).getD i 0)
        512 4 fun i => (bytesOf 3 sys.length ++ [0]).getD i 0)
        516 4 fun i => (bytesOf 3 usr.length ++ [0]).getD i 0)
        520 4 fun i => (bytesOf 3 0x7DAA ++ [0]).getD i 0 := by
    rw [himage, getD_writeAt, getD_writeAt, getD_writeAt, getD_writeAt]
    simp only [length_bytesOf, List.length_append, List.length_singleton]
  set f₀ : ℕ → Byte := fun i => (plainImage sector sys usr).getD i 0 with hf₀
  set f₁ := fill f₀ 500 2 fun i => (bytesOf 2 (imSize sys usr)).getD i 0 with hf₁
  set f₂ := fill f₁ 512 4 fun i => (bytesOf 3 sys.length ++ [0]).getD i 0 with hf₂
  set f₃ := fill f₂ 516 4 fun i => (bytesOf 3 usr.length ++ [0]).getD i 0 with hf₃
  have hcell : ∀ i < 512 + sys.length + usr.length, disk i = _ := fun i hi =>
    (hdisk i (hlen ▸ hi)).trans (congrFun hbytes i)
  -- what is not written over is as it was
  have hlow : ∀ i < 512, disk i = f₁ i := by
    intro i hi
    rw [hcell i (by omega), fill_of_not_mem _ _ (by omega), hf₃, fill_of_not_mem _ _ (by omega), hf₂,
      fill_of_not_mem _ _ (by omega)]
  have hhigh : ∀ i < sys.length + usr.length, 12 ≤ i → disk (512 + i) = (sys ++ usr).getD i 0 := by
    intro i hi h12
    rw [hcell _ (by omega), fill_of_not_mem _ _ (by omega), hf₃, fill_of_not_mem _ _ (by omega), hf₂,
      fill_of_not_mem _ _ (by omega), hf₁, fill_of_not_mem _ _ (by omega), hf₀]
    show (plainImage sector sys usr).getD (512 + i) 0 = _
    rw [plainImage, List.append_assoc, List.getD_append_right _ _ _ _ (by simp [hsector])]
    simp [hsector]
  refine ⟨fun i hi hsize => ?_, ?_, ?_, ?_, ?_, fun i h12 hi => ?_, fun j hj => ?_⟩
  · rw [hlow i (by omega), hf₁, fill_of_not_mem _ _ (by omega), hf₀]
    show (plainImage sector sys usr).getD i 0 = _
    rw [plainImage, List.append_assoc, List.getD_append _ _ _ _ (by simp [hsector]; omega)]
    simp [show 508 ≠ i by omega, show 509 ≠ i by omega]
  · refine Ram.loadHalf_bytesOf fun i hi => ?_
    rw [show syssizeOffset + i = 500 + i from rfl, hlow _ (by omega), hf₁, fill_at _ _ _ hi]
  · refine Ram.loadWord_bytesOf hsys' fun i hi => ?_
    rw [hcell _ (by omega), fill_of_not_mem _ _ (by omega), hf₃, fill_of_not_mem _ _ (by omega), hf₂,
      fill_at _ _ _ hi]
  · refine Ram.loadWord_bytesOf husr fun i hi => ?_
    rw [hcell _ (by omega), fill_of_not_mem _ _ (by omega), hf₃, fill_at _ _ _ hi]
  · refine Ram.loadWord_bytesOf (by decide) fun i hi => ?_
    rw [hcell _ (by omega), fill_at _ _ _ hi]
  · rw [hhigh i (by omega) h12, List.getD_append _ _ _ _ hi]
  · rw [Nat.add_assoc, hhigh _ (by omega) (by omega), List.getD_append_right _ _ _ _ (by omega),
      Nat.add_sub_cancel_left]

/-! ## The loop of `read_it` -/

namespace DiskRead

/-- The sectors that are read, counted from 0 over the whole disk. -/
def sectors (r : DiskRead) : List ℕ := List.range' r.first r.al

/-- A call that reads sectors of one track into one segment of 64 kB. -/
structure Fits (r : DiskRead) : Prop where
  some : 0 < r.al
  sector : 0 < r.sector
  track : r.sector + r.al ≤ ZeOS.sectors + 1
  head : r.dh < 2
  segment : r.dest % 2 ^ 16 + 512 * r.al ≤ 2 ^ 16

end DiskRead

namespace ReadIt

/-- The sectors of a segment. -/
abbrev perSegment : ℕ := 128

/-- The bytes that `read_it` keeps its place by, after `n` sectors. -/
structure Loading (disk : Floppy) (m : Ram) (s : ReadIt) (n : ℕ) : Prop where
  es : s.es = 0x1000 + 0x1000 * (n / perSegment)
  bx : s.bx = 512 * (n % perSegment)
  place : (s.track * 2 + s.head) * 18 + s.sread = n + 1
  sread : s.sread < 18
  head : s.head < 2
  mem : s.mem = fill m kernelStart (512 * n) fun i => disk (512 + i)
  order : s.reads.flatMap DiskRead.sectors = List.range' 1 n
  fits : ∀ r ∈ s.reads, r.Fits

section

variable {disk : Floppy} {m : Ram} {s : ReadIt} {n : ℕ}

/-- The largest number of sectors that stays in the track and in the segment. -/
lemma Loading.chunk (h : Loading disk m s n) :
    s.chunk = min (18 - s.sread) (perSegment - n % perSegment) := by
  have hs := h.sread
  have hax : (sectors + 2 ^ 16 - s.sread) % 2 ^ 16 = 18 - s.sread := by
    show (18 + 65536 - s.sread) % 65536 = _
    omega
  have hn : n % 128 < 128 := Nat.mod_lt _ (by decide)
  have hbx : s.bx = 512 * (n % 128) := h.bx
  rw [ReadIt.chunk, hax, hbx]
  split_ifs with hcarry
  · have : (18 - s.sread) * 512 + 512 * (n % 128) ≤ 65536 := by omega
    show _ = min _ (128 - n % 128)
    omega
  · show _ = min _ (128 - n % 128)
    omega

/-- What the BIOS is asked for. -/
lemma Loading.request (h : Loading disk m s n) (hn : n < 1024) {k : ℕ} (hk : 0 < k)
    (htrack : k ≤ 18 - s.sread) (hseg : k ≤ perSegment - n % perSegment) :
    (s.request k).first = n + 1 ∧ (s.request k).al = k ∧
      (s.request k).dest = kernelStart + 512 * n ∧ (s.request k).Fits := by
  have hs := h.sread
  have hd := h.head
  have hplace := h.place
  have hes : s.es = 0x1000 + 0x1000 * (n / 128) := h.es
  have hbx : s.bx = 512 * (n % 128) := h.bx
  change k ≤ 128 - n % 128 at hseg
  have hal : (s.request k).al = k := Nat.mod_eq_of_lt (by omega)
  have hch : (s.request k).ch = s.track := Nat.mod_eq_of_lt (by omega)
  have hcl : (s.request k).cl = s.sread + 1 := by
    show (s.sread + 1) % 65536 % 256 = _
    omega
  have hdh : (s.request k).dh = s.head := Nat.mod_eq_of_lt hd
  have hsector : (s.request k).sector = s.sread + 1 := by
    rw [DiskRead.sector, hcl]
    omega
  have htrackNo : (s.request k).track = s.track := by
    rw [DiskRead.track, hcl, hch]
    omega
  have hdest : (s.request k).dest = kernelStart + 512 * n := by
    show (s.es * 16 + s.bx) % 1048576 = 65536 + 512 * n
    omega
  refine ⟨?_, hal, hdest, by omega, by omega, ?_, hdh ▸ hd, ?_⟩
  · rw [DiskRead.first, htrackNo, hdh, hsector]
    show (s.track * 2 + s.head) * 18 + (s.sread + 1 - 1) = _
    omega
  · rw [hsector, hal]
    show _ ≤ 18 + 1
    omega
  · rw [hdest, hal]
    show (65536 + 512 * n) % 65536 + 512 * k ≤ 65536
    omega

/-- The place on the disk goes on by what was read, from track to track and head to head. -/
lemma nextPlace_place {k : ℕ} (hd : s.head < 2) (hk : s.sread + k ≤ 18)
    (htrack : s.track < 1024) :
    (((s.nextPlace k).track * 2 + (s.nextPlace k).head) * 18 + (s.nextPlace k).sread =
      (s.track * 2 + s.head) * 18 + s.sread + k) ∧
      (s.nextPlace k).sread < 18 ∧ (s.nextPlace k).head < 2 := by
  have hax : (k + s.sread) % 2 ^ 16 = k + s.sread := Nat.mod_eq_of_lt (by omega)
  have hhead : (1 + 2 ^ 16 - s.head) % 2 ^ 16 = 1 - s.head := by omega
  have hnext : (s.track + 1) % 2 ^ 16 = s.track + 1 := Nat.mod_eq_of_lt (by omega)
  rw [nextPlace, hax, hhead, hnext]
  split_ifs with hend
  · change k + s.sread ≠ 18 at hend
    exact ⟨by dsimp only; omega, show k + s.sread < 18 by omega, hd⟩
  · change ¬ k + s.sread ≠ 18 at hend
    dsimp only
    split_ifs <;> omega

lemma nextPlace_rest (s : ReadIt) (k : ℕ) :
    (s.nextPlace k).es = s.es ∧ (s.nextPlace k).bx = s.bx ∧ (s.nextPlace k).mem = s.mem ∧
      (s.nextPlace k).reads = s.reads := by
  rw [nextPlace]
  dsimp only
  split <;> exact ⟨rfl, rfl, rfl, rfl⟩

/-- The place in memory goes on, and to the next segment at the end of one. -/
lemma nextAddress_address {k : ℕ} (hes : s.es = 0x1000 + 0x1000 * (n / 128))
    (hbx : s.bx = 512 * (n % 128)) (hk : n % 128 + k ≤ 128) (hk' : k ≤ 18) (hn : n < 1024) :
    (s.nextAddress k).es = 0x1000 + 0x1000 * ((n + k) / 128) ∧
      (s.nextAddress k).bx = 512 * ((n + k) % 128) := by
  have hcx : k * 512 % 2 ^ 16 = k * 512 := Nat.mod_eq_of_lt (by omega)
  rw [nextAddress, hcx, hbx, hes]
  split_ifs with hcarry
  · exact ⟨by dsimp only; omega, by dsimp only; omega⟩
  · exact ⟨by dsimp only; omega, by dsimp only; omega⟩

lemma nextAddress_rest (s : ReadIt) (k : ℕ) :
    (s.nextAddress k).track = s.track ∧ (s.nextAddress k).head = s.head ∧
      (s.nextAddress k).sread = s.sread ∧ (s.nextAddress k).mem = s.mem ∧
      (s.nextAddress k).reads = s.reads := by
  rw [nextAddress]
  split <;> exact ⟨rfl, rfl, rfl, rfl, rfl⟩

/-- One round loads at least one more sector, and none of the next segment. -/
lemma Loading.step (h : Loading disk m s n) (hn : n < 1024)
    (hsize : 0x1000 * (n / perSegment) ≤ s.syssize) :
    ∃ t k, s.step disk = some t ∧ 0 < k ∧ n % perSegment + k ≤ perSegment ∧
      Loading disk m t (n + k) := by
  have hs := h.sread
  have hd := h.head
  have hplace := h.place
  have hes : s.es = 0x1000 + 0x1000 * (n / 128) := h.es
  have hbx : s.bx = 512 * (n % 128) := h.bx
  change 0x1000 * (n / 128) ≤ _ at hsize
  obtain ⟨k, hk⟩ : ∃ k, k = s.chunk := ⟨_, rfl⟩
  have hmin : k = min (18 - s.sread) (128 - n % 128) := hk.trans h.chunk
  have hpos : 0 < k := by omega
  obtain ⟨hfirst, hal, hdest, hfits⟩ := h.request hn hpos (by omega)
    (show k ≤ 128 - n % 128 by omega)
  have hguard : (s.es + 2 ^ 16 - sysSeg) % 2 ^ 16 ≤ s.syssize := by
    show (s.es + 65536 - 0x1000) % 65536 ≤ _
    omega
  refine ⟨_, k, by rw [ReadIt.step, if_pos hguard, ← hk], hpos, show n % 128 + k ≤ 128 by omega, ?_⟩
  set u := s.readTrack disk k with hu
  have hmem : u.mem = fill m kernelStart (512 * (n + k)) fun i => disk (512 + i) := by
    have hcells : (fun i => disk (512 * (n + 1) + i)) = fun i => disk (512 + (512 * n + i)) := by
      funext i
      congr 1
      omega
    show (s.request k).run disk s.mem = _
    rw [DiskRead.run, hdest, hal, hfirst, h.mem, hcells, Nat.mul_add, ← fill_fill]
  have horder : u.reads.flatMap DiskRead.sectors = List.range' 1 (n + k) := by
    show (s.reads ++ [s.request k]).flatMap _ = _
    rw [List.flatMap_append, h.order, List.flatMap_singleton, DiskRead.sectors, hfirst, hal,
      Nat.add_comm n 1, List.range'_append_1]
  have hall : ∀ r ∈ u.reads, r.Fits := by
    intro r hr
    rcases List.mem_append.mp hr with hr | hr
    · exact h.fits r hr
    · rw [List.mem_singleton.mp hr]
      exact hfits
  obtain ⟨hplace', hs', hd'⟩ : _ ∧ (u.nextPlace k).sread < 18 ∧ (u.nextPlace k).head < 2 :=
    nextPlace_place hd (show u.sread + k ≤ 18 by show s.sread + k ≤ 18; omega)
      (show s.track < 1024 by omega)
  obtain ⟨hves, hvbx, hvmem, hvreads⟩ := u.nextPlace_rest k
  set v := u.nextPlace k
  obtain ⟨htes, htbx⟩ := nextAddress_address (s := v) (n := n) (k := k) (hves.trans hes)
    (hvbx.trans hbx) (by omega) (by omega) hn
  obtain ⟨httrack, hthead, htsread, htmem, htreads⟩ := v.nextAddress_rest k
  refine ⟨htes, htbx, ?_, htsread ▸ hs', hthead ▸ hd', ?_, ?_, ?_⟩
  · rw [httrack, hthead, htsread, hplace']
    show (s.track * 2 + s.head) * 18 + s.sread + k = n + k + 1
    omega
  · rw [htmem, hvmem, hmem]
  · rw [htreads, hvreads, horder]
  · rw [htreads, hvreads]
    exact hall

@[simp] lemma start_mem (m : Ram) : (start m).mem = m := rfl

/-- The boot sector lies behind the eight segments that may be loaded. -/
lemma Loading.mem_above (h : Loading disk m s n) (hn : n ≤ 1024) {a : ℕ} (ha : initSeg * 16 ≤ a) :
    s.mem a = m a := by
  rw [h.mem]
  refine fill_of_not_mem _ _ (.inr ?_)
  change 0x90000 ≤ a at ha
  show 0x10000 + 512 * n ≤ a
  omega

lemma Loading.syssize (h : Loading disk m s n) (hn : n ≤ 1024) :
    s.syssize = m.loadHalf (initSeg * 16 + syssizeOffset) :=
  Ram.loadHalf_congr fun i _ => h.mem_above hn (by rw [Nat.add_assoc]; exact Nat.le_add_right ..)

lemma run_of_return (h : s.step disk = none) (fuel : ℕ) :
    ReadIt.run disk (fuel + 1) s = some s := by
  rw [ReadIt.run, h]
  rfl

lemma run_of_step {t : ReadIt} (h : s.step disk = some t) (fuel : ℕ) :
    ReadIt.run disk (fuel + 1) s = ReadIt.run disk fuel t := by
  rw [ReadIt.run, h]
  rfl

/-- The loop ends at the first end of a segment behind `syssize` paragraphs. -/
lemma Loading.run {k size : ℕ} (hm : m.loadHalf (initSeg * 16 + syssizeOffset) = size)
    (hk : size / 0x1000 + 1 = k) (hk8 : k ≤ 8) : ∀ (left : ℕ) {n : ℕ} {s : ReadIt}, n + left = perSegment * k →
      Loading disk m s n → ∃ t, Loading disk m t (perSegment * k) ∧
        ∀ fuel, left < fuel → ReadIt.run disk fuel s = some t := by
  intro left
  induction left using Nat.strong_induction_on with
  | _ left ih =>
    intro n s hleft h
    change n + left = 128 * k at hleft
    have hsys : s.syssize = size := (h.syssize (by omega)).trans hm
    clear hm
    rcases Nat.eq_zero_or_pos left with rfl | hpos
    · refine ⟨s, ?_, fun fuel hfuel => ?_⟩
      · show Loading disk m s (128 * k)
        rwa [← hleft, Nat.add_zero]
      · obtain ⟨f, rfl⟩ := Nat.exists_eq_add_of_lt hfuel
        have hes : s.es = 0x1000 + 0x1000 * (n / 128) := h.es
        have hret : ¬ (s.es + 2 ^ 16 - sysSeg) % 2 ^ 16 ≤ s.syssize := by
          rw [hsys]
          show ¬ (s.es + 65536 - 0x1000) % 65536 ≤ _
          omega
        exact run_of_return (by rw [ReadIt.step, if_neg hret]) _
    · have hmore : 0x1000 * (n / perSegment) ≤ s.syssize := by
        rw [hsys]
        show 0x1000 * (n / 128) ≤ _
        omega
      obtain ⟨u, j, hstep, hj, hseg, hu⟩ := h.step (by omega) hmore
      change n % 128 + j ≤ 128 at hseg
      have hnext : n + j + (left - j) = perSegment * k := by
        show _ = 128 * k
        omega
      obtain ⟨t, ht, hrun⟩ := ih (left - j) (by omega) hnext hu
      refine ⟨t, ht, fun fuel hfuel => ?_⟩
      obtain ⟨f, rfl⟩ := Nat.exists_eq_add_of_lt hfuel
      exact (run_of_step hstep _).trans (hrun (left + f) (by omega))

end

end ReadIt

/-! ## The boot sector -/

/-- Memory when the boot sector has moved itself. -/
def movedSector (disk : Floppy) (m : Ram) : Ram :=
  (biosBoot disk m).movsw (bootSeg * 16) (initSeg * 16) 256

lemma movedSector_at (disk : Floppy) (m : Ram) {i : ℕ} (hi : i < 512) :
    movedSector disk m (initSeg * 16 + i) = disk i := by
  rw [movedSector, Ram.movsw_eq_blit _ _ _ _ (.inl (by decide)), blit_at _ _ _ hi, biosBoot,
    fill_at _ _ _ hi]

/-- What is in memory when the boot sector jumps to `main`. -/
structure Loaded (sys usr : List Byte) (s : ReadIt) : Prop where
  order : ∃ n, s.reads.flatMap DiskRead.sectors = List.range' 1 n
  fits : ∀ r ∈ s.reads, r.Fits
  gdt : ∀ i < 56, s.mem (gdtStart + i) = gdtBytes.getD i 0
  sysSize : sysSize s.mem = sys.length
  usrSize : usrSize s.mem = usr.length
  rdtr : rdtr s.mem = 0x7DAA
  system : ∀ i, 12 ≤ i → i < sys.length → s.mem (kernelStart + i) = sys.getD i 0
  user : ∀ j < usr.length, s.mem (kernelStart + sys.length + j) = usr.getD j 0

section

variable {disk : Floppy} {sector sys usr : List Byte}

/-- A byte of the data of the boot sector. -/
lemma HoldsImage.data (h : HoldsImage disk sector sys usr) (hdata : sector.drop gdtOffset = bootsectData)
    {i : ℕ} (hi : i < 65) : disk (gdtOffset + i) = bootsectData.getD i 0 := by
  have hcell : disk (gdtOffset + i) = sector.getD (gdtOffset + i) 0 := by
    refine h.sector _ ?_ ?_
    · show 435 + i < 508
      omega
    · show ¬ (500 ≤ 435 + i ∧ _)
      omega
  rw [hcell, ← hdata]
  simp

/-- A disk with an image that fits below the boot sector is loaded. -/
lemma HoldsImage.loaded (h : HoldsImage disk sector sys usr)
    (hdata : sector.drop gdtOffset = bootsectData) (hsys : 12 ≤ sys.length)
    (hfit : sys.length + usr.length ≤ 0x7fff0) (m : Ram) :
    ∃ s, (∀ fuel, 1024 < fuel → bootsect disk fuel m = some s) ∧ Loaded sys usr s := by
  have hsize : imSize sys usr < 0x8000 := by
    rw [imSize]
    omega
  have hsyssize : (movedSector disk m).loadHalf (initSeg * 16 + syssizeOffset) = imSize sys usr := by
    have hdisk : (movedSector disk m).loadHalf (initSeg * 16 + syssizeOffset) =
        Ram.loadHalf disk syssizeOffset :=
      Ram.loadHalf_congr fun i hi => by
        rw [Nat.add_assoc]
        exact movedSector_at disk m (show 500 + i < 512 by omega)
    rw [hdisk, h.syssize]
    omega
  have hsread : movedSector disk m (initSeg * 16 + setupSectsOffset) = 0 :=
    (movedSector_at disk m (by decide)).trans (h.data hdata (i := 62) (by decide))
  have hstart : ReadIt.Loading disk (movedSector disk m) (ReadIt.start (movedSector disk m)) 0 := by
    have hone : (ReadIt.start (movedSector disk m)).sread = 1 := by
      rw [ReadIt.start, hsread]
      rfl
    refine ⟨rfl, rfl, ?_, by rw [hone]; decide, Nat.zero_lt_two, ?_, rfl, ?_⟩
    · have htrack : (ReadIt.start (movedSector disk m)).track = 0 := rfl
      have hhead : (ReadIt.start (movedSector disk m)).head = 0 := rfl
      rw [htrack, hhead, hone]
    · rw [Nat.mul_zero, fill_zero, ReadIt.start_mem]
    · intro r hr
      cases hr
  obtain ⟨k, hk⟩ : ∃ k, imSize sys usr / 0x1000 + 1 = k := ⟨_, rfl⟩
  have hk8 : k ≤ 8 := by omega
  obtain ⟨s, hs, hrun⟩ := ReadIt.Loading.run hsyssize hk hk8 (ReadIt.perSegment * k)
    (Nat.zero_add _) hstart
  -- all of the image is in the segments that were loaded
  have hall : sys.length + usr.length ≤ 512 * (ReadIt.perSegment * k) := by
    show _ ≤ 512 * (128 * k)
    rw [imSize] at hk
    omega
  have hcell : ∀ i < sys.length + usr.length, s.mem (kernelStart + i) = disk (512 + i) := by
    intro i hi
    rw [hs.mem, fill_at _ _ _ (by omega)]
  have hword : ∀ o, o + 4 ≤ 12 → s.mem.loadWord (kernelStart + o) = Ram.loadWord disk (512 + o) :=
    fun o ho => Ram.loadWord_congr fun i hi => by
      rw [Nat.add_assoc, hcell _ (by omega), Nat.add_assoc]
  refine ⟨s, fun fuel hfuel => hrun fuel ?_, ⟨_, hs.order⟩, hs.fits, fun i hi => ?_,
    (hword 0 (by decide)).trans h.sysSize, (hword 4 (by decide)).trans h.usrSize,
    (hword 8 (by decide)).trans h.rdtr, fun i h12 hi => ?_, fun j hj => ?_⟩
  · show 128 * k < fuel
    omega
  · have hplace : gdtStart + i = initSeg * 16 + (gdtOffset + i) := by
      show 0x901b3 + i = 0x90000 + (435 + i)
      omega
    have hgdt : ∀ i < 56, bootsectData.getD i 0 = gdtBytes.getD i 0 := by decide
    rw [hplace, hs.mem_above (show 128 * k ≤ 1024 by omega) (Nat.le_add_right ..),
      movedSector_at disk m (show 435 + i < 512 by omega), h.data hdata (by omega), hgdt i hi]
  · rw [hcell i (by omega), h.system i h12 hi]
  · rw [Nat.add_assoc, hcell _ (by omega), ← Nat.add_assoc, h.user j hj]

end

/-! ## The user program -/

namespace Env

variable (E : Env)

/-- The page of an address of the user program, and the frame behind it: its own number for code, and
every second frame for data. -/
lemma user_page {page : ℕ} (h : 256 ≤ page ∧ page < 284) :
    (E.boot.mm.pagusrTable page).present = true ∧
      (E.boot.mm.pagusrTable page).pbaseAddr = if page < 264 then page else 2 * page - 264 := by
  by_cases hcode : page < 264
  · have hother : E.boot.mm.pagusrTable page = E.codeMemory.pagusrTable page :=
      E.boot_table_other fun i => by show page ≠ 264 + i.val; omega
    rw [hother, E.codeMemory_code ⟨h.1, hcode⟩, if_pos hcode]
    exact ⟨rfl, rfl⟩
  · obtain ⟨i, hi⟩ : ∃ i : Fin numPagData, page = pagLogInitDataP0 + i.val :=
      ⟨⟨page - 264, show page - 264 < 20 by omega⟩, show page = 264 + (page - 264) by omega⟩
    have hpage : page = 264 + i.val := hi
    have hframe : Memory.frameNat (Memory.startFrames i) = 264 + 2 * i.val := by
      show (((264 + 2 * i.val : ℕ) : ℤ) % 1048576).toNat = _
      omega
    have hdata : E.boot.mm.pagusrTable page = Memory.ssEntry (Memory.startFrames i) := by
      rw [hi, E.boot_table_data i]
    rw [hdata, if_neg hcode, Memory.ssEntry_pbaseAddr, hframe]
    exact ⟨rfl, by omega⟩

/-- The pages of task 0 hold a program of their size. -/
lemma validBuffer_user {n : ℕ} (hn : n ≤ (numPagCode + numPagData) * pageSize) :
    E.boot.mm.ValidBuffer lUserStart n := by
  change n ≤ 28 * 4096 at hn
  have hpage : ∀ j < n, 256 ≤ (lUserStart + j) / pageSize ∧ (lUserStart + j) / pageSize < 284 := by
    intro j hj
    show 256 ≤ (1048576 + j) / 4096 ∧ (1048576 + j) / 4096 < 284
    omega
  refine ⟨fun j hj => ?_, fun j hj k hk hframe hmod => ?_⟩
  · have hp := hpage j hj
    rw [Memory.present, (E.user_page hp).1, Bool.and_true]
    exact decide_eq_true (lt_trans hp.2 (by decide))
  · have hpj := hpage j hj
    have hpk := hpage k hk
    rw [Memory.frameOf, Memory.frameOf, (E.user_page hpj).2, (E.user_page hpk).2] at hframe
    have hsame : (lUserStart + j) / pageSize = (lUserStart + k) / pageSize := by
      split_ifs at hframe <;> omega
    change (1048576 + j) / 4096 = (1048576 + k) / 4096 at hsame
    change (1048576 + j) % 4096 = (1048576 + k) % 4096 at hmod
    omega

/-- The page table at boot does not depend on what is in the frames. -/
lemma boot_table_congr {E E' : Env} (h : E'.taskPage = E.taskPage) :
    E'.boot.mm.pagusrTable = E.boot.mm.pagusrTable := by
  have hcode : E'.codeMemory.pagusrTable = E.codeMemory.pagusrTable := by
    simp only [codeMemory, Memory.setCodePages, h]
  funext page
  by_cases hdata : ∃ i : Fin numPagData, page = pagLogInitDataP0 + i.val
  · obtain ⟨i, rfl⟩ := hdata
    rw [E'.boot_table_data, E.boot_table_data]
  · push Not at hdata
    rw [E'.boot_table_other hdata, E.boot_table_other hdata, hcode]

lemma boot_frame : E.boot.mm.frame = E.frame := by
  simp only [E.boot_mm, E.userMemory_eq, Memory.setPhys_frame, Memory.setSsPags_frame, codeMemory,
    Memory.setCodePages]

/-- User mode starts in the memory that `main` leaves. -/
lemma boot_mm_eq {E E' : Env} {mm : Memory} (hpage : E'.taskPage = E.taskPage)
    (hframe : E'.frame = mm.frame) (hmm : SamePages E.boot.mm mm) : E'.boot.mm = mm := by
  have hphys : E'.boot.mm.physMem = mm.physMem := by
    rw [hmm.physMem, E'.boot_physMem, E.boot_physMem]
  have htable : E'.boot.mm.pagusrTable = mm.pagusrTable := by
    rw [hmm.table, boot_table_congr hpage]
  have hframe' : E'.boot.mm.frame = mm.frame := by
    rw [E'.boot_frame, hframe]
  generalize E'.boot.mm = n at hphys htable hframe'
  cases n
  cases mm
  simp only at hphys htable hframe'
  rw [hphys, htable, hframe']

/-- The end of `main`, with the user program in its place behind the system. -/
lemma enterUser_eq {m : Ram} {usr : List Byte} (husr : usr.length ≤ (numPagCode + numPagData) * pageSize)
    (hbytes : cells m (kernelStart + sysSize m) (usrSize m) = usr) (hrdtr : rdtr m = 0x7DAA) :
    ∃ mm, E.enterUser m = .ret 0 mm ∧ ({ E with frame := mm.frame } : Env).boot.mm = mm ∧
      (∀ j < usr.length, lUserStart + j < userEsp + 12 → mm.load (lUserStart + j) = usr.getD j 0) ∧
      ∀ i < 4, mm.load (userEsp + 12 + i) = (bytesOf 4 0x7DAA).getD i 0 := by
  set word := bytesOf 4 0x7DAA with hw
  have hlen : word.length = 4 := length_bytesOf ..
  have hall := E.validBuffer_user le_rfl
  set n := (numPagCode + numPagData) * pageSize with hn
  have hplace : userEsp + 12 = lUserStart + (n - 4) := rfl
  have hroom : n - 4 + word.length ≤ n := by
    rw [hlen, hn]
    decide
  -- the program
  have hvalid := E.validBuffer_user husr
  set mem := Memory.storeAll lUserStart usr E.boot.mm with hmem
  have hcopy : E.copyUser m = .ret 0 mem := by
    have hmm : E.task0Pages.2 = E.boot.mm := by rw [E.boot_mm, E.task0Pages_eq]
    rw [Env.copyUser, hbytes, hmm, Memory.copyToUser_of_present _ _ _ hvalid.present]
  have hpages : SamePages E.boot.mm mem := by
    have hends := Memory.samePages_copyToUser E.boot.mm lUserStart usr
    rwa [Memory.copyToUser_of_present _ _ _ hvalid.present] at hends
  -- the word of `return_gate`
  have hall' := hall.congr hpages
  have hpart := hall'.part hroom
  have hgate : mem.returnGate m userEsp = .ret 0 (Memory.storeAll (userEsp + 12) word mem) := by
    rw [Memory.returnGate, hrdtr, ← hw, hplace, Memory.copyToUser_of_present _ _ _ hpart.present]
  have hpages' : SamePages mem (Memory.storeAll (userEsp + 12) word mem) := by
    have hends := Memory.samePages_copyToUser mem (userEsp + 12) word
    rwa [hplace, Memory.copyToUser_of_present _ _ _ hpart.present] at hends
  refine ⟨_, ?_, Env.boot_mm_eq (E := E) rfl rfl (hpages.trans hpages'), fun j hj hlow => ?_,
    fun i hi => ?_⟩
  · rw [Env.enterUser, hcopy]
    exact hgate
  · rw [hplace, hall'.load_storeAll_of_lt hroom (by rw [hplace] at hlow; omega),
      Memory.load_storeAll usr hvalid j hj, List.getD_eq_getElem _ _ hj]
  · have hi' : i < word.length := hlen.symm ▸ hi
    rw [hplace, Memory.load_storeAll word hpart i hi', List.getD_eq_getElem _ _ hi']

end Env

/-- **A built image boots.**  Take any system and user program that fit, with their lengths, into the
512 kB below the boot sector, and the user program into the pages of task 0; take the disk with the
image that `build` makes of them and of the assembled boot sector.  The boot sector then reads the
sectors of the disk from the second on, each once and in order, with no call of the BIOS across the
end of a track or of a 64 kB segment, and after at most 1024 calls every byte of the system is in its
place behind the three words that `build` has written.  Whatever `main` does to the system in between,
if it leaves these words and the user program alone, task 0 starts with its program at the address
for which it is linked, but for the last four bytes of its pages: there `return_gate` has put
`*p_rdtr`. -/
theorem built_image_boots (E : Env) {w : ℕ} {file sys usr image : List Byte} {disk : Floppy} (m : Ram)
    (hbuild : build w (some file) (some sys) (some usr) = .ok image)
    (hdata : file.drop (minixHeaderLen + gdtOffset) = bootsectData)
    (hdisk : ∀ i < image.length, disk i = image.getD i 0) (hsys : 12 ≤ sys.length)
    (hfit : sys.length + usr.length ≤ 0x7fff0)
    (husr : usr.length ≤ (numPagCode + numPagData) * pageSize) :
    ∃ s, (∀ fuel, 1024 < fuel → bootsect disk fuel m = some s) ∧ Loaded sys usr s ∧
      ∀ m' : Ram, (∀ i < 12, m' (kernelStart + i) = s.mem (kernelStart + i)) →
        (∀ j < usr.length, m' (kernelStart + sys.length + j) = s.mem (kernelStart + sys.length + j)) →
        ∃ mm, E.enterUser m' = .ret 0 mm ∧ ({ E with frame := mm.frame } : Env).boot.mm = mm ∧
          (∀ j < usr.length, lUserStart + j < userEsp + 12 →
            mm.load (lUserStart + j) = usr.getD j 0) ∧
          ∀ i < 4, mm.load (userEsp + 12 + i) = (bytesOf 4 0x7DAA).getD i 0 := by
  have hdata' : (file.drop minixHeaderLen).drop gdtOffset = bootsectData := by
    rw [List.drop_drop, hdata]
  obtain ⟨s, hrun, hloaded⟩ :=
    (holdsImage_of_build hbuild hdisk hsys (by omega) (by omega)).loaded hdata' hsys hfit m
  refine ⟨s, hrun, hloaded, fun m' hwords huser => ?_⟩
  have hword : ∀ o, o + 4 ≤ 12 → m'.loadWord (kernelStart + o) = s.mem.loadWord (kernelStart + o) :=
    fun o ho => Ram.loadWord_congr fun i hi => by rw [Nat.add_assoc]; exact hwords _ (by omega)
  have hss : sysSize m' = sys.length := (hword 0 (by decide)).trans hloaded.sysSize
  have hus : usrSize m' = usr.length := (hword 4 (by decide)).trans hloaded.usrSize
  have hrdtr : rdtr m' = 0x7DAA := (hword 8 (by decide)).trans hloaded.rdtr
  have hbytes : cells m' (kernelStart + sysSize m') (usrSize m') = usr := by
    rw [hss, hus]
    refine List.ext_getElem (length_cells ..) fun j hj hj' => ?_
    rw [getElem_cells, huser j hj', hloaded.user j hj', List.getD_eq_getElem _ _ hj']
  exact E.enterUser_eq husr hbytes hrdtr

/-- A boot sector with nothing but `nop` before its data, in a Minix file. -/
def nopSector : List Byte :=
  [0x01, 0x03, 0x10, 0x04, 0x20, 0x00, 0x00, 0x00] ++ List.replicate 24 0 ++
    List.replicate gdtOffset 0x90 ++ bootsectData

/-- Two bytes behind the words that `build` writes. -/
def smallSystem : List Byte := List.replicate 12 0 ++ [9, 8]

set_option maxRecDepth 4000 in
lemma build_nopSector :
    ∃ image, build 4 (some nopSector) (some smallSystem) (some [7]) = .ok image :=
  ⟨_, rfl⟩

lemma nopSector_data : nopSector.drop (minixHeaderLen + gdtOffset) = bootsectData := by
  rfl

/-- `built_image_boots` for a system of two bytes and a program of one byte. -/
theorem built_image_boots_of_byte : ∃ image s mm,
    build 4 (some nopSector) (some smallSystem) (some [7]) = .ok image ∧
      (∀ fuel, 1024 < fuel → bootsect (fun i => image.getD i 0) fuel (fun _ => 0) = some s) ∧
      s.mem (kernelStart + 12) = 9 ∧ s.mem (kernelStart + 13) = 8 ∧
      linkedEnv.enterUser s.mem = .ret 0 mm ∧ mm.load lUserStart = 7 ∧
      mm.load 0x11BFFC = 0xAA ∧ mm.load 0x11BFFD = 0x7D := by
  obtain ⟨image, hbuild⟩ := build_nopSector
  obtain ⟨s, hrun, hloaded, huser⟩ := built_image_boots linkedEnv (fun _ => 0) hbuild nopSector_data
    (fun i _ => rfl) (by decide) (by decide) (by decide)
  obtain ⟨mm, henter, -, hload, hword⟩ := huser s.mem (fun _ _ => rfl) (fun _ _ => rfl)
  exact ⟨image, s, mm, hbuild, hrun, hloaded.system 12 (by decide) (by decide),
    hloaded.system 13 (by decide) (by decide), henter, hload 0 (by decide) (by decide),
    hword 0 (by decide), hword 1 (by decide)⟩

end ZeOS
