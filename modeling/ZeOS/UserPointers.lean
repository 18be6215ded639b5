import ZeOS.Invariants.UserPages

/-!
# Checks of user pointers

`access_ok` compares the start of a block with user space and its size with the size of user
space, and then looks at two entries of the page table.  It takes the entries of page 0 and of
page `(1 + size) >> 12`, which say nothing about the block, so a block that starts in user space
may end outside of it or go through pages that are not there.  `sys_read`, which stores into the
block, asks for an access of the reading kind.

A page table with an entry for page 0 therefore lets bad blocks pass (`accessOk_sound_iff`).  In
the states of a run the kernel pages and the pages of user space are known, and which blocks are
good, and which bad ones pass, depends on the address, the size and the kind of access alone.
-/

namespace ZeOS

open Memory

namespace Memory

variable {m : Memory} {w : Prop} {addr size : ℕ}

/-- A page is present and, where `w` holds, writable. -/
def PageOk (m : Memory) (w : Prop) (page : ℕ) : Prop :=
  (m.pagusrTable page).present = true ∧ (w → (m.pagusrTable page).rw = true)

/-- Every byte of a block lies in user space and in a page that is present and, where `w` holds,
writable. -/
def BlockOk (m : Memory) (w : Prop) (addr size : ℕ) : Prop :=
  ∀ a, addr ≤ a → a < addr + size → lUserStart ≤ a ∧ a < userEnd ∧ m.PageOk w (a / pageSize)

/-- The block has no bytes, or it ends in user space and its pages are as asked for. -/
def EndsOk (m : Memory) (w : Prop) (addr size : ℕ) : Prop :=
  size = 0 ∨ (addr + size ≤ userEnd ∧
    ∀ page, addr / pageSize ≤ page → page ≤ (addr + size - 1) / pageSize → m.PageOk w page)

/-- What `access_ok` looks at: the start of the block, its size, and two entries of the page
table that have nothing to do with the block. -/
structure LooksOk (m : Memory) (type : ℤ) (addr size : ℕ) : Prop where
  start : lUserStart ≤ addr ∧ addr ≤ userEnd
  bytes : size ≤ (numPagCode + numPagData) * pageSize
  kind : type = 0 ∨ type = 1
  first : m.PageOk (type = 1) 0
  last : m.PageOk (type = 1) ((1 + size) / pageSize)

lemma checkAddress_iff (hsize : size < 2 ^ 32) : checkAddress addr size = true ↔
    (lUserStart ≤ addr ∧ addr ≤ userEnd) ∧ size ≤ (numPagCode + numPagData) * pageSize := by
  have hmod : (size : ℤ) % 2 ^ 32 = size := Int.emod_eq_of_lt (by omega) (by omega)
  simp only [checkAddress, hmod, Bool.not_eq_true', Bool.or_eq_false_iff, decide_eq_false_iff_not,
    not_lt, gt_iff_lt]
  norm_cast

lemma accessOk_iff (type : ℤ) (hsize : size < 2 ^ 32) :
    m.accessOk type addr size = true ↔ m.LooksOk type addr size := by
  by_cases hcheck : checkAddress addr size = true
  · obtain ⟨hstart, hbytes⟩ := (checkAddress_iff hsize).mp hcheck
    have hne : addr ≠ 0 := by
      rintro rfl
      exact absurd hstart.1 (by decide)
    have hlast : ((1 + (size : ℤ)) % 2 ^ 32).toNat = 1 + size := by
      change size ≤ 28 * 4096 at hbytes
      omega
    rw [accessOk, if_neg hne, hcheck, hlast]
    simp only [Bool.not_true, Bool.false_eq_true, if_false]
    constructor
    · intro h
      split_ifs at h with h0 h1
      · rw [Bool.and_eq_true] at h
        exact ⟨hstart, hbytes, .inl h0, ⟨h.1, fun h1 => by omega⟩, ⟨h.2, fun h1 => by omega⟩⟩
      · simp only [Bool.and_eq_true] at h
        exact ⟨hstart, hbytes, .inr h1, ⟨h.1.1, fun _ => h.2.1⟩, ⟨h.1.2, fun _ => h.2.2⟩⟩
    · rintro ⟨-, -, hkind, hfirst, hlast⟩
      rcases hkind with rfl | rfl
      · rw [if_pos rfl, hfirst.1, hlast.1]
        rfl
      · rw [if_neg (by decide), if_pos rfl, hfirst.1, hlast.1, hfirst.2 rfl, hlast.2 rfl]
        rfl
  · constructor
    · intro h
      rw [accessOk] at h
      split_ifs at h <;> simp_all
    · intro h
      exact absurd ((checkAddress_iff hsize).mpr ⟨h.start, h.bytes⟩) hcheck

lemma blockOk_iff (hlow : lUserStart ≤ addr) : m.BlockOk w addr size ↔ m.EndsOk w addr size := by
  constructor
  · intro h
    by_cases hsize : size = 0
    · exact .inl hsize
    · refine .inr ⟨?_, fun page hlo hhi => ?_⟩
      · have := (h (addr + size - 1) (by omega) (by omega)).2.1
        omega
      · -- a byte of the block in the page: its first one, or the first byte of the page
        by_cases hstart : addr / pageSize = page
        · have := (h addr le_rfl (by omega)).2.2
          rwa [hstart] at this
        · have hbyte := h (page * pageSize) ?_ ?_
          · rw [Nat.mul_div_cancel _ (by decide)] at hbyte
            exact hbyte.2.2
          · change addr / 4096 ≠ page at hstart
            change addr / 4096 ≤ page at hlo
            show addr ≤ page * 4096
            omega
          · change page ≤ (addr + size - 1) / 4096 at hhi
            show page * 4096 < addr + size
            omega
  · rintro (rfl | ⟨hend, hpages⟩) a hlo hhi
    · omega
    · refine ⟨by omega, by omega, hpages _ (Nat.div_le_div_right hlo) (Nat.div_le_div_right ?_)⟩
      omega

end Memory

/-! ## The two system calls -/

namespace Kernel

/-- `sys_read` comes to the device routine of a file. -/
structure ReadsDevice (s : Kernel) (fd : ℤ) (buffer : ℕ) (size : ℤ) (v : FdtId) (f : FileId) :
    Prop where
  descriptor : s.openFile fd = some v
  nonneg : 0 ≤ size
  le : size ≤ maxSize
  mode : (s.fs.fdt v).accessMode ≠ oWronly
  access : s.mm.accessOk 0 buffer size = true
  device : (s.fs.fdt v).logicDev = some f
  routine : (s.fs.ops f).sysReadDev ≠ .null

/-- `sys_write` comes to the device routine of a file. -/
structure WritesDevice (s : Kernel) (fd : ℤ) (buffer : ℕ) (size : ℤ) (v : FdtId) (f : FileId) :
    Prop where
  descriptor : s.openFile fd = some v
  le : size ≤ maxSize
  nonneg : 0 ≤ size
  mode : (s.fs.fdt v).accessMode ≠ oRdonly
  access : s.mm.accessOk 1 buffer size = true
  device : (s.fs.fdt v).logicDev = some f
  routine : (s.fs.ops f).sysWriteDev ≠ .null

/-- The read routine of a device. -/
def readDev (s : Kernel) (v : FdtId) (f : FileId) (buffer : ℕ) (size : ℤ) : Outcome Kernel ℤ :=
  match (s.fs.ops f).sysReadDev with
  | .null => .ret (-eNosys) s
  | .sysReadKeyboard => s.sysReadKeyboard size
  | .sysReadFile =>
    (s.fs.sysReadFile s.mm v f buffer size.toNat).lift fun st => { s with fs := st.1, mm := st.2 }

/-- The write routine of a device. -/
def writeDev (s : Kernel) (v : FdtId) (f : FileId) (buffer : ℕ) (size : ℤ) : Outcome Kernel ℤ :=
  match (s.fs.ops f).sysWriteDev with
  | .null => .ret (-eInval) s
  | .sysWriteConsole =>
    (s.screen.sysWriteConsole s.mm buffer size.toNat).lift fun sc => { s with screen := sc }
  | .sysWriteFile =>
    (s.fs.sysWriteFile s.mm v f buffer size.toNat).lift fun fs => { s with fs := fs }

/-- A read that comes to a device routine is the call of that routine, and any other read stores
nothing. -/
lemma sysRead_readsDevice (s : Kernel) (fd : ℤ) (buffer : ℕ) (size : ℤ) :
    (∃ v f, s.ReadsDevice fd buffer size v f ∧ s.sysRead fd buffer size =
      (s.updTask s.cur fun k => { k with size := size, buffer := buffer }).readDev v f buffer size) ∨
    (∀ v f, ¬ s.ReadsDevice fd buffer size v f) ∧
      ((∃ r t, s.sysRead fd buffer size = .ret r t ∧ r < 0 ∧ t.mm = s.mm) ∨
        s.sysRead fd buffer size = .stop .nullPointer) := by
  unfold sysRead
  cases hfd : s.openFile fd with
  | none =>
    refine .inr ⟨fun v f h => ?_, .inl ⟨_, s, rfl, by decide, rfl⟩⟩
    rw [h.descriptor] at hfd
    simp at hfd
  | some v =>
    have hv : ∀ {v' f}, s.ReadsDevice fd buffer size v' f → v' = v := by
      intro v' f h
      rw [h.descriptor, Option.some.injEq] at hfd
      exact hfd
    simp only
    by_cases h1 : size < 0
    · rw [if_pos h1]
      exact .inr ⟨fun _ _ h => absurd h.nonneg (by omega), .inl ⟨_, s, rfl, by decide, rfl⟩⟩
    rw [if_neg h1]
    by_cases h2 : size > maxSize
    · rw [if_pos h2]
      exact .inr ⟨fun _ _ h => absurd h.le (by omega), .inl ⟨_, s, rfl, by decide, rfl⟩⟩
    rw [if_neg h2]
    by_cases h3 : (s.fs.fdt v).accessMode = oWronly
    · rw [if_pos h3]
      exact .inr ⟨fun _ _ h => h.mode (hv h ▸ h3), .inl ⟨_, s, rfl, by decide, rfl⟩⟩
    rw [if_neg h3]
    by_cases h4 : s.mm.accessOk 0 buffer size = true
    · rw [h4]
      simp only [Bool.not_true, Bool.false_eq_true, if_false, updTask_fs]
      cases hdev : (s.fs.fdt v).logicDev with
      | none =>
        refine .inr ⟨fun v' f h => ?_, .inr rfl⟩
        have := h.device
        rw [hv h, hdev] at this
        simp at this
      | some f =>
        by_cases hnull : (s.fs.ops f).sysReadDev = .null
        · simp only [hnull]
          refine .inr ⟨fun v' f' h => ?_, .inl ⟨_, _, rfl, by decide, rfl⟩⟩
          have := h.device
          rw [hv h, hdev, Option.some.injEq] at this
          exact h.routine (this ▸ hnull)
        · exact .inl ⟨v, f, ⟨hfd, by omega, by omega, h3, h4, hdev, hnull⟩, rfl⟩
    · rw [if_pos (by simpa using h4)]
      exact .inr ⟨fun _ _ h => h4 h.access, .inl ⟨_, s, rfl, by decide, rfl⟩⟩

lemma sysWrite_writesDevice (s : Kernel) (fd : ℤ) (buffer : ℕ) (size : ℤ) :
    (∃ v f, s.WritesDevice fd buffer size v f ∧
      s.sysWrite fd buffer size = s.writeDev v f buffer size) ∨
    (∀ v f, ¬ s.WritesDevice fd buffer size v f) ∧
      ((∃ r, s.sysWrite fd buffer size = .ret r s ∧ r < 0) ∨
        s.sysWrite fd buffer size = .stop .nullPointer) := by
  unfold sysWrite
  cases hfd : s.openFile fd with
  | none =>
    refine .inr ⟨fun v f h => ?_, .inl ⟨_, rfl, by decide⟩⟩
    rw [h.descriptor] at hfd
    simp at hfd
  | some v =>
    have hv : ∀ {v' f}, s.WritesDevice fd buffer size v' f → v' = v := by
      intro v' f h
      rw [h.descriptor, Option.some.injEq] at hfd
      exact hfd
    simp only
    by_cases h1 : size > maxSize
    · rw [if_pos h1]
      exact .inr ⟨fun _ _ h => absurd h.le (by omega), .inl ⟨_, rfl, by decide⟩⟩
    rw [if_neg h1]
    by_cases h2 : size < 0
    · rw [if_pos h2]
      exact .inr ⟨fun _ _ h => absurd h.nonneg (by omega), .inl ⟨_, rfl, by decide⟩⟩
    rw [if_neg h2]
    by_cases h3 : (s.fs.fdt v).accessMode = oRdonly
    · rw [if_pos h3]
      exact .inr ⟨fun _ _ h => h.mode (hv h ▸ h3), .inl ⟨_, rfl, by decide⟩⟩
    rw [if_neg h3]
    by_cases h4 : s.mm.accessOk 1 buffer size = true
    · rw [h4]
      simp only [Bool.not_true, Bool.false_eq_true, if_false]
      cases hdev : (s.fs.fdt v).logicDev with
      | none =>
        refine .inr ⟨fun v' f h => ?_, .inr rfl⟩
        have := h.device
        rw [hv h, hdev] at this
        simp at this
      | some f =>
        by_cases hnull : (s.fs.ops f).sysWriteDev = .null
        · simp only [hnull]
          refine .inr ⟨fun v' f' h => ?_, .inl ⟨_, rfl, by decide⟩⟩
          have := h.device
          rw [hv h, hdev, Option.some.injEq] at this
          exact h.routine (this ▸ hnull)
        · exact .inl ⟨v, f, ⟨hfd, by omega, by omega, h3, h4, hdev, hnull⟩, rfl⟩
    · rw [if_pos (by simpa using h4)]
      exact .inr ⟨fun _ _ h => h4 h.access, .inl ⟨_, rfl, by decide⟩⟩

lemma ReadsDevice.sysRead_eq {s : Kernel} {fd : ℤ} {buffer : ℕ} {size : ℤ} {v : FdtId} {f : FileId}
    (h : s.ReadsDevice fd buffer size v f) : s.sysRead fd buffer size =
      (s.updTask s.cur fun k => { k with size := size, buffer := buffer }).readDev v f buffer size := by
  rcases s.sysRead_readsDevice fd buffer size with ⟨v', f', h', heq⟩ | ⟨hno, -⟩
  · obtain rfl : v' = v := Option.some.inj (h'.descriptor.symm.trans h.descriptor)
    obtain rfl : f' = f := Option.some.inj (h'.device.symm.trans h.device)
    exact heq
  · exact absurd h (hno v f)

lemma WritesDevice.sysWrite_eq {s : Kernel} {fd : ℤ} {buffer : ℕ} {size : ℤ} {v : FdtId}
    {f : FileId} (h : s.WritesDevice fd buffer size v f) :
    s.sysWrite fd buffer size = s.writeDev v f buffer size := by
  rcases s.sysWrite_writesDevice fd buffer size with ⟨v', f', h', heq⟩ | ⟨hno, -⟩
  · obtain rfl : v' = v := Option.some.inj (h'.descriptor.symm.trans h.descriptor)
    obtain rfl : f' = f := Option.some.inj (h'.device.symm.trans h.device)
    exact heq
  · exact absurd h (hno v f)

end Kernel

/-! ## The page tables of runs -/

/-- A page that `init_table_pages` takes out to protect a task structure. -/
def Env.IsGuard (E : Env) (page : ℕ) : Prop := ∃ i : Slot, page = E.taskPage + 2 * i.val

/-- A block that lies in user space and, where `w` holds, in the data pages. -/
def InsideUser (w : Prop) (addr size : ℕ) : Prop :=
  size = 0 ∨ (addr + size ≤ userEnd ∧ (w → userData ≤ addr))

/-- A block that starts in user space and has a size and a kind that the check allows, with no
guard page among the two pages that it looks at; but the block runs past the end of user space, or
is to be written to and starts in the code pages. -/
structure Env.BadBlock (E : Env) (type : ℤ) (addr size : ℕ) : Prop where
  start : lUserStart ≤ addr ∧ addr ≤ userEnd
  pos : 0 < size
  bytes : size ≤ (numPagCode + numPagData) * pageSize
  kind : type = 0 ∨ type = 1
  first : ¬ E.IsGuard 0
  last : ¬ E.IsGuard ((1 + size) / pageSize)
  bad : userEnd < addr + size ∨ type = 1 ∧ addr < userData

namespace Memory.UserMapped

variable {E : Env} {m : Memory} {w : Prop} {addr size : ℕ}

/-- The kernel pages can be read and written, but for the guard pages. -/
lemma pageOk_kernel (h : m.UserMapped E) {page : ℕ} (hp : page < numPagKernel) :
    m.PageOk w page ↔ ¬ E.IsGuard page := by
  rw [PageOk, h.kernel hp, initTablePages, Env.IsGuard]
  split_ifs with hguard
  · simp [hguard]
  · simp [hguard]

/-- In user space every page is present, and the data pages are writable and the code pages are
not. -/
lemma endsOk_iff (h : m.UserMapped E) (w : Prop) (hlow : lUserStart ≤ addr) :
    m.EndsOk w addr size ↔ InsideUser w addr size := by
  have hdata : ∀ page, 264 ≤ page → page < 284 → m.PageOk w page := by
    intro page hlo hhi
    obtain ⟨f, hf⟩ := h.data page hlo hhi
    rw [PageOk, hf]
    exact ⟨rfl, fun _ => rfl⟩
  have hcode : ∀ page, 256 ≤ page → page < 264 → (m.PageOk w page ↔ ¬ w) := by
    intro page hlo hhi
    rw [PageOk, h.code hlo hhi]
    simp
  have hlow' : 1048576 ≤ addr := hlow
  unfold EndsOk InsideUser
  refine or_congr_right' fun hsize => and_congr_right fun hend => ?_
  have hend' : addr + size ≤ 1048576 + 28 * 4096 := hend
  constructor
  · intro hpages hw
    by_contra hno
    have hno' : ¬ 1048576 + 8 * 4096 ≤ addr := hno
    have hpage := hpages (addr / pageSize) le_rfl (Nat.div_le_div_right (by omega))
    refine (hcode (addr / 4096) (by omega) (by omega)).mp hpage hw
  · intro hw page hlo hhi
    change addr / 4096 ≤ page at hlo
    change page ≤ (addr + size - 1) / 4096 at hhi
    by_cases hpage : 264 ≤ page
    · exact hdata page hpage (by omega)
    · refine (hcode page (by omega) (by omega)).mpr fun hw' => ?_
      have : 1048576 + 8 * 4096 ≤ addr := hw hw'
      omega

lemma blockOk_iff (h : m.UserMapped E) (w : Prop) (hlow : lUserStart ≤ addr) :
    m.BlockOk w addr size ↔ InsideUser w addr size := by
  rw [Memory.blockOk_iff hlow, h.endsOk_iff w hlow]

/-- The pages that the check looks at are kernel pages. -/
lemma looksOk_iff (h : m.UserMapped E) {type : ℤ} : m.LooksOk type addr size ↔
    (lUserStart ≤ addr ∧ addr ≤ userEnd) ∧ size ≤ (numPagCode + numPagData) * pageSize ∧
      (type = 0 ∨ type = 1) ∧ ¬ E.IsGuard 0 ∧ ¬ E.IsGuard ((1 + size) / pageSize) := by
  have hlast : size ≤ (numPagCode + numPagData) * pageSize → (1 + size) / pageSize < numPagKernel := by
    intro hbytes
    change size ≤ 28 * 4096 at hbytes
    show (1 + size) / 4096 < 256
    omega
  constructor
  · rintro ⟨hstart, hbytes, hkind, hf, hl⟩
    exact ⟨hstart, hbytes, hkind, (h.pageOk_kernel (by decide)).mp hf,
      (h.pageOk_kernel (hlast hbytes)).mp hl⟩
  · rintro ⟨hstart, hbytes, hkind, hf, hl⟩
    exact ⟨hstart, hbytes, hkind, (h.pageOk_kernel (by decide)).mpr hf,
      (h.pageOk_kernel (hlast hbytes)).mpr hl⟩

/-- The blocks that are good, or do not pass. -/
lemma accessOk_sound_iff_not_badBlock (h : m.UserMapped E) (type : ℤ) (hsize : size < 2 ^ 32) :
    (m.accessOk type addr size = true → m.BlockOk (type = 1) addr size) ↔
      ¬ E.BadBlock type addr size := by
  rw [accessOk_iff type hsize, h.looksOk_iff]
  constructor
  · rintro hsound ⟨hstart, hpos, hbytes, hkind, hf, hl, hbad⟩
    rcases (h.blockOk_iff _ hstart.1).mp (hsound ⟨hstart, hbytes, hkind, hf, hl⟩) with
      hzero | ⟨hend, hdata⟩
    · omega
    · rcases hbad with hover | ⟨htype, hcode⟩
      · omega
      · exact absurd (hdata htype) (not_le.mpr hcode)
  · rintro hgood ⟨hstart, hbytes, hkind, hf, hl⟩
    refine (h.blockOk_iff _ hstart.1).mpr ?_
    by_contra hout
    rw [InsideUser, not_or, not_and_or, Classical.not_imp, not_le, not_le] at hout
    exact hgood ⟨hstart, by omega, hbytes, hkind, hf, hl, hout.2⟩

end Memory.UserMapped

/-- A page table passes no bad block just when it has no entry for page 0, and then it passes no
block. -/
lemma Memory.accessOk_sound_iff_page_zero (m : Memory) :
    (∀ (type : ℤ) (addr : ℕ) (len : UInt32), m.accessOk type addr len.toNat = true →
      m.BlockOk (type = 1) addr len.toNat) ↔ (m.pagusrTable 0).present = false := by
  constructor
  · intro hsound
    by_contra hpresent
    rw [Bool.not_eq_false] at hpresent
    have hread : m.PageOk ((0 : ℤ) = 1) 0 := ⟨hpresent, fun h => by omega⟩
    -- one byte behind user space: both entries looked at are that of page 0
    have hpass : m.accessOk 0 userEnd (1 : UInt32).toNat = true :=
      (accessOk_iff 0 (by decide)).mpr ⟨by decide, by decide, .inl rfl, hread, hread⟩
    exact absurd (hsound 0 userEnd 1 hpass userEnd le_rfl (by decide)).2.1 (lt_irrefl _)
  · intro habsent type addr len hpass
    have hfirst := ((accessOk_iff type len.toNat_lt).mp hpass).first.1
    rw [habsent] at hfirst
    cases hfirst

/-- **When the check of user pointers is sound.**  A page table passes no bad block, for all
addresses, sizes and kinds of access, just when page 0 is not present.  In the states of a run a
block that passes lies in pages of user space as asked for, just when it is no `BadBlock`; the block
that `sys_read` hands to a device routine is writable just when it lies in the data pages, and the
one that `sys_write` hands on is readable just when it does not run past the end of user space. -/
theorem accessOk_sound_iff (E : Env) :
    (∀ m : Memory, (∀ (type : ℤ) (addr : ℕ) (len : UInt32),
      m.accessOk type addr len.toNat = true → m.BlockOk (type = 1) addr len.toNat) ↔
        (m.pagusrTable 0).present = false) ∧
    ∀ (es : List Event) (s : Kernel), AnyRun E.boot es s →
      (∀ (type : ℤ) (addr : ℕ) (len : UInt32),
        (s.mm.accessOk type addr len.toNat = true → s.mm.BlockOk (type = 1) addr len.toNat) ↔
          ¬ E.BadBlock type addr len.toNat) ∧
      ∀ (fd : ℤ) (buffer : ℕ) (size : ℤ) (v : FdtId) (f : FileId),
        (s.ReadsDevice fd buffer size v f → s.sysRead fd buffer size =
            (s.updTask s.cur fun k => { k with size := size, buffer := buffer }).readDev v f buffer
              size ∧
          (s.mm.BlockOk True buffer size.toNat ↔
            size = 0 ∨ (userData ≤ buffer ∧ buffer + size ≤ userEnd))) ∧
        (s.WritesDevice fd buffer size v f →
          s.sysWrite fd buffer size = s.writeDev v f buffer size ∧
          (s.mm.BlockOk False buffer size.toNat ↔ size = 0 ∨ buffer + size ≤ userEnd)) := by
  have hstart : ∀ {m : Memory} {type : ℤ} {buffer : ℕ} {size : ℤ}, 0 ≤ size →
      size ≤ Kernel.maxSize → m.accessOk type buffer size = true → lUserStart ≤ buffer := by
    intro m type buffer size hnonneg hle hacc
    have hle' : size ≤ 20 * 4096 - 1024 := hle
    obtain ⟨n, rfl⟩ := Int.eq_ofNat_of_zero_le hnonneg
    exact ((accessOk_iff type (by omega)).mp hacc).start.1
  refine ⟨Memory.accessOk_sound_iff_page_zero, fun es s hrun => ⟨fun type addr len => ?_,
    fun fd buffer size v f => ⟨fun h => ⟨h.sysRead_eq, ?_⟩, fun h => ⟨h.sysWrite_eq, ?_⟩⟩⟩⟩
  · exact hrun.userMapped.accessOk_sound_iff_not_badBlock type len.toNat_lt
  · have hnonneg := h.nonneg
    rw [hrun.userMapped.blockOk_iff True (hstart h.nonneg h.le h.access)]
    constructor
    · rintro (hzero | ⟨hend, hdata⟩)
      · exact .inl (by omega)
      · exact .inr ⟨hdata trivial, by omega⟩
    · rintro (hzero | ⟨hdata, hend⟩)
      · exact .inl (by omega)
      · exact .inr ⟨by omega, fun _ => hdata⟩
  · have hnonneg := h.nonneg
    rw [hrun.userMapped.blockOk_iff False (hstart h.nonneg h.le h.access)]
    constructor
    · rintro (hzero | ⟨hend, -⟩)
      · exact .inl (by omega)
      · exact .inr (by omega)
    · rintro (hzero | hend)
      · exact .inl (by omega)
      · exact .inr ⟨by omega, False.elim⟩

/-- At boot, `access_ok` passes every block of one byte that starts in user space. -/
lemma linkedEnv_boot_accessOk {type : ℤ} {addr : ℕ} (htype : type = 0 ∨ type = 1)
    (haddr : lUserStart ≤ addr ∧ addr ≤ userEnd) :
    linkedEnv.boot.mm.accessOk type addr 1 = true := by
  have hpage : linkedEnv.boot.mm.PageOk (type = 1) 0 := by
    rw [PageOk, linkedEnv_boot_page_zero]
    exact ⟨rfl, fun _ => rfl⟩
  rw [show (1 : ℤ) = ((1 : ℕ) : ℤ) from rfl, accessOk_iff type (by decide)]
  refine ⟨haddr, by decide, htype, hpage, ?_⟩
  rw [show (1 + 1) / pageSize = 0 by decide]
  exact hpage

lemma linkedEnv_boot_readsDevice {addr : ℕ} (haddr : lUserStart ≤ addr ∧ addr ≤ userEnd) :
    linkedEnv.boot.ReadsDevice 0 addr 1 0 0 :=
  ⟨rfl, by decide, by decide, by decide, linkedEnv_boot_accessOk (.inl rfl) haddr, rfl, by decide⟩

/-- At boot, the first byte of the data pages passes as writable and is writable, and a read of the
keyboard into it comes to the keyboard routine. -/
theorem accessOk_sound_iff_at_boot :
    linkedEnv.boot.mm.BlockOk ((1 : ℤ) = 1) userData (1 : UInt32).toNat ∧
      linkedEnv.boot.sysRead 0 userData 1 = (linkedEnv.boot.updTask 0 fun k =>
        { k with size := 1, buffer := userData }).readDev 0 0 userData 1 := by
  obtain ⟨hblocks, hcalls⟩ := (accessOk_sound_iff linkedEnv).2 [] _ (.nil _)
  refine ⟨(hblocks 1 userData 1).mpr ?_ (linkedEnv_boot_accessOk (.inr rfl) (by decide)), ?_⟩
  · rintro ⟨-, -, -, -, -, -, hbad | ⟨-, hcode⟩⟩
    · exact absurd hbad (by decide)
    · exact lt_irrefl _ hcode
  · exact ((hcalls 0 userData 1 0 0).1 (linkedEnv_boot_readsDevice (by decide))).1

/-- At boot, `access_ok` passes a byte behind user space, and `sys_read` brings the keyboard
routine a buffer in the code pages. -/
theorem accessOk_passes_bad_blocks :
    (linkedEnv.boot.mm.accessOk 1 userEnd 1 = true ∧ ¬ linkedEnv.boot.mm.BlockOk (1 = 1) userEnd 1) ∧
    linkedEnv.boot.ReadsDevice 0 lUserStart 1 0 0 ∧
      ¬ linkedEnv.boot.mm.BlockOk True lUserStart 1 := by
  refine ⟨⟨linkedEnv_boot_accessOk (.inr rfl) (by decide), fun h => ?_⟩,
    linkedEnv_boot_readsDevice (by decide), fun h => ?_⟩
  · exact absurd (h userEnd le_rfl (by decide)).2.1 (by decide)
  · have hrw := (h lUserStart le_rfl (by decide)).2.2.2 trivial
    rw [show lUserStart / pageSize = 256 by decide,
      linkedEnv.boot_tableIs.other 256 (.inl (by decide)),
      linkedEnv.codeMemory_code (by decide)] at hrw
    simp at hrw

end ZeOS
