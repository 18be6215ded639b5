import ZeOS.Invariants.Contents
import ZeOS.Files

/-!
# Writing a file and reading it back

Processes create new files, append to each through the descriptor that created it, open them
again for reading and read them, in any order and with anything in between that is no file
call.  A `Log` beside the kernel records what they did: for each new file the bytes that were
written to it, for each reader the bytes that its reads put into its buffers.

`Allowed` says which events such a run may contain, in the state before them: the calls that
the kernel accepts, on buffers that are mapped, with enough room in its tables.
`LogOk` ties the log to the kernel, and every allowed call succeeds and keeps it
(`LogOk.create`, `LogOk.reopen`, `LogOk.write`, `LogOk.read`).  `file_round_trip` draws the
conclusion.
-/

namespace ZeOS

open FileSystem LinkChain GuardedRun

/-! ## The log of a run -/

/-- A descriptor that a process was given: the process, the number, and what it stands for. -/
structure Handle where
  proc : Slot
  fd : Fd
  entry : FdtId
  file : FileId
  deriving DecidableEq

/-- The handle that process `u` names by `fd`. -/
abbrev Handle.Is (h : Handle) (u : Slot) (fd : ℤ) : Prop := h.proc = u ∧ (h.fd.val : ℤ) = fd

/-- A file created in the run, with all bytes written to it. -/
structure NewFile where
  path : List Byte
  handle : Handle
  data : List Byte

/-- A new file opened again, with all bytes that its reads delivered. -/
structure Reader where
  handle : Handle
  got : List Byte

/-- What happened in a run. -/
structure Log where
  files : List NewFile
  readers : List Reader

/-- The result of a system call, as the process finds it in `%eax`. -/
abbrev Kernel.result (t : Kernel) : ℤ := t.current.stack eaxIndex

namespace Log

/-- Nothing has happened. -/
def empty : Log := { files := [], readers := [] }

/-- All descriptors of the log. -/
def handles (log : Log) : List Handle :=
  log.files.map NewFile.handle ++ log.readers.map Reader.handle

/-- A descriptor for a new file or a new reader. -/
def note (log : Log) (h : Handle) (path : List Byte) (flags : ℤ) : Log :=
  if flags = oRdonly then { log with readers := log.readers ++ [{ handle := h, got := [] }] }
  else { log with files := log.files ++ [{ path := path, handle := h, data := [] }] }

/-- Bytes written through a descriptor. -/
def wrote (log : Log) (u : Slot) (fd : ℤ) (bytes : List Byte) : Log :=
  { log with files := log.files.map fun n =>
      if n.handle.Is u fd then { n with data := n.data ++ bytes } else n }

/-- Bytes read through a descriptor. -/
def read (log : Log) (u : Slot) (fd : ℤ) (bytes : List Byte) : Log :=
  { log with readers := log.readers.map fun r =>
      if r.handle.Is u fd then { r with got := r.got ++ bytes } else r }

@[simp] lemma handles_wrote (log : Log) (u : Slot) (fd : ℤ) (bytes : List Byte) :
    (log.wrote u fd bytes).handles = log.handles := by
  have hmap : ∀ n : NewFile,
      (if n.handle.Is u fd then { n with data := n.data ++ bytes } else n).handle = n.handle := by
    intro n
    split_ifs <;> rfl
  simp [handles, wrote, Function.comp_def, hmap]

@[simp] lemma handles_read (log : Log) (u : Slot) (fd : ℤ) (bytes : List Byte) :
    (log.read u fd bytes).handles = log.handles := by
  have hmap : ∀ r : Reader,
      (if r.handle.Is u fd then { r with got := r.got ++ bytes } else r).handle = r.handle := by
    intro r
    split_ifs <;> rfl
  simp [handles, read, Function.comp_def, hmap]

/-- A write leaves every file but that of its descriptor as it was. -/
lemma mem_wrote {log : Log} {u : Slot} {fd : ℤ} {bytes : List Byte} {m' : NewFile}
    (h : m' ∈ (log.wrote u fd bytes).files) :
    ∃ m ∈ log.files, m'.handle = m.handle ∧
      (m.handle.Is u fd ∧ m' = { m with data := m.data ++ bytes } ∨ ¬ m.handle.Is u fd ∧ m' = m) := by
  obtain ⟨m, hm, rfl⟩ := List.mem_map.mp h
  refine ⟨m, hm, ?_⟩
  by_cases his : m.handle.Is u fd
  · rw [if_pos his]
    exact ⟨rfl, .inl ⟨his, rfl⟩⟩
  · rw [if_neg his]
    exact ⟨rfl, .inr ⟨his, rfl⟩⟩

/-- Files only grow. -/
lemma exists_mem_wrote {log : Log} {m : NewFile} (hm : m ∈ log.files) (u : Slot) (fd : ℤ)
    (bytes : List Byte) :
    ∃ m' ∈ (log.wrote u fd bytes).files, m'.handle = m.handle ∧ m.data <+: m'.data := by
  refine ⟨_, List.mem_map_of_mem hm, ?_⟩
  split_ifs
  · exact ⟨rfl, List.prefix_append _ _⟩
  · exact ⟨rfl, List.prefix_refl _⟩

/-- The log after a step. -/
def update (s : Kernel) (e : Event) (t : Kernel) (log : Log) : Log :=
  match e.act with
  | .open _ path flags =>
    match s.fs.freeFdt, freeFd (s.fds s.cur),
        if flags = oRdonly then s.fs.lookup path else s.fs.freeDir with
    | some v, some fd, some f =>
      log.note { proc := s.cur, fd := fd, entry := v, file := f } path flags
    | _, _, _ => log
  | .write fd buffer size => log.wrote s.cur fd (userBytes s.mm buffer size.toNat)
  | .read fd buffer _ => log.read s.cur fd (userBytes t.mm buffer t.result.toNat)
  | _ => log

end Log

/-! ## What a run may contain -/

/-- `sys_open (path, O_CREAT | O_RDWR)` of an unused name in mapped memory, with room in all
tables. -/
structure CanCreate (s : Kernel) (addr : ℕ) (path : List Byte) : Prop where
  pathOk : s.mm.PathOk addr path
  len : path.length ≤ maxNameLength - 1
  cstring : (0 : Byte) ∉ path
  unused : s.fs.lookup path = none
  dirSlot : s.fs.freeDir.isSome = true
  fdtSlot : s.fs.freeFdt.isSome = true
  fdSlot : (freeFd (s.fds s.cur)).isSome = true
  block : s.fs.ffb ≠ -1

/-- `sys_open (path, O_RDONLY)` of a new file, from a mapped path, with room in the tables. -/
structure CanReopen (s : Kernel) (log : Log) (addr : ℕ) (path : List Byte) : Prop where
  pathOk : s.mm.PathOk addr path
  file : ∃ n ∈ log.files, n.path = path
  fdtSlot : s.fs.freeFdt.isSome = true
  fdSlot : (freeFd (s.fds s.cur)).isSome = true

/-- There are free blocks for `n` more bytes of a file of `k` bytes. -/
def EnoughBlocks (fs : FileSystem) (k n : ℕ) : Prop :=
  ∃ free, IsChain fs.fat (-1) fs.ffb free ∧ blocksFor (k + n) ≤ blocksFor k + free.length

/-- A `sys_write` through the descriptor that created a file, from a mapped buffer. -/
structure CanWrite (s : Kernel) (log : Log) (fd : ℤ) (buffer : ℕ) (size : ℤ) : Prop where
  size_nonneg : 0 ≤ size
  size_le : size ≤ Kernel.maxSize
  access : s.mm.accessOk 1 buffer size = true
  mapped : ∀ j < size.toNat, s.mm.present (buffer + j) = true
  file : ∃ n ∈ log.files, n.handle.Is s.cur fd ∧ EnoughBlocks s.fs n.data.length size.toNat

/-- A `sys_read` of positive size through the descriptor of a reader, into a mapped buffer. -/
structure CanRead (s : Kernel) (log : Log) (fd : ℤ) (buffer : ℕ) (size : ℤ) : Prop where
  size_pos : 0 < size
  size_le : size ≤ Kernel.maxSize
  access : s.mm.accessOk 0 buffer size = true
  mapped : s.mm.ValidBuffer buffer size.toNat
  reader : ∃ r ∈ log.readers, r.handle.Is s.cur fd

/-- The events of a run: creations, writes, reopenings and reads as above, and anything that is
no file call. -/
def Allowed (s : Kernel × Log) (e : Event) : Prop :=
  match e.act with
  | .open addr path flags =>
    (flags = oCreat + oRdwr ∧ CanCreate s.1 addr path) ∨
      (flags = oRdonly ∧ CanReopen s.1 s.2 addr path)
  | .write fd buffer size => CanWrite s.1 s.2 fd buffer size
  | .read fd buffer size => CanRead s.1 s.2 fd buffer size
  | act => ¬ Kernel.FileAction act

/-! ## The log and the kernel -/

/-- A descriptor is open in the given mode, at offset `o`, and no other uses its entry. -/
structure HandleOk (s : Kernel) (h : Handle) (mode : ℤ) (o : ℕ) : Prop where
  fd : s.fds h.proc h.fd = some h.entry
  entry : s.fs.fdt h.entry =
    { accessMode := mode, refs := 1, offset := o, logicDev := some h.file }

/-- A new file holds what was written to it, its writer is at its end, and its name is its
own. -/
structure NewFileOk (s : Kernel) (n : NewFile) : Prop where
  handle : HandleOk s n.handle oRdwr n.data.length
  regular : s.fs.IsRegular n.handle.file
  allow : (s.fs.dir n.handle.file).accessModeAllow = oRdwr
  nRefs : 1 ≤ (s.fs.dir n.handle.file).nRefs
  named : ∀ g, cString (s.fs.dir g).name = n.path ↔ g = n.handle.file
  contents : s.fs.contents n.handle.file = n.data
  tight : (s.fs.dir n.handle.file).nBlocks = blocksFor n.data.length
  len : n.path.length ≤ maxNameLength

/-- A reader has read its file from the start to its offset. -/
structure ReaderOk (s : Kernel) (log : Log) (r : Reader) : Prop where
  handle : HandleOk s r.handle oRdonly r.got.length
  file : ∃ n ∈ log.files, n.handle.file = r.handle.file ∧ r.got <+: n.data

/-- The log agrees with the kernel, and the files that were there at the start, in `fs₀`, are as
they were. -/
structure LogOk (fs₀ : FileSystem) (s : Kernel) (log : Log) (C : Option FileId → List ℤ) : Prop where
  fat : FatOk s.fs C
  files : ∀ n ∈ log.files, NewFileOk s n
  readers : ∀ r ∈ log.readers, ReaderOk s log r
  /-- No two descriptors of the log share an entry, and no two new files a directory entry. -/
  entryInj : ∀ h ∈ log.handles, ∀ h' ∈ log.handles, h.entry = h'.entry → h = h'
  fileInj : ∀ n ∈ log.files, ∀ n' ∈ log.files, n.handle.file = n'.handle.file → n.handle = n'.handle
  freeDir : ∀ f, (s.fs.dir f).nRefs = -1 → ¬ s.fs.IsRegular f
  freeFdt : ∀ u fd v, s.fds u fd = some v → 0 < (s.fs.fdt v).refs
  kept : ∀ f, fs₀.IsRegular f → s.fs.IsRegular f ∧ s.fs.contents f = fs₀.contents f ∧
    ∀ n ∈ log.files, n.handle.file ≠ f

/-! ## The calls at the level of the kernel -/

namespace Kernel

variable {s : Kernel} {e : Event} {fd : Fd} {v : FdtId} {f : FileId} {buffer : ℕ} {size : ℤ}

lemma openFile_of_fd {s : Kernel} {fd : Fd} (regs : SavedRegs) :
    (s.enter regs).openFile fd.val = s.fds s.cur fd := by
  rw [openFile_val]
  exact congrFun ((s.sameFiles_enter regs).fds s.cur) fd

/-- A write through an open file that may be written. -/
lemma dispatch_write {r : ℤ} {fs' : FileSystem} (hact : e.act = .write fd.val buffer size)
    (hfd : s.fds s.cur fd = some v) (h0 : 0 ≤ size) (hmax : size ≤ maxSize)
    (hmode : (s.fs.fdt v).accessMode ≠ oRdonly) (hacc : s.mm.accessOk 1 buffer size = true)
    (hdev : (s.fs.fdt v).logicDev = some f) (hf : s.fs.IsRegular f)
    (hw : s.fs.sysWriteFile s.mm v f buffer size.toNat = .ret r fs') :
    s.dispatch e = .done ({ s.enter e.regs with fs := fs' }.setEax r) := by
  have hwrite : (s.fs.ops f).sysWriteDev = .sysWriteFile := by
    rw [show s.fs.ops f = fileOps from hf]
    rfl
  rw [dispatch, hact]
  simp only [sysWrite, openFile_of_fd, hfd, if_neg (Int.not_lt.mpr hmax), if_neg (Int.not_lt.mpr h0)]
  rw [show (s.enter e.regs).fs = s.fs from rfl, show (s.enter e.regs).mm = s.mm from rfl]
  simp only [if_neg hmode, hacc, hdev, hwrite, hw, Bool.not_true, Bool.false_eq_true, if_false]
  rfl

/-- A read through an open file that may be read. -/
lemma dispatch_read {r : ℤ} {st : FileSystem × Memory} (hact : e.act = .read fd.val buffer size)
    (hfd : s.fds s.cur fd = some v) (h0 : 0 ≤ size) (hmax : size ≤ maxSize)
    (hmode : (s.fs.fdt v).accessMode ≠ oWronly) (hacc : s.mm.accessOk 0 buffer size = true)
    (hdev : (s.fs.fdt v).logicDev = some f) (hf : s.fs.IsRegular f)
    (hr : s.fs.sysReadFile s.mm v f buffer size.toNat = .ret r st) :
    s.dispatch e = .done ({ (s.enter e.regs).updTask s.cur fun k =>
      { k with size := size, buffer := buffer } with fs := st.1, mm := st.2 }.setEax r) := by
  have hread : (s.fs.ops f).sysReadDev = .sysReadFile := by
    rw [show s.fs.ops f = fileOps from hf]
    rfl
  rw [dispatch, hact]
  simp only [sysRead, openFile_of_fd, hfd, if_neg (Int.not_lt.mpr hmax), if_neg (Int.not_lt.mpr h0)]
  rw [show (s.enter e.regs).fs = s.fs from rfl, show (s.enter e.regs).mm = s.mm from rfl]
  simp only [if_neg hmode, hacc, Bool.not_true, Bool.false_eq_true, if_false, updTask_fs, updTask_mm]
  rw [show (s.enter e.regs).fs = s.fs from rfl, show (s.enter e.regs).mm = s.mm from rfl]
  simp only [hdev, hread, hr]
  rfl

lemma afterOpen_fds (s : Kernel) (regs : SavedRegs) (fs' : FileSystem) (fd : Fd) (v : FdtId) :
    (s.afterOpen regs fs' fd v).fds =
      Function.update s.fds s.cur (Function.update (s.fds s.cur) fd (some v)) := by
  have hset : (s.afterOpen regs fs' fd v).fds =
      ((s.enter regs).withFiles fs' (Function.update (s.fds s.cur) fd (some v))).fds :=
    funext (Kernel.sameFiles_setEax _ _).fds
  have henter : (s.enter regs).fds = s.fds := funext (s.sameFiles_enter regs).fds
  rw [hset, fds_withFiles, henter]
  rfl

lemma result_setEax (s : Kernel) (r : ℤ) : (s.setEax r).result = r := by
  simp [result, setEax, current]

end Kernel

/-! ## A new descriptor -/

/-- A free descriptor and a free entry of `fdt[]` become an open file. -/
structure Opens (s t : Kernel) (h : Handle) (mode : ℤ) : Prop where
  entryFree : (s.fs.fdt h.entry).refs ≤ 0
  fdFree : s.fds h.proc h.fd = none
  fds : t.fds =
    Function.update s.fds h.proc (Function.update (s.fds h.proc) h.fd (some h.entry))
  fdt : t.fs.fdt = Function.update s.fs.fdt h.entry
    { accessMode := mode, refs := 1, offset := 0, logicDev := some h.file }

lemma Kernel.opens_afterOpen {s : Kernel} {fs : FileSystem} {v : FdtId} {fd : Fd} (f : FileId)
    (mode : ℤ) (hv : s.fs.freeFdt = some v) (hfd : freeFd (s.fds s.cur) = some fd)
    (hfs : fs.fdt = s.fs.fdt) (regs : SavedRegs) :
    Opens s (s.afterOpen regs (fs.opened v f mode) fd v)
      { proc := s.cur, fd := fd, entry := v, file := f } mode := by
  refine ⟨?_, ?_, s.afterOpen_fds regs _ fd v, ?_⟩
  · have hfree := List.find?_some hv
    simpa using hfree
  · have hfree := List.find?_some hfd
    simpa using hfree
  · change Function.update fs.fdt v _ = _
    rw [hfs]

namespace Opens

variable {s t : Kernel} {h g : Handle} {mode mode' : ℤ} {o : ℕ}

lemma handleOk (ho : Opens s t h mode) : HandleOk t h mode 0 :=
  ⟨by simp [ho.fds], by simp [ho.fdt]⟩

/-- The entry was free, so no open descriptor had it. -/
lemma entry_ne (ho : Opens s t h mode) (hg : HandleOk s g mode' o) : g.entry ≠ h.entry := by
  intro heq
  have hrefs := ho.entryFree
  rw [← heq, hg.entry] at hrefs
  exact absurd hrefs (Int.not_le.mpr Int.one_pos)

lemma keeps (ho : Opens s t h mode) (hg : HandleOk s g mode' o) : HandleOk t g mode' o := by
  have hne : ¬ (g.proc = h.proc ∧ g.fd = h.fd) := by
    rintro ⟨hproc, hfd⟩
    have hsome := hg.fd
    rw [hproc, hfd, ho.fdFree] at hsome
    exact absurd hsome (by simp)
  refine ⟨?_, ?_⟩
  · rw [ho.fds, Kernel.updateFd_of_ne hne]
    exact hg.fd
  · rw [ho.fdt, Function.update_of_ne (ho.entry_ne hg)]
    exact hg.entry

lemma refs_pos (ho : Opens s t h mode)
    (hpos : ∀ u fd v, s.fds u fd = some v → 0 < (s.fs.fdt v).refs) (u : Slot) (fd : Fd) (v : FdtId)
    (hv : t.fds u fd = some v) : 0 < (t.fs.fdt v).refs := by
  rw [ho.fdt]
  by_cases hve : v = h.entry
  · rw [hve, Function.update_self]
    exact Int.one_pos
  · rw [Function.update_of_ne hve]
    rcases Kernel.fds_of_update (p := (u, fd)) ho.fds hv with ⟨-, hnew⟩ | ⟨-, hold⟩
    · exact absurd (Option.some.inj hnew).symm hve
    · exact hpos u fd v hold

end Opens

/-! ## Steps keep the log -/

/-- An entry of the directory keeps what the log knows about it. -/
structure KeepsFile (fs fs' : FileSystem) (f : FileId) : Prop where
  regular : fs'.IsRegular f
  allow : (fs'.dir f).accessModeAllow = (fs.dir f).accessModeAllow
  nBlocks : (fs'.dir f).nBlocks = (fs.dir f).nBlocks
  nRefs : (fs.dir f).nRefs ≤ (fs'.dir f).nRefs
  contents : fs'.contents f = fs.contents f

lemma NewFileOk.keep {s t : Kernel} {n : NewFile} (h : NewFileOk s n)
    (hh : HandleOk t n.handle oRdwr n.data.length) (hk : KeepsFile s.fs t.fs n.handle.file)
    (hnamed : ∀ g, cString (t.fs.dir g).name = n.path ↔ g = n.handle.file) : NewFileOk t n :=
  ⟨hh, hk.regular, hk.allow.trans h.allow, h.nRefs.trans hk.nRefs, hnamed,
    hk.contents.trans h.contents, hk.nBlocks.trans h.tight, h.len⟩

lemma HandleOk.keep {s t : Kernel} {g : Handle} {mode : ℤ} {o : ℕ} (h : HandleOk s g mode o)
    (hfds : t.fds = s.fds) (hentry : t.fs.fdt g.entry = s.fs.fdt g.entry) : HandleOk t g mode o :=
  ⟨by rw [hfds]; exact h.fd, hentry.trans h.entry⟩

section Rewrites

variable {s t : Kernel} {n : NewFile} {v : FdtId} {f : FileId}

/-- What a call does to the offset of one entry says nothing about a file with another. -/
lemma NewFileOk.keep_rewrites (h : NewFileOk s n) (hfds : t.fds = s.fds)
    (hrew : Rewrites v f s.fs t.fs) (hentry : n.handle.entry ≠ v)
    (hdir : t.fs.dir n.handle.file = s.fs.dir n.handle.file)
    (hcont : t.fs.contents n.handle.file = s.fs.contents n.handle.file) : NewFileOk t n := by
  have hkeep : KeepsFile s.fs t.fs n.handle.file :=
    ⟨(hrew.isRegular _).mpr h.regular, by rw [hdir], by rw [hdir], by rw [hdir], hcont⟩
  refine h.keep (h.handle.keep hfds (hrew.fdt_of_ne hentry)) hkeep fun g => ?_
  rw [hrew.name]
  exact h.named g

/-- The file of a descriptor grows with what is written through it. -/
lemma NewFileOk.append (h : NewFileOk s n) {C' : Option FileId → List ℤ} {bytes : List Byte}
    (hfds : t.fds = s.fds) (hend : AtEnd t.fs C' n.handle.entry n.handle.file
      (n.data.length + bytes.length))
    (hrew : Rewrites n.handle.entry n.handle.file s.fs t.fs)
    (hcont : t.fs.contents n.handle.file = s.fs.contents n.handle.file ++ bytes) :
    NewFileOk t { n with data := n.data ++ bytes } := by
  have hlen : (n.data ++ bytes).length = n.data.length + bytes.length := List.length_append
  have hblocks := (hend.fat.regular _ hend.regular).nBlocks
  have hentry : t.fs.fdt n.handle.entry = { accessMode := oRdwr, refs := 1,
                                            offset := (n.data.length + bytes.length : ℕ),
                                            logicDev := some n.handle.file } := by
    rw [hrew.fdt, if_pos rfl, hend.offset, h.handle.entry]
  refine ⟨⟨by rw [hfds]; exact h.handle.fd, ?_⟩, hend.regular, (hrew.allow _).trans h.allow,
    by rw [hrew.nRefs]; exact h.nRefs, fun g => by rw [hrew.name]; exact h.named g, ?_, ?_, h.len⟩
  · simp only [hlen, hentry]
  · simp only [hcont, h.contents]
  · simp only [hlen, hblocks, hend.tight]

end Rewrites

namespace LogOk

variable {fs₀ : FileSystem} {s t : Kernel} {log : Log} {C : Option FileId → List ℤ}

lemma congr (h : LogOk fs₀ s log C) (hsame : SameFiles s t) : LogOk fs₀ t log C := by
  obtain ⟨hfs, hfds⟩ := hsame
  have hfds' : t.fds = s.fds := funext hfds
  have hhandle : ∀ {g : Handle} {mode : ℤ} {o : ℕ}, HandleOk s g mode o → HandleOk t g mode o :=
    fun hg => hg.keep hfds' (by rw [hfs])
  refine ⟨hfs ▸ h.fat, fun n hn => ?_, fun r hr => ?_, h.entryInj, h.fileInj, hfs ▸ h.freeDir, ?_,
    hfs ▸ h.kept⟩
  · obtain ⟨hh, hreg, hallow, hrefs, hname, hcont, htight, hlen⟩ := h.files n hn
    refine ⟨hhandle hh, ?_, ?_, ?_, ?_, ?_, ?_, hlen⟩ <;> rw [hfs] <;> assumption
  · exact ⟨hhandle (h.readers r hr).handle, (h.readers r hr).file⟩
  · intro u fd v hfd
    rw [hfs]
    rw [hfds'] at hfd
    exact h.freeFdt u fd v hfd

/-- Every descriptor of the log is open. -/
lemma handleOk (h : LogOk fs₀ s log C) {g : Handle} (hg : g ∈ log.handles) :
    ∃ mode o, HandleOk s g mode o := by
  rcases List.mem_append.mp hg with hg | hg
  · obtain ⟨n, hn, rfl⟩ := List.mem_map.mp hg
    exact ⟨_, _, (h.files n hn).handle⟩
  · obtain ⟨r, hr, rfl⟩ := List.mem_map.mp hg
    exact ⟨_, _, (h.readers r hr).handle⟩

/-- A new descriptor has an entry of its own. -/
lemma entryInj_opens (h : LogOk fs₀ s log C) {g : Handle} {mode : ℤ} (ho : Opens s t g mode)
    {log' : Log} (hlog : ∀ a ∈ log'.handles, a ∈ log.handles ∨ a = g) :
    ∀ a ∈ log'.handles, ∀ b ∈ log'.handles, a.entry = b.entry → a = b := by
  have hne : ∀ a ∈ log.handles, a.entry ≠ g.entry := by
    intro a ha
    obtain ⟨mode', o, hok⟩ := h.handleOk ha
    exact ho.entry_ne hok
  intro a ha b hb hab
  rcases hlog a ha with ha | rfl <;> rcases hlog b hb with hb | rfl
  · exact h.entryInj a ha b hb hab
  · exact absurd hab (hne a ha)
  · exact absurd hab.symm (hne b hb)
  · rfl

/-- A new file leaves the files of the log as they were. -/
lemma newFileOk_creates {i : FileId} {path : List Byte} {g : Handle} {n : NewFile}
    (hn : NewFileOk s n) (hc : Creates s.fs t.fs i path) (ho : Opens s t g oRdwr)
    (hunused : s.fs.lookup path = none) (hname : cString (t.fs.dir i).name = path) :
    NewFileOk t n := by
  have hni := hc.ne hn.regular
  have hdir := hc.other _ hni
  have hkeep : KeepsFile s.fs t.fs n.handle.file :=
    ⟨(hc.regular _).mpr (.inr hn.regular), by rw [hdir], by rw [hdir], by rw [hdir],
      hc.contents _ hn.regular⟩
  refine hn.keep (ho.keeps hn.handle) hkeep (fun f => ?_)
  by_cases hf : f = i
  · rw [hf, hname]
    refine ⟨fun hp => ?_, fun hp => absurd hp.symm hni⟩
    exact absurd ((hn.named n.handle.file).mpr rfl) (hp ▸ lookup_eq_none_iff.mp hunused _)
  · rw [hc.other f hf]
    exact hn.named f

/-- The log goes on with a new file. -/
lemma creates (h : LogOk fs₀ s log C) {C' : Option FileId → List ℤ} {g : Handle} {path : List Byte}
    (hfat : FatOk t.fs C') (hc : Creates s.fs t.fs g.file path) (ho : Opens s t g oRdwr)
    (hlen : path.length ≤ maxNameLength - 1) (hzero : (0 : Byte) ∉ path)
    (hunused : s.fs.lookup path = none) :
    LogOk fs₀ t { log with files := log.files ++ [{ path := path, handle := g, data := [] }] } C' := by
  have hname : cString (t.fs.dir g.file).name = path := by
    rw [hc.entry]
    exact cString_copyName hlen hzero _
  have hnew : NewFileOk t { path := path, handle := g, data := [] } := by
    refine ⟨ho.handleOk, (hc.regular _).mpr (.inl rfl), by rw [hc.entry], by rw [hc.entry],
      fun f => ?_, hc.contents_new, ?_, Nat.le_trans hlen (Nat.sub_le _ _)⟩
    · by_cases hf : f = g.file
      · simp only [hf, hname]
      · rw [hc.other f hf]
        exact ⟨fun hp => absurd hp (lookup_eq_none_iff.mp hunused f), fun hp => absurd hp hf⟩
    · rw [hc.entry]
      simp [blocksFor]
  refine ⟨hfat, ?_, ?_, h.entryInj_opens ho ?_, ?_, ?_, ho.refs_pos h.freeFdt, ?_⟩
  · intro n hn
    rcases List.mem_append.mp hn with hn | hn
    · exact newFileOk_creates (h.files n hn) hc ho hunused hname
    · exact List.mem_singleton.mp hn ▸ hnew
  · intro r hr
    obtain ⟨n, hn, hnr⟩ := (h.readers r hr).file
    exact ⟨ho.keeps (h.readers r hr).handle, n, List.mem_append_left _ hn, hnr⟩
  · intro a ha
    simp only [Log.handles, List.map_append, List.mem_append, List.map_cons, List.map_nil,
      List.mem_singleton] at ha ⊢
    tauto
  · intro n hn n' hn' heq
    rcases List.mem_append.mp hn with hn | hn <;> rcases List.mem_append.mp hn' with hn' | hn'
    · exact h.fileInj n hn n' hn' heq
    · rw [List.mem_singleton.mp hn'] at heq
      exact absurd heq (hc.ne (h.files n hn).regular)
    · rw [List.mem_singleton.mp hn] at heq
      exact absurd heq.symm (hc.ne (h.files n' hn').regular)
    · rw [List.mem_singleton.mp hn, List.mem_singleton.mp hn']
  · intro f hf hreg
    by_cases hfi : f = g.file
    · rw [hfi, hc.entry] at hf
      exact absurd hf (by simp)
    · rw [hc.other f hfi] at hf
      exact h.freeDir f hf (((hc.regular f).mp hreg).resolve_left hfi)
  · intro f hf
    obtain ⟨hreg, hcont, hnot⟩ := h.kept f hf
    refine ⟨(hc.regular f).mpr (.inr hreg), (hc.contents f hreg).trans hcont, fun n hn => ?_⟩
    rcases List.mem_append.mp hn with hn | hn
    · exact hnot n hn
    · rw [List.mem_singleton.mp hn]
      exact (hc.ne hreg).symm

/-- `sys_open` of an unused name gives a descriptor for a new, empty file. -/
lemma create (h : LogOk fs₀ s log C) {e : Event} {addr : ℕ} {path : List Byte}
    (hact : e.act = .open addr path (oCreat + oRdwr)) (hc : CanCreate s addr path) :
    ∃ t C', s.step e = .ok t ∧ LogOk fs₀ t (Log.update s e t log) C' ∧
      ∃ n ∈ (Log.update s e t log).files, n.path = path ∧ n.data = [] ∧
        n.handle.Is s.cur t.result := by
  obtain ⟨hpath, hlen, hzero, hunused, hdir, hfdt, hfd, hblock⟩ := hc
  obtain ⟨v, hv⟩ := Option.isSome_iff_exists.mp hfdt
  obtain ⟨fd, hfd⟩ := Option.isSome_iff_exists.mp hfd
  obtain ⟨i, hi⟩ := Option.isSome_iff_exists.mp hdir
  obtain ⟨free, hfree⟩ := h.fat.free_cons hblock
  have hffb : 0 ≤ s.fs.ffb := h.fat.ffb_cases.resolve_left hblock
  have hireg : ¬ s.fs.IsRegular i := h.freeDir i (by simpa using List.find?_some hi)
  have hfs : (s.fs.popFree.newFile i path s.fs.ffb).fdt = s.fs.fdt := rfl
  have hopens := Kernel.opens_afterOpen i oRdwr hv hfd hfs e.regs
  have hlog := h.creates ((h.fat.create hfree i path).opened v i oRdwr)
    (h.fat.creates hfree hireg path v oRdwr) hopens hlen hzero hunused
  have hupd : ∀ t, Log.update s e t log = { log with files := log.files ++
      [{ path := path, handle := { proc := s.cur, fd := fd, entry := v, file := i }, data := [] }] } := by
    intro t
    rw [Log.update, hact]
    simp only [hv, hfd, hi]
    rfl
  refine ⟨_, _, Kernel.step_of_done (Kernel.dispatch_create hact hpath hlen hunused hv hfd hi hffb),
    by rw [hupd]; exact hlog, ?_⟩
  rw [hupd]
  exact ⟨_, List.mem_append_right _ (List.mem_singleton.mpr rfl), rfl, rfl, rfl,
    (Kernel.result_setEax _ _).symm⟩

/-- The log goes on with a new reader. -/
lemma reopens (h : LogOk fs₀ s log C) {n : NewFile} (hn : n ∈ log.files) {g : Handle}
    (hg : g.file = n.handle.file) {v : FdtId} (hfs : t.fs = s.fs.opened v g.file oRdonly)
    (ho : Opens s t g oRdonly) :
    LogOk fs₀ t { log with readers := log.readers ++ [{ handle := g, got := [] }] } C := by
  have hops : t.fs.ops = s.fs.ops := by
    rw [hfs]
    rfl
  have hdir : ∀ f, t.fs.dir f = { s.fs.dir f with
      nRefs := (s.fs.dir f).nRefs + if f = g.file then 1 else 0 } := by
    intro f
    rw [hfs]
    by_cases hf : f = g.file <;> simp [hf]
  have hcont : ∀ f, t.fs.contents f = s.fs.contents f := by
    intro f
    rw [hfs, contents_opened]
  refine ⟨hfs ▸ h.fat.opened v g.file oRdonly, ?_, ?_, h.entryInj_opens ho ?_, h.fileInj, ?_,
    ho.refs_pos h.freeFdt, ?_⟩
  · intro m hm
    have hmok := h.files m hm
    have hkeep : KeepsFile s.fs t.fs m.handle.file := by
      refine ⟨by rw [FileSystem.IsRegular, hops]; exact hmok.regular, by rw [hdir], by rw [hdir], ?_,
        hcont _⟩
      rw [hdir]
      split_ifs <;> simp
    refine hmok.keep (ho.keeps hmok.handle) hkeep (fun f => ?_)
    rw [hdir]
    exact hmok.named f
  · intro r hr
    rcases List.mem_append.mp hr with hr | hr
    · exact ⟨ho.keeps (h.readers r hr).handle, (h.readers r hr).file⟩
    · rw [List.mem_singleton.mp hr]
      exact ⟨ho.handleOk, n, hn, hg.symm, List.nil_prefix⟩
  · intro a ha
    simp only [Log.handles, List.map_append, List.mem_append, List.map_cons, List.map_nil,
      List.mem_singleton] at ha ⊢
    tauto
  · intro f hf
    rw [FileSystem.IsRegular, hops]
    rw [hdir] at hf
    by_cases hfg : f = g.file
    · have hpos := (h.files n hn).nRefs
      rw [← hg, ← hfg] at hpos
      rw [if_pos hfg] at hf
      simp only at hf
      omega
    · rw [if_neg hfg, Int.add_zero] at hf
      exact h.freeDir f hf
  · intro f hf
    obtain ⟨hreg, hc, hnot⟩ := h.kept f hf
    refine ⟨?_, (hcont f).trans hc, hnot⟩
    rw [FileSystem.IsRegular, hops]
    exact hreg

/-- `sys_open` of a new file for reading gives a descriptor at its start. -/
lemma reopen (h : LogOk fs₀ s log C) {e : Event} {addr : ℕ} {path : List Byte}
    (hact : e.act = .open addr path oRdonly) (hc : CanReopen s log addr path) :
    ∃ t C', s.step e = .ok t ∧ LogOk fs₀ t (Log.update s e t log) C' ∧
      (∃ r ∈ (Log.update s e t log).readers, r.got = [] ∧ r.handle.Is s.cur t.result ∧
        ∃ n ∈ log.files, n.path = path ∧ n.handle.file = r.handle.file) ∧
      t.cur = s.cur ∧ t.mm = s.mm := by
  obtain ⟨hpathOk, ⟨n, hn, hpath⟩, hfdt, hfd⟩ := hc
  obtain ⟨v, hv⟩ := Option.isSome_iff_exists.mp hfdt
  obtain ⟨fd, hfd⟩ := Option.isSome_iff_exists.mp hfd
  have hnok := h.files n hn
  have hlook : s.fs.lookup path = some n.handle.file := lookup_eq_some (hpath ▸ hnok.named)
  have hentry : s.fs.OpensEntry path oRdonly n.handle.file oRdonly :=
    ⟨hpath ▸ hnok.len, hlook, by decide, by decide, by decide, .inl hnok.allow⟩
  have hopens := Kernel.opens_afterOpen n.handle.file oRdonly hv hfd rfl e.regs
  have hlog := h.reopens (g := { proc := s.cur, fd := fd, entry := v, file := n.handle.file }) hn rfl
    rfl hopens
  have hupd : ∀ t, Log.update s e t log = { log with readers := log.readers ++
      [{ handle := { proc := s.cur, fd := fd, entry := v, file := n.handle.file }, got := [] }] } := by
    intro t
    rw [Log.update, hact]
    simp only [hv, hfd, hlook, if_true]
    rfl
  refine ⟨_, _, Kernel.step_of_done (Kernel.dispatch_open hact hpathOk hentry hv hfd),
    by rw [hupd]; exact hlog, ?_⟩
  rw [hupd]
  exact ⟨⟨_, List.mem_append_right _ (List.mem_singleton.mpr rfl), rfl,
    ⟨rfl, (Kernel.result_setEax _ _).symm⟩, n, hn, hpath, rfl⟩, rfl, rfl⟩

/-- A process has at most one descriptor of the log under one number. -/
lemma eq_of_is (h : LogOk fs₀ s log C) {a b : Handle} (ha : a ∈ log.handles) (hb : b ∈ log.handles)
    {u : Slot} {fd : ℤ} (hau : a.Is u fd) (hbu : b.Is u fd) : a = b := by
  obtain ⟨_, _, haok⟩ := h.handleOk ha
  obtain ⟨_, _, hbok⟩ := h.handleOk hb
  have hproc : a.proc = b.proc := hau.1.trans hbu.1.symm
  have hfd : a.fd = b.fd := Fin.ext (by exact_mod_cast hau.2.trans hbu.2.symm)
  have hentry := haok.fd
  rw [hproc, hfd, hbok.fd, Option.some.injEq] at hentry
  exact h.entryInj a ha b hb hentry.symm

lemma file_mem {n : NewFile} (hn : n ∈ log.files) : n.handle ∈ log.handles :=
  List.mem_append_left _ (List.mem_map_of_mem hn)

lemma reader_mem {r : Reader} (hr : r ∈ log.readers) : r.handle ∈ log.handles :=
  List.mem_append_right _ (List.mem_map_of_mem hr)

/-- A process has at most one new file of the log under one number. -/
lemma file_eq (h : LogOk fs₀ s log C) {m n : NewFile} (hm : m ∈ log.files) (hn : n ∈ log.files)
    {u : Slot} {fd : ℤ} (hmu : m.handle.Is u fd) (hnu : n.handle.Is u fd) : m = n := by
  have hmok := h.files m hm
  have hnok := h.files n hn
  have hhandle : m.handle = n.handle := h.eq_of_is (file_mem hm) (file_mem hn) hmu hnu
  have hpath : m.path = n.path := by
    rw [← (hmok.named m.handle.file).mpr rfl, ← (hnok.named n.handle.file).mpr rfl, hhandle]
  have hdata : m.data = n.data := by
    rw [← hmok.contents, ← hnok.contents, hhandle]
  exact (NewFile.mk.injEq ..).mpr ⟨hpath, hhandle, hdata⟩

/-- Readers of one file that are at one offset have read the same. -/
lemma reader_eq (h : LogOk fs₀ s log C) {q r : Reader} (hq : q ∈ log.readers) (hr : r ∈ log.readers)
    {u : Slot} {fd : ℤ} (hqu : q.handle.Is u fd) (hru : r.handle.Is u fd) : q = r := by
  have hqok := h.readers q hq
  have hrok := h.readers r hr
  have hhandle : q.handle = r.handle := h.eq_of_is (reader_mem hq) (reader_mem hr) hqu hru
  have hlen : q.got.length = r.got.length := by
    have hentry := hqok.handle.entry
    rw [hhandle, hrok.handle.entry] at hentry
    have hoff : (r.got.length : ℤ) = q.got.length := congrArg Virtual.offset hentry
    exact_mod_cast hoff.symm
  obtain ⟨m, hm, hmq, hqpre⟩ := hqok.file
  obtain ⟨n, hn, hnr, hrpre⟩ := hrok.file
  have hdata : m.data = n.data := by
    rw [← (h.files m hm).contents, ← (h.files n hn).contents, hmq, hnr, hhandle]
  have hgot : q.got = r.got := by
    rw [List.prefix_iff_eq_take.mp hqpre, List.prefix_iff_eq_take.mp hrpre, hdata, hlen]
  exact (Reader.mk.injEq ..).mpr ⟨hhandle, hgot⟩

/-- The entry of a reader is not that of a writer. -/
lemma reader_entry_ne (h : LogOk fs₀ s log C) {n : NewFile} (hn : n ∈ log.files) {r : Reader}
    (hr : r ∈ log.readers) : r.handle.entry ≠ n.handle.entry := by
  intro heq
  have hrent := (h.readers r hr).handle.entry
  rw [heq, (h.files n hn).handle.entry] at hrent
  have hmode : oRdwr = oRdonly := congrArg Virtual.accessMode hrent
  exact absurd hmode (by decide)

lemma atEnd (h : LogOk fs₀ s log C) {n : NewFile} (hn : n ∈ log.files) :
    AtEnd s.fs C n.handle.entry n.handle.file n.data.length := by
  obtain ⟨hh, hreg, -, -, -, hcont, htight, -⟩ := h.files n hn
  obtain ⟨-, hblocks, hpos, -⟩ := h.fat.regular _ hreg
  have hsize := length_contents s.fs n.handle.file
  rw [hcont] at hsize
  refine ⟨h.fat, hreg, ?_, by rw [hh.entry], ?_⟩
  · rw [hsize, Int.toNat_of_nonneg hpos]
  · rw [hblocks] at htight
    exact_mod_cast htight

/-- What a write leaves as it was: the process, its memory and what the tables have free. -/
structure SameRoom (s t : Kernel) : Prop where
  cur : t.cur = s.cur
  mm : t.mm = s.mm
  fds : t.fds = s.fds
  refs : ∀ v, (t.fs.fdt v).refs = (s.fs.fdt v).refs

/-- The log goes on with the bytes of a write. -/
lemma writes (h : LogOk fs₀ s log C) {n : NewFile} (hn : n ∈ log.files) {fd : ℤ}
    (hfd : n.handle.Is s.cur fd) {C' : Option FileId → List ℤ} {bytes : List Byte}
    (hfds : t.fds = s.fds) (hend : AtEnd t.fs C' n.handle.entry n.handle.file
      (n.data.length + bytes.length))
    (hrew : Rewrites n.handle.entry n.handle.file s.fs t.fs)
    (hcont : t.fs.contents n.handle.file = s.fs.contents n.handle.file ++ bytes)
    (hother : ∀ g, g ≠ n.handle.file → s.fs.IsRegular g → t.fs.contents g = s.fs.contents g) :
    LogOk fs₀ t (log.wrote s.cur fd bytes) C' := by
  refine ⟨hend.fat, ?_, ?_, by rw [Log.handles_wrote]; exact h.entryInj, ?_, ?_, ?_, ?_⟩
  · intro m' hm'
    obtain ⟨m, hm, -, ⟨his, rfl⟩ | ⟨hnot, rfl⟩⟩ := Log.mem_wrote hm'
    · rw [h.file_eq hm hn his hfd]
      exact (h.files n hn).append hfds hend hrew hcont
    · have hne : m'.handle ≠ n.handle := fun heq => hnot (heq ▸ hfd)
      have hentry : m'.handle.entry ≠ n.handle.entry :=
        fun heq => hne (h.entryInj _ (file_mem hm) _ (file_mem hn) heq)
      have hfile : m'.handle.file ≠ n.handle.file := fun heq => hne (h.fileInj m' hm n hn heq)
      exact (h.files m' hm).keep_rewrites hfds hrew hentry (hrew.dir _ hfile)
        (hother _ hfile (h.files m' hm).regular)
  · intro r hr
    obtain ⟨hrok, m, hm, hmr, hpre⟩ := h.readers r hr
    obtain ⟨m', hm', hhandle, hgrown⟩ := Log.exists_mem_wrote hm s.cur fd bytes
    exact ⟨hrok.keep hfds (hrew.fdt_of_ne (h.reader_entry_ne hn hr)), m', hm',
      by rw [hhandle, hmr], hpre.trans hgrown⟩
  · intro m₁' hm₁' m₂' hm₂' heq
    obtain ⟨m₁, hm₁, hhandle₁, -⟩ := Log.mem_wrote hm₁'
    obtain ⟨m₂, hm₂, hhandle₂, -⟩ := Log.mem_wrote hm₂'
    rw [hhandle₁, hhandle₂] at heq ⊢
    exact h.fileInj m₁ hm₁ m₂ hm₂ heq
  · intro f hf
    rw [hrew.isRegular]
    rw [hrew.nRefs] at hf
    exact h.freeDir f hf
  · intro u fd' v hv
    rw [hfds] at hv
    rw [hrew.refs]
    exact h.freeFdt u fd' v hv
  · intro f hf
    obtain ⟨hfreg, hfcont, hnot⟩ := h.kept f hf
    refine ⟨(hrew.isRegular f).mpr hfreg, ?_, ?_⟩
    · rw [hother f (hnot n hn).symm hfreg, hfcont]
    · intro m' hm'
      obtain ⟨m, hm, hhandle, -⟩ := Log.mem_wrote hm'
      rw [hhandle]
      exact hnot m hm

/-- `sys_write` through the descriptor that created a file appends all of the buffer. -/
lemma write (h : LogOk fs₀ s log C) {e : Event} {fd : ℤ} {buffer : ℕ} {size : ℤ}
    (hact : e.act = .write fd buffer size) (hc : CanWrite s log fd buffer size) :
    ∃ t C', s.step e = .ok t ∧ LogOk fs₀ t (Log.update s e t log) C' ∧ t.result = size ∧
      SameRoom s t := by
  obtain ⟨h0, hmax, hacc, hmapped, n, hn, his, free, hfree, hroom⟩ := hc
  obtain ⟨hproc, hfd⟩ := id his
  have hnok := h.files n hn
  have hopen : s.fds s.cur n.handle.fd = some n.handle.entry := hproc ▸ hnok.handle.fd
  rw [hfree.unique (h.fat.chains.chain none)] at hroom
  obtain ⟨fs', C', hw, hend, hrew, hcont, hother⟩ :=
    (h.atEnd hn).sysWriteFile s.mm buffer hroom hmapped
  have hmode : (s.fs.fdt n.handle.entry).accessMode ≠ oRdonly := by
    rw [hnok.handle.entry]
    exact fun heq : oRdwr = oRdonly => absurd heq (by decide)
  have hdev : (s.fs.fdt n.handle.entry).logicDev = some n.handle.file := by
    rw [hnok.handle.entry]
  have hdisp := Kernel.dispatch_write (by rw [hact, hfd]) hopen h0 hmax hmode hacc hdev hnok.regular hw
  have hupd : ∀ t, Log.update s e t log = log.wrote s.cur fd (userBytes s.mm buffer size.toNat) := by
    intro t
    rw [Log.update, hact]
  have hfds := funext fun u =>
    ((Kernel.sameFiles_setEax { s.enter e.regs with fs := fs' } size.toNat).fds u).trans
      ((s.sameFiles_enter e.regs).fds u)
  refine ⟨_, C', Kernel.step_of_done hdisp, ?_, ?_, rfl, rfl, hfds, fun v => hrew.refs v⟩
  · rw [hupd]
    refine h.writes hn his hfds ?_ hrew hcont hother
    rw [userBytes, List.length_map, List.length_range]
    exact hend
  · rw [Kernel.result_setEax, Int.toNat_of_nonneg h0]

/-- The log goes on with the bytes of a read. -/
lemma reads (h : LogOk fs₀ s log C) {r : Reader} (hr : r ∈ log.readers) {fd : ℤ}
    (hfd : r.handle.Is s.cur fd) {n : NewFile} (hn : n ∈ log.files)
    (hnr : n.handle.file = r.handle.file) {bytes : List Byte} (hpre : r.got ++ bytes <+: n.data)
    (hfds : t.fds = s.fds)
    (hfs : t.fs = s.fs.seek r.handle.entry ((r.got.length + bytes.length : ℕ) : ℤ)) :
    LogOk fs₀ t (log.read s.cur fd bytes) C := by
  have hrew : Rewrites r.handle.entry r.handle.file s.fs t.fs := hfs ▸ .seek ..
  have hdir : t.fs.dir = s.fs.dir := by
    rw [hfs]
    rfl
  have hcont : ∀ f, t.fs.contents f = s.fs.contents f := by
    intro f
    rw [hfs]
    rfl
  have hrok := h.readers r hr
  have hoffset : t.fs.fdt r.handle.entry =
      { s.fs.fdt r.handle.entry with offset := ((r.got.length + bytes.length : ℕ) : ℤ) } := by
    rw [hfs]
    simp [seek]
  refine ⟨?_, ?_, ?_, by rw [Log.handles_read]; exact h.entryInj, h.fileInj, ?_, ?_, ?_⟩
  · rw [hfs]
    exact h.fat.withFdt ..
  · intro m hm
    exact (h.files m hm).keep_rewrites hfds hrew (h.reader_entry_ne hm hr).symm (by rw [hdir])
      (hcont _)
  · intro q' hq'
    obtain ⟨q, hq, rfl⟩ := List.mem_map.mp hq'
    by_cases his : q.handle.Is s.cur fd
    · obtain rfl := h.reader_eq hq hr his hfd
      rw [if_pos his]
      refine ⟨⟨by rw [hfds]; exact hrok.handle.fd, ?_⟩, n, hn, hnr, hpre⟩
      simp only [hoffset, hrok.handle.entry, List.length_append]
    · rw [if_neg his]
      have hentry : q.handle.entry ≠ r.handle.entry := by
        intro heq
        rw [h.entryInj _ (reader_mem hq) _ (reader_mem hr) heq] at his
        exact his hfd
      exact ⟨(h.readers q hq).handle.keep hfds (hrew.fdt_of_ne hentry), (h.readers q hq).file⟩
  · intro f hf
    rw [hrew.isRegular]
    rw [hdir] at hf
    exact h.freeDir f hf
  · intro u fd' v hv
    rw [hfds] at hv
    rw [hrew.refs]
    exact h.freeFdt u fd' v hv
  · intro f hf
    obtain ⟨hfreg, hfcont, hnot⟩ := h.kept f hf
    exact ⟨(hrew.isRegular f).mpr hfreg, (hcont f).trans hfcont, hnot⟩

/-- `sys_read` delivers the next bytes of the file, and none only at its end. -/
lemma read (h : LogOk fs₀ s log C) {e : Event} {fd : ℤ} {buffer : ℕ} {size : ℤ}
    (hact : e.act = .read fd buffer size) (hc : CanRead s log fd buffer size) :
    ∃ t C', s.step e = .ok t ∧ LogOk fs₀ t (Log.update s e t log) C' ∧
      ∃ r ∈ log.readers, r.handle.Is s.cur fd ∧ ∃ n ∈ log.files, n.handle.file = r.handle.file ∧
        0 ≤ t.result ∧ r.got ++ userBytes t.mm buffer t.result.toNat <+: n.data ∧
        (t.result = 0 ↔ r.got = n.data) := by
  obtain ⟨hpos, hmax, hacc, hmapped, r, hr, his⟩ := hc
  obtain ⟨hproc, hfd⟩ := id his
  obtain ⟨hrok, n, hn, hnr, hpre⟩ := h.readers r hr
  have hnok := h.files n hn
  have hreg : s.fs.IsRegular r.handle.file := hnr ▸ hnok.regular
  have hopen : s.fds s.cur r.handle.fd = some r.handle.entry := hproc ▸ hrok.fd
  have hdata : s.fs.contents r.handle.file = n.data := by
    rw [← hnr, hnok.contents]
  have hoff : (s.fs.fdt r.handle.entry).offset = (r.got.length : ℕ) := by
    rw [hrok.entry]
  have hsize : 0 < size.toNat := by omega
  obtain ⟨k, m', hread, hpages, hbytes, hle, hzero⟩ := h.fat.sysReadFile hreg hoff
    (by rw [hdata]; exact hpre.length_le) hsize hmapped
  rw [hdata] at hbytes hle hzero
  have hmode : (s.fs.fdt r.handle.entry).accessMode ≠ oWronly := by
    rw [hrok.entry]
    exact fun heq : oRdonly = oWronly => absurd heq (by decide)
  have hdev : (s.fs.fdt r.handle.entry).logicDev = some r.handle.file := by
    rw [hrok.entry]
  have hdisp := Kernel.dispatch_read (by rw [hact, hfd]) hopen (Int.le_of_lt hpos) hmax hmode hacc
    hdev hreg hread
  -- the bytes read so far, with the new ones, are still the start of the file
  have hnext : r.got ++ userBytes m' buffer k <+: n.data := by
    have htake : r.got ++ (n.data.drop r.got.length).take k = n.data.take (r.got.length + k) := by
      rw [List.take_add, ← List.prefix_iff_eq_take.mp hpre]
    rw [hbytes, htake]
    exact List.take_prefix _ _
  have hlen : (userBytes m' buffer k).length = k := by
    rw [userBytes, List.length_map, List.length_range]
  refine ⟨_, C, Kernel.step_of_done hdisp, ?_, r, hr, his, n, hn, hnr, ?_⟩
  · rw [Log.update, hact]
    simp only [Kernel.result_setEax, Int.toNat_natCast]
    refine h.reads hr his hn hnr hnext ?_ ?_
    · have hupd : SameFiles s ((s.enter e.regs).updTask s.cur fun k =>
          { k with size := size, buffer := buffer }) :=
        (s.sameFiles_enter e.regs).trans (.updTask _ _ _ rfl)
      exact funext fun u => ((Kernel.sameFiles_setEax _ _).fds u).trans (hupd.fds u)
    · exact congrArg (fun j : ℕ => s.fs.seek r.handle.entry ((r.got.length + j : ℕ) : ℤ)) hlen.symm
  · rw [Kernel.result_setEax]
    refine ⟨Int.natCast_nonneg k, hnext, ?_⟩
    rw [Int.natCast_eq_zero, hzero]
    constructor
    · intro heq
      exact hpre.eq_of_length heq
    · intro heq
      rw [heq]

/-- Every allowed step keeps the log. -/
lemma step (h : LogOk fs₀ s log C) {e : Event} (hal : Allowed (s, log) e) (hst : s.step e = .ok t) :
    ∃ C', LogOk fs₀ t (Log.update s e t log) C' := by
  have hsame : ∀ {u : Kernel} {C' : Option FileId → List ℤ}, s.step e = .ok u →
      LogOk fs₀ u (Log.update s e u log) C' → ∃ C', LogOk fs₀ t (Log.update s e t log) C' := by
    intro u C' hu hok
    rw [hst, Except.ok.injEq] at hu
    exact ⟨C', hu ▸ hok⟩
  obtain ⟨regs, act⟩ := e
  cases act with
  | «open» addr path flags =>
    rcases hal with ⟨rfl, hc⟩ | ⟨rfl, hc⟩
    · obtain ⟨u, C', hu, hok, -⟩ := h.create (e := ⟨regs, .open addr path _⟩) rfl hc
      exact hsame hu hok
    · obtain ⟨u, C', hu, hok, -⟩ := h.reopen (e := ⟨regs, .open addr path _⟩) rfl hc
      exact hsame hu hok
  | write fd buffer size =>
    obtain ⟨u, C', hu, hok, -⟩ := h.write (e := ⟨regs, .write fd buffer size⟩) rfl hal
    exact hsame hu hok
  | read fd buffer size =>
    obtain ⟨u, C', hu, hok, -⟩ := h.read (e := ⟨regs, .read fd buffer size⟩) rfl hal
    exact hsame hu hok
  | _ => exact ⟨C, h.congr (Kernel.sameFiles_step hal hst)⟩

end LogOk

/-! ## The round trip -/

/-- What holds after a run from `s` to `t`. -/
structure RoundTrips (s t : Kernel) (log : Log) : Prop where
  /-- A new file holds the concatenation of what was written to it. -/
  contents : ∀ n ∈ log.files, t.fs.contents n.handle.file = n.data
  /-- A reader has got the start of its file. -/
  prefixes : ∀ r ∈ log.readers, ∃ n ∈ log.files, n.handle.file = r.handle.file ∧ r.got <+: n.data
  /-- The next read through it delivers the bytes that follow, and none only when it has got
  all that was written. -/
  reads : ∀ e fd buffer size, e.act = .read fd buffer size → CanRead t log fd buffer size →
    ∃ u, t.step e = .ok u ∧ ∃ r ∈ log.readers, r.handle.Is t.cur fd ∧
      ∃ n ∈ log.files, n.handle.file = r.handle.file ∧ 0 ≤ u.result ∧
        r.got ++ userBytes u.mm buffer u.result.toNat <+: n.data ∧
        (u.result = 0 ↔ r.got = n.data)
  /-- The calls that may come next all succeed. -/
  writes : ∀ e fd buffer size, e.act = .write fd buffer size → CanWrite t log fd buffer size →
    ∃ u, t.step e = .ok u ∧ u.result = size
  creates : ∀ e addr path, e.act = .open addr path (oCreat + oRdwr) → CanCreate t addr path →
    ∃ u, t.step e = .ok u ∧ ∃ n ∈ (Log.update t e u log).files, n.path = path ∧ n.data = [] ∧
      n.handle.Is t.cur u.result
  reopens : ∀ e addr path, e.act = .open addr path oRdonly → CanReopen t log addr path →
    ∃ u, t.step e = .ok u ∧ ∃ r ∈ (Log.update t e u log).readers, r.got = [] ∧
      r.handle.Is t.cur u.result ∧ ∃ n ∈ log.files, n.path = path ∧ n.handle.file = r.handle.file
  /-- The files that were there before keep their contents. -/
  kept : ∀ f, s.fs.IsRegular f → t.fs.IsRegular f ∧ t.fs.contents f = s.fs.contents f

lemma LogOk.roundTrips {s t : Kernel} {log : Log} {C : Option FileId → List ℤ}
    (h : LogOk s.fs t log C) : RoundTrips s t log := by
  refine ⟨fun n hn => (h.files n hn).contents, fun r hr => (h.readers r hr).file, ?_, ?_, ?_, ?_,
    fun f hf => ⟨(h.kept f hf).1, (h.kept f hf).2.1⟩⟩
  · intro e fd buffer size hact hc
    obtain ⟨u, -, hu, -, hread⟩ := h.read hact hc
    exact ⟨u, hu, hread⟩
  · intro e fd buffer size hact hc
    obtain ⟨u, -, hu, -, hres, -⟩ := h.write hact hc
    exact ⟨u, hu, hres⟩
  · intro e addr path hact hc
    obtain ⟨u, -, hu, -, hnew⟩ := h.create hact hc
    exact ⟨u, hu, hnew⟩
  · intro e addr path hact hc
    obtain ⟨u, -, hu, -, hnew, -⟩ := h.reopen hact hc
    exact ⟨u, hu, hnew⟩

/-- The log at the start. -/
lemma FileSystem.FatOk.logOk {s : Kernel} {C : Option FileId → List ℤ} (h : FatOk s.fs C)
    (hdir : ∀ f, (s.fs.dir f).nRefs = -1 → ¬ s.fs.IsRegular f)
    (hfds : ∀ u fd v, s.fds u fd = some v → 0 < (s.fs.fdt v).refs) :
    LogOk s.fs s Log.empty C := by
  refine ⟨h, ?_, ?_, ?_, ?_, hdir, hfds, fun f hf => ⟨hf, rfl, ?_⟩⟩ <;> simp [Log.empty, Log.handles]

/-- **File round trip.**  From a state with a well-formed table, in which free directory entries
own no chain and every descriptor has a counted entry, whatever the processes create, write and
read, each reader gets the bytes that were written to its file, in order and to the end. -/
theorem file_round_trip {s t : Kernel} {C : Option FileId → List ℤ} (hfat : FatOk s.fs C)
    (hdir : ∀ f, (s.fs.dir f).nRefs = -1 → ¬ s.fs.IsRegular f)
    (hfds : ∀ u fd v, s.fds u fd = some v → 0 < (s.fs.fdt v).refs) {es : List Event} {log : Log}
    (hrun : Run (record Kernel.step Log.update) Allowed (s, Log.empty) es (t, log)) :
    RoundTrips s t log := by
  have hstep : ∀ a e b, (∃ C, LogOk s.fs a.1 a.2 C) → Allowed a e →
      record Kernel.step Log.update a e = .ok b → ∃ C, LogOk s.fs b.1 b.2 C := by
    rintro a e b ⟨C, hC⟩ hal hst
    obtain ⟨hst, hlog⟩ := record_ok_iff.mp hst
    rw [hlog]
    exact hC.step hal hst
  obtain ⟨C', hC'⟩ := hrun.invariant hstep ⟨C, hfat.logOk hdir hfds⟩
  exact hC'.roundTrips

/-- The first byte of the data pages. -/
abbrev dataStart : ℕ := pagLogInitDataP0 * pageSize

/-- What task 0 has after it creates a file: a descriptor at the start of an empty file, in the
memory of boot, with a free block left and no other file. -/
lemma linkedEnv_create :
    ∃ t C n, linkedEnv.boot.step (plain (.open lUserStart nameF (oCreat + oRdwr))) = .ok t ∧
      CanCreate linkedEnv.boot lUserStart nameF ∧
      Log.update linkedEnv.boot (plain (.open lUserStart nameF (oCreat + oRdwr))) t Log.empty =
        { files := [n], readers := [] } ∧
      LogOk linkedEnv.boot.fs t { files := [n], readers := [] } C ∧ n.path = nameF ∧ n.data = [] ∧
      n.handle.Is t.cur t.result ∧ t.mm = linkedEnv.boot.mm ∧ t.fs.ffb ≠ -1 ∧
      (t.fs.fdt 3).refs = 0 ∧ t.fds t.cur 4 = none ∧
      ∀ g, t.fs.IsRegular g → g = n.handle.file := by
  obtain ⟨C, hfat⟩ := linkedEnv.boot_tableOk
  have hnot : ∀ f, ¬ linkedEnv.boot.fs.IsRegular f := by decide
  have hlog := hfat.logOk (fun f _ => hnot f) (by decide)
  have hv : linkedEnv.boot.fs.freeFdt = some 2 := by decide
  have hfd : freeFd (linkedEnv.boot.fds linkedEnv.boot.cur) = some 3 := by decide
  have hi : linkedEnv.boot.fs.freeDir = some 2 := by decide
  have hcan : CanCreate linkedEnv.boot lUserStart nameF :=
    ⟨linkedEnv.boot_userMapped.pathOk_nameF, by decide, by decide, by decide, by rw [hi]; rfl,
      by rw [hv]; rfl, by rw [hfd]; rfl, by decide⟩
  obtain ⟨t, C', hst, hlog', -⟩ :=
    hlog.create (e := plain (.open lUserStart nameF (oCreat + oRdwr))) rfl hcan
  have ht := hst
  rw [Kernel.step_of_done (Kernel.dispatch_create (e := plain _) rfl hcan.pathOk (by decide)
    (by decide) hv hfd hi (by decide)), Except.ok.injEq] at ht
  have hupd : Log.update linkedEnv.boot (plain (.open lUserStart nameF (oCreat + oRdwr))) t
      Log.empty = { files := [{ path := nameF, handle := ⟨linkedEnv.boot.cur, 3, 2, 2⟩, data := [] }],
                    readers := [] } := by
    rw [Log.update]
    simp only [plain, hv, hfd, hi]
    rfl
  rw [hupd] at hlog'
  have hopen : ∀ (s : Kernel) (regs : SavedRegs) (fs' : FileSystem) (fd : Fd) (v : FdtId),
      (s.afterOpen regs fs' fd v).cur = s.cur ∧ (s.afterOpen regs fs' fd v).mm = s.mm :=
    fun s regs fs' fd v => ⟨rfl, rfl⟩
  refine ⟨t, C', _, hst, hcan, hupd, hlog', rfl, rfl, ⟨?_, ?_⟩, ?_, ?_, ?_, ?_, fun g hg => ?_⟩
  · exact ht ▸ (hopen _ _ _ _ _).1.symm
  · rw [← ht, Kernel.result_setEax]
  · exact ht ▸ (hopen _ _ _ _ _).2
  · rw [← ht]
    change linkedEnv.boot.fs.popFree.ffb ≠ -1
    decide
  · exact ht ▸ rfl
  · exact ht ▸ rfl
  · by_contra hgi
    have hops : t.fs.ops = Function.update linkedEnv.boot.fs.ops 2 fileOps := by
      rw [← ht]
      rfl
    rw [FileSystem.IsRegular, hops, Function.update_of_ne hgi] at hg
    exact hnot g hg

/-- Task 0 creates a file, writes a byte to it, opens it again and reads. -/
theorem file_round_trip_one_byte :
    ∃ fd fd' t log, Run (record Kernel.step Log.update) Allowed (linkedEnv.boot, Log.empty)
        [plain (.open lUserStart nameF (oCreat + oRdwr)), plain (.write fd dataStart 1),
          plain (.open lUserStart nameF oRdonly), plain (.read fd' dataStart 1)] (t, log) ∧
      RoundTrips linkedEnv.boot t log := by
  obtain ⟨C, hfat⟩ := linkedEnv.boot_tableOk
  have hnot : ∀ f, ¬ linkedEnv.boot.fs.IsRegular f := by decide
  have hdir : ∀ f, (linkedEnv.boot.fs.dir f).nRefs = -1 → ¬ linkedEnv.boot.fs.IsRegular f :=
    fun f _ => hnot f
  have hfds : ∀ u fd v, linkedEnv.boot.fds u fd = some v → 0 < (linkedEnv.boot.fs.fdt v).refs := by
    decide
  -- the page that `access_ok` looks at, and the page of the buffer
  have hpage := linkedEnv_boot_page_zero
  have haccess : ∀ type, type = 0 ∨ type = 1 →
      linkedEnv.boot.mm.accessOk type dataStart 1 = true := by
    have hne : dataStart ≠ 0 := by decide
    have haddr : Memory.checkAddress dataStart 1 = true := by decide
    have hmax : ((1 + (1 : ℤ)) % 2 ^ 32).toNat / pageSize = 0 := by decide
    rintro type (rfl | rfl)
    · simp only [Memory.accessOk, hne, haddr, hmax, hpage, if_false, if_true]
      decide
    · simp only [Memory.accessOk, hne, haddr, hmax, hpage, if_false, if_true]
      decide
  have hdata : linkedEnv.boot.mm.present dataStart = true := by
    have htable := linkedEnv.boot_table_data 0
    rw [show pagLogInitDataP0 + (0 : Fin numPagData).val = 264 from rfl] at htable
    rw [Memory.present, show dataStart / pageSize = 264 by decide, htable]
    rfl
  have hbuffer : ∀ j < (1 : ℤ).toNat, linkedEnv.boot.mm.present (dataStart + j) = true := by
    intro j hj
    have h0 : j = 0 := by omega
    rw [h0]
    exact hdata
  obtain ⟨t₁, C₁, n, hst₁, hcan₁, hl₁, hlog₁, hpath, hnil, his₁, hmm₁, -, hrefs₁, hfds₁, -⟩ :=
    linkedEnv_create
  have hn : n ∈ [n] := List.mem_singleton.mpr rfl
  generalize hlog₁' : ({ files := [n], readers := [] } : Log) = log₁ at hlog₁ hl₁
  have hn : n ∈ log₁.files := hlog₁' ▸ hn
  -- the byte
  have hcan₂ : CanWrite t₁ log₁ t₁.result dataStart 1 := by
    refine ⟨by decide, by decide, ?_, ?_, n, hn, his₁, C₁ none, hlog₁.fat.chains.chain none, ?_⟩
    · rw [hmm₁]
      exact haccess 1 (.inr rfl)
    · rw [hmm₁]
      exact hbuffer
    · rw [hnil]
      exact Nat.le_add_right 1 _
  obtain ⟨t₂, C₂, hst₂, hlog₂, -, hroom⟩ :=
    hlog₁.write (e := plain (.write t₁.result dataStart 1)) rfl hcan₂
  -- the reader
  have hcan₃ : CanReopen t₂ (Log.update t₁ (plain (.write t₁.result dataStart 1)) t₂ log₁)
      lUserStart nameF := by
    refine ⟨?_, ⟨_, List.mem_map_of_mem hn, ?_⟩, ?_, ?_⟩
    · rw [hroom.mm, hmm₁]
      exact hcan₁.pathOk
    · split_ifs
      exact hpath
    · rw [List.find?_isSome]
      exact ⟨3, List.mem_finRange 3, by simp [hroom.refs, hrefs₁]⟩
    · rw [List.find?_isSome, hroom.fds, hroom.cur]
      exact ⟨4, List.mem_finRange 4, by simp [hfds₁]⟩
  obtain ⟨t₃, C₃, hst₃, hlog₃, ⟨r, hr, -, his₃, -⟩, hcur₃, hmm₃⟩ :=
    hlog₂.reopen (e := plain (.open lUserStart nameF oRdonly)) rfl hcan₃
  generalize hl₃ : Log.update t₂ _ t₃ _ = log₃ at hlog₃ hr
  have hmm₃' : t₃.mm = linkedEnv.boot.mm := hmm₃.trans (hroom.mm.trans hmm₁)
  have hcan₄ : CanRead t₃ log₃ t₃.result dataStart 1 := by
    refine ⟨by decide, by decide, ?_, ⟨?_, fun j hj k hk _ _ => ?_⟩, r, hr, hcur₃ ▸ his₃⟩
    · rw [hmm₃']
      exact haccess 0 (.inl rfl)
    · rw [hmm₃']
      exact hbuffer
    · omega
  obtain ⟨t₄, -, hst₄, -, -⟩ := hlog₃.read (e := plain (.read t₃.result dataStart 1)) rfl hcan₄
  generalize hl₂ : Log.update t₁ _ t₂ log₁ = log₂ at hlog₂ hcan₃ hl₃
  have ha₁ : Allowed (linkedEnv.boot, Log.empty) (plain (.open lUserStart nameF (oCreat + oRdwr))) :=
    .inl ⟨rfl, hcan₁⟩
  have ha₂ : Allowed (t₁, log₁) (plain (.write t₁.result dataStart 1)) := hcan₂
  have ha₃ : Allowed (t₂, log₂) (plain (.open lUserStart nameF oRdonly)) := .inr ⟨rfl, hcan₃⟩
  have ha₄ : Allowed (t₃, log₃) (plain (.read t₃.result dataStart 1)) := hcan₄
  obtain ⟨log₄, hl₄⟩ : ∃ log₄, log₄ = Log.update t₃ (plain (.read t₃.result dataStart 1)) t₄ log₃ :=
    ⟨_, rfl⟩
  have hrun := Run.cons ha₁ (record_ok_iff.mpr ⟨hst₁, hl₁.symm⟩)
    (.cons ha₂ (record_ok_iff.mpr ⟨hst₂, hl₂.symm⟩)
      (.cons ha₃ (record_ok_iff.mpr ⟨hst₃, hl₃.symm⟩)
        (.cons ha₄ (record_ok_iff.mpr ⟨hst₄, hl₄⟩) (.nil (t₄, log₄)))))
  exact ⟨t₁.result, t₃.result, t₄, log₄, hrun, file_round_trip hfat hdir hfds hrun⟩

end ZeOS
