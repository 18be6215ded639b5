import ZeOS.State
import ZeOS.Library.LinkChain

/-!
# The file system tables (`filesystem.c`)

One array `fat` links both the free list, from `ffb`, and the chain of every file, from its
`first_block`; `-1` ends a chain.  Blocks are taken from the front of the free list and given
back at its end.

The loops over `fat` are modelled with `MAX_BLOCKS` turns.  A walk that has not ended by then
has met a block twice and never ends, which is `Stop.diverge`.
-/

namespace ZeOS

open LinkChain

/-- The C string in an array: its bytes up to the first NUL.  The bytes after the array are
the two padding bytes of `struct file`, which are 0. -/
def cString (name : Fin maxNameLength → Byte) : List Byte :=
  (List.ofFn name).takeWhile (fun b => b ≠ 0)

/-- `strcmp`, on C strings given without their terminator. -/
def strcmp : List Byte → List Byte → ℤ
  | [], [] => 0
  | [], _ :: _ => -1
  | _ :: _, [] => 1
  | a :: as, b :: bs => if a = b then strcmp as bs else if a < b then -1 else 1

/-- What `create_file` returns: a pointer to a directory entry, or an error code cast to a
pointer. -/
inductive FilePointer where
  | file (f : FileId)
  | error (code : ℤ)
  deriving DecidableEq

namespace FileSystem

/-- Change one directory entry. -/
def updDir (fs : FileSystem) (f : FileId) (g : File → File) : FileSystem :=
  { fs with dir := Function.update fs.dir f (g (fs.dir f)) }

/-- Change one entry of the file descriptor table. -/
def updFdt (fs : FileSystem) (v : FdtId) (g : Virtual → Virtual) : FileSystem :=
  { fs with fdt := Function.update fs.fdt v (g (fs.fdt v)) }

/-- Change one set of operations. -/
def updOps (fs : FileSystem) (f : FileId) (o : FileOperations) : FileSystem :=
  { fs with ops := Function.update fs.ops f o }

/-- `fat[i] = b`. -/
def setFat (fs : FileSystem) (i b : ℤ) : FileSystem :=
  { fs with fat := Function.update fs.fat i b }

section

variable (fs : FileSystem) (f : FileId) (g : File → File) (v : FdtId) (h : Virtual → Virtual)
  (o : FileOperations)

@[simp] lemma updDir_dir_self : (fs.updDir f g).dir f = g (fs.dir f) := Function.update_self ..

@[simp] lemma updDir_dir_of_ne {k : FileId} (hk : k ≠ f) : (fs.updDir f g).dir k = fs.dir k :=
  Function.update_of_ne hk _ _

@[simp] lemma updDir_fdt : (fs.updDir f g).fdt = fs.fdt := rfl

@[simp] lemma updDir_ops : (fs.updDir f g).ops = fs.ops := rfl

@[simp] lemma updFdt_fdt_self : (fs.updFdt v h).fdt v = h (fs.fdt v) := Function.update_self ..

@[simp] lemma updFdt_fdt_of_ne {w : FdtId} (hw : w ≠ v) : (fs.updFdt v h).fdt w = fs.fdt w :=
  Function.update_of_ne hw _ _

@[simp] lemma updFdt_dir : (fs.updFdt v h).dir = fs.dir := rfl

@[simp] lemma updFdt_ops : (fs.updFdt v h).ops = fs.ops := rfl

@[simp] lemma updOps_ops_self : (fs.updOps f o).ops f = o := Function.update_self ..

@[simp] lemma updOps_ops_of_ne {k : FileId} (hk : k ≠ f) : (fs.updOps f o).ops k = fs.ops k :=
  Function.update_of_ne hk _ _

@[simp] lemma updOps_dir : (fs.updOps f o).dir = fs.dir := rfl

@[simp] lemma updOps_fdt : (fs.updOps f o).fdt = fs.fdt := rfl

end

/-! ## Blocks -/

/-- The loop of `balloc`, over `prev`, `ffb` and `tot`. -/
def ballocLoop (fat : ℤ → ℤ) (nblocks : ℤ) : ℕ → ℤ → ℤ → ℤ → Option (ℤ × ℤ × ℤ)
  | 0, _, _, _ => none
  | n + 1, prev, ffb, tot =>
    if tot ≠ nblocks ∧ fat ffb ≠ -1 then ballocLoop fat nblocks n ffb (fat ffb) (tot + 1)
    else some (prev, ffb, tot)

/-- Take a chain of `nblocks` blocks off the free list; the first block, or -1. -/
def balloc (fs : FileSystem) (nblocks : ℤ) : Except Stop (ℤ × FileSystem) :=
  if fs.ffb = -1 ∨ nblocks < 1 then .ok (-1, fs)
  else if fs.fat fs.ffb = -1 then
    if nblocks = 1 then .ok (fs.ffb, { fs with ffb := -1 }) else .ok (-1, fs)
  else
    let first := fs.ffb
    match ballocLoop fs.fat nblocks maxBlocks fs.ffb (fs.fat fs.ffb) 1 with
    | none => .error .diverge
    | some (prev, ffb, tot) =>
      if fs.fat ffb = -1 ∧ nblocks - tot = 1 then
        .ok (first, { fs with ffb := -1 }.setFat ffb (-1))
      else if fs.fat ffb = -1 ∧ nblocks - tot > 1 then
        -- not enough free space: roll back
        .ok (-1, { fs with ffb := first })
      else .ok (first, { fs with ffb := ffb }.setFat prev (-1))

/-- Append the chain from `index` to the free list. -/
def freeb (fs : FileSystem) (index : ℤ) : Except Stop (ℤ × FileSystem) :=
  if index ≥ maxBlocks ∨ index < 0 ∨ index = fs.ffb then .ok (-1, fs)
  else if fs.ffb = -1 then .ok (0, { fs with ffb := index })
  else
    match walkLast fs.fat (-1) maxBlocks fs.ffb with
    | none => .error .diverge
    | some i => .ok (0, fs.setFat i index)

/-- Link block `new` after block `last`. -/
def addBlock (fs : FileSystem) (last new : ℤ) : FileSystem :=
  (fs.setFat last new).setFat new (-1)

/-! ## Directory entries -/

/-- The first directory entry with the given name. -/
def lookup (fs : FileSystem) (path : List Byte) : Option FileId :=
  (List.finRange maxFiles).find? (fun f => strcmp (cString (fs.dir f).name) path = 0)

/-- The array after `copy_from_user (path, name, length)` and the terminator. -/
def copyName (path : List Byte) (name : Fin maxNameLength → Byte) : Fin maxNameLength → Byte :=
  fun i => if h : i.val < path.length then path.get ⟨i.val, h⟩
    else if i.val = path.length then 0 else name i

/-- The operations of a regular file. -/
def fileOps : FileOperations :=
  { sysReadDev := .sysReadFile, sysWriteDev := .sysWriteFile, sysReleaseDev := .sysReleaseFile }

/-- No operations at all. -/
def noOps : FileOperations :=
  { sysReadDev := .null, sysWriteDev := .null, sysReleaseDev := .null }

/-- Take the first free directory entry and one block for a new file. -/
def createFile (fs : FileSystem) (path : List Byte) : Except Stop (FilePointer × FileSystem) :=
  match (List.finRange maxFiles).find? (fun f => (fs.dir f).nRefs = -1) with
  | none => .ok (.error (-eNfile), fs)
  | some i =>
    if path.length > maxNameLength - 1 then .ok (.error (-eNametoolong), fs)
    else
      match fs.balloc 1 with
      | .error r => .error r
      | .ok (fblock, fs) =>
        if fblock < 0 then .ok (.error (-eNospc), fs)
        else
          let fs := fs.updOps i fileOps
          .ok (.file i, fs.updDir i fun d =>
            { name := copyName path d.name, accessModeAllow := oRdwr, firstBlock := fblock,
              nBlocks := 1, size := 0, nRefs := 0 })

/-! ## Initialisation -/

/-- The bytes of an ASCII string. -/
def asciiBytes (str : String) : List Byte := str.toList.map (fun c => c.toNat.toUInt8)

/-- `init_dir`, over a zeroed directory. -/
def initDir (fs : FileSystem) : FileSystem :=
  let free : File :=
    { name := fun _ => 0, accessModeAllow := 0, firstBlock := 0, nBlocks := 0, size := 0,
      nRefs := -1 }
  let fs := { fs with dir := fun _ => free, ops := fun _ => noOps }
  let fs := fs.updDir 0 fun d =>
    { d with name := copyName (asciiBytes "KEYBOARD") d.name, accessModeAllow := oRdonly, nRefs := 0 }
  let fs := fs.updOps 0 { noOps with sysReadDev := .sysReadKeyboard }
  let fs := fs.updDir 1 fun d =>
    { d with name := copyName (asciiBytes "DISPLAY") d.name, accessModeAllow := oWronly, nRefs := 0 }
  fs.updOps 1 { noOps with sysWriteDev := .sysWriteConsole }

/-- `init_fdt`. -/
def initFdt (fs : FileSystem) : FileSystem :=
  { fs with fdt := fun _ => { accessMode := 0, refs := 0, offset := 0, logicDev := none } }

/-- `init_disk`. -/
def initDisk (fs : FileSystem) : FileSystem :=
  { fs with disk := fun a => if 0 ≤ a ∧ a < maxBlocks * blockSize then 0 else fs.disk a }

/-- `initZeosFat`. -/
def initZeosFat (fs : FileSystem) : FileSystem :=
  { fs with
    ffb := 0
    fat := fun i => if 0 ≤ i ∧ i < maxBlocks - 1 then i + 1
      else if i = maxBlocks - 1 then -1 else fs.fat i }

/-- `init_filesystem`. -/
def initFilesystem (fs : FileSystem) : FileSystem :=
  fs.initDir.initFdt.initDisk.initZeosFat

/-! ## Open, dup, close and unlink (`sys.c`)

Each acts on the tables and on the descriptors of the calling process. -/

/-- A process's `file_descriptors[]`. -/
abbrev Descriptors := Fd → Option FdtId

/-- The part of `sys_open` after the lookup: check the access mode and fill in the entries. -/
def openEntry (fs : FileSystem) (fds : Descriptors) (v : FdtId) (fd : Fd) (file : FileId)
    (flags : ℤ) : ℤ × FileSystem × Descriptors :=
  if (fs.dir file).accessModeAllow ≠ oRdwr ∧ flags ≠ (fs.dir file).accessModeAllow then
    (-eAcces, fs, fds)
  else
    let fs := fs.updFdt v fun _ =>
      { accessMode := flags, refs := 1, offset := 0, logicDev := some file }
    let fs := fs.updDir file fun d => { d with nRefs := d.nRefs + 1 }
    (fd.val, fs, Function.update fds fd (some v))

/-- `sys_open` once the address of `path` is checked; `path` is the C string there.  The
comparison `file < 0` of a pointer never holds, so an error of `create_file` is used as a
pointer. -/
def sysOpen (fs : FileSystem) (fds : Descriptors) (path : List Byte) (flags : ℤ) :
    Except Stop (ℤ × FileSystem × Descriptors) :=
  if path.length > maxNameLength then .ok (-eNametoolong, fs, fds)
  else
    match (List.finRange maxOpenFiles).find? (fun v => ¬ (fs.fdt v).refs > 0) with
    | none => .ok (-eNfile, fs, fds)
    | some v =>
      match (List.finRange maxFds).find? (fun fd => (fds fd).isNone) with
      | none => .ok (-eMfile, fs, fds)
      | some fd =>
        -- O_RDONLY | O_WRONLY | O_RDWR | O_CREAT | O_EXCL
        if flags < 0 ∨ flags > 0xF then .ok (-eInval, fs, fds)
        else
          match fs.lookup path with
          | none =>
            if flags < oCreat then .ok (-eNoent, fs, fds)
            else
              match fs.createFile path with
              | .error r => .error r
              | .ok (.error _, _) => .error .errorPointer
              | .ok (.file file, fs) =>
                let flags := if flags ≥ oExcl then flags - oExcl else flags
                .ok (fs.openEntry fds v fd file (flags - oCreat))
          | some file =>
            -- O_EXCL | O_CREAT
            if flags ≥ 0xC then .ok (-eExist, fs, fds)
            else
              .ok (fs.openEntry fds v fd file (if flags ≥ oCreat then flags - oCreat else flags))

/-- Count one more reference to an open file, in the descriptor table and the directory. -/
def incRefs (fs : FileSystem) (v : FdtId) : FileSystem :=
  let fs := fs.updFdt v fun w => { w with refs := w.refs + 1 }
  match (fs.fdt v).logicDev with
  | some f => fs.updDir f fun d => { d with nRefs := d.nRefs + 1 }
  | none => fs

/-- `sys_dup`. -/
def sysDup (fs : FileSystem) (fds : Descriptors) (fd : ℤ) : ℤ × FileSystem × Descriptors :=
  if h : 0 ≤ fd ∧ fd < maxFds then
    match fds ⟨fd.toNat, toNat_lt_maxFds h⟩ with
    | none => (-eBadf, fs, fds)
    | some v =>
      match (List.finRange maxFds).find? (fun new => (fds new).isNone) with
      | none => (-eMfile, fs, fds)
      | some new => (new.val, fs.incRefs v, Function.update fds new (some v))
  else (-eBadf, fs, fds)

/-- `sys_close`. -/
def sysClose (fs : FileSystem) (fds : Descriptors) (fd : ℤ) :
    Except Stop (ℤ × FileSystem × Descriptors) :=
  if h : 0 ≤ fd ∧ fd < maxFds then
    let fd : Fd := ⟨fd.toNat, toNat_lt_maxFds h⟩
    match fds fd with
    | none => .ok (-eBadf, fs, fds)
    | some v =>
      match (fs.fdt v).logicDev with
      | none => .error .nullPointer
      | some f =>
        let fs := fs.updFdt v fun w => { w with refs := w.refs - 1 }
        let fs := fs.updDir f fun d => { d with nRefs := d.nRefs - 1 }
        .ok (0, fs, Function.update fds fd none)
  else .ok (-eBadf, fs, fds)

/-- `sys_release_file` (`devices.c`). -/
def sysReleaseFile (fs : FileSystem) (entry : FileId) : Except Stop FileSystem :=
  match fs.freeb (fs.dir entry).firstBlock with
  | .error r => .error r
  | .ok (_, fs) => .ok (fs.updDir entry fun d => { d with nBlocks := 0, size := 0 })

/-- `sys_unlink` once the address of `path` is checked. -/
def sysUnlink (fs : FileSystem) (path : List Byte) : Except Stop (ℤ × FileSystem) :=
  if path.length > maxNameLength then .ok (-eNametoolong, fs)
  else
    match fs.lookup path with
    | none => .ok (-eNoent, fs)
    | some f =>
      if (fs.dir f).nRefs = 0 then
        let released : Except Stop FileSystem :=
          match (fs.ops f).sysReleaseDev with
          | .null => .ok fs
          | .sysReleaseFile => fs.sysReleaseFile f
        match released with
        | .error r => .error r
        | .ok fs =>
          let fs := fs.updOps f noOps
          .ok (0, fs.updDir f fun d =>
            { d with nRefs := -1, name := Function.update d.name 0 0 })
      else .ok (-eBusy, fs)

/-- The loop of `sys_fork` over the inherited descriptors. -/
def forkRefs (fs : FileSystem) (fds : Descriptors) : FileSystem :=
  (List.finRange maxFds).foldl
    (fun fs fd => match fds fd with
      | some v => fs.incRefs v
      | none => fs) fs

end FileSystem

end ZeOS
