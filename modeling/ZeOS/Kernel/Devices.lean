import ZeOS.Kernel.Sched
import ZeOS.Kernel.FileSystem

/-!
# Device routines (`devices.c`, `io.c`)

The console, the keyboard and the regular file routines that `sys_read` and `sys_write`
dispatch to.
-/

namespace ZeOS

/-! ## The screen -/

namespace Screen

abbrev numColumns : ℕ := 80
abbrev numRows : ℕ := 25

/-- The newline character. -/
abbrev newline : Byte := 10

/-- The video address of a position. -/
def videoAddr (x y : ℕ) : ℕ := 0xb8000 + (y * numColumns + x) * 2

/-- `printc`; the cursor is a pair of unsigned bytes. -/
def printc (sc : Screen) (c : Byte) : Screen :=
  if c = newline then { sc with x := 0, y := (sc.y + 1) % 256 }
  else
    let video := Function.update sc.video (videoAddr sc.x sc.y) (c.toNat ||| 0x0200)
    if (sc.x + 1) % 256 ≥ numColumns then
      if (sc.y + 1) % 256 ≥ numRows then { x := 0, y := 0, video }
      else { x := 0, y := (sc.y + 1) % 256, video }
    else { x := (sc.x + 1) % 256, y := sc.y, video }

/-- `printk`. -/
def printk (sc : Screen) (string : List Byte) : Screen := string.foldl printc sc

/-- `printc_xy`. -/
def printcXy (sc : Screen) (x y : ℕ) (c : Byte) : Screen :=
  { sc with video := Function.update sc.video (videoAddr x y) (c.toNat ||| 0x0200) }

/-- `printk_xy`. -/
def printkXy (sc : Screen) (x y : ℕ) : List Byte → Screen
  | [] => sc
  | c :: cs => (sc.printcXy x y c).printkXy (x + 1) y cs

abbrev maxWriteBlock : ℕ := 256

/-- The loop of `sys_write_console` over the whole blocks, then the rest. -/
def writeBlocks (m : Memory) (buffer size : ℕ) : ℕ → ℕ → Screen → Outcome Screen ℤ
  | 0, i, sc =>
    let rest := size % maxWriteBlock
    if rest ≠ 0 then
      match m.copyFromUser (buffer + (size - rest)) rest with
      | none => .fault sc
      | some kBuffer => .ret (i * maxWriteBlock + rest) (sc.printk kBuffer)
    else .ret (i * maxWriteBlock) sc
  | n + 1, i, sc =>
    match m.copyFromUser (buffer + i * maxWriteBlock) maxWriteBlock with
    | none => .fault sc
    | some kBuffer => writeBlocks m buffer size n (i + 1) (sc.printk kBuffer)

/-- `sys_write_console`. -/
def sysWriteConsole (sc : Screen) (m : Memory) (buffer size : ℕ) : Outcome Screen ℤ :=
  writeBlocks m buffer size (size / maxWriteBlock) 0 sc

end Screen

/-! ## Regular files -/

namespace FileSystem

open LinkChain

/-- The head of the byte loop of `sys_write_file`: a new block when the size is a non-zero
multiple of the block size.  `none` is the return of `-ENOSPC`. -/
def growFile (fs : FileSystem) (f : FileId) (destBlock destByte : ℤ) :
    Except Stop (Option (ℤ × ℤ × FileSystem)) :=
  if (fs.dir f).size % blockSize = 0 ∧ (fs.dir f).size ≠ 0 then
    match fs.balloc 1 with
    | .error r => .error r
    | .ok (newBlock, fs) =>
      if newBlock = -1 then .ok none
      else
        let fs := fs.addBlock destBlock newBlock
        .ok (some (newBlock, 0, fs.updDir f fun d => { d with nBlocks := d.nBlocks + 1 }))
  else .ok (some (destBlock, destByte, fs))

/-- `disk[block][byte] = b`, with the column running into the following blocks. -/
def setDisk (fs : FileSystem) (a : ℤ) (b : Byte) : FileSystem :=
  { fs with disk := Function.update fs.disk a b }

/-- The offset moves on, and the size with it once the offset is past it. -/
def advance (fs : FileSystem) (v : FdtId) (f : FileId) : FileSystem :=
  let fs := fs.updFdt v fun w => { w with offset := w.offset + 1 }
  if (fs.dir f).size < (fs.fdt v).offset then
    fs.updDir f fun d => { d with size := d.size + 1 }
  else fs

/-- The byte loop of `sys_write_file`: `n` bytes to go, `i` written. -/
def writeLoop (m : Memory) (v : FdtId) (f : FileId) (buffer : ℕ) :
    ℕ → ℕ → ℤ → ℤ → FileSystem → Outcome FileSystem ℤ
  | 0, i, _, _, fs => .ret i fs
  | n + 1, i, destBlock, destByte, fs =>
    match fs.growFile f destBlock destByte with
    | .error r => .stop r
    | .ok none => .ret (-eNospc) fs
    | .ok (some (destBlock, destByte, fs)) =>
      if m.present (buffer + i) then
        let a := destBlock * blockSize + destByte
        if 0 ≤ a ∧ a < maxBlocks * blockSize then
          let fs := fs.setDisk a (m.load (buffer + i))
          writeLoop m v f buffer n (i + 1) destBlock (destByte + 1) (fs.advance v f)
        else .stop .offDisk
      else .fault fs

/-- `sys_write_file`: from the last block of the chain, at the byte of the offset. -/
def sysWriteFile (fs : FileSystem) (m : Memory) (v : FdtId) (f : FileId) (buffer size : ℕ) :
    Outcome FileSystem ℤ :=
  match walkLast fs.fat (-1) maxBlocks (fs.dir f).firstBlock with
  | none => .stop .diverge
  | some destBlock =>
    writeLoop m v f buffer size 0 destBlock ((fs.fdt v).offset % blockSize) fs

/-- The byte loop of `sys_read_file`: `n` bytes to go of `size`, `i` read. -/
def readLoop (v : FdtId) (f : FileId) (buffer size : ℕ) :
    ℕ → ℕ → ℤ → ℤ → FileSystem × Memory → Outcome (FileSystem × Memory) ℤ
  | 0, i, _, _, st => .ret i st
  | n + 1, i, block0, byte0, (fs, m) =>
    if (fs.fdt v).offset < (fs.dir f).size then
      let atEnd := byte0 % blockSize = 0 ∧ byte0 ≠ 0
      if atEnd ∧ ((fs.fdt v).offset = size ∨ fs.fat block0 = -1) then .ret i (fs, m)
      else
        let block0 := if atEnd then fs.fat block0 else block0
        let byte0 := if atEnd then 0 else byte0
        if m.present (buffer + i) then
          let m := m.store (buffer + i) (fs.disk (block0 * blockSize + byte0))
          let fs := fs.updFdt v fun w => { w with offset := w.offset + 1 }
          readLoop v f buffer size n (i + 1) block0 (byte0 + 1) (fs, m)
        else .fault (fs, m)
    else .ret i (fs, m)

/-- `sys_read_file`: from the block and the byte of the offset. -/
def sysReadFile (fs : FileSystem) (m : Memory) (v : FdtId) (f : FileId) (buffer size : ℕ) :
    Outcome (FileSystem × Memory) ℤ :=
  let nthBlock := ((fs.fdt v).offset / blockSize).toNat
  readLoop v f buffer size size 0 (fs.fat^[nthBlock] (fs.dir f).firstBlock)
    ((fs.fdt v).offset % blockSize) (fs, m)

end FileSystem

/-! ## The keyboard -/

namespace Kernel

/-- Advance `p` in the circular buffer. -/
def stepCircBuffer (s : Kernel) : Kernel :=
  { s with kbd := { s.kbd with p := if s.kbd.p = circularSize - 1 then 0 else s.kbd.p + 1 } }

/-- Move a task from the runqueue to the keyboard queue. -/
def blockIntoKbd (s : Kernel) (t : Slot) : Kernel :=
  { s with links := (s.links.listDel (.task t)).listAddTail (.task t) .keyboardQueue }

/-- Move a task from the keyboard queue back to the runqueue. -/
def unblockAndEnqueque (s : Kernel) (t : Slot) : Kernel :=
  { s with links := (s.links.listDel (.task t)).listAddTail (.task t) .runqueue }

/-- The `size` characters of the circular buffer from `start` on. -/
def circBytes (kbd : Keyboard) (size : ℕ) : List Byte :=
  (List.range size).map (fun i => kbd.circular ((kbd.start + i) % circularSize))

/-- Deliver `size` characters to the buffer of a task, through a temporary mapping of its
frames above the data pages; afterwards those pages are mapped to the frames of the current
process. -/
def copyFromCircBuffer (s : Kernel) (blocked : Slot) (size : ℤ) : Outcome Kernel Unit :=
  let pages := List.finRange numPagData
  let s := { s with mm := s.mm.setSsPags Memory.windowPage (s.task blocked).phPages pages }
  let s := s.updTask blocked fun k => { k with buffer := k.buffer + numPagData * pageSize }
  if size > circularSize then .stop .overrun
  else
    match s.mm.copyToUser (s.task blocked).buffer (circBytes s.kbd size.toNat) with
    | .fault mm => .fault { s with mm := mm }
    | .ret _ mm =>
      let s := { s with mm := mm.setSsPags Memory.windowPage s.current.phPages pages }
      .ret () (s.updTask blocked fun k => { k with buffer := k.buffer - numPagData * pageSize })
    | .switched mm => .switched { s with mm := mm }
    | .stop r => .stop r

/-- The characters that the running process still misses for a read of `size`. -/
def setPending (s : Kernel) (size : ℤ) : Kernel :=
  s.updTask s.cur fun k =>
    { k with pendingChars := if size > s.kbd.circChars then size - s.kbd.circChars else 0 }

/-- The characters of a read that was served at once leave the circular buffer. -/
def consume (s : Kernel) (size : ℤ) : Kernel :=
  { s with kbd := { s.kbd with
      circChars := s.kbd.circChars - size
      start := (s.kbd.start + size) % circularSize } }

/-- The running process waits for its characters, with the size of the read as its result. -/
def waitForChars (s : Kernel) (size : ℤ) : Kernel :=
  let s := { s with kbd := { s.kbd with start := s.kbd.p } }
  let s := s.blockIntoKbd s.cur
  s.updTask s.cur fun k =>
    { k with size := size, stack := Function.update k.stack eaxIndex size }

/-- `sys_read_keyboard`: serve the read at once, or block the process until all the
characters it asks for have been typed. -/
def sysReadKeyboard (s : Kernel) (size : ℤ) : Outcome Kernel ℤ :=
  let s := s.setPending size
  if s.current.pendingChars ≤ 0 ∧ s.links.listEmpty .keyboardQueue then
    match s.copyFromCircBuffer s.cur size with
    | .ret _ s => .ret size (s.consume size)
    | .switched s => .switched s
    | .fault s => .fault s
    | .stop r => .stop r
  else if s.current.pid ≠ 0 then (s.waitForChars size).switchToNext 0
  else .ret (-ePerm) s

end Kernel

end ZeOS
