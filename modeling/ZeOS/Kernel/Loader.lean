import ZeOS.Kernel.System
import ZeOS.Kernel.Utils

/-!
# From the files to user mode (`build.c`, `bootsect.S`, `main`)

`build` puts the boot sector, the system and the user program one after the other into the disk
image.  It writes the length of the image into the boot sector, and three words over the first bytes
of the system: the lengths of the two parts and `*p_rdtr`.

The BIOS loads the first sector.  It moves itself to 0x90000, loads the rest of the disk to 0x10000
with `read_it`, and jumps to `main`, which moves the user program from behind the system to its
place and goes to user mode with `return_gate`.

In real mode `read_it` works on 16-bit registers, of which the carries matter.  The BIOS is taken to
read what it is asked for: `read_track` does not look at the error that it may return.
-/

namespace ZeOS

open RangeCopy

/-! ## The disk image (`build.c`) -/

/-- What `build` stops with. -/
inductive BuildError where
  | unableToOpen | unableToReadHeader | nonMinixHeader | illegalDataSegment | illegalBssSegment
  | illegalSymbolTable | bootBlockSize | noBootFlag
  deriving DecidableEq

/-- `MINIX_HEADER_LEN` -/
abbrev minixHeaderLen : ℕ := 32

/-- The size of `buf`. -/
abbrev bufSize : ℕ := 1024

/-- The number that bytes make, lowest first. -/
def littleEndian : List Byte → ℕ
  | [] => 0
  | b :: bs => b.toNat + 256 * littleEndian bs

/-- The lowest `n` bytes of a number. -/
def bytesOf : ℕ → ℕ → List Byte
  | 0, _ => []
  | n + 1, v => v.toUInt8 :: bytesOf n (v / 256)

/-- `lb[i]`, where an `unsigned long` has `w` bytes; `buf` is zero behind what was read. -/
def lb (w : ℕ) (buf : List Byte) (i : ℕ) : ℕ := littleEndian ((buf.drop (w * i)).take w)

/-- `minix_open`: the file behind its header. -/
def minixOpen (w : ℕ) : Option (List Byte) → Except BuildError (List Byte)
  | none => .error .unableToOpen
  | some file =>
    let buf := file.take minixHeaderLen
    if buf.length ≠ minixHeaderLen then .error .unableToReadHeader
    else if buf.take 8 ≠ [0x01, 0x03, 0x10, 0x04, 0x20, 0x00, 0x00, 0x00] ∨ lb w buf 5 ≠ 0 then
      .error .nonMinixHeader
    else if lb w buf 3 ≠ 0 then .error .illegalDataSegment
    else if lb w buf 4 ≠ 0 then .error .illegalBssSegment
    else if lb w buf 7 ≠ 0 then .error .illegalSymbolTable
    else .ok (file.drop minixHeaderLen)

/-- `open` of a plain file. -/
def openPlain : Option (List Byte) → Except BuildError (List Byte)
  | none => .error .unableToOpen
  | some file => .ok file

/-- `st_size` in an `unsigned int`. -/
def fileSize (file : List Byte) : ℕ := file.length % 2 ^ 32

/-- The loop that appends `sz` bytes of a file to the output. -/
def appendFile (out file : List Byte) (sz : ℕ) : List Byte :=
  if sz > 0 then
    let l := if sz > bufSize then bufSize else sz
    appendFile (out ++ file.take l) (file.drop l) (sz - l)
  else out
termination_by sz
decreasing_by
  show sz - (if sz > 1024 then 1024 else sz) < sz
  split <;> omega

/-- `lseek` and `write` on the output. -/
def writeAt (out : List Byte) (pos : ℕ) (bytes : List Byte) : List Byte :=
  out.takeD pos 0 ++ bytes ++ out.drop (pos + bytes.length)

/-- `main` of `build.c`. -/
def build (w : ℕ) (bootsect system user : Option (List Byte)) : Except BuildError (List Byte) := do
  let file ← minixOpen w bootsect
  let buf := file.take bufSize
  if buf.length ≠ 512 then throw .bootBlockSize
  if buf.getD 510 0 ≠ 0x55 ∨ buf.getD 511 0 ≠ 0xaa then throw .noBootFlag
  let out := (buf.set 508 0).set 509 0
  let sys ← openPlain system
  let out := appendFile out sys (fileSize sys)
  let usr ← openPlain user
  let out := appendFile out usr (fileSize usr)
  let imSize := (fileSize sys + fileSize usr + 15) / 16
  let out := writeAt out 500 (bytesOf 2 imSize)
  let out := writeAt out 512 (bytesOf 3 (fileSize sys) ++ [0])
  let out := writeAt out 516 (bytesOf 3 (fileSize usr) ++ [0])
  return writeAt out 520 (bytesOf 3 0x7DAA ++ [0])

/-! ## The boot sector (`bootsect.S`) -/

abbrev bootSeg : ℕ := 0x07C0
abbrev initSeg : ℕ := 0x9000
abbrev sysSeg : ℕ := 0x1000

/-- `SEC_PISTA`, in the variable `sectors`. -/
abbrev sectors : ℕ := 18

/-- The segment descriptors at `gdt`. -/
def gdtBytes : List Byte :=
  [0x00, 0x00, 0x00, 0x00, 0x00, 0x00, 0x00, 0x00,
   0x00, 0x00, 0x00, 0x00, 0x00, 0x00, 0x00, 0x00,
   0xff, 0xff, 0x00, 0x00, 0x00, 0x9a, 0xcf, 0x00,
   0xff, 0xff, 0x00, 0x00, 0x00, 0x92, 0xcf, 0x00,
   0xff, 0xff, 0x00, 0x00, 0x00, 0xfa, 0xcf, 0x00,
   0xff, 0xff, 0x00, 0x00, 0x00, 0xf2, 0xcf, 0x00,
   0x68, 0x00, 0x00, 0x00, 0x00, 0x89, 0x00, 0x00]

/-- `.org` of `gdt`, and the places of `setup_sects` and `syssize` behind it. -/
abbrev gdtOffset : ℕ := 435
abbrev setupSectsOffset : ℕ := 497
abbrev syssizeOffset : ℕ := 500

/-- The boot sector from `gdt` on: `gdt`, `idt_48`, `setup_sects`, `syssize`, `gdt_48` with
`gdt_addr`, and the boot flag. -/
def bootsectData : List Byte :=
  gdtBytes ++ [0, 0, 0, 0, 0, 0] ++ [0x00, 0x00, 0x00] ++ bytesOf 2 0x7F00 ++ bytesOf 2 0x8000 ++
    bytesOf 2 gdtOffset ++ bytesOf 2 0x9 ++ [0x00, 0x00] ++ [0x55, 0xAA]

/-- The bytes of the disk. -/
abbrev Floppy := ℕ → Byte

namespace Ram

/-- A word of the 8086. -/
def loadHalf (m : Ram) (p : ℕ) : ℕ := (m p).toNat + 256 * (m (p + 1)).toNat

/-- `rep movsw`, `n` times. -/
def movsw (m : Ram) (src dest : ℕ) : ℕ → Ram
  | 0 => m
  | n + 1 => movsw (blit m src dest 2) (src + 2) (dest + 2) n

end Ram

/-- The registers of a call of the BIOS that reads sectors. -/
structure DiskRead where
  al : ℕ
  ch : ℕ
  cl : ℕ
  dh : ℕ
  es : ℕ
  bx : ℕ

namespace DiskRead

/-- The track, the two high bits of which are in `%cl`. -/
def track (r : DiskRead) : ℕ := r.ch + 256 * (r.cl / 64)

/-- The first sector of the track, counted from 1. -/
def sector (r : DiskRead) : ℕ := r.cl % 64

/-- The first sector, counted from 0 over the tracks of the two heads. -/
def first (r : DiskRead) : ℕ := (r.track * 2 + r.dh) * sectors + (r.sector - 1)

/-- The address that it reads to. -/
def dest (r : DiskRead) : ℕ := (r.es * 16 + r.bx) % 2 ^ 20

/-- What the BIOS does. -/
def run (disk : Floppy) (r : DiskRead) (m : Ram) : Ram :=
  fill m r.dest (512 * r.al) fun i => disk (512 * r.first + i)

end DiskRead

/-- The registers and variables of `read_it`, the memory, and the calls of the BIOS. -/
structure ReadIt where
  es : ℕ
  bx : ℕ
  sread : ℕ
  head : ℕ
  track : ℕ
  mem : Ram
  reads : List DiskRead

namespace ReadIt

/-- `syssize`, in the boot sector at its final place. -/
def syssize (s : ReadIt) : ℕ := s.mem.loadHalf (initSeg * 16 + syssizeOffset)

/-- `%ax` at `ok2_read`: the sectors of the rest of the track, or of the segment. -/
def chunk (s : ReadIt) : ℕ :=
  let ax := (sectors + 2 ^ 16 - s.sread) % 2 ^ 16
  let cx := ax * 512 % 2 ^ 16
  -- `jnc` and `je` after the addition of `%bx`
  if cx + s.bx < 2 ^ 16 ∨ (cx + s.bx) % 2 ^ 16 = 0 then ax
  else (2 ^ 16 - s.bx) % 2 ^ 16 / 512

/-- The registers of `read_track`, with `ax` in `%ax`. -/
def request (s : ReadIt) (ax : ℕ) : DiskRead where
  al := ax % 256
  ch := s.track % 256
  cl := (s.sread + 1) % 2 ^ 16 % 256
  dh := s.head % 2
  es := s.es
  bx := s.bx

/-- `read_track` -/
def readTrack (disk : Floppy) (s : ReadIt) (ax : ℕ) : ReadIt :=
  { s with mem := (s.request ax).run disk s.mem, reads := s.reads ++ [s.request ax] }

/-- From `ok2_read` to `ok3_read`: the next place on the disk. -/
def nextPlace (s : ReadIt) (ax : ℕ) : ReadIt :=
  let ax := (ax + s.sread) % 2 ^ 16
  if ax ≠ sectors then { s with sread := ax }
  else
    let ax := (1 + 2 ^ 16 - s.head) % 2 ^ 16
    let track := if ax ≠ 0 then s.track else (s.track + 1) % 2 ^ 16
    { s with track := track, head := ax, sread := 0 }

/-- From `ok3_read` on: the next place in memory. -/
def nextAddress (s : ReadIt) (cx : ℕ) : ReadIt :=
  let bx := s.bx + cx * 512 % 2 ^ 16
  if bx < 2 ^ 16 then { s with bx := bx }
  else { s with es := (s.es + 0x1000) % 2 ^ 16, bx := 0 }

/-- The loop at `rp_read`; `none` is the return. -/
def step (disk : Floppy) (s : ReadIt) : Option ReadIt :=
  if (s.es + 2 ^ 16 - sysSeg) % 2 ^ 16 ≤ s.syssize then
    let ax := s.chunk
    some (((s.readTrack disk ax).nextPlace ax).nextAddress ax)
  else none

/-- `read_it`, with at most `n` rounds. -/
def run (disk : Floppy) : ℕ → ReadIt → Option ReadIt
  | 0, _ => none
  | n + 1, s => (s.step disk).elim (some s) (run disk n)

/-- The entry of `read_it`.  The boot sector has 0 in the high byte of `sread`. -/
def start (m : Ram) : ReadIt where
  es := sysSeg
  bx := 0
  sread := ((m (initSeg * 16 + setupSectsOffset)).toNat + 1) % 256
  head := 0
  track := 0
  mem := m
  reads := []

end ReadIt

/-- The BIOS loads the first sector and jumps to it. -/
def biosBoot (disk : Floppy) (m : Ram) : Ram := fill m (bootSeg * 16) 512 disk

/-- The boot sector moves itself and loads the system. -/
def bootsect (disk : Floppy) (fuel : ℕ) (m : Ram) : Option ReadIt :=
  ReadIt.run disk fuel
    (ReadIt.start ((biosBoot disk m).movsw (bootSeg * 16) (initSeg * 16) 256))

/-! ## The user program (`main`) -/

/-- `KERNEL_START` -/
abbrev kernelStart : ℕ := 0x10000

/-- `GDT_START` -/
abbrev gdtStart : ℕ := 0x901b3

/-- `*p_sys_size` -/
def sysSize (m : Ram) : ℕ := m.loadWord kernelStart

/-- `*p_usr_size`, the next word. -/
def usrSize (m : Ram) : ℕ := m.loadWord (kernelStart + 4)

/-- `*p_rdtr` -/
def rdtr (m : Ram) : ℕ := m.loadWord (kernelStart + 8)

/-- `main` copies the user program.  The kernel's pages, from which `copy_data` reads, are mapped to
themselves; it writes through the page table of task 0. -/
def Env.copyUser (E : Env) (m : Ram) : Outcome Memory ℤ :=
  E.task0Pages.2.copyToUser lUserStart (cells m (kernelStart + sysSize m) (usrSize m))

/-- `USER_ESP` -/
abbrev userEsp : ℕ := lUserStart + (numPagCode + numPagData) * pageSize - 16

/-- `return_gate` up to its jump: `movl %5,(%%eax)` with `*p_rdtr` in `%5` and `esp + 12` in `%eax`. -/
def Memory.returnGate (mem : Memory) (m : Ram) (esp : ℕ) : Outcome Memory ℤ :=
  mem.copyToUser (esp + 12) (bytesOf 4 (rdtr m))

/-- The end of `main`. -/
def Env.enterUser (E : Env) (m : Ram) : Outcome Memory ℤ :=
  match E.copyUser m with
  | .ret _ mem => mem.returnGate m userEsp
  | stopped => stopped

end ZeOS
