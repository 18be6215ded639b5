import ZeOS.State

/-!
# Memory management and user copies (`mm.c`, `utils.c`)

Frames are allocated from every second physical page, the one page table is changed entry
by entry, and the copy routines move words and then bytes through it.

A kernel access is checked by the processor for a present entry only: `CR0.WP` is never
set, so the kernel may also write pages that are read-only for the user.  An access to a
page that is not present raises a page fault, and the copy stops where it is; a word that
straddles two pages is written whole or not at all.

Addresses below `L_USER_START` never reach these routines (`check_address`), so the frames
they touch are user frames, whose contents are `Memory.frame`.
-/

namespace ZeOS

namespace Memory

/-! ## The page table -/

/-- The entry that `set_ss_pag` writes: present, user, writable, with a 20-bit base. -/
def ssEntry (frame : ℤ) : PageTableEntry :=
  { present := true, rw := true, user := true, pbaseAddr := (frame % 2 ^ 20).toNat }

/-- The entry with value 0. -/
def noEntry : PageTableEntry :=
  { present := false, rw := false, user := false, pbaseAddr := 0 }

/-- Associate logical page `page` with physical page `frame`. -/
def setSsPag (m : Memory) (page : ℕ) (frame : ℤ) : Memory :=
  { m with pagusrTable := Function.update m.pagusrTable page (ssEntry frame) }

/-- Set a whole entry of the page table to 0. -/
def delSsPag (m : Memory) (page : ℕ) : Memory :=
  { m with pagusrTable := Function.update m.pagusrTable page noEntry }

/-- The loop of `set_ss_pag` calls over the listed data pages, from logical page `base`. -/
def setSsPags (m : Memory) (base : ℕ) (ph : Fin numPagData → ℤ) (is : List (Fin numPagData)) :
    Memory :=
  is.foldl (fun m (i : Fin numPagData) => m.setSsPag (base + i.val) (ph i)) m

/-- The first page after the data pages, where `sys_fork` and `copy_from_circ_buffer` map
the frames of another process. -/
abbrev windowPage : ℕ := pagLogInitDataP0 + numPagData

/-! ## Frames -/

/-- Search a free frame, from the first user frame on and two at a time, and mark it. -/
def allocFrame (m : Memory) : ℤ × Memory :=
  match (List.range' numPagKernel ((totalPages - numPagKernel) / 2) 2).find?
      (fun i => m.physMem i = .free) with
  | some i => (i, { m with physMem := Function.update m.physMem i .used })
  | none => (-1, m)

/-- Mark a frame as free; the parameter is unsigned. -/
def freeFrame (m : Memory) (frame : ℤ) : Memory :=
  { m with physMem := Function.update m.physMem (frame % 2 ^ 32).toNat .free }

/-! ## Access through the page table -/

/-- The page of an address has a present entry.  The page directory has one entry, so no
page table covers addresses from `TOTAL_PAGES * PAGE_SIZE` on. -/
def present (m : Memory) (addr : ℕ) : Bool :=
  decide (addr / pageSize < totalPages) && (m.pagusrTable (addr / pageSize)).present

/-- User code may store to an address. -/
def userWritable (m : Memory) (addr : ℕ) : Bool :=
  m.present addr && (m.pagusrTable (addr / pageSize)).user
    && (m.pagusrTable (addr / pageSize)).rw

/-- The frame that an address is mapped to. -/
def frameOf (m : Memory) (addr : ℕ) : ℕ := (m.pagusrTable (addr / pageSize)).pbaseAddr

/-- The byte at a mapped address. -/
def load (m : Memory) (addr : ℕ) : Byte := m.frame (m.frameOf addr) (addr % pageSize)

/-- Store a byte at a mapped address. -/
def store (m : Memory) (addr : ℕ) (b : Byte) : Memory :=
  let f := m.frameOf addr
  { m with frame := Function.update m.frame f (Function.update (m.frame f) (addr % pageSize) b) }

/-- The byte loop of `copy_to_user`. -/
def copyBytes (m : Memory) (dest : ℕ) : List Byte → Outcome Memory ℤ
  | [] => .ret 0 m
  | b :: bs => if m.present dest then (m.store dest b).copyBytes (dest + 1) bs else .fault m

/-- `copy_to_user`: words while more than four bytes are left, then bytes. -/
def copyToUser (m : Memory) (dest : ℕ) : List Byte → Outcome Memory ℤ
  | b₀ :: b₁ :: b₂ :: b₃ :: b₄ :: bs =>
    if m.present dest && m.present (dest + 3) then
      ((((m.store dest b₀).store (dest + 1) b₁).store (dest + 2) b₂).store (dest + 3) b₃).copyToUser
        (dest + 4) (b₄ :: bs)
    else .fault m
  | bs => m.copyBytes dest bs

/-- `copy_from_user` into a kernel array: the bytes read, or `none` on a page fault, which
leaves user memory as it was. -/
def copyFromUser (m : Memory) (src : ℕ) (size : ℕ) : Option (List Byte) :=
  if (List.range size).all (fun i => m.present (src + i)) then
    some ((List.range size).map (fun i => m.load (src + i)))
  else none

/-- `strlen`, on the C string `path` at an address: the loop reads the bytes of the string and the zero
byte behind them one after another; `none` on a page fault. -/
def strlen (m : Memory) (addr : ℕ) (path : List Byte) : Option ℕ :=
  if (List.range (path.length + 1)).all (fun i => m.present (addr + i)) then some path.length else none

/-- `copy_data` of one page, from logical page to logical page. -/
def copyPage (m : Memory) (src dest : ℕ) : Memory :=
  let bytes := m.frame (m.pagusrTable src).pbaseAddr
  { m with frame := Function.update m.frame (m.pagusrTable dest).pbaseAddr bytes }

/-! ## Checking user pointers -/

/-- Is `addr` inside user space?  `max_bytes` is unsigned, so the size is compared as unsigned. -/
def checkAddress (addr : ℕ) (size : ℤ) : Bool :=
  !(decide (addr < lUserStart) || decide (addr > lUserStart + (numPagCode + numPagData) * pageSize)
    || decide (size % 2 ^ 32 > (numPagCode + numPagData) * pageSize))

/-- `access_ok`.  It takes `&addr && 0x003ff000`, which is 1, for the first address to
check, so the pages it looks at are page 0 and page `(1 + size) >> 12`. -/
def accessOk (m : Memory) (type : ℤ) (addr : ℕ) (size : ℤ) : Bool :=
  if addr = 0 then false
  else if !checkAddress addr size then false
  else
    let minPage := m.pagusrTable 0
    let maxPage := m.pagusrTable (((1 + size) % 2 ^ 32).toNat / pageSize)
    if type = 0 then minPage.present && maxPage.present
    else if type = 1 then minPage.present && maxPage.present && (minPage.rw && maxPage.rw)
    else false

end Memory

end ZeOS
