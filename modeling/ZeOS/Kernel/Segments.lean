import ZeOS.Kernel.Entry
import ZeOS.Kernel.Loader

/-!
# Gates and segments (`interrupt.c`, the segments of `mm.c`, `types.h`)

`setIdt`, `setGdt` and `setTSS` fill in the tables with which the processor comes into the kernel,
and from then on nothing but `task_switch` writes to them, which keeps `tss.esp0` at the end of the
running task's stack.  `Processor` is what the processor does with such tables: it is the part that
the source relies on, for interrupts of user code.

Words and bytes are numbers; what the C code cuts off is cut off here.
-/

namespace ZeOS

/-! ## Types (`types.h`) -/

def lowWord (address : ℕ) : ℕ := address % 2 ^ 16
def highWord (address : ℕ) : ℕ := address / 2 ^ 16 % 2 ^ 16
def midByte (address : ℕ) : ℕ := address / 2 ^ 16 % 2 ^ 8
def highByte (address : ℕ) : ℕ := address / 2 ^ 24 % 2 ^ 8

/-- `Gate` -/
structure Gate where
  lowOffset : ℕ
  segmentSelector : ℕ
  flags : ℕ
  highOffset : ℕ

/-- `Descriptor` -/
structure Descriptor where
  limit : ℕ
  lowBase : ℕ
  midBase : ℕ
  flags1 : ℕ
  flags2 : ℕ
  highBase : ℕ

/-- The fields of `TSS` that the processor reads when user code is interrupted. -/
structure Tss where
  esp0 : ℕ
  ss0 : ℕ

/-- `IDT_ENTRIES` and the sizes of the entries of both tables. -/
abbrev idtEntries : ℕ := 256
abbrev gateSize : ℕ := 8
abbrev descriptorSize : ℕ := 8

/-- The selectors of `segment.h`. -/
abbrev kernelCsSelector : ℕ := 0x10
abbrev kernelDsSelector : ℕ := 0x18
abbrev kernelTss : ℕ := 0x30

/-! ## The tables -/

/-- Where the linker puts things: the code of `entry.S`, the TSS and the stacks of the tasks. -/
structure Placement where
  address : Handler → ℕ
  address_lt : ∀ h, address h < 2 ^ 32
  codeAt : ℕ → List Instr
  codeAt_address : ∀ h, codeAt (address h) = h.code
  tss : ℕ
  tss_lt : tss < 2 ^ 32
  /-- `&task[i].t.stack[KERNEL_STACK_SIZE]` -/
  stackEnd : Slot → ℕ

/-- The tables that the processor reads. -/
structure Tables where
  idt : ℕ → Gate
  idtLimit : ℕ
  gdt : ℕ → Descriptor
  gdtLimit : ℕ
  tr : ℕ
  tssAt : ℕ → Option Tss

/-- An entry of a table in `.bss`. -/
def noGate : Gate := ⟨0, 0, 0, 0⟩

/-- `setInterruptHandler` -/
def setInterruptHandler (vector handler maxAccessibleFromPL : ℕ) (idt : ℕ → Gate) : ℕ → Gate :=
  Function.update idt vector
    { lowOffset := lowWord handler
      segmentSelector := kernelCsSelector
      flags := maxAccessibleFromPL <<< 13 % 2 ^ 16 ||| 0x8E00
      highOffset := highWord handler }

/-- `setTrapHandler`, which makes an interrupt gate as well. -/
def setTrapHandler (vector handler maxAccessibleFromPL : ℕ) (idt : ℕ → Gate) : ℕ → Gate :=
  Function.update idt vector
    { lowOffset := lowWord handler
      segmentSelector := kernelCsSelector
      flags := maxAccessibleFromPL <<< 13 % 2 ^ 16 ||| 0x8E00
      highOffset := highWord handler }

/-- The calls of `setInterruptHandler` in `setIdt`. -/
def interruptHandlers : List (ℕ × Handler) :=
  [(0, .divideError), (1, .debug), (2, .nm1), (3, .breakpoint), (4, .overflow), (5, .boundsCheck),
    (6, .invalidOpcode), (7, .deviceNotAvailable), (8, .doubleFault),
    (9, .coprocessorSegmentOverrun), (10, .invalidTss), (11, .segmentNotPresent),
    (12, .stackException), (13, .generalProtection), (14, .pageFault), (15, .intelReserved),
    (16, .floatingPointError), (17, .alignmentCheck), (32, .clock), (33, .keyboard)]

namespace Placement

variable (P : Placement)

/-- `setIdt` -/
def setIdt : ℕ → Gate :=
  setTrapHandler 128 (P.address .systemCall) 3
    (interruptHandlers.foldl (fun idt vh => setInterruptHandler vh.1 (P.address vh.2) 0 idt)
      fun _ => noGate)

/-- A segment descriptor of the boot sector. -/
def descriptorOf (bytes : List Byte) (i : ℕ) : Descriptor :=
  let b := fun k => (bytes.getD (descriptorSize * i + k) 0).toNat
  { limit := b 0 + 2 ^ 8 * b 1
    lowBase := b 2 + 2 ^ 8 * b 3
    midBase := b 4
    flags1 := b 5
    flags2 := b 6
    highBase := b 7 }

/-- `setGdt` -/
def setGdt : ℕ → Descriptor :=
  let d := descriptorOf gdtBytes (kernelTss / 8)
  Function.update (descriptorOf gdtBytes) (kernelTss / 8)
    { d with lowBase := lowWord P.tss, midBase := midByte P.tss, highBase := highByte P.tss }

/-- The tables while a task runs: `setTSS` and `task_switch` set `tss.esp0` to the end of its stack. -/
def tables (s : Kernel) : Tables where
  idt := P.setIdt
  idtLimit := idtEntries * gateSize - 1
  gdt := P.setGdt
  gdtLimit := 256 * descriptorSize
  tr := kernelTss
  tssAt a := if a = P.tss then some { esp0 := P.stackEnd s.cur, ss0 := kernelDsSelector } else none

end Placement

/-! ## The processor -/

/-- The exceptions that the code of a user program can raise, but for those of `int3` and `into`. -/
inductive Exception where
  | divideError | debug | nm1 | boundsCheck | invalidOpcode | deviceNotAvailable | doubleFault
  | invalidTss | segmentNotPresent | stackException | generalProtection | pageFault
  | floatingPointError | alignmentCheck
  deriving DecidableEq

namespace Exception

def vector : Exception → ℕ
  | .divideError => 0 | .debug => 1 | .nm1 => 2 | .boundsCheck => 5 | .invalidOpcode => 6
  | .deviceNotAvailable => 7 | .doubleFault => 8 | .invalidTss => 10 | .segmentNotPresent => 11
  | .stackException => 12 | .generalProtection => 13 | .pageFault => 14 | .floatingPointError => 16
  | .alignmentCheck => 17

/-- Exceptions with an error code. -/
def pushesCode : Exception → Bool
  | .doubleFault | .invalidTss | .segmentNotPresent | .stackException | .generalProtection
  | .pageFault | .alignmentCheck => true
  | _ => false

end Exception

/-- What interrupts user code. -/
inductive Interrupt where
  /-- `int $n`; `int3` and `into` are `int $3` and `int $4`. -/
  | software (n : Fin 256)
  /-- A line of the first 8259, after the `EOI` of its last interrupt. -/
  | irq (line : Fin 8)
  | exception (v : Exception) (code : ℤ)

/-- Where the processor goes on in the kernel, and with which stack. -/
structure KernelEntry where
  cs : ℕ
  eip : ℕ
  ss : ℕ
  esp : ℕ
  /-- `IF` in `%eflags`. -/
  interrupts : Bool

/-- The processor at a gate. -/
inductive Delivery where
  | enters (k : KernelEntry)
  | fault (v : Exception) (code : ℤ)
  /-- Kinds of gates and segments that are not described here. -/
  | other

/-- `IF` and `IOPL` of `%eflags`. -/
def interruptFlag (eflags : ℤ) : Bool := eflags / 2 ^ 9 % 2 = 1
def ioPrivilege (eflags : ℤ) : ℤ := eflags / 2 ^ 12 % 4

namespace Gate

def offset (g : Gate) : ℕ := g.lowOffset + 2 ^ 16 * g.highOffset
def kind (g : Gate) : ℕ := g.flags / 2 ^ 8 % 2 ^ 5
def dpl (g : Gate) : ℕ := g.flags / 2 ^ 13 % 2 ^ 2
def present (g : Gate) : Bool := g.flags.testBit 15

end Gate

namespace Descriptor

def base (d : Descriptor) : ℕ := d.lowBase + 2 ^ 16 * d.midBase + 2 ^ 24 * d.highBase
def present (d : Descriptor) : Bool := d.flags1.testBit 7
def dpl (d : Descriptor) : ℕ := d.flags1 / 2 ^ 5 % 2 ^ 2

/-- A segment of code, not a conforming one. -/
def isCode (d : Descriptor) : Bool := d.flags1 / 2 ^ 2 % 2 ^ 3 = 0b110

/-- A segment of data that can be written, and grows upwards. -/
def isStack (d : Descriptor) : Bool := d.flags1 / 2 % 2 ^ 4 = 0b1001

/-- A TSS that can be used, or is in use. -/
def isTss (d : Descriptor) : Bool := d.flags1 % 2 ^ 5 = 0b01001 ∨ d.flags1 % 2 ^ 5 = 0b01011

/-- All 4 GB from address 0 on, with 32-bit code and stacks. -/
def flat (d : Descriptor) : Bool :=
  d.base = 0 ∧ d.limit = 0xFFFF ∧ d.flags2 = 0xCF

end Descriptor

namespace Tables

variable (T : Tables)

/-- The descriptor of a selector without `TI`. -/
def descriptor (sel : ℕ) : Option Descriptor :=
  if sel / 8 = 0 ∨ sel.testBit 2 ∨ T.gdtLimit < sel / 8 * descriptorSize + 7 then none
  else some (T.gdt (sel / 8))

/-- The TSS of the task register. -/
def tss : Option Tss :=
  match T.descriptor T.tr with
  | none => none
  | some d => if d.isTss ∧ d.present then T.tssAt d.base else none

/-- The change to the stack of the kernel, for a gate that leads to code in the segment `sel`. -/
def enter (g : Gate) (eflags : ℤ) : Delivery :=
  match T.tss with
  | none => .other
  | some t =>
    match T.descriptor t.ss0 with
    | none => .fault .invalidTss t.ss0
    | some d =>
      if t.ss0 % 4 ≠ 0 ∨ ¬ d.isStack ∨ d.dpl ≠ 0 then .fault .invalidTss t.ss0
      else if ¬ d.present then .fault .stackException t.ss0
      else if ¬ d.flat then .other
      else .enters
        { cs := g.segmentSelector / 4 * 4
          eip := g.offset
          ss := t.ss0
          esp := t.esp0
          -- a trap gate leaves `IF` as it is
          interrupts := g.kind = 0b01111 ∧ interruptFlag eflags }

/-- User code is interrupted at a vector; the processor looks at the privilege that a gate asks for
only if it was by an instruction. -/
def deliver (vector : ℕ) (byInstruction : Bool) (eflags : ℤ) : Delivery :=
  let g := T.idt vector
  let code : ℤ := vector * 8 + 2 + if byInstruction then 0 else 1
  if T.idtLimit < vector * gateSize + 7 then .fault .generalProtection code
  else if g.kind = 0b00101 ∨ g.kind = 0b00110 ∨ g.kind = 0b00111 then .other
  else if g.kind ≠ 0b01110 ∧ g.kind ≠ 0b01111 then .fault .generalProtection code
  else if byInstruction ∧ g.dpl < 3 then .fault .generalProtection code
  else if ¬ g.present then .fault .segmentNotPresent code
  else match T.descriptor g.segmentSelector with
    | none => .fault .generalProtection g.segmentSelector
    | some c =>
      if ¬ c.isCode ∨ c.dpl ≠ 0 ∨ ¬ c.flat then .other
      else if ¬ c.present then .fault .segmentNotPresent g.segmentSelector
      else T.enter g eflags

end Tables

/-! ## Interrupts -/

/-- The first vector of the 8259, from `bootsect.S`, and its mask, from `enable_int`. -/
abbrev picBase : ℕ := 0x20
abbrev picMask : ℕ := 0xfc

namespace Interrupt

def vector : Interrupt → ℕ
  | .software n => n
  | .irq line => picBase + line
  | .exception v _ => v.vector

def byInstruction : Interrupt → Bool
  | .software _ => true
  | _ => false

/-- The error code that the processor pushes. -/
def code : Interrupt → Option ℤ
  | .exception v code => if v.pushesCode then some code else none
  | _ => none

/-- Interrupts that the 8259 or the processor keeps back. -/
def masked (reg : Registers) : Interrupt → Bool
  | .irq line => picMask.testBit line || !interruptFlag (reg .eflags)
  | _ => false

end Interrupt

namespace Placement

variable (P : Placement)

/-- The delivery of an interrupt, with the error code; a fault on the way is delivered instead. -/
def deliver (s : Kernel) (reg : Registers) (i : Interrupt) : Delivery × Option ℤ :=
  match (P.tables s).deliver i.vector i.byInstruction (reg .eflags) with
  | .fault v code => ((P.tables s).deliver v.vector false (reg .eflags), some code)
  | d => (d, i.code)

/-- An interrupt of user code in the kernel `s` with the registers `reg`.  There is no result where the
processor would do what is not described here. -/
def interrupt (x : Given) (s : Kernel) (reg : Registers) (i : Interrupt) : Option Resumption :=
  if i.masked reg then some (.user s reg)
  else match P.deliver s reg i with
    | (.enters k, code) => some (Cpu.run x 1 (P.codeAt k.eip) (Cpu.trap s reg code x))
    | _ => none

end Placement

end ZeOS
