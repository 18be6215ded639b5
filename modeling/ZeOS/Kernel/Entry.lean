import ZeOS.Kernel.System
import ZeOS.Library.RegisterStack

/-!
# The entry code (`entry.S`, and the end of `task_switch`)

The processor comes into the kernel through a gate of the IDT, in the running task's kernel stack:
`setTSS` and `task_switch` keep `tss.esp0` at the end of that stack.  The handlers are written here
as the instructions that they are, and `Cpu.exec` runs them; what they call is the C code of the
other files.  While the handler runs, `%esp` is the index of a word of the running task's `stack[]`,
whose last 16 words are `Task.stack`.

A C routine gets its arguments where `SAVE_ALL` put `%ebx`, `%ecx` and `%edx`.  It gives back `%esp`
and the words above it, and is free to change `%eax`, `%ecx`, `%edx` and the words below; what it
leaves there is part of `Given`, like the C strings that arguments point to.  The compiled routines
are taken to leave their argument words alone as well.
-/

namespace ZeOS

open RegisterStack

/-! ## Registers -/

/-- The registers that an entry saves, in the order of the stack layout of `entry.S`. -/
inductive Reg where
  | ebx | ecx | edx | esi | edi | ebp | eax | ds | es | fs | gs | eip | cs | eflags | esp | ss
  deriving DecidableEq

instance savedRegsNeZero : NeZero 16 := ⟨by decide⟩

/-- The place of a register in the saved registers. -/
def Reg.index : Reg → Fin 16
  | .ebx => 0 | .ecx => 1 | .edx => 2 | .esi => 3 | .edi => 4 | .ebp => 5 | .eax => 6 | .ds => 7
  | .es => 8 | .fs => 9 | .gs => 10 | .eip => 11 | .cs => 12 | .eflags => 13 | .esp => 14 | .ss => 15

/-- The stack layout of `entry.S`. -/
def Reg.layout : List Reg :=
  [.ebx, .ecx, .edx, .esi, .edi, .ebp, .eax, .ds, .es, .fs, .gs, .eip, .cs, .eflags, .esp, .ss]

/-- The values of the registers. -/
abbrev Registers := Reg → ℤ

/-- Registers as they are saved. -/
def savedRegs (reg : Registers) : SavedRegs := fun i => reg (Reg.layout.get i)

/-- Registers as they are loaded. -/
def loadRegs (k : SavedRegs) : Registers := fun r => k r.index

@[simp] lemma loadRegs_savedRegs (reg : Registers) : loadRegs (savedRegs reg) = reg := by
  funext r
  cases r <;> rfl

/-! ## The table of system calls -/

/-- The routines of `sys_call_table`. -/
inductive SysCall where
  | sysNiSyscall | sysExit | sysFork | sysRead | sysWrite | sysOpen | sysClose | sysUnlink | sysGetpid
  | sysSemInit | sysSemWait | sysSemSignal | sysSemDestroy | sysNice | sysGetStats | sysDup
  deriving DecidableEq

/-- `sys_call_table`. -/
def sysCallTable : List SysCall :=
  [.sysNiSyscall, .sysExit, .sysFork, .sysRead, .sysWrite, .sysOpen, .sysClose,
   .sysNiSyscall, .sysNiSyscall, .sysNiSyscall, .sysUnlink,
   .sysNiSyscall, .sysNiSyscall, .sysNiSyscall, .sysNiSyscall, .sysNiSyscall, .sysNiSyscall,
   .sysNiSyscall, .sysNiSyscall, .sysNiSyscall, .sysGetpid, .sysSemInit, .sysSemWait, .sysSemSignal,
   .sysSemDestroy, .sysNiSyscall, .sysNiSyscall, .sysNiSyscall, .sysNiSyscall, .sysNiSyscall,
   .sysNiSyscall, .sysNiSyscall, .sysNiSyscall, .sysNiSyscall, .sysNice, .sysGetStats,
   .sysNiSyscall, .sysNiSyscall, .sysNiSyscall, .sysNiSyscall, .sysNiSyscall, .sysDup]

abbrev minSyscall : ℤ := 0
abbrev maxSyscall : ℤ := 41

/-- What an entry depends on beside the registers and the kernel: the C string that an argument
points to, the memory past the end of `task[]`, the scan code in the port and the byte past the end
of `char_map`, and what a C routine leaves in `%eax` if it has no result, in `%ecx` and `%edx`, and
on the stack. -/
structure Given where
  path : List Byte
  beyondTask : Task
  scan : Byte
  beyond : Byte
  eax : ℤ
  ecx : ℤ
  edx : ℤ
  below : ℕ → ℤ

/-- A word as an unsigned one, such as an address. -/
def toUnsigned (w : ℤ) : ℕ := (w % 2 ^ 32).toNat

/-- A routine of the table with its arguments, as an action of the kernel. -/
def SysCall.action (arg : ℕ → ℤ) (x : Given) : SysCall → Action
  | .sysNiSyscall => .niSyscall
  | .sysExit => .exit x.eax
  | .sysFork => .fork
  | .sysRead => .read (arg 0) (toUnsigned (arg 1)) (arg 2)
  | .sysWrite => .write (arg 0) (toUnsigned (arg 1)) (arg 2)
  | .sysOpen => .open (toUnsigned (arg 0)) x.path (arg 1)
  | .sysClose => .close (arg 0)
  | .sysUnlink => .unlink (toUnsigned (arg 0)) x.path
  | .sysGetpid => .getpid
  | .sysSemInit => .semInit (arg 0) (toUnsigned (arg 1))
  | .sysSemWait => .semWait (arg 0)
  | .sysSemSignal => .semSignal (arg 0)
  | .sysSemDestroy => .semDestroy (arg 0)
  | .sysNice => .nice (arg 0)
  | .sysGetStats => .getStats (arg 0) (toUnsigned (arg 1)) x.beyondTask
  | .sysDup => .dup (arg 0)

namespace Outcome

variable {σ α : Type}

/-- Code that neither switches nor faults. -/
def ofExcept : Except Stop (α × σ) → Outcome σ α
  | .ok (a, s) => .ret a s
  | .error r => .stop r

/-- A routine without a result leaves some value in `%eax`. -/
def leaves (v : ℤ) : Outcome σ Unit → Outcome σ ℤ
  | .ret _ s => .ret v s
  | .switched s => .switched s
  | .fault s => .fault s
  | .stop r => .stop r

end Outcome

/-- The C code of a routine of the table. -/
def SysCall.run (arg : ℕ → ℤ) (x : Given) (s : Kernel) : SysCall → Outcome Kernel ℤ
  | .sysNiSyscall => .ret (-eNosys) s
  | .sysExit => s.sysExit.leaves x.eax
  | .sysFork => .ofExcept s.sysFork
  | .sysRead => s.sysRead (arg 0) (toUnsigned (arg 1)) (arg 2)
  | .sysWrite => s.sysWrite (arg 0) (toUnsigned (arg 1)) (arg 2)
  | .sysOpen => s.sysOpen (toUnsigned (arg 0)) x.path (arg 1)
  | .sysClose => .ofExcept (s.sysClose (arg 0))
  | .sysUnlink => s.sysUnlink (toUnsigned (arg 0)) x.path
  | .sysGetpid => .ret s.current.pid s
  | .sysSemInit => .ofExcept (.ok (s.sysSemInit (arg 0) (toUnsigned (arg 1))))
  | .sysSemWait => s.sysSemWait (arg 0)
  | .sysSemSignal => .ofExcept (s.sysSemSignal (arg 0))
  | .sysSemDestroy => .ofExcept (s.sysSemDestroy (arg 0))
  | .sysNice => .ofExcept (.ok (s.sysNice (arg 0)))
  | .sysGetStats => s.sysGetStats (arg 0) (toUnsigned (arg 1)) x.beyondTask
  | .sysDup => .ofExcept (.ok (s.sysDup (arg 0)))

/-! ## The handlers -/

/-- The routines that handlers call by name. -/
inductive Routine where
  /-- An exception routine that prints its line and loops forever. -/
  | exception
  | pageFaultRoutine
  | clockRoutine
  | keyboardRoutine

/-- Places that the code jumps to. -/
inductive Label where
  | errorNoSyscall
  /-- The end of `task_switch`, from the change of `%esp` on. -/
  | taskSwitch

/-- The instructions of the entry code. -/
inductive Instr where
  | pushl (r : Reg)
  | popl (r : Reg)
  | movlImm (v : ℤ) (dst : Reg)
  | movl (src dst : Reg)
  /-- Store a register, or a constant, `off` bytes above `%esp`. -/
  | movlToStack (src : Reg) (off : ℕ)
  | movlImmToStack (v : ℤ) (off : ℕ)
  | addlEsp (n : ℕ)
  | movbAl (b : ℤ)
  | outbAl (port : ℕ)
  /-- `cmpl` with a constant, and the jump. -/
  | jl (v : ℤ) (r : Reg) (l : Label)
  | jg (v : ℤ) (r : Reg) (l : Label)
  | call (f : Routine)
  /-- `call *sys_call_table(,%eax,0x4)` -/
  | callTable
  | iret

abbrev kernelCs : ℤ := 0x10
abbrev kernelDs : ℤ := 0x18

/-- The registers of `SAVE_ALL`, in the order in which they are pushed. -/
def saveOrder : List Reg := [.gs, .fs, .es, .ds, .eax, .ebp, .edi, .esi, .edx, .ecx, .ebx]

/-- What the processor pushes when it changes to the kernel stack. -/
def trapOrder : List Reg := [.ss, .esp, .eflags, .cs, .eip]

/-- `SAVE_ALL`. -/
def saveAll : List Instr :=
  saveOrder.map .pushl ++ [.movlImm kernelDs .edx, .movl .edx .ds, .movl .edx .es]

/-- `RESTORE_ALL`. -/
def restoreAll : List Instr :=
  [.popl .ebx, .popl .ecx, .popl .edx, .popl .esi, .popl .edi, .popl .ebp, .popl .eax, .popl .ds,
   .popl .es, .popl .fs, .popl .gs]

/-- `EOI`. -/
def eoi : List Instr := [.movbAl 0x20, .outbAl 0x20]

/-- A handler of an exception without an error code. -/
def handler (f : Routine) : List Instr := saveAll ++ .call f :: restoreAll ++ [.iret]

/-- A handler of an exception with an error code, which lies above the saved registers. -/
def handlerWithCode (f : Routine) : List Instr :=
  saveAll ++ .call f :: restoreAll ++ [.addlEsp 4, .iret]

/-- A handler of an interrupt. -/
def interruptHandler (f : Routine) : List Instr :=
  saveAll ++ .call f :: eoi ++ restoreAll ++ [.iret]

/-- The entry points of `entry.S`. -/
inductive Handler where
  | divideError | debug | nm1 | breakpoint | overflow | boundsCheck | invalidOpcode
  | deviceNotAvailable | doubleFault | coprocessorSegmentOverrun | invalidTss | segmentNotPresent
  | stackException | generalProtection | pageFault | intelReserved | floatingPointError
  | alignmentCheck | clock | keyboard | systemCall
  deriving DecidableEq

/-- The code at an entry point. -/
def Handler.code : Handler → List Instr
  | .divideError => handler .exception
  | .debug => handler .exception
  | .nm1 => handler .exception
  | .breakpoint => handler .exception
  | .overflow => handler .exception
  | .boundsCheck => handler .exception
  | .invalidOpcode => handler .exception
  | .deviceNotAvailable => handler .exception
  | .doubleFault => handlerWithCode .exception
  | .coprocessorSegmentOverrun => handler .exception
  | .invalidTss => handlerWithCode .exception
  | .segmentNotPresent => handlerWithCode .exception
  | .stackException => handlerWithCode .exception
  | .generalProtection => handlerWithCode .exception
  | .pageFault => handlerWithCode .pageFaultRoutine
  | .intelReserved => saveAll ++ restoreAll ++ [.iret]
  | .floatingPointError => handler .exception
  | .alignmentCheck => handlerWithCode .exception
  | .clock => interruptHandler .clockRoutine
  | .keyboard => interruptHandler .keyboardRoutine
  | .systemCall =>
    saveAll ++ [.jl minSyscall .eax .errorNoSyscall, .jg maxSyscall .eax .errorNoSyscall, .callTable,
      .movlToStack .eax 24] ++ restoreAll ++ [.iret]

/-- The code at a label.  `task_switch` may send an `EOI` first, which only changes `%al`. -/
def Label.code : Label → List Instr
  | .errorNoSyscall => .movlImmToStack (-eNosys) 24 :: restoreAll ++ [.iret]
  | .taskSwitch => restoreAll ++ [.iret]

/-! ## Running the code -/

/-- The processor in the kernel, on the stack of the running task. -/
structure Cpu extends Machine Reg ℤ where
  kernel : Kernel

/-- How an entry to the kernel ends: user code goes on, or nothing does. -/
inductive Resumption where
  | user (s : Kernel) (reg : Registers)
  | stop (r : Stop)

/-- What one instruction, or a piece of code, leads to. -/
inductive Flow where
  | next (c : Cpu)
  | jump (l : Label) (c : Cpu)
  | done (x : Resumption)

/-- The first of the saved registers in `stack[]`. -/
abbrev savedBase : ℕ := kernelStackSize - 16

lemma sub_savedBase_lt {i : ℕ} (h : savedBase ≤ i ∧ i < kernelStackSize) : i - savedBase < 16 := by
  change 1008 ≤ i ∧ i < 1024 at h
  show i - 1008 < 16
  omega

/-- The stack of the running task, over whatever lies below its saved registers. -/
def Kernel.stackWords (s : Kernel) (below : ℕ → ℤ) : ℕ → ℤ := fun i =>
  if h : savedBase ≤ i ∧ i < kernelStackSize then s.current.stack ⟨i - savedBase, sub_savedBase_lt h⟩
  else below i

namespace Cpu

/-- The saved registers of the running task, as the stack has them. -/
def saved (c : Cpu) : SavedRegs := fun i => c.word (savedBase + i)

/-- The kernel, with what has been stored on the stack. -/
def store (c : Cpu) : Kernel := c.kernel.enter c.saved

/-- `page_fault_routine`. -/
def pageFaultRoutine (s : Kernel) : Outcome Kernel Unit :=
  if s.current.pid ≠ 0 then s.printFault.sysExit else .stop .hang

/-- The C code of the routines that handlers call by name. -/
def routine (x : Given) (s : Kernel) : Routine → Outcome Kernel ℤ
  | .exception => .stop .hang
  | .pageFaultRoutine => (pageFaultRoutine s).leaves x.eax
  | .clockRoutine => s.clockRoutine.leaves x.eax
  | .keyboardRoutine => (s.keyboardRoutine x.scan x.beyond).leaves x.eax

/-- `task_switch` sets `%esp` to the saved registers of the new task. -/
def switchTo (c : Cpu) (s : Kernel) : Cpu where
  reg := c.reg
  sp := savedBase
  word := s.stackWords c.word
  kernel := s

/-- A C routine has returned `v`. -/
def returned (c : Cpu) (x : Given) (v : ℤ) (s : Kernel) : Cpu where
  reg r := if r = .eax then v else if r = .ecx then x.ecx else if r = .edx then x.edx else c.reg r
  sp := c.sp
  word := s.stackWords fun i => if c.sp ≤ i then c.word i else x.below i
  kernel := s

/-- After a call of a C routine. -/
def afterCall (c : Cpu) (x : Given) : Outcome Kernel ℤ → Flow
  | .ret v s => .next (c.returned x v s)
  | .switched s => .jump .taskSwitch (c.switchTo s)
  -- `page_fault_handler` runs on the same stack; if it comes back, the access faults again
  | .fault s =>
    match pageFaultRoutine s with
    | .switched s => .jump .taskSwitch (c.switchTo s)
    | .stop r => .done (.stop r)
    | _ => .done (.stop .hang)
  | .stop r => .done (.stop r)

/-- One instruction. -/
def step (x : Given) (c : Cpu) : Instr → Flow
  | .pushl r => .next { c with toMachine := c.push (c.reg r) }
  | .popl r => .next { c with toMachine := c.pop r }
  | .movlImm v dst => .next { c with reg := Function.update c.reg dst v }
  | .movl src dst => .next { c with reg := Function.update c.reg dst (c.reg src) }
  | .movlToStack src off =>
    .next { c with word := Function.update c.word (c.sp + off / 4) (c.reg src) }
  | .movlImmToStack v off => .next { c with word := Function.update c.word (c.sp + off / 4) v }
  | .addlEsp n => .next { c with sp := c.sp + n / 4 }
  | .movbAl b => .next { c with reg := Function.update c.reg .eax (c.reg .eax / 256 * 256 + b) }
  | .outbAl _ => .next c
  | .jl v r l => if c.reg r < v then .jump l c else .next c
  | .jg v r l => if v < c.reg r then .jump l c else .next c
  | .call f => c.afterCall x (routine x c.store f)
  | .callTable =>
    c.afterCall x ((sysCallTable.getD (c.reg .eax).toNat .sysNiSyscall).run
      (fun i => c.word (c.sp + i)) x c.store)
  -- user code has a lower privilege, so its stack is popped as well
  | .iret =>
    .done (.user c.store (c.popRegs [.eip, .cs, .eflags, .esp, .ss]).reg)

/-- A piece of code. -/
def exec (x : Given) : List Instr → Cpu → Flow
  | [], c => .next c
  | i :: is, c =>
    match c.step x i with
    | .next c => exec x is c
    | .jump l c => .jump l c
    | .done y => .done y

/-- Code with at most `n` jumps. -/
def run (x : Given) : ℕ → List Instr → Cpu → Resumption
  | 0, is, c =>
    match exec x is c with
    | .done y => y
    | _ => .stop .diverge
  | n + 1, is, c =>
    match exec x is c with
    | .done y => y
    | .jump l c => run x n l.code c
    | .next _ => .stop .diverge

/-- The processor takes an interrupt of user code: it changes to the stack and the segments of the
kernel, and pushes the user's place and an error code if there is one. -/
def trap (s : Kernel) (reg : Registers) (code : Option ℤ) (x : Given) : Cpu :=
  let m : Machine Reg ℤ := { reg := reg, sp := kernelStackSize, word := s.stackWords x.below }
  let m := m.pushRegs trapOrder
  let m := match code with
    | none => m
    | some v => m.push v
  { m with
    reg := fun r => if r = .cs then kernelCs else if r = .ss then kernelDs else reg r
    kernel := s }

end Cpu

/-- What interrupts user code and has a handler that comes back. -/
inductive Cause where
  | systemCall
  | clock
  | keyboard
  | pageFault (code : ℤ)

namespace Cause

/-- The handler that the IDT gives it. -/
def handler : Cause → Handler
  | .systemCall => .systemCall
  | .clock => .clock
  | .keyboard => .keyboard
  | .pageFault _ => .pageFault

/-- The error code that the processor pushes. -/
def code : Cause → Option ℤ
  | .pageFault v => some v
  | _ => none

/-- An interrupt of user code in the kernel `s` with the registers `reg`. -/
def handle (c : Cause) (x : Given) (s : Kernel) (reg : Registers) : Resumption :=
  Cpu.run x 1 c.handler.code (Cpu.trap s reg c.code x)

/-- The system call that registers ask for. -/
def call (reg : Registers) (x : Given) : Action :=
  if reg .eax < minSyscall ∨ maxSyscall < reg .eax then .niSyscall
  else (sysCallTable.getD (reg .eax).toNat .sysNiSyscall).action (fun i => savedRegs reg (Fin.ofNat 16 i)) x

/-- The action of the kernel. -/
def action (reg : Registers) (x : Given) : Cause → Action
  | .systemCall => call reg x
  | .clock => .clock
  | .keyboard => .key x.scan x.beyond
  | .pageFault _ => .pageFault

/-- The last 16 words of the stack when `SAVE_ALL` is over; an error code moves the registers that
`SAVE_ALL` pushes by one. -/
def pushed (reg : Registers) : Cause → SavedRegs
  | .pageFault v => fun i =>
    if i.val < 10 then reg (Reg.layout.getD (i.val + 1) .gs)
    else if i.val = 10 then v else savedRegs reg i
  | _ => savedRegs reg

/-- The event of the kernel. -/
def event (c : Cause) (reg : Registers) (x : Given) : Event :=
  { regs := c.pushed reg, act := c.action reg x }

end Cause

end ZeOS
