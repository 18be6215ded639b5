import ZeOS.Kernel.Interrupt
import ZeOS.Library.Run

/-!
# The kernel as a system (`system.c`, `entry.S`)

`boot` is the state in which `main` enters user mode, and `step` is one entry to the kernel
or one store of user code.  User code is arbitrary: any event may come next, with any
registers.

A step may end in `sys_exit`: by the system call, by a page fault of user code, or by a page
fault that the kernel itself raises on a user address.  `dispatch` runs the entry up to that
point, so that the state in which `sys_exit` is called can be spoken of.
-/

namespace ZeOS

open GuardedRun

/-! ## Events -/

/-- What enters the kernel, and the stores of user code.  `beyond` and the result of `exit`
are values that the source leaves unspecified. -/
inductive Action where
  | write (fd : ℤ) (buffer : ℕ) (size : ℤ)
  | read (fd : ℤ) (buffer : ℕ) (size : ℤ)
  | open (addr : ℕ) (path : List Byte) (flags : ℤ)
  | close (fd : ℤ)
  | dup (fd : ℤ)
  | unlink (addr : ℕ) (path : List Byte)
  | getpid
  | fork
  | exit (eax : ℤ)
  | semInit (nSem : ℤ) (value : ℕ)
  | semWait (nSem : ℤ)
  | semSignal (nSem : ℤ)
  | semDestroy (nSem : ℤ)
  | nice (quantum : ℤ)
  | getStats (spid : ℤ) (st : ℕ) (beyond : Task)
  /-- A system call number with no routine. -/
  | niSyscall
  | clock
  | key (scan beyond : Byte)
  /-- User code stores a byte. -/
  | store (addr : ℕ) (b : Byte)
  /-- User code raises a page fault by another access. -/
  | pageFault

/-- An event, with the registers that the entry code saves. -/
structure Event where
  regs : SavedRegs
  act : Action

/-- How a step came to call `sys_exit`. -/
inductive ExitCause where
  | syscall (eax : ℤ)
  | userFault
  | kernelFault

/-- A step up to a call of `sys_exit`, if it makes one. -/
inductive Phase where
  | done (s : Kernel)
  | exits (cause : ExitCause) (s : Kernel)
  | stop (r : Stop)

namespace Kernel

/-- `SAVE_ALL`, after the processor's own part of the frame. -/
def enter (s : Kernel) (regs : SavedRegs) : Kernel := s.updTask s.cur fun k => { k with stack := regs }

/-- `movl %eax, 24(%esp)`: the result of a system call. -/
def setEax (s : Kernel) (r : ℤ) : Kernel :=
  s.updTask s.cur fun k => { k with stack := Function.update k.stack eaxIndex r }

/-- `page_fault_routine` up to `sys_exit`; in task 0 it loops forever. -/
def pageFaultRoutine (s : Kernel) (cause : ExitCause) : Phase :=
  if s.current.pid ≠ 0 then .exits cause s.printFault else .stop .hang

/-- The end of a system call that computes a result. -/
def finish : Outcome Kernel ℤ → Phase
  | .ret r s => .done (s.setEax r)
  | .switched s => .done s
  | .fault s => s.pageFaultRoutine .kernelFault
  | .stop r => .stop r

/-- The end of a system call that neither switches nor faults. -/
def finishExcept : Except Stop (ℤ × Kernel) → Phase
  | .ok (r, s) => .done (s.setEax r)
  | .error r => .stop r

/-- The end of an interrupt routine. -/
def finishInt : Outcome Kernel Unit → Phase
  | .ret _ s => .done s
  | .switched s => .done s
  | .fault s => s.pageFaultRoutine .kernelFault
  | .stop r => .stop r

/-- `system_call_handler` and the interrupt handlers, up to a call of `sys_exit`. -/
def dispatch (s : Kernel) (e : Event) : Phase :=
  match e.act with
  | .write fd buffer size => finish ((s.enter e.regs).sysWrite fd buffer size)
  | .read fd buffer size => finish ((s.enter e.regs).sysRead fd buffer size)
  | .open addr path flags => finish ((s.enter e.regs).sysOpen addr path flags)
  | .close fd => finishExcept ((s.enter e.regs).sysClose fd)
  | .dup fd => finishExcept (.ok ((s.enter e.regs).sysDup fd))
  | .unlink addr path => finish ((s.enter e.regs).sysUnlink addr path)
  | .getpid => finishExcept (.ok (s.current.pid, s.enter e.regs))
  | .fork => finishExcept (s.enter e.regs).sysFork
  | .exit eax => .exits (.syscall eax) (s.enter e.regs)
  | .semInit nSem value => finishExcept (.ok ((s.enter e.regs).sysSemInit nSem value))
  | .semWait nSem => finish ((s.enter e.regs).sysSemWait nSem)
  | .semSignal nSem => finishExcept ((s.enter e.regs).sysSemSignal nSem)
  | .semDestroy nSem => finishExcept ((s.enter e.regs).sysSemDestroy nSem)
  | .nice quantum => finishExcept (.ok ((s.enter e.regs).sysNice quantum))
  | .getStats spid st beyond => finish ((s.enter e.regs).sysGetStats spid st beyond)
  | .niSyscall => finishExcept (.ok (-eNosys, s.enter e.regs))
  | .clock => finishInt (s.enter e.regs).clockRoutine
  | .key scan beyond => finishInt ((s.enter e.regs).keyboardRoutine scan beyond)
  | .store addr b =>
    if s.mm.userWritable addr then .done { s with mm := s.mm.store addr b }
    else s.pageFaultRoutine .userFault
  | .pageFault => s.pageFaultRoutine .userFault

/-- What follows `sys_exit`.  When it returns, a system call and a fault of user code go back
to user code; a fault of the kernel goes back to the instruction that faults again. -/
def afterExit (cause : ExitCause) : Outcome Kernel Unit → Except Stop Kernel
  | .switched s => .ok s
  | .ret _ s =>
    match cause with
    | .syscall eax => .ok (s.setEax eax)
    | .userFault => .ok s
    | .kernelFault => .error .hang
  | .fault _ => .error .hang
  | .stop r => .error r

/-- One step of the system. -/
def step (s : Kernel) (e : Event) : Except Stop Kernel :=
  match s.dispatch e with
  | .done s => .ok s
  | .exits cause s => afterExit cause s.sysExit
  | .stop r => .error r

/-- Every `sys_exit` of a process other than task 0 finds at least two processes on the
runqueue when it calls `schedule`. -/
def ExitsFindTwo (s : Kernel) (e : Event) : Prop :=
  ∀ cause s₁ s₂, s.dispatch e = .exits cause s₁ → s₁.current.pid ≠ 0 →
    destroyOwned (List.finRange semMaxValue) s₁ = .ok s₂ → 2 ≤ s₂.leave.runqueue.length

end Kernel

/-! ## Boot -/

/-- What the source does not determine: where the linker puts `task[]` (its first page), the
contents of user memory and of the memory around the file system arrays, and the screen. -/
structure Env where
  taskPage : ℕ
  frame : ℕ → ℕ → Byte
  fat : ℤ → ℤ
  disk : ℤ → Byte
  video : ℕ → ℕ

namespace Memory

/-- `init_table_pages`: the kernel pages, with the pages that protect the task structures
taken out. -/
def initTablePages (taskPage : ℕ) : ℕ → PageTableEntry := fun page =>
  if ∃ i : Slot, page = taskPage + 2 * i.val then
    { present := false, rw := false, user := false, pbaseAddr := page }
  else if page < numPagKernel then
    { present := true, rw := true, user := false, pbaseAddr := page }
  else noEntry

/-- `init_frames`. -/
def initFrames : ℕ → FrameMark := fun i => if i < numPagKernel then .used else .free

/-- `initialize_P0_frames`. -/
def initializeP0Frames (m : Memory) : Memory :=
  { m with physMem := fun i =>
      if numPagKernel ≤ i ∧ i < numPagKernel + numPagCode then .used else m.physMem i }

/-- The code pages of `set_user_pages`. -/
def setCodePages (m : Memory) : Memory :=
  { m with pagusrTable := fun page =>
      if pagLogInitCodeP0 ≤ page ∧ page < pagLogInitDataP0 then
        { present := true, rw := false, user := true,
          pbaseAddr := numPagKernel + (page - pagLogInitCodeP0) }
      else m.pagusrTable page }

/-- `set_user_pages`: the code pages, then a new frame for each data page. -/
def setUserPages (m : Memory) : Memory :=
  (List.finRange numPagData).foldl
    (fun m (i : Fin numPagData) => m.allocFrame.2.setSsPag (pagLogInitDataP0 + i.val) m.allocFrame.1)
    m.setCodePages

/-- The loop of `init_task0` that gives task 0 its frames. -/
def allocPages : List (Fin numPagData) → (Fin numPagData → ℤ) → Memory →
    (Fin numPagData → ℤ) × Memory
  | [], ph, m => (ph, m)
  | i :: is, ph, m => allocPages is (Function.update ph i m.allocFrame.1) m.allocFrame.2

end Memory

/-- A task structure as the zeroed memory and `init_sched` leave it. -/
def emptyTask : Task where
  pid := -1
  quantum := 0
  cpuTics := 0
  remaining := 0
  transitions := 0
  phPages := fun _ => 0
  ownedSems := fun _ => 0
  pendingChars := 0
  size := 0
  buffer := 0
  fileDescriptors := fun _ => none
  stack := fun _ => 0

/-- The standard descriptors of `init_task0`: the keyboard, and the display twice. -/
def stdDescriptors : FileSystem.Descriptors := fun fd =>
  if fd.val = 0 then some 0 else if fd.val = 1 ∨ fd.val = 2 then some 1 else none

/-- The file part of `init_task0`: one entry each for the keyboard and the display. -/
def FileSystem.initStdFiles (fs : FileSystem) : FileSystem :=
  let fs := fs.updFdt 0 fun _ =>
    { accessMode := oRdonly, refs := 1, offset := 0, logicDev := some 0 }
  let fs := fs.updDir 0 fun d => { d with nRefs := 1 }
  let fs := fs.updFdt 1 fun _ =>
    { accessMode := oWronly, refs := 1, offset := 0, logicDev := some 1 }
  fs.updDir 1 fun d => { d with nRefs := 1 }

namespace Env

variable (E : Env)

/-- Memory after `init_mm` and the frames of `initialize_P0_frames` and `set_user_pages`. -/
def userMemory : Memory :=
  Memory.setUserPages (Memory.initializeP0Frames
    { physMem := Memory.initFrames
      pagusrTable := Memory.initTablePages E.taskPage
      frame := E.frame })

/-- The frames of task 0, with the memory they are taken from. -/
def task0Pages : (Fin numPagData → ℤ) × Memory :=
  Memory.allocPages (List.finRange numPagData) (fun _ => 0) E.userMemory

/-- `init_filesystem`, over memory that is zero in the tables. -/
def filesystem : FileSystem :=
  FileSystem.initFilesystem
    { fat := E.fat
      ffb := 0
      disk := E.disk
      dir := fun _ => { name := fun _ => 0, accessModeAllow := 0, firstBlock := 0, nBlocks := 0,
                        size := 0, nRefs := 0 }
      ops := fun _ => FileSystem.noOps
      fdt := fun _ => { accessMode := 0, refs := 0, offset := 0, logicDev := none } }

/-- Task 0 as `init_task0` leaves it. -/
def task0 : Task :=
  { emptyTask with
    pid := 0
    quantum := 60
    cpuTics := 0
    remaining := 60
    transitions := 1
    phPages := E.task0Pages.1
    ownedSems := fun _ => -1
    fileDescriptors := stdDescriptors }

/-- The empty runqueue and keyboard queue of `init_sched`, and task 0 on the runqueue. -/
def links : IntrusiveList.Links Node :=
  let null : IntrusiveList.Links Node := { next := fun _ => none, prev := fun _ => none }
  ((null.initListHead .runqueue).initListHead .keyboardQueue).listAdd (.task 0) .runqueue

/-- The screen after the two lines of `main`. -/
def screen : Screen :=
  let sc : Screen := { x := 0, y := 15, video := E.video }
  (sc.printk (FileSystem.asciiBytes "Kernel Loaded!\n")).printk
    (FileSystem.asciiBytes "Entering user mode...\n")

/-- The state in which `main` enters user mode. -/
def boot : Kernel where
  task := Function.update (fun _ => emptyTask) 0 E.task0
  links := links
  sem := fun _ => { count := 0, init := 0 }
  cur := 0
  pid := 1
  left4current := 60
  itIsInt := 0
  tics := -1
  kbd := { circular := fun _ => 0, circChars := 0, p := 0, start := 0 }
  mm := E.task0Pages.2
  fs := E.filesystem.initStdFiles
  screen := E.screen

end Env

/-- A run of the kernel with no restriction on its steps. -/
abbrev AnyRun (s : Kernel) (es : List Event) (t : Kernel) : Prop :=
  Run Kernel.step (fun _ _ => True) s es t

/-- A run in which every `sys_exit` finds at least two processes to run. -/
abbrev ExitRun (s : Kernel) (es : List Event) (t : Kernel) : Prop :=
  Run Kernel.step Kernel.ExitsFindTwo s es t

end ZeOS
