import ZeOS.Library.IntrusiveList
import Mathlib.Data.UInt

/-!
# The kernel's data

The constants, data types and global variables of the kernel, from `include/sched.h`,
`include/filesystem.h`, `include/keyboard.h`, `include/mm.h`, `include/mm_address.h`,
`include/types.h` and `include/errno.h`.

C `int` is `Int`: signed overflow is undefined in C, so a run on which it happens has no
meaning to model, and on every other run the values are these.  `unsigned int` (the
semaphore counter) wraps explicitly.  A pointer to an element of a global array is the index
of the element; the null pointer is `none`.  Arrays that the code can index out of range are
total functions of the index, so that a read past the end finds whatever memory is there.

The `run_list` nodes of the tasks and the 28 list heads share one pool of links
(`Kernel.links`), as they share memory in the source.  What the processor and `SAVE_ALL`
push on entry to the kernel is the top of the task's own stack,
`stack[KERNEL_STACK_SIZE - 16 ..]`, kept in `Task.stack`.
-/

namespace ZeOS

open IntrusiveList

/-! ## Constants -/

abbrev nrTasks : ℕ := 10
abbrev semMaxValue : ℕ := 26
abbrev maxFds : ℕ := 10
abbrev kernelStackSize : ℕ := 1024

abbrev totalPages : ℕ := 1024
abbrev numPagKernel : ℕ := 256
abbrev numPagCode : ℕ := 8
abbrev numPagData : ℕ := 20
abbrev pageSize : ℕ := 4096
abbrev lUserStart : ℕ := 0x100000
abbrev pagLogInitCodeP0 : ℕ := 256
abbrev pagLogInitDataP0 : ℕ := 264

abbrev maxBlocks : ℕ := 80
abbrev blockSize : ℕ := 256
abbrev maxFiles : ℕ := 10
abbrev maxNameLength : ℕ := 10
abbrev maxOpenFiles : ℕ := 15

abbrev oRdonly : ℤ := 0x1
abbrev oWronly : ℤ := 0x2
abbrev oRdwr : ℤ := 0x3
abbrev oCreat : ℤ := 0x4
abbrev oExcl : ℤ := 0x8

abbrev circularSize : ℕ := 5

abbrev ePerm : ℤ := 1
abbrev eNoent : ℤ := 2
abbrev eSrch : ℤ := 3
abbrev eBadf : ℤ := 9
abbrev eAgain : ℤ := 11
abbrev eAcces : ℤ := 13
abbrev eFault : ℤ := 14
abbrev eBusy : ℤ := 16
abbrev eExist : ℤ := 17
abbrev eInval : ℤ := 22
abbrev eNfile : ℤ := 23
abbrev eMfile : ℤ := 24
abbrev eFbig : ℤ := 27
abbrev eNospc : ℤ := 28
abbrev eNametoolong : ℤ := 36
abbrev eNosys : ℤ := 38

abbrev Byte := UInt8
/-- An index of `task[]`. -/
abbrev Slot := Fin nrTasks
/-- An index of `sem[]`. -/
abbrev SemId := Fin semMaxValue
/-- An index of `dir[]` and of `ops[]`. -/
abbrev FileId := Fin maxFiles
/-- An index of `fdt[]`. -/
abbrev FdtId := Fin maxOpenFiles
/-- An index of a process's `file_descriptors[]`. -/
abbrev Fd := Fin maxFds

-- Literals such as `(0 : Slot)` and membership in a queue are decided with these instances.
instance : NeZero nrTasks := ⟨by decide⟩
instance : NeZero maxOpenFiles := ⟨by decide⟩
instance : LawfulBEq Slot := inferInstance

/-- A descriptor that the code has checked is an index of `file_descriptors[]`. -/
lemma toNat_lt_maxFds {fd : ℤ} (h : 0 ≤ fd ∧ fd < maxFds) : fd.toNat < maxFds := by omega

/-! ## Processes and queues -/

/-- The list nodes of the kernel: the `run_list` of each task and the heads of the
runqueue, the keyboard queue and the wait list of each semaphore. -/
inductive Node where
  | task (t : Slot)
  | runqueue
  | keyboardQueue
  | waitList (n : SemId)
  deriving DecidableEq

/-- The number of list nodes, which bounds every walk over a well-formed list. -/
abbrev numNodes : ℕ := nrTasks + 2 + semMaxValue

/-- `list_head_to_task_struct`, on the nodes that are embedded in a task. -/
def listHeadToTaskStruct : Node → Option Slot
  | .task t => some t
  | _ => none

/-- The saved registers `stack[KERNEL_STACK_SIZE - 16 .. KERNEL_STACK_SIZE - 1]`, from
`%ebx` up to the old `%ss`. -/
abbrev SavedRegs := Fin 16 → ℤ

/-- `stack[KERNEL_STACK_SIZE - 10]`, where `%eax` is saved. -/
abbrev eaxIndex : Fin 16 := 6

/-- `struct task_struct` with the saved registers of its stack; `run_list` is in
`Kernel.links`. -/
structure Task where
  pid : ℤ
  quantum : ℤ
  cpuTics : ℤ
  remaining : ℤ
  transitions : ℤ
  phPages : Fin numPagData → ℤ
  ownedSems : SemId → ℤ
  pendingChars : ℤ
  size : ℤ
  buffer : ℕ
  fileDescriptors : Fd → Option FdtId
  stack : SavedRegs

/-- `struct semaphore`, without its list head. -/
structure Semaphore where
  count : ℕ
  init : ℤ

/-! ## Memory -/

/-- An entry of the byte map of physical pages. -/
inductive FrameMark where
  | free
  | used
  deriving DecidableEq

/-- The fields of a page table entry that the kernel sets. -/
structure PageTableEntry where
  present : Bool
  rw : Bool
  user : Bool
  pbaseAddr : ℕ
  deriving DecidableEq

/-- `mm.c`: the byte map of frames and the page table, with the contents of the frames. -/
structure Memory where
  physMem : ℕ → FrameMark
  pagusrTable : ℕ → PageTableEntry
  /-- The bytes of a frame, by frame number and offset. -/
  frame : ℕ → ℕ → Byte

/-! ## Files -/

/-- What `sys_read_dev` can point to. -/
inductive ReadDev where
  | null
  | sysReadKeyboard
  | sysReadFile
  deriving DecidableEq

/-- What `sys_write_dev` can point to. -/
inductive WriteDev where
  | null
  | sysWriteConsole
  | sysWriteFile
  deriving DecidableEq

/-- What `sys_release_dev` can point to. -/
inductive ReleaseDev where
  | null
  | sysReleaseFile
  deriving DecidableEq

/-- `struct file_operations`.  `sys_open_dev` and `sys_close_dev` are left out: the source
has no routine of either kind and stores only `NULL` in them. -/
structure FileOperations where
  sysReadDev : ReadDev
  sysWriteDev : WriteDev
  sysReleaseDev : ReleaseDev
  deriving DecidableEq

/-- `struct file`; its `operations` pointer always names the entry of `ops[]` with the same
index. -/
structure File where
  name : Fin maxNameLength → Byte
  accessModeAllow : ℤ
  firstBlock : ℤ
  nBlocks : ℤ
  size : ℤ
  nRefs : ℤ

/-- `struct virtual`, an entry of the file descriptor table. -/
structure Virtual where
  accessMode : ℤ
  refs : ℤ
  offset : ℤ
  logicDev : Option FileId

/-- `filesystem.h`: the FAT, the RAM disk as one array of bytes, the directory with its
operations, and the file descriptor table. -/
structure FileSystem where
  fat : ℤ → ℤ
  ffb : ℤ
  disk : ℤ → Byte
  dir : FileId → File
  ops : FileId → FileOperations
  fdt : FdtId → Virtual

/-! ## Keyboard and screen -/

/-- `keyboard.h`: the circular buffer. -/
structure Keyboard where
  circular : ℤ → Byte
  circChars : ℤ
  p : ℤ
  start : ℤ

/-- `io.c`: the cursor and the words of video memory, by their address. -/
structure Screen where
  x : ℕ
  y : ℕ
  video : ℕ → ℕ

/-! ## The kernel -/

/-- All global state.  `cur` is the task whose kernel stack the processor is on, which is
what `current()` computes from `%esp`. -/
structure Kernel where
  task : Slot → Task
  links : Links Node
  sem : SemId → Semaphore
  cur : Slot
  pid : ℤ
  left4current : ℤ
  itIsInt : ℤ
  tics : ℤ
  kbd : Keyboard
  mm : Memory
  fs : FileSystem
  screen : Screen

namespace Kernel

/-- Change one task. -/
def updTask (s : Kernel) (t : Slot) (f : Task → Task) : Kernel :=
  { s with task := Function.update s.task t (f (s.task t)) }

/-- The running task. -/
abbrev current (s : Kernel) : Task := s.task s.cur

/-- The processes linked into the list of a head, in order. -/
def queue (s : Kernel) (h : Node) : List Slot :=
  (s.links.members h numNodes).filterMap listHeadToTaskStruct

/-- The processes on the runqueue. -/
abbrev runqueue (s : Kernel) : List Slot := s.queue .runqueue

/-- The processes blocked on the keyboard. -/
abbrev keyboardQueue (s : Kernel) : List Slot := s.queue .keyboardQueue

/-- The processes blocked on a semaphore. -/
abbrev waitList (s : Kernel) (n : SemId) : List Slot := s.queue (.waitList n)

/-- A slot holds a process. -/
abbrev Live (s : Kernel) (t : Slot) : Prop := 0 ≤ (s.task t).pid

lemma updTask_task (s : Kernel) (t : Slot) (f : Task → Task) (u : Slot) :
    (s.updTask t f).task u = if u = t then f (s.task t) else s.task u := by
  simp only [updTask, Function.update_apply]

@[simp] lemma updTask_task_self (s : Kernel) (t : Slot) (f : Task → Task) :
    (s.updTask t f).task t = f (s.task t) := by
  rw [updTask_task, if_pos rfl]

lemma updTask_task_ne (s : Kernel) {t u : Slot} (f : Task → Task) (h : u ≠ t) :
    (s.updTask t f).task u = s.task u := by
  rw [updTask_task, if_neg h]

@[simp] lemma updTask_links (s : Kernel) (t : Slot) (f : Task → Task) :
    (s.updTask t f).links = s.links := rfl

@[simp] lemma updTask_sem (s : Kernel) (t : Slot) (f : Task → Task) :
    (s.updTask t f).sem = s.sem := rfl

@[simp] lemma updTask_cur (s : Kernel) (t : Slot) (f : Task → Task) :
    (s.updTask t f).cur = s.cur := rfl

@[simp] lemma updTask_pid (s : Kernel) (t : Slot) (f : Task → Task) :
    (s.updTask t f).pid = s.pid := rfl

@[simp] lemma updTask_kbd (s : Kernel) (t : Slot) (f : Task → Task) :
    (s.updTask t f).kbd = s.kbd := rfl

@[simp] lemma updTask_mm (s : Kernel) (t : Slot) (f : Task → Task) :
    (s.updTask t f).mm = s.mm := rfl

@[simp] lemma updTask_fs (s : Kernel) (t : Slot) (f : Task → Task) :
    (s.updTask t f).fs = s.fs := rfl

@[simp] lemma updTask_left4current (s : Kernel) (t : Slot) (f : Task → Task) :
    (s.updTask t f).left4current = s.left4current := rfl

end Kernel

/-! ## Results of kernel code -/

/-- Why a run of the kernel ends. -/
inductive Stop where
  /-- The kernel loops forever with interrupts off. -/
  | hang
  /-- A list node that is in no task was taken for a task. -/
  | notATask
  /-- A loop over linked data does not end. -/
  | diverge
  /-- `copy_from_circ_buffer` writes past its local array. -/
  | overrun
  /-- A store falls outside the disk array. -/
  | offDisk
  /-- An error code is dereferenced as a `struct file` pointer. -/
  | errorPointer
  /-- A null `logic_dev` is dereferenced. -/
  | nullPointer
  /-- `sys_fork` uses an element of `frames[]` that it never set. -/
  | uninitialised
  deriving DecidableEq

/-- How a piece of kernel code over a state `σ` ends: it returns a value, it leaves the
processor to another process, it raises a page fault while in the kernel, or the run ends
there. -/
inductive Outcome (σ α : Type) where
  | ret (a : α) (s : σ)
  | switched (s : σ)
  | fault (s : σ)
  | stop (r : Stop)

namespace Outcome

variable {σ τ α : Type}

/-- Carry the state of an outcome into a larger one. -/
def lift (f : σ → τ) : Outcome σ α → Outcome τ α
  | .ret a s => .ret a (f s)
  | .switched s => .switched (f s)
  | .fault s => .fault (f s)
  | .stop r => .stop r

end Outcome

end ZeOS
