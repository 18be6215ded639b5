import Mathlib.Data.BitVec
import Mathlib.Data.Fin.VecNotation

/-!
# The system call monitor (`kernel-module/syscalls_mon.c`)

A Linux module that puts five wrappers into `sys_call_table`.  A wrapper counts the call, lets the
original system call run, and counts its outcome.  The counters of a process lie behind its
`thread_info`, in memory that nobody clears when the process is created: `reset_stats` does so, and
writes the pid of the process beside them.

The counters are machine integers: `int` is 32 bits and `unsigned long long` is 64 bits.
-/

namespace SyscallsMon

/-! ## Records -/

/-- `N_CALLS`. -/
abbrev nCalls : ℕ := 5

/-- An index of the tables of the module. -/
abbrev CallId := Fin nCalls

/-- `OPEN`. -/
def callOpen : CallId := 0

/-- `CLOSE`. -/
def callClose : CallId := 1

/-- `MYWRITE`. -/
def callMyWrite : CallId := 2

/-- `CLONE`. -/
def callClone : CallId := 3

/-- `LSEEK`. -/
def callLseek : CallId := 4

/-- `struct t_info`. -/
structure TInfo where
  nCalls : BitVec 32
  nCallsOk : BitVec 32
  nCallsErr : BitVec 32
  total : BitVec 64
deriving DecidableEq

/-- A `struct t_info` with every field 0. -/
def noCalls : TInfo where
  nCalls := 0
  nCallsOk := 0
  nCallsErr := 0
  total := 0

/-- `struct my_thread`, after its `thread_info`.  The last element of `stats` is for all the calls
together. -/
structure MyThread where
  stats : Fin (nCalls + 1) → TInfo
  pid : ℤ

/-- `reset_stats`, on the record. -/
def MyThread.reset (pid : ℤ) : MyThread where
  stats := fun _ => noCalls
  pid := pid

/-- What a wrapper adds to a `struct t_info`: before the call, and after it with a result that is
not negative or is, and the cycles between. -/
inductive Update where
  | call
  | ret (ok : Bool) (cycles : BitVec 64)

/-- The triple update of the wrappers, on one of the three. -/
def TInfo.update (t : TInfo) : Update → TInfo
  | .call => { t with nCalls := t.nCalls + 1 }
  | .ret true cycles => { t with nCallsOk := t.nCallsOk + 1, total := t.total + cycles }
  | .ret false cycles => { t with nCallsErr := t.nCallsErr + 1, total := t.total + cycles }

/-- The update of the element of a call and of the one for all the calls. -/
def MyThread.update (t : MyThread) (k : CallId) (u : Update) : MyThread :=
  let stats := Function.update t.stats k.castSucc ((t.stats k.castSucc).update u)
  { t with stats := Function.update stats (Fin.last nCalls) ((stats (Fin.last nCalls)).update u) }

/-! ## Wrappers and tables -/

/-- A wrapper.  The five of the source differ in the index that they use, and in the arguments
that they hand on to the original call. -/
structure Wrapper where
  index : CallId
deriving DecidableEq

/-- `sys_open_local`. -/
def sysOpenLocal : Wrapper := ⟨callOpen⟩

/-- `sys_close_local`. -/
def sysCloseLocal : Wrapper := ⟨callClose⟩

/-- `sys_write_local`. -/
def sysWriteLocal : Wrapper := ⟨callMyWrite⟩

/-- `sys_clone_local`. -/
def sysCloneLocal : Wrapper := ⟨callClone⟩

/-- `sys_lseek_local`. -/
def sysLseekLocal : Wrapper := ⟨callLseek⟩

/-- What an entry of a table of system calls points to: the kernel's own code, or a wrapper. -/
inductive Entry where
  | kernel (addr : ℕ)
  | wrapper (w : Wrapper)
deriving DecidableEq

/-- The `__NR_` numbers of the five system calls. -/
structure SyscallNumbers where
  nrOpen : ℕ
  nrClose : ℕ
  nrWrite : ℕ
  nrClone : ℕ
  nrLseek : ℕ
  distinct : [nrOpen, nrClose, nrWrite, nrClone, nrLseek].Nodup

/-- `local_to_sys_index`. -/
def SyscallNumbers.localToSysIndex (N : SyscallNumbers) : CallId → ℕ :=
  ![N.nrOpen, N.nrClose, N.nrWrite, N.nrClone, N.nrLseek]

/-! ## Processes -/

/-- The call of the five that a process is in: the original one, entered from the table, or a
wrapper, with the cycle counter as it was before the original call. -/
inductive InCall where
  | original (k : CallId)
  | wrapper (w : Wrapper) (start : BitVec 64)

/-- A process, by what the monitor sees of it.  `since` is a history variable: the updates that
its own wrappers have made to its record since the last `reset_stats` for it, and `none` while
there was no such call since it was created. -/
structure Proc where
  record : MyThread
  inCall : Option InCall
  since : Option (List (CallId × Update))

namespace Proc

/-- `reset_stats` for a process. -/
def resetStats (pid : ℤ) (p : Proc) : Proc :=
  { p with record := .reset pid, since := some [] }

/-- A wrapper of the process updates its record. -/
def update (p : Proc) (k : CallId) (u : Update) : Proc :=
  { p with record := p.record.update k u, since := p.since.map (· ++ [(k, u)]) }

/-- The check of the record that the wrappers and `CHANGE_PROCESS` make. -/
def checkStats (pid : ℤ) (p : Proc) : Proc :=
  if pid ≠ p.record.pid then p.resetStats pid else p

/-- The process is inside the wrapper of a call. -/
def Inside (p : Proc) (k : CallId) : Prop := ∃ start, p.inCall = some (.wrapper ⟨k⟩ start)

end Proc

/-! ## The state -/

/-- The variables of the reader module (`syscalls_mon_reader.h`). -/
structure Reader where
  lock : ℤ
  openPid : ℤ
  procMonitored : ℤ
  syscMonitored : ℤ

/-- The tables and counters of the monitor, the processes by their pid, and the reader module
while it is loaded. -/
structure Monitor where
  sysCallTable : ℕ → Entry
  sysCallTableOriginal : CallId → Entry
  sysCallTableLocal : CallId → Entry
  syscallInfoTable : CallId → TInfo
  pidInit : ℤ
  proc : ℤ → Option Proc
  reader : Option Reader

/-- Why a run ends. -/
inductive Stop where
  /-- The event cannot take place in this state. -/
  | impossible
  /-- A null pointer is dereferenced. -/
  | oops
deriving DecidableEq

namespace Monitor

/-- Change one process. -/
def setProc (m : Monitor) (pid : ℤ) (p : Proc) : Monitor :=
  { m with proc := Function.update m.proc pid (some p) }

/-- `find_task_by_pid`. -/
def findTaskByPid (m : Monitor) (pid : ℤ) : Option Proc := m.proc pid

/-- The update of `syscall_info_table`. -/
def updInfo (m : Monitor) (k : CallId) (u : Update) : Monitor :=
  { m with syscallInfoTable :=
      Function.update m.syscallInfoTable k ((m.syscallInfoTable k).update u) }

/-- A wrapper up to the original call. -/
def beforeCall (m : Monitor) (pid : ℤ) (p : Proc) (w : Wrapper) (start : BitVec 64) : Monitor :=
  let p := (p.checkStats pid).update w.index .call
  (m.updInfo w.index .call).setProc pid { p with inCall := some (.wrapper w start) }

/-- A wrapper from the return of the original call. -/
def afterCall (m : Monitor) (pid : ℤ) (p : Proc) (w : Wrapper) (start : BitVec 64) (result : ℤ)
    («end» : BitVec 64) : Monitor :=
  let u := Update.ret (decide (result ≥ 0)) («end» - start)
  (m.updInfo w.index u).setProc pid { p.update w.index u with inCall := none }

/-- `set_mon_on_syscall`. -/
def setMonOnSyscall (m : Monitor) (N : SyscallNumbers) (k : CallId) : Monitor :=
  { m with sysCallTable :=
      Function.update m.sysCallTable (N.localToSysIndex k) (m.sysCallTableLocal k) }

/-- `unset_mon_on_syscall`. -/
def unsetMonOnSyscall (m : Monitor) (N : SyscallNumbers) (k : CallId) : Monitor :=
  { m with sysCallTable :=
      Function.update m.sysCallTable (N.localToSysIndex k) (m.sysCallTableOriginal k) }

/-- The part of `syscalls_mon_init` on the tables. -/
def initTables (m : Monitor) (N : SyscallNumbers) : Monitor :=
  let original : CallId → Entry :=
    ![m.sysCallTable N.nrOpen, m.sysCallTable N.nrClose, m.sysCallTable N.nrWrite,
      m.sysCallTable N.nrClone, m.sysCallTable N.nrLseek]
  let «local» : CallId → Entry :=
    ![.wrapper sysOpenLocal, .wrapper sysCloseLocal, .wrapper sysWriteLocal,
      .wrapper sysCloneLocal, .wrapper sysLseekLocal]
  let table := Function.update m.sysCallTable N.nrOpen («local» callOpen)
  let table := Function.update table N.nrClose («local» callClose)
  let table := Function.update table N.nrWrite («local» callMyWrite)
  let table := Function.update table N.nrClone («local» callClone)
  let table := Function.update table N.nrLseek («local» callLseek)
  { m with
    sysCallTable := table
    sysCallTableOriginal := original
    sysCallTableLocal := «local» }

/-- `syscalls_mon_init`.  Without a process of the default pid it dereferences a null pointer. -/
def syscallsMonInit (m : Monitor) (N : SyscallNumbers) : Except Stop Monitor :=
  let m := m.initTables N
  match m.findTaskByPid m.pidInit with
  | some p => .ok (m.setProc m.pidInit (p.resetStats m.pidInit))
  | none =>
    let m := { m with pidInit := 1 }
    match m.findTaskByPid m.pidInit with
    | some p => .ok (m.setProc m.pidInit (p.resetStats m.pidInit))
    | none => .error .oops

/-- `syscalls_mon_exit`, on the tables. -/
def syscallsMonExit (m : Monitor) (N : SyscallNumbers) : Monitor :=
  let table := Function.update m.sysCallTable N.nrOpen (m.sysCallTableOriginal callOpen)
  let table := Function.update table N.nrClose (m.sysCallTableOriginal callClose)
  let table := Function.update table N.nrWrite (m.sysCallTableOriginal callMyWrite)
  let table := Function.update table N.nrClone (m.sysCallTableOriginal callClone)
  let table := Function.update table N.nrLseek (m.sysCallTableOriginal callLseek)
  { m with sysCallTable := table }

end Monitor

end SyscallsMon
