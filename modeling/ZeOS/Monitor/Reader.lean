import ZeOS.Monitor.SyscallsMon
import ZeOS.Library.Run
import Mathlib.Data.Nat.Notation

/-!
# The reader device and the monitored machine (`kernel-module/syscalls_mon_reader.c`)

A device that gives the counters of one call of one process, and takes commands by `ioctl`.  It can
be open once at a time.

`step` is one event of the machine on which both modules run.  Processes come and go, and a new
one has a record with any contents; the pid of a process that is gone may come back.  A call of one
of the five system calls goes through `sys_call_table`, and its two halves are two events.  The
device is opened inside an `open`, and read, commanded and released only while it is open.
-/

namespace SyscallsMon

open GuardedRun

/-- `EPERM`. -/
abbrev ePerm : ℤ := 1

/-- `ESRCH`. -/
abbrev eSrch : ℤ := 3

/-- `EACCES`. -/
abbrev eAcces : ℤ := 13

/-- `EINVAL`. -/
abbrev eInval : ℤ := 22

/-- The bytes of a machine word, lowest first. -/
def wordBytes {w : ℕ} (n : ℕ) (x : BitVec w) : List (BitVec 8) :=
  (List.range n).map fun i => (x >>> (8 * i)).setWidth 8

/-- A `struct t_info` in memory; its size is 20. -/
def TInfo.bytes (t : TInfo) : List (BitVec 8) :=
  wordBytes 4 t.nCalls ++ wordBytes 4 t.nCallsOk ++ wordBytes 4 t.nCallsErr ++ wordBytes 8 t.total

namespace Monitor

/-! ## Reading -/

/-- `get_stats`: an error, or the counters. -/
def getStats (m : Monitor) (pid call : ℤ) : Except ℤ TInfo :=
  if h : call < 0 ∨ call > nCalls then .error (-eInval)
  else if pid < 0 then .error (-eInval)
  else
    match m.findTaskByPid pid with
    | none => .error (-eSrch)
    | some p => .ok (p.record.stats ⟨call.toNat, by omega⟩)

/-- `readstats_read_dev`: its result, and the bytes that reach the user.  `copy_to_user` leaves the
last `uncopied` of the bytes out and returns how many these are. -/
def readstatsReadDev (m : Monitor) (r : Reader) (s uncopied : ℕ) : ℤ × List (BitVec 8) :=
  match m.getStats r.procMonitored r.syscMonitored with
  | .error e => (e, [])
  | .ok info =>
    let sz := if s < info.bytes.length then s else info.bytes.length
    (uncopied, info.bytes.take (sz - uncopied))

/-! ## Commands -/

/-- `reset_values`.  The test `t < 0` is never true of a pointer, so that a process that does not
exist is a null pointer. -/
def resetValues (m : Monitor) (pid : ℤ) : Except Stop (ℤ × Monitor) :=
  if pid < 0 then .ok (-eInval, m)
  else
    match m.findTaskByPid pid with
    | none => .error .oops
    | some p => .ok (0, m.setProc pid (p.resetStats pid))

/-- `complete_reset`. -/
def completeReset (m : Monitor) : Monitor :=
  { m with proc := fun pid => (m.proc pid).map (Proc.resetStats pid) }

/-- The loop over the calls of `activate_syscall_mon` and `deactivate_syscall_mon`, or the one
call. -/
def forCalls (f : Monitor → CallId → Monitor) (m : Monitor) (callIndex : ℤ) : ℤ × Monitor :=
  if h : callIndex ≥ nCalls then (-eInval, m)
  else if h0 : callIndex > -1 then
    (0, f m ⟨callIndex.toNat, (Int.toNat_lt (by omega)).mpr (not_le.mp h)⟩)
  else (0, (List.finRange nCalls).foldl f m)

/-- `activate_syscall_mon`. -/
def activateSyscallMon (N : SyscallNumbers) : Monitor → ℤ → ℤ × Monitor :=
  forCalls fun m k => m.setMonOnSyscall N k

/-- `deactivate_syscall_mon`. -/
def deactivateSyscallMon (N : SyscallNumbers) : Monitor → ℤ → ℤ × Monitor :=
  forCalls fun m k => m.unsetMonOnSyscall N k

/-- The cast of the second argument of `ioctl` to `signed int`: its value modulo 2^32 that is at
least -2^31 and less than 2^31. -/
def signedInt (arg : ℕ) : ℤ := Int.bmod arg 4294967296

/-- `CHANGE_PROCESS`.  Without such a process, the one that opened the device is monitored again. -/
def changeProcess (m : Monitor) (r : Reader) (pid : ℤ) : ℤ × Monitor :=
  if pid < 0 then (-eInval, m)
  else
    match m.findTaskByPid pid with
    | none => (-eSrch, { m with reader := some { r with procMonitored := r.openPid } })
    | some p =>
      (0, { m.setProc pid (p.checkStats pid) with reader := some { r with procMonitored := pid } })

/-- `CHANGE_SYSCALL`. -/
def changeSyscall (m : Monitor) (r : Reader) (call : ℤ) : ℤ × Monitor :=
  if call < 0 ∨ call ≥ nCalls then (-eInval, m)
  else (0, { m with reader := some { r with syscMonitored := call } })

/-- The commands of `readstats_ioctl_dev`.  The result of `reset_values` is not looked at, and those
of `activate_syscall_mon` and `deactivate_syscall_mon` are not either. -/
def command (m : Monitor) (N : SyscallNumbers) (r : Reader) (arg1 : ℕ) (argument2 : ℤ) :
    Except Stop (ℤ × Monitor) :=
  match arg1 with
  | 0 => .ok (m.changeProcess r argument2)
  | 1 => .ok (m.changeSyscall r argument2)
  | 2 => (m.resetValues r.procMonitored).map fun x => (0, x.2)
  | 3 => .ok (0, m.completeReset)
  | 4 =>
    if argument2 ≥ nCalls then .ok (-eInval, m)
    else .ok (0, (activateSyscallMon N m argument2).2)
  | 5 =>
    if argument2 ≥ nCalls then .ok (-eInval, m)
    else .ok (0, (deactivateSyscallMon N m argument2).2)
  | _ => .ok (-eInval, m)

/-- `readstats_ioctl_dev`. -/
def readstatsIoctlDev (m : Monitor) (N : SyscallNumbers) (r : Reader) (arg1 arg2 : ℕ) :
    Except Stop (ℤ × Monitor) :=
  m.command N r arg1 (signedInt arg2)

/-! ## Opening and releasing -/

/-- `readstats_open_dev`, called by a process. -/
def readstatsOpenDev (m : Monitor) (r : Reader) (pid : ℤ) (uid : ℕ) : ℤ × Monitor :=
  if r.lock ≠ 0 then (-ePerm, m)
  else if uid ≠ 0 then (-eAcces, m)
  else
    (0, { m with reader := some { r with
            lock := r.lock + 1
            openPid := pid
            procMonitored := pid } })

/-- `readstats_release_dev`. -/
def readstatsReleaseDev (m : Monitor) (r : Reader) : ℤ × Monitor :=
  if r.lock = 0 then (-ePerm, m)
  else (0, { m with reader := some { r with lock := r.lock - 1, openPid := 0 } })

/-- `syscalls_mon_driver_init`. -/
def syscallsMonDriverInit (m : Monitor) : Monitor :=
  { m with reader := some { lock := 0, openPid := 1, procMonitored := 0, syscMonitored := 0 } }

/-- `syscalls_mon_driver_exit`. -/
def syscallsMonDriverExit (m : Monitor) : Monitor := { m with reader := none }

end Monitor

/-! ## Events -/

/-- What happens on the machine. -/
inductive Event where
  /-- A new process, with the contents of its memory where the record will be. -/
  | create (pid : ℤ) (record : MyThread)
  | exit (pid : ℤ)
  /-- A process calls one of the five system calls, up to the original call. -/
  | call (pid : ℤ) (k : CallId) (start : BitVec 64)
  /-- The original call returns. -/
  | ret (pid : ℤ) (result : ℤ) («end» : BitVec 64)
  /-- The original `open` opens the device. -/
  | openDev (pid : ℤ) (uid : ℕ)
  | releaseDev
  | readDev (s uncopied : ℕ)
  | ioctl (arg1 arg2 : ℕ)
  | driverInit
  | driverExit

/-- The process is in a call, whether by a wrapper or not. -/
def Proc.inside (p : Proc) (k : CallId) : Bool :=
  match p.inCall with
  | some (.original k') => k' = k
  | some (.wrapper w _) => w.index = k
  | none => false

namespace Monitor

/-- A new process. -/
def create (m : Monitor) (pid : ℤ) (record : MyThread) : Except Stop Monitor :=
  match m.proc pid with
  | some _ => .error .impossible
  | none =>
    if 0 < pid then .ok (m.setProc pid { record := record, inCall := none, since := none })
    else .error .impossible

/-- A process ends; it does so in no system call of the five. -/
def exit (m : Monitor) (pid : ℤ) : Except Stop Monitor :=
  match m.proc pid with
  | none => .error .impossible
  | some p =>
    if p.inCall.isNone then .ok { m with proc := Function.update m.proc pid none }
    else .error .impossible

/-- A process calls one of the five system calls: what runs is what the table says. -/
def call (m : Monitor) (N : SyscallNumbers) (pid : ℤ) (k : CallId) (start : BitVec 64) :
    Except Stop Monitor :=
  match m.proc pid with
  | none => .error .impossible
  | some p =>
    if p.inCall.isNone then
      match m.sysCallTable (N.localToSysIndex k) with
      | .kernel _ => .ok (m.setProc pid { p with inCall := some (.original k) })
      | .wrapper w => .ok (m.beforeCall pid p w start)
    else .error .impossible

/-- The original call of a process returns, to user mode or to the wrapper. -/
def ret (m : Monitor) (pid result : ℤ) («end» : BitVec 64) : Except Stop Monitor :=
  match m.proc pid with
  | none => .error .impossible
  | some p =>
    match p.inCall with
    | none => .error .impossible
    | some (.original _) => .ok (m.setProc pid { p with inCall := none })
    | some (.wrapper w start) => .ok (m.afterCall pid p w start result «end»)

/-- The `open` that a process is in opens the device. -/
def openDev (m : Monitor) (pid : ℤ) (uid : ℕ) : Except Stop Monitor :=
  match m.reader, m.proc pid with
  | some r, some p =>
    if p.inside callOpen then .ok (m.readstatsOpenDev r pid uid).2 else .error .impossible
  | _, _ => .error .impossible

/-- What is done with an open device. -/
def withDevice (m : Monitor) (f : Reader → Except Stop Monitor) : Except Stop Monitor :=
  match m.reader with
  | some r => if r.lock ≠ 0 then f r else .error .impossible
  | none => .error .impossible

/-- One event. -/
def step (N : SyscallNumbers) (m : Monitor) : Event → Except Stop Monitor
  | .create pid record => m.create pid record
  | .exit pid => m.exit pid
  | .call pid k start => m.call N pid k start
  | .ret pid result «end» => m.ret pid result «end»
  | .openDev pid uid => m.openDev pid uid
  | .releaseDev => m.withDevice fun r => .ok (m.readstatsReleaseDev r).2
  | .readDev _ _ => m.withDevice fun _ => .ok m
  | .ioctl arg1 arg2 => m.withDevice fun r => (m.readstatsIoctlDev N r arg1 arg2).map Prod.snd
  | .driverInit =>
    match m.reader with
    | none => .ok m.syscallsMonDriverInit
    | some _ => .error .impossible
  | .driverExit =>
    match m.reader with
    | some r => if r.lock = 0 then .ok m.syscallsMonDriverExit else .error .impossible
    | none => .error .impossible

end Monitor

/-! ## Loading -/

/-- The machine before the monitor is loaded: the system call table, the processes with what lies
where their records will be and the call of the five that they are in, and the parameter of the
module. -/
structure Machine where
  sysCallTable : ℕ → ℕ
  proc : ℤ → Option (MyThread × Option CallId)
  pidInit : ℤ
  pid_pos : ∀ pid x, proc pid = some x → 0 < pid

/-- The state in which `syscalls_mon_init` is called; the variables of the module are zero. -/
def Machine.insmod (M : Machine) : Monitor where
  sysCallTable := fun n => .kernel (M.sysCallTable n)
  sysCallTableOriginal := fun _ => .kernel 0
  sysCallTableLocal := fun _ => .kernel 0
  syscallInfoTable := fun _ => noCalls
  pidInit := M.pidInit
  proc := fun pid => (M.proc pid).map fun x =>
    { record := x.1, inCall := x.2.map InCall.original, since := none }
  reader := none

/-- The numbers of the system calls on i386. -/
def i386 : SyscallNumbers where
  nrOpen := 5
  nrClose := 6
  nrWrite := 4
  nrClone := 120
  nrLseek := 19
  distinct := by decide

/-- A machine with two processes, whose memory is zero where the records will be. -/
def twoProcs : Machine where
  sysCallTable := fun n => n
  proc := fun pid =>
    if pid = 1 ∨ pid = 2 then some ({ stats := fun _ => noCalls, pid := 0 }, none) else none
  pidInit := 1
  pid_pos := by
    intro pid x h
    split at h
    · omega
    · cases h

end SyscallsMon
