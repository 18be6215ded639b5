import ZeOS.Kernel.Entry

/-!
# The library of user programs (`libc.c`)

A wrapper takes its arguments from its own frame, where its caller has pushed them, puts them into
the registers that `SAVE_ALL` saves first, and the number of the system call into `%eax`.  What comes
back in `%eax` goes through `check_errcode` to the caller.
-/

namespace ZeOS

/-- What a wrapper does with the value that comes back. -/
inductive After where
  | checkErrcode
  /-- `getpid` returns it as it is. -/
  | plain
  /-- `exit` returns nothing. -/
  | nothing
  deriving DecidableEq

/-- The assembly of a wrapper: the loads `movl off(%ebp), reg`, the number that goes to `%eax` before
`int $0x80`, and what follows. -/
structure Wrapper where
  loads : List (ℕ × Reg)
  number : ℤ
  after : After

namespace Wrapper

/-- The word at `off(%ebp)`, if the caller has pushed the words `arg`. -/
def frameWord (arg : ℕ → ℤ) (off : ℕ) : ℤ := arg ((off - 8) / 4)

/-- The registers at `int $0x80`. -/
def enter (w : Wrapper) (arg : ℕ → ℤ) (reg : Registers) : Registers :=
  Function.update
    (w.loads.foldl (fun reg p => Function.update reg p.2 (frameWord arg p.1)) reg) .eax w.number

end Wrapper

/-- `check_errcode`: `errno` after it, and its value. -/
def checkErrcode (errno code : ℤ) : ℤ × ℤ := if code < 0 then (-code, -1) else (errno, code)

/-- `errno` after a wrapper, and the value that it returns, for what comes back in `%eax`. -/
def Wrapper.result (w : Wrapper) (errno eax : ℤ) : ℤ × Option ℤ :=
  match w.after with
  | .checkErrcode => ((checkErrcode errno eax).1, some (checkErrcode errno eax).2)
  | .plain => (errno, some eax)
  | .nothing => (errno, none)

namespace Libc

def write : Wrapper :=
  { loads := [(8, .ebx), (12, .ecx), (16, .edx)], number := 4, after := .checkErrcode }

def getpid : Wrapper := { loads := [], number := 20, after := .plain }

def fork : Wrapper := { loads := [], number := 2, after := .checkErrcode }

def semInit : Wrapper :=
  { loads := [(8, .ebx), (12, .ecx)], number := 21, after := .checkErrcode }

def semWait : Wrapper := { loads := [(8, .ebx)], number := 22, after := .checkErrcode }

def semSignal : Wrapper := { loads := [(8, .ebx)], number := 23, after := .checkErrcode }

def semDestroy : Wrapper := { loads := [(8, .ebx)], number := 24, after := .checkErrcode }

def exit : Wrapper := { loads := [], number := 1, after := .nothing }

def nice : Wrapper := { loads := [(8, .ebx)], number := 34, after := .checkErrcode }

def getStats : Wrapper :=
  { loads := [(8, .ebx), (12, .ecx)], number := 35, after := .checkErrcode }

def «open» : Wrapper :=
  { loads := [(8, .ebx), (12, .ecx)], number := 5, after := .checkErrcode }

def read : Wrapper :=
  { loads := [(8, .ebx), (12, .ecx), (16, .edx)], number := 3, after := .checkErrcode }

def close : Wrapper := { loads := [(8, .ebx)], number := 6, after := .checkErrcode }

def dup : Wrapper := { loads := [(8, .ebx)], number := 41, after := .checkErrcode }

def unlink : Wrapper := { loads := [(8, .ebx)], number := 10, after := .checkErrcode }

/-- The wrapper of `libc.c` for a routine of the kernel; nothing calls `sys_ni_syscall` by name. -/
def wrapper : SysCall → Option Wrapper
  | .sysNiSyscall => none
  | .sysExit => some exit
  | .sysFork => some fork
  | .sysRead => some read
  | .sysWrite => some write
  | .sysOpen => some «open»
  | .sysClose => some close
  | .sysUnlink => some unlink
  | .sysGetpid => some getpid
  | .sysSemInit => some semInit
  | .sysSemWait => some semWait
  | .sysSemSignal => some semSignal
  | .sysSemDestroy => some semDestroy
  | .sysNice => some nice
  | .sysGetStats => some getStats
  | .sysDup => some dup

/-- The text of `perror`, up to its first 0. -/
def perrorText (errno : ℤ) : String :=
  if errno = 1 then "EPERM: Operation not permitted\n"
  else if errno = 3 then "ESRCH: No such process\n"
  else if errno = 4 then "EINTR: Interrupted function call\n"
  else if errno = 9 then "EBADF: Bad file descriptor\n"
  else if errno = 11 then "EAGAIN: Resource busy, try again\n"
  else if errno = 13 then "EACCES: Permission denied\n"
  else if errno = 14 then "EFAULT: Bad address\n"
  else if errno = 16 then "EBUSY: Device or resource busy\n"
  else if errno = 22 then "EINVAL: Invalid argument\n"
  else if errno = 23 then "ENFILE: Too many open files in system\n"
  else if errno = 24 then "EMFILE: Too many open files by the process\n"
  else if errno = 27 then "EFBIG: File too large\n"
  else if errno = 28 then "ENOSPC: No space left on device\n"
  else if errno = 36 then "ENAMETOOLONG: File name too long\n"
  else if errno = 38 then "ENOSYS: Function not implemented\n"
  else if errno = 44 then "ECHRNG: Channel number out of range\n"
  else "Unknown error or no error\n"

end Libc

end ZeOS
