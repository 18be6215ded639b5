import ZeOS.Kernel.Devices

/-!
# System calls (`sys.c`)

Each system call returns a value, which the entry code stores in the saved `%eax` of the
caller, or leaves the processor to another process.
-/

namespace ZeOS

/-! ## Creating a process -/

namespace Memory

/-- The allocation loop of `sys_fork`: one frame for each data page of the parent up to the
first `ph_pages[i] == -1`.  When a frame is missing, those taken so far are given back, the
last one first, and there are no frames. -/
def allocFrames (ph : Fin numPagData → ℤ) :
    List (Fin numPagData) → List ℤ → Memory → Option (List ℤ) × Memory
  | [], frames, m => (some frames, m)
  | i :: is, frames, m =>
    if ph i = -1 then (some frames, m)
    else if m.allocFrame.1 = -1 then (none, frames.reverse.foldl freeFrame m.allocFrame.2)
    else allocFrames ph is (frames ++ [m.allocFrame.1]) m.allocFrame.2

/-- Copy one data page of the running process into a frame, through a temporary mapping. -/
def copyDataPage (m : Memory) (j : Fin numPagData) (frame : ℤ) : Memory :=
  let m := m.setSsPag (windowPage + j.val) frame
  let m := m.copyPage (pagLogInitDataP0 + j.val) (windowPage + j.val)
  m.delSsPag (windowPage + j.val)

/-- Copy every data page of the running process into the given frames. -/
def copyDataPages (m : Memory) (frames : Fin numPagData → ℤ) : Memory :=
  (List.finRange numPagData).foldl (fun m j => m.copyDataPage j (frames j)) m

end Memory

namespace Kernel

/-- `copy_data (current (), &task[new].t, 4096)`: the task structure with its list node and
its stack. -/
def copyTask (s : Kernel) (new : Slot) : Kernel :=
  { s with
    task := Function.update s.task new s.current
    links := s.links.copyNode (.task s.cur) (.task new) }

/-- The attributes of the child that are not shared with its parent. -/
def initChild (s : Kernel) (new : Slot) (frames : Fin numPagData → ℤ) : Kernel :=
  let s := s.updTask new fun k => { k with
    phPages := frames
    stack := Function.update k.stack eaxIndex 0
    pid := s.pid }
  let s := { s with pid := s.pid + 1 }
  s.updTask new fun k => { k with
    quantum := s.current.quantum
    cpuTics := 0
    transitions := 0
    remaining := s.current.quantum
    ownedSems := fun _ => -1 }

/-- `sys_fork`.  The second loop of the source runs to `j <= i`, so when the first one ends
before the last page it uses an element of `frames[]` that was never set. -/
def sysFork (s : Kernel) : Except Stop (ℤ × Kernel) :=
  match s.srchFreeTask with
  | none => .ok (-eAgain, s)
  | some new =>
    let ph := s.current.phPages
    let s := s.copyTask new
    match s.mm.allocFrames ph (List.finRange numPagData) [] with
    | (none, mm) =>
      .ok (-eAgain, { s with mm := mm }.updTask new fun k => { k with pid := -1 })
    | (some frames, mm) =>
      if frames.length = numPagData then
        let frames : Fin numPagData → ℤ := fun j => frames.getD j.val 0
        let s := { s with mm := mm.copyDataPages frames }
        let s := s.initChild new frames
        let s := { s with fs := s.fs.forkRefs (s.task new).fileDescriptors }
        let s := { s with links := s.links.listAddTail (.task new) .runqueue }
        .ok (s.pid - 1, s)
      else .error .uninitialised

/-! ## Semaphores -/

/-- The identifier that passes the range check. -/
def semId (n : ℤ) : Option SemId :=
  if h : 0 ≤ n ∧ n < semMaxValue then some ⟨n.toNat, by omega⟩ else none

/-- Change one semaphore. -/
def updSem (s : Kernel) (n : SemId) (f : Semaphore → Semaphore) : Kernel :=
  { s with sem := Function.update s.sem n (f (s.sem n)) }

/-- `sys_sem_init`. -/
def sysSemInit (s : Kernel) (nSem : ℤ) (value : ℕ) : ℤ × Kernel :=
  match semId nSem with
  | none => (-eInval, s)
  | some n =>
    if (s.sem n).init = 1 then (-eBusy, s)
    else
      let s := s.updSem n fun _ => { count := value % 2 ^ 32, init := 1 }
      let s := s.updTask s.cur fun k => { k with ownedSems := Function.update k.ownedSems n 1 }
      (0, { s with links := s.links.initListHead (.waitList n) })

/-- `sys_sem_wait`: task 0 is never blocked. -/
def sysSemWait (s : Kernel) (nSem : ℤ) : Outcome Kernel ℤ :=
  if s.current.pid = 0 then .ret (-ePerm) s
  else
    match semId nSem with
    | none => .ret (-eInval) s
    | some n =>
      if (s.sem n).init ≠ 1 then .ret (-eInval) s
      else if (s.sem n).count = 0 then
        let links := (s.links.listDel (.task s.cur)).listAddTail (.task s.cur) (.waitList n)
        { s with links := links }.switchToNext 0
      else .ret 0 (s.updSem n fun m => { m with count := m.count - 1 })

/-- Move the first process of a wait list to the tail of the runqueue, with the given result
in its saved `%eax`. -/
def wakeFirst (s : Kernel) (n : SemId) (result : ℤ) : Except Stop Kernel :=
  match s.links.next (.waitList n) with
  | some (.task t) =>
    let s := { s with links := s.links.listDel (.task t) }
    let s := s.updTask t fun k => { k with stack := Function.update k.stack eaxIndex result }
    .ok { s with links := s.links.listAddTail (.task t) .runqueue }
  | _ => .error .notATask

/-- `sys_sem_signal`. -/
def sysSemSignal (s : Kernel) (nSem : ℤ) : Except Stop (ℤ × Kernel) :=
  match semId nSem with
  | none => .ok (-eInval, s)
  | some n =>
    if (s.sem n).init ≠ 1 then .ok (-eInval, s)
    else if s.links.listEmpty (.waitList n) then
      .ok (0, s.updSem n fun m => { m with count := (m.count + 1) % 2 ^ 32 })
    else
      match s.wakeFirst n 0 with
      | .error r => .error r
      | .ok s => .ok (0, s)

/-- The loop of `sys_sem_destroy`: wake every waiting process with the result -1. -/
def wakeAll (n : SemId) : ℕ → Kernel → Except Stop Kernel
  | 0, _ => .error .diverge
  | fuel + 1, s =>
    if s.links.listEmpty (.waitList n) then .ok s
    else
      match s.wakeFirst n (-1) with
      | .error r => .error r
      | .ok s => wakeAll n fuel s

/-- `sys_sem_destroy`. -/
def sysSemDestroy (s : Kernel) (nSem : ℤ) : Except Stop (ℤ × Kernel) :=
  match semId nSem with
  | none => .ok (-eInval, s)
  | some n =>
    if (s.sem n).init ≠ 1 then .ok (-eInval, s)
    else if s.current.ownedSems n ≠ 1 then .ok (-ePerm, s)
    else
      match wakeAll n numNodes s with
      | .error r => .error r
      | .ok s =>
        let s := s.updSem n fun m => { m with init := 0 }
        .ok (0, s.updTask s.cur fun k => { k with ownedSems := Function.update k.ownedSems n (-1) })

/-! ## Ending a process -/

/-- One turn of the loop of `sys_exit` over the semaphores: destroy the ones it owns. -/
def destroyIfOwned (s : Kernel) (n : SemId) : Except Stop Kernel :=
  if s.current.ownedSems n = 1 then (s.sysSemDestroy n.val).map Prod.snd else .ok s

/-- The loop of `sys_exit` over the semaphores that the process owns. -/
def destroyOwned (ns : List SemId) (s : Kernel) : Except Stop Kernel :=
  ns.foldlM destroyIfOwned s

/-- What `sys_exit` does after the semaphores and before the call of `schedule`: the slot is
free, the process is unlinked, its frames are free and its time is over. -/
def leave (s : Kernel) : Kernel :=
  let s := s.updTask s.cur fun k => { k with pid := -1 }
  let s := { s with links := s.links.listDel (.task s.cur) }
  let ph := s.current.phPages
  let mm := (List.finRange numPagData).foldl (fun m i => Memory.freeFrame m (ph i)) s.mm
  { s with mm := mm, left4current := 0 }

/-- `sys_exit`; task 0 does not end. -/
def sysExit (s : Kernel) : Outcome Kernel Unit :=
  if s.current.pid ≠ 0 then
    match destroyOwned (List.finRange semMaxValue) s with
    | .error r => .stop r
    | .ok s => s.leave.schedule 0
  else .ret () s

/-! ## Attributes and statistics -/

/-- `sys_nice`. -/
def sysNice (s : Kernel) (quantum : ℤ) : ℤ × Kernel :=
  if quantum > 0 then
    (s.current.quantum, s.updTask s.cur fun k => { k with quantum := quantum })
  else (-eInval, s)

/-- The bytes of an unsigned word, lowest first. -/
def wordBytes (w : ℤ) : List Byte :=
  let n := (w % 2 ^ 32).toNat
  [n.toUInt8, (n / 2 ^ 8).toUInt8, (n / 2 ^ 16).toUInt8, (n / 2 ^ 24).toUInt8]

/-- `struct stats` of a task, as bytes. -/
def statsBytes (k : Task) : List Byte :=
  wordBytes k.cpuTics ++ wordBytes k.transitions ++ wordBytes k.remaining

/-- The task that the search of `sys_get_stats` ends at.  When no process has the pid, that
is `task[NR_TASKS]`; `beyond` is what lies there. -/
def statsTask (s : Kernel) (spid : ℤ) (beyond : Task) : Task :=
  match (List.finRange nrTasks).find? (fun i => (s.task i).pid = spid) with
  | some i => s.task i
  | none => beyond

/-- `sys_get_stats`. -/
def sysGetStats (s : Kernel) (spid : ℤ) (st : ℕ) (beyond : Task) : Outcome Kernel ℤ :=
  if spid < 0 then .ret (-eInval) s
  else if !s.mm.accessOk 0 st 16 then .ret (-eFault) s
  else if (s.statsTask spid beyond).pid ≠ spid then .ret (-eSrch) s
  else
    (s.mm.copyToUser st (statsBytes (s.statsTask spid beyond))).lift fun mm => { s with mm := mm }

/-! ## Files -/

/-- The largest size that `sys_read` and `sys_write` accept. -/
abbrev maxSize : ℤ := numPagData * pageSize - kernelStackSize

/-- The open file of a descriptor of the running process. -/
def openFile (s : Kernel) (fd : ℤ) : Option FdtId :=
  if h : 0 ≤ fd ∧ fd < maxFds then s.current.fileDescriptors ⟨fd.toNat, toNat_lt_maxFds h⟩ else none

/-- `sys_write`. -/
def sysWrite (s : Kernel) (fd : ℤ) (buffer : ℕ) (size : ℤ) : Outcome Kernel ℤ :=
  match s.openFile fd with
  | none => .ret (-eBadf) s
  | some v =>
    if size > maxSize then .ret (-eFbig) s
    else if size < 0 then .ret (-eInval) s
    else if (s.fs.fdt v).accessMode = oRdonly then .ret (-eBadf) s
    else if !s.mm.accessOk 1 buffer size then .ret (-eFault) s
    else
      match (s.fs.fdt v).logicDev with
      | none => .stop .nullPointer
      | some f =>
        match (s.fs.ops f).sysWriteDev with
        | .null => .ret (-eInval) s
        | .sysWriteConsole =>
          (s.screen.sysWriteConsole s.mm buffer size.toNat).lift fun sc => { s with screen := sc }
        | .sysWriteFile =>
          (s.fs.sysWriteFile s.mm v f buffer size.toNat).lift fun fs => { s with fs := fs }

/-- `sys_read`. -/
def sysRead (s : Kernel) (fd : ℤ) (buffer : ℕ) (size : ℤ) : Outcome Kernel ℤ :=
  match s.openFile fd with
  | none => .ret (-eBadf) s
  | some v =>
    if size < 0 then .ret (-eInval) s
    else if size > maxSize then .ret (-eFbig) s
    else if (s.fs.fdt v).accessMode = oWronly then .ret (-eBadf) s
    else if !s.mm.accessOk 0 buffer size then .ret (-eFault) s
    else
      let s := s.updTask s.cur fun k => { k with size := size, buffer := buffer }
      match (s.fs.fdt v).logicDev with
      | none => .stop .nullPointer
      | some f =>
        match (s.fs.ops f).sysReadDev with
        | .null => .ret (-eNosys) s
        | .sysReadKeyboard => s.sysReadKeyboard size
        | .sysReadFile =>
          (s.fs.sysReadFile s.mm v f buffer size.toNat).lift fun st =>
            { s with fs := st.1, mm := st.2 }

/-- Put the tables and the descriptors of the caller back into the kernel. -/
def withFiles (s : Kernel) (fs : FileSystem) (fds : FileSystem.Descriptors) : Kernel :=
  { s with fs := fs }.updTask s.cur fun k => { k with fileDescriptors := fds }

/-- `sys_open`; `path` is the C string at the address, up to its zero byte or, without one, into a page
that is not present. -/
def sysOpen (s : Kernel) (addr : ℕ) (path : List Byte) (flags : ℤ) : Outcome Kernel ℤ :=
  if !Memory.checkAddress addr 1 then .ret (-eFault) s
  else
    match s.mm.strlen addr path with
    | none => .fault s
    | some _ =>
      match s.fs.sysOpen s.current.fileDescriptors path flags with
      | .error r => .stop r
      | .ok (fd, fs, fds) => .ret fd (s.withFiles fs fds)

/-- `sys_dup`. -/
def sysDup (s : Kernel) (fd : ℤ) : ℤ × Kernel :=
  match s.fs.sysDup s.current.fileDescriptors fd with
  | (new, fs, fds) => (new, s.withFiles fs fds)

/-- `sys_close`. -/
def sysClose (s : Kernel) (fd : ℤ) : Except Stop (ℤ × Kernel) :=
  match s.fs.sysClose s.current.fileDescriptors fd with
  | .error r => .error r
  | .ok (r, fs, fds) => .ok (r, s.withFiles fs fds)

/-- `sys_unlink`; `path` is the C string at the address, as in `sys_open`. -/
def sysUnlink (s : Kernel) (addr : ℕ) (path : List Byte) : Outcome Kernel ℤ :=
  if !Memory.checkAddress addr 1 then .ret (-eFault) s
  else
    match s.mm.strlen addr path with
    | none => .fault s
    | some _ =>
      match s.fs.sysUnlink path with
      | .error r => .stop r
      | .ok (r, fs) => .ret r { s with fs := fs }

end Kernel

end ZeOS
