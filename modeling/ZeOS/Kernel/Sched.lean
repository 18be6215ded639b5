import ZeOS.Kernel.Mm

/-!
# The scheduler (`sched.c`)

`task_switch` never returns to its caller: it resumes the saved context of the new process,
so its outcome is `switched`.  `schedule` returns when it does not switch.
-/

namespace ZeOS

namespace Kernel

/-- The first slot without a process. -/
def srchFreeTask (s : Kernel) : Option Slot :=
  (List.finRange nrTasks).find? (fun i => (s.task i).pid < 0)

/-- Change of context to task `t`: its transition and quantum, the mapping of its data
pages up to the first `ph_pages[i] == -1`, and the processor itself. -/
def taskSwitch (s : Kernel) (t : Slot) : Kernel :=
  let s := s.updTask t fun k => { k with transitions := k.transitions + 1 }
  let s := { s with left4current := (s.task t).quantum }
  let s := s.updTask t fun k => { k with remaining := k.quantum }
  let ph := (s.task t).phPages
  let is := (List.finRange numPagData).takeWhile (fun i => ph i ≠ -1)
  let s := { s with mm := s.mm.setSsPags pagLogInitDataP0 ph is }
  { s with itIsInt := if s.itIsInt = 1 then 0 else s.itIsInt, cur := t }

/-- Take `runqueue.next` for the next task and switch to it. -/
def switchToNext {α : Type} (s : Kernel) (fromInt : ℤ) : Outcome Kernel α :=
  match s.links.next .runqueue with
  | some (.task t) => .switched ({ s with itIsInt := fromInt }.taskSwitch t)
  | _ => .stop .notATask

/-- `schedule`: once the time of the current process is over, give it a new quantum if the
runqueue has only one process, and otherwise move it to the tail, unless it has exited, and
switch to the first process. -/
def schedule (s : Kernel) (fromInt : ℤ) : Outcome Kernel Unit :=
  if s.left4current ≤ 0 then
    if s.links.listFirst .runqueue = s.links.listLast .runqueue then
      let s := { s with left4current := s.current.quantum }
      .ret () (s.updTask s.cur fun k => { k with remaining := s.left4current })
    else if s.current.pid ≠ -1 then
      let links := (s.links.listDel (.task s.cur)).listAddTail (.task s.cur) .runqueue
      { s with links := links }.switchToNext fromInt
    else s.switchToNext fromInt
  else .ret () s

end Kernel

end ZeOS
