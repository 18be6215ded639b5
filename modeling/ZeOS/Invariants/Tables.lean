import ZeOS.Invariants.Processes
import ZeOS.Invariants.Paging

/-!
# What reaches the file tables

Only `sys_open`, `sys_close`, `sys_dup`, `sys_unlink`, `sys_write`, `sys_read` and `sys_fork`
touch the file system or a process's descriptors.  `SameFiles` says that a piece of code left
both alone, and the lemmas below give it for every other routine, in any state: nothing here
assumes that the queues are well formed.  The scheduler, the semaphores and `sys_exit` also leave
the circular buffer and the reads of blocked processes alone (`SameData`).
-/

namespace ZeOS

open IntrusiveList

/-- The file system and the descriptors of every task are the same. -/
structure SameFiles (s t : Kernel) : Prop where
  fs : t.fs = s.fs
  fds : ∀ u, (t.task u).fileDescriptors = (s.task u).fileDescriptors

namespace SameFiles

lemma refl (s : Kernel) : SameFiles s s := ⟨rfl, fun _ => rfl⟩

lemma trans {s t u : Kernel} (h : SameFiles s t) (h' : SameFiles t u) : SameFiles s u :=
  ⟨h'.fs.trans h.fs, fun v => (h'.fds v).trans (h.fds v)⟩

lemma other {s t : Kernel} (htask : t.task = s.task) (hfs : t.fs = s.fs) : SameFiles s t :=
  ⟨hfs, fun u => by rw [htask]⟩

/-- One task differs, in other fields. -/
lemma change {s t : Kernel} {u : Slot} {k : Task} (htask : t.task = Function.update s.task u k)
    (hk : k.fileDescriptors = (s.task u).fileDescriptors) (hfs : t.fs = s.fs) : SameFiles s t := by
  refine ⟨hfs, fun v => ?_⟩
  rw [htask, Function.update_apply]
  split_ifs with h
  · rw [hk, h]
  · rfl

lemma updTask (s : Kernel) (t : Slot) (f : Task → Task)
    (hf : (f (s.task t)).fileDescriptors = (s.task t).fileDescriptors) :
    SameFiles s (s.updTask t f) := change rfl hf rfl

end SameFiles

/-- What a process waits for at the keyboard: the characters that it misses, the size of its read
and where they go. -/
def Task.reader (k : Task) : ℤ × ℤ × ℕ := (k.pendingChars, k.size, k.buffer)

/-- The files, the circular buffer and the reads of all tasks are the same. -/
structure SameData (s t : Kernel) : Prop extends SameFiles s t where
  kbd : t.kbd = s.kbd
  reader : ∀ u, (t.task u).reader = (s.task u).reader

namespace SameData

lemma refl (s : Kernel) : SameData s s := ⟨.refl s, rfl, fun _ => rfl⟩

lemma trans {s t u : Kernel} (h : SameData s t) (h' : SameData t u) : SameData s u :=
  ⟨h.toSameFiles.trans h'.toSameFiles, h'.kbd.trans h.kbd, fun v => (h'.reader v).trans (h.reader v)⟩

lemma other {s t : Kernel} (htask : t.task = s.task) (hfs : t.fs = s.fs) (hkbd : t.kbd = s.kbd) :
    SameData s t := ⟨.other htask hfs, hkbd, fun u => by rw [htask]⟩

/-- One task differs, in other fields. -/
lemma change {s t : Kernel} {u : Slot} {k : Task} (htask : t.task = Function.update s.task u k)
    (hk : k.fileDescriptors = (s.task u).fileDescriptors) (hr : k.reader = (s.task u).reader)
    (hfs : t.fs = s.fs) (hkbd : t.kbd = s.kbd) : SameData s t := by
  refine ⟨.change htask hk hfs, hkbd, fun v => ?_⟩
  rw [htask, Function.update_apply]
  split_ifs with h
  · rw [hr, h]
  · rfl

end SameData

/-- The counter of the pids, the pids of all tasks and the pages of user space are the same. -/
structure SamePids (s t : Kernel) : Prop where
  counter : t.pid = s.pid
  pid : ∀ u, (t.task u).pid = (s.task u).pid
  user : Memory.SameUserPages s.mm t.mm

namespace SamePids

lemma refl (s : Kernel) : SamePids s s := ⟨rfl, fun _ => rfl, .refl s.mm⟩

lemma trans {s t u : Kernel} (h : SamePids s t) (h' : SamePids t u) : SamePids s u :=
  ⟨h'.counter.trans h.counter, fun v => (h'.pid v).trans (h.pid v), h.user.trans h'.user⟩

lemma other {s t : Kernel} (htask : t.task = s.task) (hcounter : t.pid = s.pid)
    (htable : t.mm.pagusrTable = s.mm.pagusrTable) : SamePids s t :=
  ⟨hcounter, fun u => by rw [htask], .of_table htable⟩

/-- One task differs, in other fields. -/
lemma change {s t : Kernel} {u : Slot} {k : Task} (htask : t.task = Function.update s.task u k)
    (hk : k.pid = (s.task u).pid) (hcounter : t.pid = s.pid)
    (htable : t.mm.pagusrTable = s.mm.pagusrTable) : SamePids s t := by
  refine ⟨hcounter, fun v => ?_, .of_table htable⟩
  rw [htask, Function.update_apply]
  split_ifs with h
  · rw [hk, h]
  · rfl

end SamePids

/-- The pids, the pages of user space and the clock are the same. -/
structure SameCounters (s t : Kernel) : Prop extends SamePids s t where
  tics : t.tics = s.tics

namespace SameCounters

lemma refl (s : Kernel) : SameCounters s s := ⟨.refl s, rfl⟩

lemma trans {s t u : Kernel} (h : SameCounters s t) (h' : SameCounters t u) : SameCounters s u :=
  ⟨h.toSamePids.trans h'.toSamePids, h'.tics.trans h.tics⟩

lemma other {s t : Kernel} (htask : t.task = s.task) (hcounter : t.pid = s.pid)
    (htable : t.mm.pagusrTable = s.mm.pagusrTable) (htics : t.tics = s.tics) : SameCounters s t :=
  ⟨.other htask hcounter htable, htics⟩

lemma change {s t : Kernel} {u : Slot} {k : Task} (htask : t.task = Function.update s.task u k)
    (hk : k.pid = (s.task u).pid) (hcounter : t.pid = s.pid)
    (htable : t.mm.pagusrTable = s.mm.pagusrTable) (htics : t.tics = s.tics) :
    SameCounters s t := ⟨.change htask hk hcounter htable, htics⟩

end SameCounters

/-- The files, the keyboard, the pids, the pages of user space and the clock are the same. -/
structure SameRecords (s t : Kernel) : Prop extends SameData s t, SameCounters s t

namespace SameRecords

lemma refl (s : Kernel) : SameRecords s s := ⟨.refl s, .refl s⟩

lemma trans {s t u : Kernel} (h : SameRecords s t) (h' : SameRecords t u) : SameRecords s u :=
  ⟨h.toSameData.trans h'.toSameData, h.toSameCounters.trans h'.toSameCounters⟩

lemma other {s t : Kernel} (htask : t.task = s.task) (hfs : t.fs = s.fs) (hkbd : t.kbd = s.kbd)
    (hcounter : t.pid = s.pid) (htable : t.mm.pagusrTable = s.mm.pagusrTable)
    (htics : t.tics = s.tics) : SameRecords s t :=
  ⟨.other htask hfs hkbd, .other htask hcounter htable htics⟩

/-- One task differs, in other fields. -/
lemma change {s t : Kernel} {u : Slot} {k : Task} (htask : t.task = Function.update s.task u k)
    (hk : (k.fileDescriptors, k.reader, k.pid) =
      ((s.task u).fileDescriptors, (s.task u).reader, (s.task u).pid))
    (hfs : t.fs = s.fs) (hkbd : t.kbd = s.kbd) (hcounter : t.pid = s.pid)
    (htable : t.mm.pagusrTable = s.mm.pagusrTable) (htics : t.tics = s.tics) : SameRecords s t := by
  simp only [Prod.mk.injEq] at hk
  exact ⟨.change htask hk.1 hk.2.1 hfs hkbd, .change htask hk.2.2 hcounter htable htics⟩

end SameRecords

namespace Outcome

variable {σ τ α : Type}

/-- Every state in which the code leaves off satisfies a predicate. -/
def Leaves (P : σ → Prop) : Outcome σ α → Prop
  | .ret _ s => P s
  | .switched s => P s
  | .fault s => P s
  | .stop _ => True

lemma Leaves.imp {P Q : σ → Prop} {o : Outcome σ α} (h : o.Leaves P) (himp : ∀ s, P s → Q s) :
    o.Leaves Q := by
  cases o with
  | ret a s => exact himp s h
  | switched s => exact himp s h
  | fault s => exact himp s h
  | stop r => trivial

lemma lift_eq_ret_iff {f : σ → τ} {o : Outcome σ α} {a : α} {t : τ} :
    o.lift f = .ret a t ↔ ∃ s, o = .ret a s ∧ f s = t := by
  cases o <;> simp [lift]

lemma leaves_lift {Q : τ → Prop} {f : σ → τ} (h : ∀ s, Q (f s)) (o : Outcome σ α) :
    (o.lift f).Leaves Q := by
  cases o with
  | ret a s => exact h s
  | switched s => exact h s
  | fault s => exact h s
  | stop r => trivial

lemma Ends.leaves {P : σ → Prop} {o : Outcome σ α} (h : o.Ends P) : o.Leaves P := by
  cases o with
  | ret a s => exact h
  | switched s => exact h.elim
  | fault s => exact h
  | stop r => trivial

lemma Leaves.lift {P : σ → Prop} {Q : τ → Prop} {f : σ → τ} {o : Outcome σ α}
    (h : o.Leaves P) (himp : ∀ s, P s → Q (f s)) : (o.lift f).Leaves Q := by
  cases o with
  | ret a s => exact himp s h
  | switched s => exact himp s h
  | fault s => exact himp s h
  | stop r => trivial

end Outcome

/-- The same for a phase. -/
def Phase.Leaves (P : Kernel → Prop) : Phase → Prop
  | .done s => P s
  | .exits _ s => P s
  | .stop _ => True

lemma Phase.Leaves.imp {P Q : Kernel → Prop} {p : Phase} (h : p.Leaves P)
    (himp : ∀ s, P s → Q s) : p.Leaves Q := by
  cases p with
  | done s => exact himp s h
  | exits cause s => exact himp s h
  | stop r => trivial

namespace Kernel

/-! ## The scheduler and the semaphores -/

lemma sameRecords_enter (s : Kernel) (regs : SavedRegs) : SameRecords s (s.enter regs) :=
  .change rfl rfl rfl rfl rfl rfl rfl

lemma sameRecords_setEax (s : Kernel) (r : ℤ) : SameRecords s (s.setEax r) :=
  .change rfl rfl rfl rfl rfl rfl rfl

lemma sameRecords_taskSwitch (s : Kernel) (t : Slot) : SameRecords s (s.taskSwitch t) :=
  ⟨⟨⟨s.taskSwitch_fs t, fun u => s.taskSwitch_task_fileDescriptors t u⟩, rfl, fun u => by
    rw [taskSwitch_task]
    split_ifs with h
    · rw [h]
      rfl
    · rfl⟩, ⟨rfl, fun u => s.taskSwitch_task_pid t u, .setSsPags s.mm le_rfl _ _⟩, rfl⟩

lemma sameRecords_switchToNext {α : Type} (s : Kernel) (fromInt : ℤ) :
    (s.switchToNext fromInt : Outcome Kernel α).Leaves (SameRecords s) := by
  unfold switchToNext
  split
  · have h : SameRecords s { s with itIsInt := fromInt } := .other rfl rfl rfl rfl rfl rfl
    exact h.trans (sameRecords_taskSwitch ..)
  · trivial

lemma sameRecords_schedule (s : Kernel) (fromInt : ℤ) :
    (s.schedule fromInt).Leaves (SameRecords s) := by
  unfold schedule
  split_ifs
  · exact SameRecords.change rfl rfl rfl rfl rfl rfl rfl
  · have h : SameRecords s { s with
        links := (s.links.listDel (.task s.cur)).listAddTail (.task s.cur) .runqueue } :=
      .other rfl rfl rfl rfl rfl rfl
    exact (sameRecords_switchToNext ..).imp (fun t ht => h.trans ht)
  · exact sameRecords_switchToNext ..
  · exact SameRecords.refl s

lemma sameRecords_sysSemInit (s : Kernel) (nSem : ℤ) (value : ℕ) :
    SameRecords s (s.sysSemInit nSem value).2 := by
  unfold sysSemInit
  split
  · exact .refl s
  · split_ifs
    · exact .refl s
    · exact .change rfl rfl rfl rfl rfl rfl rfl

lemma sameRecords_sysSemWait (s : Kernel) (nSem : ℤ) :
    (s.sysSemWait nSem).Leaves (SameRecords s) := by
  unfold sysSemWait
  split_ifs
  · exact SameRecords.refl s
  · split
    · exact SameRecords.refl s
    · next n _ =>
      split_ifs
      · exact SameRecords.refl s
      · have h : SameRecords s { s with
            links := (s.links.listDel (.task s.cur)).listAddTail (.task s.cur) (.waitList n) } :=
          .other rfl rfl rfl rfl rfl rfl
        exact (sameRecords_switchToNext ..).imp (fun t ht => h.trans ht)
      · exact SameRecords.other rfl rfl rfl rfl rfl rfl

lemma sameRecords_wakeFirst {s t : Kernel} {n : SemId} {result : ℤ}
    (h : s.wakeFirst n result = .ok t) : SameRecords s t := by
  unfold wakeFirst at h
  split at h
  · simp only [Except.ok.injEq] at h
    subst h
    exact .change rfl rfl rfl rfl rfl rfl rfl
  · simp at h

lemma sameRecords_sysSemSignal {s t : Kernel} {nSem r : ℤ} (h : s.sysSemSignal nSem = .ok (r, t)) :
    SameRecords s t := by
  unfold sysSemSignal at h
  split at h
  · simp only [Except.ok.injEq, Prod.mk.injEq] at h
    exact h.2 ▸ .refl s
  · split_ifs at h
    · simp only [Except.ok.injEq, Prod.mk.injEq] at h
      exact h.2 ▸ .refl s
    · simp only [Except.ok.injEq, Prod.mk.injEq] at h
      exact h.2 ▸ .other rfl rfl rfl rfl rfl rfl
    · split at h
      · simp at h
      · next hw =>
        simp only [Except.ok.injEq, Prod.mk.injEq] at h
        exact h.2 ▸ sameRecords_wakeFirst hw

lemma sameRecords_wakeAll {n : SemId} (fuel : ℕ) :
    ∀ {s t : Kernel}, wakeAll n fuel s = .ok t → SameRecords s t := by
  induction fuel with
  | zero =>
    intro s t h
    simp [wakeAll] at h
  | succ fuel ih =>
    intro s t h
    rw [wakeAll] at h
    split_ifs at h
    · simp only [Except.ok.injEq] at h
      exact h ▸ .refl s
    · split at h
      · simp at h
      · next hw => exact (sameRecords_wakeFirst hw).trans (ih h)

lemma sameRecords_sysSemDestroy {s t : Kernel} {nSem r : ℤ}
    (h : s.sysSemDestroy nSem = .ok (r, t)) : SameRecords s t := by
  unfold sysSemDestroy at h
  split at h
  · simp only [Except.ok.injEq, Prod.mk.injEq] at h
    exact h.2 ▸ .refl s
  · split_ifs at h
    · simp only [Except.ok.injEq, Prod.mk.injEq] at h
      exact h.2 ▸ .refl s
    · simp only [Except.ok.injEq, Prod.mk.injEq] at h
      exact h.2 ▸ .refl s
    · split at h
      · simp at h
      · next hw =>
        simp only [Except.ok.injEq, Prod.mk.injEq] at h
        refine (sameRecords_wakeAll _ hw).trans ?_
        exact h.2 ▸ .change rfl rfl rfl rfl rfl rfl rfl

lemma sameData_enter (s : Kernel) (regs : SavedRegs) : SameData s (s.enter regs) :=
  (s.sameRecords_enter regs).toSameData

lemma sameData_setEax (s : Kernel) (r : ℤ) : SameData s (s.setEax r) :=
  (s.sameRecords_setEax r).toSameData

lemma sameData_taskSwitch (s : Kernel) (t : Slot) : SameData s (s.taskSwitch t) :=
  (s.sameRecords_taskSwitch t).toSameData

/-! ## The end of a process -/

lemma sameRecords_destroyOwned (ns : List SemId) :
    ∀ {s t : Kernel}, destroyOwned ns s = .ok t → SameRecords s t := by
  induction ns with
  | nil =>
    intro s t h
    simp only [destroyOwned, List.foldlM_nil, pure, Except.pure, Except.ok.injEq] at h
    exact h ▸ .refl s
  | cons n ns ih =>
    intro s t h
    simp only [destroyOwned, List.foldlM_cons, bind, Except.bind] at h
    split at h
    · simp at h
    · next u hu =>
      refine SameRecords.trans ?_ (ih h)
      unfold destroyIfOwned at hu
      split_ifs at hu
      · cases hd : s.sysSemDestroy n.val with
        | error r => simp [hd, Except.map] at hu
        | ok p =>
          obtain ⟨r, v⟩ := p
          simp only [hd, Except.map, Except.ok.injEq] at hu
          exact hu ▸ sameRecords_sysSemDestroy hd
      · simp only [Except.ok.injEq] at hu
        exact hu ▸ .refl s

/-- A process may be gone; the files, the keyboard, the counter of the pids, the pages of user
space and the clock are the same. -/
structure Departs (s t : Kernel) : Prop extends SameData s t where
  tics : t.tics = s.tics
  counter : t.pid = s.pid
  pid : ∀ u, (t.task u).pid = (s.task u).pid ∨ (t.task u).pid = -1
  user : Memory.SameUserPages s.mm t.mm

lemma Departs.of_records {s t : Kernel} (h : SameRecords s t) : Departs s t :=
  ⟨h.toSameData, h.tics, h.counter, fun u => .inl (h.pid u), h.user⟩

lemma Departs.trans_records {s t u : Kernel} (h : Departs s t) (h' : SameRecords t u) :
    Departs s u := by
  refine ⟨h.toSameData.trans h'.toSameData, h'.tics.trans h.tics, h'.counter.trans h.counter,
    fun v => ?_, h.user.trans h'.user⟩
  rw [h'.pid]
  exact h.pid v

lemma departs_leave {s t : Kernel} (h : SameRecords s t) : Departs s t.leave := by
  refine ⟨h.toSameData.trans (.change rfl rfl rfl rfl rfl), h.tics, h.counter, fun u => ?_,
    h.user.trans (.of_table t.leave_table)⟩
  by_cases hu : u = t.cur
  · subst hu
    exact .inr (by simp [leave, updTask])
  · refine .inl (Eq.trans ?_ (h.pid u))
    simp [leave, updTask, hu]

lemma departs_sysExit (s : Kernel) : s.sysExit.Leaves (Departs s) := by
  unfold sysExit
  split_ifs
  · split
    · trivial
    · next u hu =>
      have hleave := departs_leave (sameRecords_destroyOwned _ hu)
      exact (sameRecords_schedule ..).imp (fun t ht => hleave.trans_records ht)
  · exact Departs.of_records (.refl s)

lemma departs_afterExit {s t : Kernel} {cause : ExitCause}
    (h : afterExit cause s.sysExit = .ok t) : Departs s t := by
  have hexit := s.departs_sysExit
  cases ho : s.sysExit with
  | ret a u =>
    rw [ho] at h hexit
    cases cause with
    | syscall eax =>
      simp only [afterExit, Except.ok.injEq] at h
      exact h ▸ Departs.trans_records hexit (u.sameRecords_setEax eax)
    | userFault =>
      simp only [afterExit, Except.ok.injEq] at h
      exact h ▸ hexit
    | kernelFault => simp [afterExit] at h
  | switched u =>
    rw [ho] at h hexit
    simp only [afterExit, Except.ok.injEq] at h
    exact h ▸ hexit
  | fault u => simp [ho, afterExit] at h
  | stop r => simp [ho, afterExit] at h

lemma sameData_afterExit {s t : Kernel} {cause : ExitCause}
    (h : afterExit cause s.sysExit = .ok t) : SameData s t := (departs_afterExit h).toSameData

/-! ## The clock and the keyboard -/

lemma sameData_showTime (s : Kernel) : SameData s s.showTime := by
  unfold showTime
  simp only
  split_ifs <;> exact .other rfl rfl rfl

lemma samePids_showTime (s : Kernel) : SamePids s s.showTime := by
  unfold showTime
  simp only
  split_ifs <;> exact .other rfl rfl rfl

/-- A tick does not look at the files or the keyboard, and the pids stay. -/
lemma leaves_clockRoutine (s : Kernel) :
    s.clockRoutine.Leaves fun t => SameData s t ∧ SamePids s t := by
  have htick : SameData s s.tick := .change rfl rfl rfl rfl rfl
  have hpids : SamePids s s.tick := .change rfl rfl rfl rfl
  have hsched : (s.tick.schedule 1).Leaves fun t => SameData s t ∧ SamePids s t :=
    (sameRecords_schedule s.tick 1).imp
      (fun t ht => ⟨htick.trans ht.toSameData, hpids.trans ht.toSamePids⟩)
  unfold clockRoutine
  split
  · next t ht =>
    rw [ht] at hsched
    exact ⟨SameData.trans hsched.1 t.sameData_showTime, SamePids.trans hsched.2 t.samePids_showTime⟩
  · next t ht =>
    rw [ht] at hsched
    exact hsched
  · next t ht =>
    rw [ht] at hsched
    exact hsched
  · trivial

lemma sameFiles_enter (s : Kernel) (regs : SavedRegs) : SameFiles s (s.enter regs) :=
  (s.sameData_enter regs).toSameFiles

lemma sameFiles_setEax (s : Kernel) (r : ℤ) : SameFiles s (s.setEax r) :=
  (s.sameData_setEax r).toSameFiles

lemma sameFiles_copyFromCircBuffer (s : Kernel) (b : Slot) (size : ℤ) :
    (s.copyFromCircBuffer b size).Leaves (SameFiles s) := by
  have hmap : SameFiles s ({ s with
      mm := s.mm.setSsPags Memory.windowPage (s.task b).phPages (List.finRange numPagData) }.updTask b
        fun k => { k with buffer := k.buffer + numPagData * pageSize }) := .change rfl rfl rfl
  unfold copyFromCircBuffer
  simp only
  split_ifs
  · trivial
  · split
    · exact hmap.trans (.other rfl rfl)
    · exact hmap.trans (.change rfl rfl rfl)
    · exact hmap.trans (.other rfl rfl)
    · trivial

/-- What `sys_open` leaves: the state that it was called in, or that state with the tables and the
descriptors that the file system makes of it. -/
lemma leaves_sysOpen {P : Kernel → Prop} {s : Kernel} {addr : ℕ} {path : List Byte} {flags : ℤ}
    (hsame : P s) (hfiles : ∀ r fs fds, s.mm.PathOk addr path →
      s.fs.sysOpen s.current.fileDescriptors path flags = .ok (r, fs, fds) → P (s.withFiles fs fds)) :
    (s.sysOpen addr path flags).Leaves P := by
  rcases s.sysOpen_cases addr path flags with ⟨-, h⟩ | ⟨-, -, h⟩ | ⟨hpath, ⟨r, -, h⟩ | ⟨r, fs, fds, ho, h⟩⟩
  · rw [h]
    exact hsame
  · rw [h]
    exact hsame
  · rw [h]
    trivial
  · rw [h]
    exact hfiles r fs fds hpath ho

lemma leaves_sysUnlink {P : Kernel → Prop} {s : Kernel} {addr : ℕ} {path : List Byte} (hsame : P s)
    (hfiles : ∀ r fs, s.mm.PathOk addr path → s.fs.sysUnlink path = .ok (r, fs) →
      P { s with fs := fs }) : (s.sysUnlink addr path).Leaves P := by
  rcases s.sysUnlink_cases addr path with ⟨-, h⟩ | ⟨-, -, h⟩ | ⟨hpath, ⟨r, -, h⟩ | ⟨r, fs, hu, h⟩⟩
  · rw [h]
    exact hsame
  · rw [h]
    exact hsame
  · rw [h]
    trivial
  · rw [h]
    exact hfiles r fs hpath hu

/-- The ends of a read from the keyboard: served at once, or told to wait. -/
lemma leaves_sysReadKeyboard {P : Kernel → Prop} {s : Kernel} {size : ℤ}
    (hcopy : ((s.setPending size).copyFromCircBuffer (s.setPending size).cur size).Leaves fun t =>
      P t ∧ P (t.consume size))
    (hwait : (((s.setPending size).waitForChars size).switchToNext 0 : Outcome Kernel ℤ).Leaves P)
    (hrefused : P (s.setPending size)) : (s.sysReadKeyboard size).Leaves P := by
  unfold sysReadKeyboard
  simp only
  split_ifs
  · cases hc : (s.setPending size).copyFromCircBuffer (s.setPending size).cur size with
    | ret r t =>
      rw [hc] at hcopy
      exact hcopy.2
    | switched t =>
      rw [hc] at hcopy
      exact hcopy.1
    | fault t =>
      rw [hc] at hcopy
      exact hcopy.1
    | stop r => trivial
  · exact hwait
  · exact hrefused

/-- The ends of serving a reader: with all of its characters, or with a full buffer, or not yet. -/
lemma leaves_serveReader {P : Kernel → Prop} {s u : Kernel} {b : Slot}
    (hu : u = s.updTask b fun k => { k with pendingChars := k.pendingChars - 1 })
    (hcopy : ∀ size, (u.copyFromCircBuffer b size).Leaves fun t =>
      P t ∧ P (t.emptyCircBuffer.unblockAndEnqueque b) ∧ P (t.advanceReader b).emptyCircBuffer)
    (hwait : P u) : (s.serveReader b).Leaves P := by
  unfold serveReader
  simp only [← hu]
  split_ifs
  · have h := hcopy (u.task b).size
    cases hc : u.copyFromCircBuffer b (u.task b).size with
    | ret r t =>
      rw [hc] at h
      exact h.2.1
    | switched t =>
      rw [hc] at h
      exact h.1
    | fault t =>
      rw [hc] at h
      exact h.1
    | stop r => trivial
  · have h := hcopy circularSize
    cases hc : u.copyFromCircBuffer b circularSize with
    | ret r t =>
      rw [hc] at h
      exact h.2.2
    | switched t =>
      rw [hc] at h
      exact h.1
    | fault t =>
      rw [hc] at h
      exact h.1
    | stop r => trivial
  · exact hwait

lemma sameFiles_sysReadKeyboard (s : Kernel) (size : ℤ) :
    (s.sysReadKeyboard size).Leaves (SameFiles s) := by
  have hpend : SameFiles s (s.setPending size) := .updTask s s.cur _ rfl
  have hwait : SameFiles (s.setPending size) ((s.setPending size).waitForChars size) :=
    .change rfl rfl rfl
  apply leaves_sysReadKeyboard
  · refine (sameFiles_copyFromCircBuffer ..).imp (fun t ht => ⟨hpend.trans ht, ?_⟩)
    exact hpend.trans (ht.trans (.other rfl rfl))
  · exact (sameRecords_switchToNext ..).imp (fun t ht => hpend.trans (hwait.trans ht.toSameFiles))
  · exact hpend

lemma sameFiles_serveReader (s : Kernel) (b : Slot) : (s.serveReader b).Leaves (SameFiles s) := by
  have hpend : SameFiles s (s.updTask b fun k => { k with pendingChars := k.pendingChars - 1 }) :=
    .updTask s b _ rfl
  apply leaves_serveReader rfl
  · intro size
    refine (sameFiles_copyFromCircBuffer ..).imp (fun t ht => ⟨hpend.trans ht, ?_, ?_⟩)
    · exact hpend.trans (ht.trans (.other rfl rfl))
    · have hadv : SameFiles t (t.advanceReader b) := .updTask t b _ rfl
      exact hpend.trans (ht.trans (hadv.trans (.other rfl rfl)))
  · exact hpend

lemma sameFiles_keyboardRoutine (s : Kernel) (scan beyond : Byte) :
    (s.keyboardRoutine scan beyond).Leaves (SameFiles s) := by
  unfold keyboardRoutine
  simp only
  split_ifs
  · exact SameFiles.other rfl rfl
  · have hput : SameFiles s (s.putChar (charOf scan beyond)) := .other rfl rfl
    split
    · exact (sameFiles_serveReader ..).imp (fun t ht => hput.trans ht)
    · trivial
  · exact SameFiles.refl s

/-! ## The whole step

What the calls do is left to a predicate that does not see what the entry code, a page fault and
`sys_exit` do (`hdata`). -/

lemma sameRecords_printFault (s : Kernel) : SameRecords s s.printFault :=
  .other rfl rfl rfl rfl rfl rfl

lemma sameData_printFault (s : Kernel) : SameData s s.printFault :=
  s.sameRecords_printFault.toSameData

section

variable {P : Kernel → Prop} (hrecords : ∀ s t, SameRecords s t → P s → P t)

include hrecords

lemma records_pageFaultRoutine {s : Kernel} (h : P s) (cause : ExitCause) :
    (s.pageFaultRoutine cause).Leaves P := by
  unfold pageFaultRoutine
  split_ifs
  · exact hrecords _ _ s.sameRecords_printFault h
  · trivial

lemma records_finish {o : Outcome Kernel ℤ} (h : o.Leaves P) : (finish o).Leaves P := by
  cases o with
  | ret r t => exact hrecords _ _ (t.sameRecords_setEax r) h
  | switched t => exact h
  | fault t => exact records_pageFaultRoutine hrecords h _
  | stop r => trivial

lemma records_finishInt {o : Outcome Kernel Unit} (h : o.Leaves P) : (finishInt o).Leaves P := by
  cases o with
  | ret r t => exact h
  | switched t => exact h
  | fault t => exact records_pageFaultRoutine hrecords h _
  | stop r => trivial

lemma records_finishExcept {o : Except Stop (ℤ × Kernel)} (h : ∀ r t, o = .ok (r, t) → P t) :
    (finishExcept o).Leaves P := by
  match o with
  | .ok (r, t) => exact hrecords _ _ (t.sameRecords_setEax r) (h r t rfl)
  | .error r => trivial

end

section

variable {P : Kernel → Prop} (hdata : ∀ s t, SameData s t → P s → P t)

include hdata

lemma leaves_finish {o : Outcome Kernel ℤ} (h : o.Leaves P) : (finish o).Leaves P :=
  records_finish (fun s t hr => hdata s t hr.toSameData) h

lemma leaves_finishInt {o : Outcome Kernel Unit} (h : o.Leaves P) : (finishInt o).Leaves P :=
  records_finishInt (fun s t hr => hdata s t hr.toSameData) h

lemma leaves_finishExcept {o : Except Stop (ℤ × Kernel)} (h : ∀ r t, o = .ok (r, t) → P t) :
    (finishExcept o).Leaves P :=
  records_finishExcept (fun s t hr => hdata s t hr.toSameData) h

/-- A step keeps what its phase before `sys_exit` keeps. -/
lemma leaves_step {s t : Kernel} {e : Event} (h : (s.dispatch e).Leaves P)
    (hst : s.step e = .ok t) : P t := by
  unfold step at hst
  cases hd : s.dispatch e with
  | done u =>
    rw [hd] at h hst
    simp only [Except.ok.injEq] at hst
    exact hst ▸ h
  | exits cause u =>
    rw [hd] at h hst
    exact hdata _ _ (sameData_afterExit hst) h
  | stop r => simp [hd] at hst

end

/-- The calls that reach the file tables. -/
def FileAction : Action → Prop
  | .write .. | .read .. | .open .. | .close _ | .dup _ | .unlink .. | .fork => True
  | _ => False

/-- The calls that reach neither the file tables nor the keyboard nor the clock. -/
lemma sameRecords_dispatch (s : Kernel) (e : Event) (h : ¬ FileAction e.act)
    (hkey : ∀ scan beyond, e.act ≠ .key scan beyond) (hclock : e.act ≠ .clock) :
    (s.dispatch e).Leaves (SameRecords s) := by
  have hrecords : ∀ t u, SameRecords t u → SameRecords s t → SameRecords s u :=
    fun t u htu hst => hst.trans htu
  have henter := s.sameRecords_enter e.regs
  have hok : ∀ p : ℤ × Kernel, SameRecords s p.2 → (finishExcept (.ok p)).Leaves (SameRecords s) := by
    intro p hp
    refine records_finishExcept hrecords (fun r t ht => ?_)
    simp only [Except.ok.injEq] at ht
    rwa [ht] at hp
  unfold dispatch
  cases hact : e.act with
  | getpid => exact hok _ henter
  | exit eax => exact henter
  | semInit nSem value => exact hok _ (henter.trans (sameRecords_sysSemInit ..))
  | semWait nSem =>
    exact records_finish hrecords ((sameRecords_sysSemWait ..).imp (fun t ht => henter.trans ht))
  | semSignal nSem =>
    exact records_finishExcept hrecords (fun r t ht => henter.trans (sameRecords_sysSemSignal ht))
  | semDestroy nSem =>
    exact records_finishExcept hrecords (fun r t ht => henter.trans (sameRecords_sysSemDestroy ht))
  | nice quantum =>
    refine hok _ (henter.trans ?_)
    unfold sysNice
    split_ifs
    · exact .change rfl rfl rfl rfl rfl rfl rfl
    · exact .refl _
  | getStats spid st beyond =>
    refine records_finish hrecords ?_
    unfold sysGetStats
    split_ifs
    all_goals try exact henter
    refine (Memory.samePages_copyToUser ..).leaves.lift fun mm hmm => ?_
    exact henter.trans (.other rfl rfl rfl rfl hmm.table rfl)
  | niSyscall => exact hok _ henter
  | clock => exact absurd hact hclock
  | key scan beyond => exact absurd hact (hkey scan beyond)
  | store addr b =>
    simp only
    split_ifs
    · exact SameRecords.other rfl rfl rfl rfl rfl rfl
    · exact records_pageFaultRoutine hrecords (.refl s) _
  | pageFault => exact records_pageFaultRoutine hrecords (.refl s) _
  | write | read | «open» | close | dup | unlink | fork =>
    rw [hact] at h
    exact absurd trivial h

/-- The calls that reach neither the file tables nor the keyboard. -/
lemma sameData_dispatch (s : Kernel) (e : Event) (h : ¬ FileAction e.act)
    (hkey : ∀ scan beyond, e.act ≠ .key scan beyond) : (s.dispatch e).Leaves (SameData s) := by
  by_cases hclock : e.act = .clock
  · rw [dispatch, hclock]
    exact leaves_finishInt (fun t u htu hst => hst.trans htu)
      ((leaves_clockRoutine ..).imp (fun t ht => (s.sameData_enter e.regs).trans ht.1))
  · exact (s.sameRecords_dispatch e h hkey hclock).imp (fun t ht => ht.toSameData)

lemma sameFiles_dispatch (s : Kernel) (e : Event) (h : ¬ FileAction e.act) :
    (s.dispatch e).Leaves (SameFiles s) := by
  by_cases hkey : ∃ scan beyond, e.act = .key scan beyond
  · obtain ⟨scan, beyond, hact⟩ := hkey
    rw [dispatch, hact]
    exact leaves_finishInt (fun t u htu hst => hst.trans htu.toSameFiles)
      ((sameFiles_keyboardRoutine ..).imp (fun t ht => (s.sameFiles_enter e.regs).trans ht))
  · refine (s.sameData_dispatch e h (fun scan beyond hact => hkey ⟨scan, beyond, hact⟩)).imp ?_
    exact fun t ht => ht.toSameFiles

/-- A step that is no file call leaves the tables alone. -/
lemma sameFiles_step {s t : Kernel} {e : Event} (h : ¬ FileAction e.act)
    (hst : s.step e = .ok t) : SameFiles s t :=
  leaves_step (fun _ _ htu hs => hs.trans htu.toSameFiles) (s.sameFiles_dispatch e h) hst

end Kernel

end ZeOS
