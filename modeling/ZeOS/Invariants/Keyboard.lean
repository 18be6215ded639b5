import ZeOS.Invariants.References
import ZeOS.UserPointers

/-!
# What reaches the keyboard

The circular buffer is changed by a key press and by a read of the keyboard, and so is the read
that a blocked process waits with.  Everything else leaves the buffer, the queue of blocked readers
and their reads alone (`sameKeyboard_step`), so that an invariant of the keyboard has to be looked
at for these two events only.
-/

namespace ZeOS

open FileSystem IntrusiveList GuardedRun

/-- The circular buffer is the same, and so are the reads of the live processes other than the
running one. -/
structure SameReaders (s t : Kernel) : Prop where
  kbd : t.kbd = s.kbd
  reader : ∀ u, u ≠ s.cur → s.Live u → (t.task u).reader = (s.task u).reader

namespace SameReaders

lemma of_sameData {s t : Kernel} (h : SameData s t) : SameReaders s t :=
  ⟨h.kbd, fun u _ _ => h.reader u⟩

lemma trans_sameData {s t u : Kernel} (h : SameReaders s t) (h' : SameData t u) : SameReaders s u :=
  ⟨h'.kbd.trans h.kbd, fun v hv hl => (h'.reader v).trans (h.reader v hv hl)⟩

/-- Only the running process differs. -/
lemma change {s t : Kernel} {k : Task} (htask : t.task = Function.update s.task s.cur k)
    (hkbd : t.kbd = s.kbd) : SameReaders s t :=
  ⟨hkbd, fun u hu _ => by rw [htask, Function.update_of_ne hu]⟩

end SameReaders

namespace Kernel

variable {s t : Kernel} {e : Event} {Q : Node → List Slot}

/-- `sys_read` comes to `sys_read_keyboard`. -/
def ReadsKeyboard (s : Kernel) (fd : ℤ) (buffer : ℕ) (size : ℤ) : Prop :=
  ∃ v f, s.ReadsDevice fd buffer size v f ∧ (s.fs.ops f).sysReadDev = .sysReadKeyboard

lemma readsKeyboard_enter (s : Kernel) (regs : SavedRegs) (fd : ℤ) (buffer : ℕ) (size : ℤ) :
    (s.enter regs).ReadsKeyboard fd buffer size ↔ s.ReadsKeyboard fd buffer size := by
  have hfds : (s.enter regs).current.fileDescriptors = s.current.fileDescriptors := by
    simp [enter, current]
  have hopen : (s.enter regs).openFile fd = s.openFile fd := by
    rw [openFile, openFile, hfds]
  refine exists_congr fun v => exists_congr fun f => and_congr_left fun _ => ?_
  constructor
  · rintro ⟨h1, h2, h3, h4, h5, h6, h7⟩
    exact ⟨hopen ▸ h1, h2, h3, h4, h5, h6, h7⟩
  · rintro ⟨h1, h2, h3, h4, h5, h6, h7⟩
    exact ⟨hopen ▸ h1, h2, h3, h4, h5, h6, h7⟩

/-- A read that comes to the keyboard is the call of `sys_read_keyboard`. -/
lemma ReadsKeyboard.sysRead_eq {fd : ℤ} {buffer : ℕ} {size : ℤ}
    (h : s.ReadsKeyboard fd buffer size) : s.sysRead fd buffer size =
      (s.updTask s.cur fun k => { k with size := size, buffer := buffer }).sysReadKeyboard size := by
  obtain ⟨v, f, hdev, hkbd⟩ := h
  rw [hdev.sysRead_eq, readDev]
  simp only [updTask_fs, hkbd]

lemma setPending_pendingChars (s : Kernel) (size : ℤ) :
    (s.setPending size).current.pendingChars =
      if size > s.kbd.circChars then size - s.kbd.circChars else 0 := by
  simp [setPending, current]

/-- Without the last character or a full buffer nothing is delivered. -/
lemma serveReader_of_waits {b : Slot} (hpend : 1 < (s.task b).pendingChars)
    (hcirc : s.kbd.circChars < circularSize) :
    s.serveReader b =
      .ret () (s.updTask b fun k => { k with pendingChars := k.pendingChars - 1 }) := by
  rw [serveReader]
  simp only [updTask_task_self]
  rw [if_neg (by omega), if_neg]
  show ¬ s.kbd.circChars ≥ circularSize
  omega

lemma sameReaders_sysWrite (s : Kernel) (fd : ℤ) (buffer : ℕ) (size : ℤ) :
    (s.sysWrite fd buffer size).Leaves (SameReaders s) := by
  have hrefl : SameReaders s s := .of_sameData (.refl s)
  unfold sysWrite
  split
  · exact hrefl
  · split_ifs
    all_goals try exact hrefl
    split
    · trivial
    · split
      · exact hrefl
      · exact Outcome.leaves_lift (fun sc => ⟨rfl, fun _ _ _ => rfl⟩) _
      · exact Outcome.leaves_lift (fun fs => ⟨rfl, fun _ _ _ => rfl⟩) _

/-- A read of something else. -/
lemma sameReaders_sysRead {fd : ℤ} {buffer : ℕ} {size : ℤ} (h : ¬ s.ReadsKeyboard fd buffer size) :
    (s.sysRead fd buffer size).Leaves (SameReaders s) ∧
      (s.sysRead fd buffer size).Ends (Quiet s) := by
  have hrefl : SameReaders s s := .of_sameData (.refl s)
  have hnote : Quiet s (s.updTask s.cur fun k => { k with size := size, buffer := buffer }) :=
    .updTask s s.cur _ rfl rfl rfl
  unfold sysRead
  split
  · exact ⟨hrefl, .refl s⟩
  · next v hv =>
    split_ifs with h1 h2 h3 h4
    all_goals try exact ⟨hrefl, .refl s⟩
    simp only [updTask_fs, updTask_mm]
    split
    · exact ⟨trivial, by simp [Outcome.Ends]⟩
    · next f hf =>
      split
      · exact ⟨SameReaders.change rfl rfl, hnote⟩
      · next hdev =>
        refine absurd ⟨v, f, ⟨hv, by omega, by omega, h3, by simpa using h4, hf, ?_⟩, hdev⟩ h
        rw [hdev]
        decide
      · refine ⟨Outcome.leaves_lift (fun st => ?_) _, (samePages_readLoop ..).lift fun st hst => ?_⟩
        · exact .change (s := s) (k := { s.current with size := size, buffer := buffer }) rfl rfl
        · exact ⟨hnote.sched.trans (.other rfl rfl rfl rfl rfl), hst⟩

/-- The events that reach the keyboard. -/
def TouchesKeyboard (s : Kernel) (e : Event) : Prop :=
  match e.act with
  | .key .. => True
  | .read fd buffer size => s.ReadsKeyboard fd buffer size
  | _ => False

lemma sameReaders_enter {regs : SavedRegs} (h : SameReaders (s.enter regs) t) : SameReaders s t := by
  have hd := s.sameData_enter regs
  have hq := s.quiet_enter regs
  refine ⟨h.kbd.trans hd.kbd, fun u hu hl => ?_⟩
  exact (h.reader u hu ((hq.sched.live_iff u).mpr hl)).trans (hd.reader u)

lemma sameReaders_dispatch (hs : SchedOk s Q) (hno : ¬ s.TouchesKeyboard e) :
    (s.dispatch e).Leaves (SameReaders s) := by
  have hdata : ∀ t u, SameData t u → SameReaders s t → SameReaders s u :=
    fun t u htu hst => hst.trans_sameData htu
  have hq := s.quiet_enter e.regs
  have henter : ∀ t, SameReaders (s.enter e.regs) t → SameReaders s t := fun t => sameReaders_enter
  have hrefl : SameReaders s (s.enter e.regs) := .of_sameData (s.sameData_enter e.regs)
  have hwith : ∀ fs d, SameReaders s ((s.enter e.regs).withFiles fs d) :=
    fun fs d => henter _ (.change rfl rfl)
  by_cases hfile : FileAction e.act
  · obtain ⟨regs, act⟩ := e
    cases act with
    | write fd buffer size => exact leaves_finish hdata ((sameReaders_sysWrite ..).imp henter)
    | read fd buffer size =>
      have hno' : ¬ (s.enter regs).ReadsKeyboard fd buffer size := by
        rw [readsKeyboard_enter]
        exact hno
      exact leaves_finish hdata ((sameReaders_sysRead hno').1.imp henter)
    | «open» addr path flags =>
      exact leaves_finish hdata (leaves_sysOpen hrefl fun _ fs fds _ _ => hwith fs fds)
    | close fd =>
      refine leaves_finishExcept hdata (fun r t ht => ?_)
      obtain ⟨fs, fds, rfl⟩ := sysClose_ok ht
      exact hwith fs fds
    | dup fd =>
      refine leaves_finishExcept (o := .ok ((s.enter regs).sysDup fd)) hdata (fun r t ht => ?_)
      simp only [sysDup, Except.ok.injEq, Prod.mk.injEq] at ht
      exact ht.2 ▸ hwith _ _
    | unlink addr path =>
      exact leaves_finish hdata
        (leaves_sysUnlink hrefl fun _ fs _ _ => henter _ ⟨rfl, fun _ _ _ => rfl⟩)
    | fork =>
      refine leaves_finishExcept hdata (fun r t ht => henter t ?_)
      have hcur : (s.enter regs).Live (s.enter regs).cur := by
        rw [hq.sched.live_iff, hq.sched.cur]
        exact hs.cur_live
      have hne : ∀ {new u : Slot}, (s.enter regs).srchFreeTask = some new → (s.enter regs).Live u →
          u ≠ new := by
        rintro new u hnew hl rfl
        exact absurd hl (not_le.mpr (srchFreeTask_some hnew))
      rcases (s.enter regs).sysFork_cases hcur with ⟨-, hf⟩ | ⟨new, hnew, -, ⟨mm, -, hf⟩ |
        ⟨frames, mm, -, ⟨-, hf⟩ | ⟨-, hf⟩⟩⟩
      · simp only [hf, Except.ok.injEq, Prod.mk.injEq] at ht
        exact ht.2 ▸ .of_sameData (.refl _)
      · simp only [hf, Except.ok.injEq, Prod.mk.injEq] at ht
        refine ht.2 ▸ ⟨rfl, fun u _ hl => ?_⟩
        simp [forkFailed, hne hnew hl]
      · simp only [hf, Except.ok.injEq, Prod.mk.injEq] at ht
        refine ht.2 ▸ ⟨rfl, fun u _ hl => ?_⟩
        simp [forked, hne hnew hl]
      · simp [hf] at ht
    | _ => simp [FileAction] at hfile
  · refine (s.sameData_dispatch e hfile (fun scan beyond hact => hno ?_)).imp (fun t ht => .of_sameData ht)
    rw [TouchesKeyboard, hact]
    trivial

end Kernel

/-! ## The queue of blocked readers -/

lemma Calm.keyboardQueue {act : Action} {x y : Config} (h : Calm act x y) (hact : ¬ act.OnKeyboard) :
    y.2 .keyboardQueue = x.2 .keyboardQueue := by
  cases h with
  | @wake s Q a u rest hQ ha _ hkbd =>
    have hne : Node.keyboardQueue ≠ a := fun heq => hact (hkbd heq.symm)
    simp [Pool.moved_apply, hne]
  | fork => simp
  | release => rfl
  | _ => rfl

lemma Handover.keyboardQueue {act : Action} {x y : Config} (h : Handover act x y)
    (hact : ¬ act.OnKeyboard) : y.2 .keyboardQueue = x.2 .keyboardQueue := by
  cases h with
  | @move s Q h u rest i ha h0 _ hkbd =>
    have hne : Node.keyboardQueue ≠ h := fun heq => hact (hkbd heq.symm)
    simp [Pool.moved_apply, hne]
  | exit => simp [leftQueues]

lemma Turn.keyboardQueue {act : Action} {x y : Config} (h : Turn act x y) (hact : ¬ act.OnKeyboard) :
    y.2 .keyboardQueue = x.2 .keyboardQueue := by
  have hcalms : ∀ {z : Config}, Calms act x z → z.2 .keyboardQueue = x.2 .keyboardQueue := by
    intro z hz
    induction hz with
    | refl => rfl
    | tail _ hc ih => exact (hc.keyboardQueue hact).trans ih
  rcases h with hc | ⟨z, hc, hh⟩
  · exact hcalms hc
  · exact (hh.keyboardQueue hact).trans (hcalms hc)

namespace Kernel

variable {s t : Kernel} {e : Event} {Q : Node → List Slot}

/-- The circular buffer, the queue of blocked readers and their reads are the same. -/
structure SameKeyboard (s t : Kernel) : Prop where
  kbd : t.kbd = s.kbd
  queue : t.keyboardQueue = s.keyboardQueue
  reader : ∀ u ∈ s.keyboardQueue, (t.task u).reader = (s.task u).reader

/-- A blocked reader is live and does not run. -/
lemma reader_ne_cur (hs : SchedOk s Q) {u : Slot} (hu : u ∈ s.keyboardQueue) :
    u ≠ s.cur ∧ s.Live u := by
  rw [hs.keyboardQueue_eq] at hu
  refine ⟨?_, (hs.live_iff u).mpr ⟨_, hu⟩⟩
  rintro rfl
  exact absurd (hs.pool.eq_of_mem hu hs.cur_mem) (by simp)

lemma SameReaders.sameKeyboard (hs : SchedOk s Q) (h : SameReaders s t)
    (hqueue : t.keyboardQueue = s.keyboardQueue) : SameKeyboard s t :=
  ⟨h.kbd, hqueue, fun u hu => h.reader u (reader_ne_cur hs hu).1 (reader_ne_cur hs hu).2⟩

/-- `sys_exit` leaves the keyboard alone, when it finds two processes to run. -/
lemma sameKeyboard_afterExit {cause : ExitCause} (hs : SystemOk s Q)
    (hg : ∀ s₂, s.current.pid ≠ 0 → destroyOwned (List.finRange semMaxValue) s = .ok s₂ →
      2 ≤ s₂.leave.runqueue.length) (h : afterExit cause s.sysExit = .ok t) : SameKeyboard s t := by
  have hdata := sameData_afterExit h
  refine ⟨hdata.kbd, ?_, fun u _ => hdata.reader u⟩
  by_cases h0 : s.cur = 0
  · have hpid := hs.sched.current_pid_eq_zero_iff.mpr h0
    rw [sysExit, if_neg (not_not.mpr hpid)] at h
    cases cause with
    | «syscall» eax =>
      simp only [afterExit, Except.ok.injEq] at h
      exact h ▸ rfl
    | userFault =>
      simp only [afterExit, Except.ok.injEq] at h
      exact h ▸ rfl
    | kernelFault => simp [afterExit] at h
  · have hpid : s.current.pid ≠ 0 := fun hp => h0 (hs.sched.current_pid_eq_zero_iff.mp hp)
    obtain ⟨u, Q', hu, hQ', -, -, hok, -, -, ⟨-, v, rest, -, hsw, hh⟩ | ⟨hlen, -⟩⟩ :=
      hs.sysExit_cases h0
    · rw [hsw, afterExit, Except.ok.injEq] at h
      have ht := (hh .clock).schedOk hok.sched
      rw [← h, ht.keyboardQueue_eq, hs.sched.keyboardQueue_eq]
      simp only [hQ', leftQueues, releasedQueues, ne_eq, reduceCtorEq, not_false_eq_true,
        Function.update_of_ne]
    · have := hg u hpid hu
      omega

lemma sameKeyboard_of_exits {cause : ExitCause} {s₁ : Kernel} (hs : SystemOk s Q)
    (hg : s.ExitsFindTwo e) (hd : s.dispatch e = .exits cause s₁) (hst : s.step e = .ok t) :
    SameKeyboard s₁ t := by
  have heff := hs.sched.dispatch_effects e
  rw [hd] at heff
  obtain ⟨Q₁, hc⟩ := heff
  rw [Kernel.step, hd] at hst
  exact sameKeyboard_afterExit (hc.systemOk hs) (fun s₂ hpid hok => hg cause s₁ s₂ hd hpid hok) hst

lemma keyboardQueue_of_quiet (h : Quiet s t) : t.keyboardQueue = s.keyboardQueue := by
  unfold Kernel.keyboardQueue Kernel.queue
  rw [h.sched.links]

/-- An event that does not reach the keyboard leaves it alone. -/
lemma sameKeyboard_step (hs : SystemOk s Q) (hg : s.ExitsFindTwo e) (hno : ¬ s.TouchesKeyboard e)
    (hst : s.step e = .ok t) : SameKeyboard s t := by
  have hsame : SameReaders s t :=
    leaves_step (fun t u htu hst => hst.trans_sameData htu) (sameReaders_dispatch hs.sched hno) hst
  refine SameReaders.sameKeyboard hs.sched hsame ?_
  by_cases hact : e.act.OnKeyboard
  · -- a read of something else
    obtain ⟨regs, act⟩ := e
    cases act with
    | read fd buffer size =>
      have hno' : ¬ (s.enter regs).ReadsKeyboard fd buffer size := by
        rw [readsKeyboard_enter]
        exact hno
      have hq := (sameReaders_sysRead hno').2
      have henter := s.quiet_enter regs
      cases hd : s.dispatch ⟨regs, .read fd buffer size⟩ with
      | done t' =>
        rw [step_of_done hd, Except.ok.injEq] at hst
        rcases finish_eq_done hd with ⟨r, u, ho, rfl⟩ | ho
        · rw [ho] at hq
          exact hst ▸ keyboardQueue_of_quiet (henter.trans (.trans hq (u.quiet_setEax r)))
        · rw [ho] at hq
          exact hq.elim
      | exits cause s₁ =>
        obtain ⟨u, ho, hu⟩ := finish_eq_exits hd
        obtain ⟨-, rfl⟩ := pageFaultRoutine_eq_exits hu
        rw [ho] at hq
        rw [(sameKeyboard_of_exits hs hg hd hst).queue]
        exact keyboardQueue_of_quiet (henter.trans (.trans hq u.quiet_printFault))
      | stop r =>
        rw [Kernel.step, hd] at hst
        simp at hst
    | key scan beyond => exact absurd trivial hno
    | _ => exact absurd hact (by simp [Action.OnKeyboard])
  · obtain ⟨Q', hturn⟩ := (hs.step_effects e hg).1 t hst
    have ht := (hturn.systemOk hs).sched
    rw [ht.keyboardQueue_eq, hs.sched.keyboardQueue_eq]
    exact hturn.keyboardQueue hact

/-! ## Standard input -/

/-- A process has the keyboard open as its descriptor 0, as task 0 has from the start and its
children get from it. -/
structure HasStdin (s : Kernel) (u : Slot) : Prop where
  descriptor : (s.task u).fileDescriptors 0 = some 0
  mode : (s.fs.fdt 0).accessMode ≠ oWronly
  device : (s.fs.fdt 0).logicDev = some 0
  routine : (s.fs.ops 0).sysReadDev = .sysReadKeyboard

lemma HasStdin.of_sameFiles {u : Slot} (h : s.HasStdin u) (hsame : SameFiles s t) : t.HasStdin u :=
  ⟨(congrFun (hsame.fds u) 0).trans h.descriptor, hsame.fs ▸ h.mode, hsame.fs ▸ h.device,
    hsame.fs ▸ h.routine⟩

lemma HasStdin.readsKeyboard (h : s.HasStdin s.cur) {buffer : ℕ} {size : ℤ} (h0 : 0 ≤ size)
    (hle : size ≤ maxSize) (hacc : s.mm.accessOk 0 buffer size = true) :
    s.ReadsKeyboard 0 buffer size := by
  refine ⟨0, 0, ⟨h.descriptor, h0, hle, h.mode, hacc, h.device, ?_⟩, h.routine⟩
  rw [h.routine]
  decide

end Kernel

lemma Env.boot_hasStdin (E : Env) : E.boot.HasStdin 0 := ⟨rfl, by
  show (zeroEnv.boot.fs.fdt 0).accessMode ≠ oWronly
  decide, rfl, rfl⟩

/-- After the first fork, task 0 and its child have the keyboard open. -/
lemma Env.boot_fork_hasStdin (E : Env) {t : Kernel} (hst : E.boot.step (plain .fork) = .ok t) :
    t.HasStdin 0 ∧ t.HasStdin 1 := by
  have h1 : t.Live 1 := by
    obtain ⟨t', hrun, ht', -, -⟩ := E.boot_fork
    obtain ⟨t'', -, hst', hnil⟩ := run_cons_iff.mp hrun
    obtain rfl : t'' = t' := run_nil_iff.mp hnil
    rw [hst, Except.ok.injEq] at hst'
    rw [hst', ht'.sched.live_iff]
    exact ⟨.runqueue, by simp⟩
  have h0 : ¬ E.boot.Live 1 := by
    rw [E.boot_live_iff]
    decide
  have hstd := E.boot_hasStdin
  rcases Kernel.step_fork_tables E.boot_systemOk rfl hst with ⟨-, hold⟩ |
    ⟨new, hdead, hnew, hfs, hfds, hlive⟩
  · exact absurd ((hold 1).1.mp h1) h0
  · have hnew1 : 1 = new := by
      by_contra hne
      exact h0 ((hlive 1 hne).mp h1)
    subst hnew1
    have hmode : (t.fs.fdt 0).accessMode ≠ oWronly := by
      rw [hfs, Kernel.forkRefs_accessMode]
      exact hstd.mode
    have hdev : (t.fs.fdt 0).logicDev = some 0 := by
      rw [hfs, Kernel.forkRefs_logicDev]
      exact hstd.device
    have hops : (t.fs.ops 0).sysReadDev = .sysReadKeyboard := by
      rw [hfs, Kernel.forkRefs_ops]
      exact hstd.routine
    refine ⟨⟨?_, hmode, hdev, hops⟩, ⟨?_, hmode, hdev, hops⟩⟩
    · show t.fds 0 0 = some 0
      rw [hfds, Function.update_of_ne (by decide)]
      exact hstd.descriptor
    · show t.fds 1 0 = some 0
      rw [hfds, Function.update_self]
      exact hstd.descriptor

/-- Ticks of the clock leave the tables and the descriptors alone. -/
lemma ExitRun.sameFiles_ticks {s t : Kernel} {n : ℕ}
    (h : ExitRun s (List.replicate n (plain .clock)) t) : SameFiles s t := by
  induction n generalizing s with
  | zero =>
    obtain rfl : s = t := run_nil_iff.mp h
    exact .refl s
  | succ n ih =>
    rw [List.replicate_succ] at h
    obtain ⟨u, -, hst, hrest⟩ := run_cons_iff.mp h
    have hclock : ¬ Kernel.FileAction (plain .clock).act := by simp [plain, Kernel.FileAction]
    exact (Kernel.sameFiles_step hclock hst).trans (ih hrest)

/-- The child of task 0 has the keyboard open. -/
lemma ExitRun.child_hasStdin {E : Env} {s : Kernel} {n : ℕ}
    (h : ExitRun E.boot (plain .fork :: List.replicate n (plain .clock)) s) : s.HasStdin 1 := by
  obtain ⟨s₁, -, hst, hticks⟩ := run_cons_iff.mp h
  exact (E.boot_fork_hasStdin hst).2.of_sameFiles (ExitRun.sameFiles_ticks hticks)

/-- In a run with `task[]` behind the kernel, a read of less than a page passes `access_ok` when it
starts in user space. -/
lemma linkedEnv_accessOk {es : List Event} {s : Kernel} (h : ExitRun linkedEnv.boot es s) {addr n : ℕ}
    (haddr : lUserStart ≤ addr ∧ addr ≤ userEnd) (hn : n + 1 < pageSize) :
    s.mm.accessOk 0 addr n = true := by
  obtain ⟨D, W, ht⟩ := h.table
  have hn' : n + 1 < 4096 := hn
  have hpage : s.mm.PageOk ((0 : ℤ) = 1) 0 := by
    rw [Memory.PageOk, ht.other 0 (.inl (by decide)),
      ← linkedEnv.boot_tableIs.other 0 (.inl (by decide)), linkedEnv_boot_page_zero]
    exact ⟨rfl, fun _ => rfl⟩
  rw [Memory.accessOk_iff 0 (by omega)]
  refine ⟨haddr, ?_, .inl rfl, hpage, ?_⟩
  · show n ≤ 28 * 4096
    omega
  · rw [show (1 + n) / pageSize = 0 from Nat.div_eq_of_lt (by omega)]
    exact hpage

end ZeOS
