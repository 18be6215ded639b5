import ZeOS.FileBlocks
import ZeOS.FileStores
import ZeOS.ForkRollback
import ZeOS.Invariants.Accounts
import ZeOS.Invariants.Writes
import ZeOS.KeyboardRing
import ZeOS.UserPointers

/-!
# What can stop the kernel

A run of the kernel ends when the kernel loops forever or loses its way in its own data.  After boot
almost nothing of this can happen: its queues, tables and page frames hold together, so no loop over
them runs astray and no null pointer is followed, whatever the processes ask for.  What is left are
four stops, and `Kernel.StopCause` says what each of them needs (`stops_only_for`).

A fault is fatal for the whole kernel only while task 0 runs: the fault of another process, in its
own code or in a system call that it made, ends that process and hands the processor on.
-/

namespace ZeOS

open IntrusiveList

/-! ## How kernel code can fail -/

namespace Outcome

variable {σ τ α : Type} {o : Outcome σ α} {why why' : Stop → Prop} {faults faults' : Prop}

/-- Kernel code stops, or meets a page that is not present, only for a reason. -/
def Fails (why : Stop → Prop) (faults : Prop) : Outcome σ α → Prop
  | .ret _ _ => True
  | .switched _ => True
  | .fault _ => faults
  | .stop r => why r

lemma Fails.imp (h : o.Fails why faults) (hstop : ∀ r, o = .stop r → why r → why' r)
    (hfault : faults → faults') : o.Fails why' faults' := by
  cases o with
  | ret | switched => trivial
  | fault t => exact hfault h
  | stop r => exact hstop r rfl h

lemma Fails.lift (h : o.Fails why faults) (f : σ → τ) : (o.lift f).Fails why faults := by
  cases o <;> exact h

end Outcome

namespace Memory

variable {m m' : Memory} {addr n : ℕ}

/-- Some byte of a block has no page. -/
def Misses (m : Memory) (addr n : ℕ) : Prop := ∃ j < n, m.present (addr + j) = false

lemma Misses.mono (h : m.Misses addr n) {k : ℕ} (hnk : n ≤ k) : m.Misses addr k := by
  obtain ⟨j, hj, hp⟩ := h
  exact ⟨j, by omega, hp⟩

/-- A miss behind the first bytes. -/
lemma Misses.shift {k : ℕ} (h : m.Misses (addr + k) n) : m.Misses addr (n + k) := by
  obtain ⟨j, hj, hp⟩ := h
  rw [Nat.add_assoc] at hp
  exact ⟨k + j, by omega, hp⟩

lemma copyBytes_fails (bs : List Byte) :
    ∀ (m : Memory) (addr : ℕ), (m.copyBytes addr bs).Fails (fun _ => False) (m.Misses addr bs.length) := by
  induction bs with
  | nil => exact fun _ _ => trivial
  | cons b bs ih =>
    intro m addr
    rw [copyBytes]
    split_ifs with hp
    · exact (ih _ _).imp (fun _ _ => id) Misses.shift
    · exact ⟨0, by simp, by simpa using hp⟩

/-- `copy_to_user` faults on a page that is not present. -/
lemma copyToUser_fails (m : Memory) (addr : ℕ) (bs : List Byte) :
    (m.copyToUser addr bs).Fails (fun _ => False) (m.Misses addr bs.length) := by
  induction m, addr, bs using copyToUser.induct with
  | case1 m addr b₀ b₁ b₂ b₃ b₄ bs hp ih =>
    rw [copyToUser, if_pos hp]
    exact ih.imp (fun _ _ => id) Misses.shift
  | case2 m addr b₀ b₁ b₂ b₃ b₄ bs hp =>
    rw [copyToUser, if_neg hp]
    rw [Bool.and_eq_true, not_and_or, Bool.not_eq_true, Bool.not_eq_true] at hp
    rcases hp with hp | hp
    · exact ⟨0, by simp, hp⟩
    · exact ⟨3, by simp, hp⟩
  | case3 m addr bs hbs =>
    rw [copyToUser.eq_2 _ _ _ hbs]
    exact copyBytes_fails bs m addr

lemma misses_copyFromUser (h : m.copyFromUser addr n = none) : m.Misses addr n := by
  unfold copyFromUser at h
  split_ifs at h with hall
  simpa [Misses] using hall

lemma misses_strlen {path : List Byte} (h : m.strlen addr path = none) :
    m.Misses addr (path.length + 1) := strlen_eq_none_iff.mp h

end Memory

/-- `sys_write_console` faults on a page that is not present. -/
lemma Screen.writeBlocks_fails (m : Memory) (buffer size : ℕ) (n : ℕ) :
    ∀ (i : ℕ) (sc : Screen), i + n = size / maxWriteBlock →
      (writeBlocks m buffer size n i sc).Fails (fun _ => False) (m.Misses buffer size) := by
  induction n with
  | zero =>
    intro i sc _
    rw [writeBlocks]
    split_ifs
    · split
      · next hcopy =>
        refine (Memory.misses_copyFromUser hcopy).shift.mono ?_
        have := Nat.mod_le size maxWriteBlock
        omega
      · trivial
    · trivial
  | succ n ih =>
    intro i sc hi
    rw [writeBlocks]
    split
    · next hcopy =>
      refine (Memory.misses_copyFromUser hcopy).shift.mono ?_
      have := Nat.div_mul_le_self size maxWriteBlock
      simp only [maxWriteBlock] at *
      omega
    · exact ih _ _ (by omega)

namespace FileSystem

variable {m : Memory} {v : FdtId} {f : FileId} {buffer size : ℕ}

/-- `sys_read_file` faults on a page that is not present. -/
lemma readLoop_fails (n : ℕ) :
    ∀ (i : ℕ) (b d : ℤ) (fs : FileSystem) (m : Memory),
      (readLoop v f buffer size n i b d (fs, m)).Fails (fun _ => False) (m.Misses (buffer + i) n) := by
  induction n with
  | zero => exact fun _ _ _ _ _ => trivial
  | succ n ih =>
    intro i b d fs m
    have hshift : m.Misses (buffer + i + 1) n → m.Misses (buffer + i) (n + 1) :=
      Memory.Misses.shift
    rw [readLoop]
    simp only
    by_cases hmore : (fs.fdt v).offset < (fs.dir f).size
    · rw [if_pos hmore]
      split
      · trivial
      · by_cases hp : m.present (buffer + i) = true
        · rw [if_pos hp]
          exact (ih _ _ _ _ _).imp (fun _ _ => id) hshift
        · rw [if_neg hp]
          exact ⟨0, by omega, by simpa using hp⟩
    · rw [if_neg hmore]
      trivial

/-- `sys_write_file` faults on a page that is not present, and stops at the end of the disk only. -/
lemma writeLoop_fails (n : ℕ) (c : Cursor) :
    (writeLoop m v f buffer n 0 c.block c.byte c.fs).Fails (· = .offDisk) (m.Misses buffer n) := by
  have hends : WriteEnds m f buffer n (fun _ _ => True) _ :=
    writeLoop_rule (v := v) (fun _ _ _ _ _ _ => trivial) (Nat.zero_add n) (c := c) trivial
  generalize writeLoop m v f buffer n 0 c.block c.byte c.fs = o at hends
  cases o with
  | ret | switched => trivial
  | fault fs' =>
    obtain ⟨k, hk, -, -, -, hp, -⟩ := hends
    exact ⟨k, hk, by simpa using hp⟩
  | stop r => exact hends

end FileSystem

/-! ## The causes -/

namespace Kernel

/-- An access of the running process, or of the kernel for it or for a reader, meets no page. -/
def MissesPage (s : Kernel) : Action → Prop
  | .write _ buffer size => s.mm.Misses buffer size.toNat
  | .read _ buffer size => s.mm.Misses buffer size.toNat ∨
      (s.windowOf s.cur).Misses (buffer + numPagData * pageSize) size.toNat
  | .open addr path _ => s.mm.Misses addr (path.length + 1)
  | .unlink addr path => s.mm.Misses addr (path.length + 1)
  | .getStats _ st _ => s.mm.Misses st 12
  | .key _ _ => ∃ b rest, s.keyboardQueue = b :: rest ∧
      (s.windowOf b).Misses ((s.task b).buffer + numPagData * pageSize) circularSize
  | .store addr _ => s.mm.userWritable addr = false
  | .pageFault => True
  | _ => False

/-- More characters are to be delivered at once than the local array of `copy_from_circ_buffer`
holds. -/
def Overfull (s : Kernel) : Action → Prop
  | .read _ _ size => circularSize < size ∧ size ≤ s.kbd.circChars
  | .key _ _ => ∃ b rest, s.keyboardQueue = b :: rest ∧ (s.task b).pendingChars ≤ 1 ∧
      circularSize < (s.task b).size
  | _ => False

/-- What it takes for an action to stop the kernel. -/
def StopCause (s : Kernel) (act : Action) : Stop → Prop
  | .hang => s.current.pid = 0 ∧ s.MissesPage act
  | .overrun => s.Overfull act
  | .offDisk => ∃ fd buffer size v f, act = .write fd buffer size ∧
      s.WritesDevice fd buffer size v f ∧ s.fs.IsRegular f ∧
      s.fs.Overruns s.mm v f buffer size.toNat
  | .errorPointer => ∃ addr path flags, act = .open addr path flags ∧
      s.mm.PathOk addr path ∧ s.fs.PointsToError (s.fds s.cur) path flags
  | .notATask | .diverge | .nullPointer | .uninitialised => False

/-- Every descriptor leads to an open file that has a device. -/
def DevicesOk (s : Kernel) : Prop :=
  ∀ u fd v, s.fds u fd = some v → ∃ f, (s.fs.fdt v).logicDev = some f

variable {s t : Kernel} {Q : Node → List Slot} {act : Action} {e : Event} {r : Stop}

/-! ## Descriptors lead to devices -/

/-- The running process gets or gives up one descriptor, and no entry loses its device. -/
lemma DevicesOk.update (h : s.DevicesOk) {fd : Fd} {o : Option FdtId}
    (hfds : t.fds = Function.update s.fds s.cur (Function.update (s.fds s.cur) fd o))
    (hkeep : ∀ v f, (s.fs.fdt v).logicDev = some f → ∃ g, (t.fs.fdt v).logicDev = some g)
    (hnew : ∀ v, o = some v → ∃ f, (t.fs.fdt v).logicDev = some f) : t.DevicesOk := by
  intro u fd' v hv
  rcases fds_of_update (p := (u, fd')) hfds hv with ⟨-, ho⟩ | ⟨-, hold⟩
  · exact hnew v ho
  · obtain ⟨f, hf⟩ := h u fd' v hold
    exact hkeep v f hf

lemma DevicesOk.effect (h : s.DevicesOk) (heff : HasEffect s act t) : t.DevicesOk := by
  have hopened : ∀ (fs : FileSystem) (v : FdtId) (f : FileId) (mode : ℤ), fs.fdt = s.fs.fdt →
      (∀ w g, (s.fs.fdt w).logicDev = some g →
        ∃ g', ((fs.opened v f mode).fdt w).logicDev = some g') ∧
      ∃ g, ((fs.opened v f mode).fdt v).logicDev = some g := by
    intro fs v f mode hfdt
    refine ⟨fun w g hg => ?_, ⟨f, by rw [FileSystem.opened_fdt_self]⟩⟩
    by_cases hwv : w = v
    · exact ⟨f, by rw [hwv, FileSystem.opened_fdt_self]⟩
    · exact ⟨g, by rw [FileSystem.opened_fdt_of_ne _ _ _ _ hwv, hfdt, hg]⟩
  rw [HasEffect] at heff
  generalize hfs : t.fs = fs', hfds : t.fds = D' at heff
  cases heff with
  | same hsame =>
    intro u fd v hv
    rw [hfds] at hv
    rw [hfs, hsame.dev v]
    exact h u fd v hv
  | @opens _ _ _ mode v fd f _ _ _ _ _ =>
    obtain ⟨hkeep, hself⟩ := hopened s.fs v f mode rfl
    refine h.update hfds (hfs ▸ hkeep) fun w hw => ?_
    rw [hfs, ← Option.some.inj hw]
    exact hself
  | @creates _ path _ mode v fd f _ _ _ _ =>
    obtain ⟨hkeep, hself⟩ := hopened (s.fs.popFree.newFile f path s.fs.ffb) v f mode rfl
    refine h.update hfds (hfs ▸ hkeep) fun w hw => ?_
    rw [hfs, ← Option.some.inj hw]
    exact hself
  | @dups v fd new _ hfd _ =>
    refine h.update hfds (fun w f hf => ⟨f, ?_⟩) fun w hw => ?_
    · rw [hfs, incRefs_logicDev, hf]
    · rw [hfs, incRefs_logicDev, ← Option.some.inj hw]
      exact h s.cur fd v hfd
  | @closes v fd f _ _ _ =>
    refine h.update hfds (fun w g hg => ⟨g, ?_⟩) (by simp)
    rw [hfs]
    by_cases hw : w = v
    · subst hw
      simpa using hg
    · simpa [hw] using hg
  | unlinks _ _ _ hfdt =>
    intro u fd v hv
    rw [hfds] at hv
    rw [hfs, hfdt]
    exact h u fd v hv

/-- Every step keeps it: a child has the descriptors of its parent. -/
lemma DevicesOk.step (h : s.DevicesOk) (hok : s.TableOk) (hst : s.step e = .ok t) :
    t.DevicesOk := by
  by_cases hfork : e.act = .fork
  · obtain ⟨hfs, hfds⟩ := step_fork_files hfork hst
    have hdev : ∀ v, (t.fs.fdt v).logicDev = (s.fs.fdt v).logicDev := by
      intro v
      rcases hfs with hfs | hfs <;> rw [hfs]
      exact forkRefs_logicDev ..
    intro u fd v hv
    rw [hfds u] at hv
    rw [hdev]
    split_ifs at hv
    · exact h s.cur fd v hv
    · exact h u fd v hv
  · exact h.effect (hasEffect_step hok hfork hst)

/-! ## Routines -/

lemma DevicesOk.openFile (h : s.DevicesOk) {fd : ℤ} {v : FdtId} (hfd : s.openFile fd = some v) :
    ∃ f, (s.fs.fdt v).logicDev = some f := by
  unfold Kernel.openFile at hfd
  split_ifs at hfd
  exact h s.cur _ v hfd

/-- `sys_write` fails for want of a page, or runs over the end of the disk. -/
lemma sysWrite_fails (h : s.DevicesOk) (hok : s.TableOk) (fd : ℤ) (buffer : ℕ) (size : ℤ) :
    (s.sysWrite fd buffer size).Fails (s.StopCause (.write fd buffer size))
      (s.MissesPage (.write fd buffer size)) := by
  unfold sysWrite
  cases hfd : s.openFile fd with
  | none => trivial
  | some v =>
    obtain ⟨f, hdev⟩ := h.openFile hfd
    simp only [hdev]
    split_ifs with hbig hneg hmode haccess
    iterate 4 trivial
    have hwrites : (s.fs.ops f).sysWriteDev ≠ .null → s.WritesDevice fd buffer size v f :=
      fun hroutine => ⟨hfd, by omega, by omega, hmode, by simpa using haccess, hdev, hroutine⟩
    cases hroutine : (s.fs.ops f).sysWriteDev with
    | null => trivial
    | sysWriteConsole =>
      have hends := Screen.writeBlocks_fails s.mm buffer size.toNat _ 0 s.screen (Nat.zero_add _)
      exact (hends.imp (fun _ _ => False.elim) id).lift _
    | sysWriteFile =>
      obtain ⟨C, hC⟩ := hok
      have hf : s.fs.IsRegular f := (hC.ops f).resolve_right fun hops => hops.1 hroutine
      obtain ⟨xs, b, hb⟩ := hC.last hf
      have hends : (s.fs.sysWriteFile s.mm v f buffer size.toNat).Fails (· = .offDisk)
          (s.mm.Misses buffer size.toNat) := by
        rw [FileSystem.sysWriteFile, hC.walkLast_eq hf hb]
        exact FileSystem.writeLoop_fails size.toNat ⟨b, _, s.fs⟩
      refine (hends.imp (fun r hr hoff => ?_) id).lift _
      subst hoff
      refine ⟨fd, buffer, size, v, f, rfl, hwrites (by simp [hroutine]), hf, ?_⟩
      by_contra hno
      exact (hC.sysWriteFile_own hf ((hC.stores_inFile_iff hf ..).mpr hno)).2 hr

/-- A delivery fails when the local array is too small for it, or for want of a page in the window. -/
lemma copyFromCircBuffer_fails (s : Kernel) (b : Slot) (size : ℤ) :
    (s.copyFromCircBuffer b size).Fails (fun r => r = .overrun ∧ circularSize < size)
      (size ≤ circularSize ∧
        (s.windowOf b).Misses ((s.task b).buffer + numPagData * pageSize) size.toNat) := by
  rcases s.copyFromCircBuffer_cases b size with ⟨hsize, h⟩ | ⟨hsize, mm, ⟨-, h⟩ | ⟨hcopy, h⟩⟩
  · rw [h]
    exact ⟨rfl, hsize⟩
  · rw [h]
    trivial
  · have hends := (s.windowOf b).copyToUser_fails ((s.task b).buffer + numPagData * pageSize)
      (circBytes s.kbd size.toNat)
    have hlen : (circBytes s.kbd size.toNat).length = size.toNat := by simp [circBytes]
    rw [hcopy, hlen] at hends
    rw [h]
    exact ⟨hsize, hends⟩

/-- The window shows the frames of the task, whatever else its structure holds. -/
lemma windowOf_updTask (s : Kernel) (u b : Slot) (g : Task → Task)
    (hpages : (g (s.task u)).phPages = (s.task u).phPages) :
    (s.updTask u g).windowOf b = s.windowOf b := by
  have hb : ((s.updTask u g).task b).phPages = (s.task b).phPages := by
    by_cases hbu : b = u
    · subst hbu
      rw [updTask_task_self, hpages]
    · rw [updTask_task_ne _ _ hbu]
  rw [windowOf, hb]
  rfl

lemma switchToNext_fails {α : Type} (s : Kernel) (fromInt : ℤ) :
    (s.switchToNext fromInt : Outcome Kernel α).Fails (· = .notATask) False := by
  unfold switchToNext
  split
  · trivial
  · rfl

lemma clockRoutine_fails (s : Kernel) : s.clockRoutine.Fails (· = .notATask) False := by
  have hends : (s.tick.schedule 1).Fails (· = .notATask) False := by
    unfold schedule
    split_ifs
    · trivial
    · exact switchToNext_fails ..
    · exact switchToNext_fails ..
    · trivial
  unfold clockRoutine
  generalize s.tick.schedule 1 = o at hends
  cases o <;> exact hends

lemma sysSemWait_fails (s : Kernel) (k : ℤ) : (s.sysSemWait k).Fails (· = .notATask) False := by
  unfold sysSemWait
  split_ifs
  · trivial
  · split
    · trivial
    · split_ifs
      · trivial
      · exact switchToNext_fails ..
      · trivial

/-- `sys_read_keyboard` fails in the delivery of what it finds in the buffer. -/
lemma sysReadKeyboard_fails (hs : SchedOk s Q) (size : ℤ) :
    (s.sysReadKeyboard size).Fails
      (fun r => r = .notATask ∨ r = .overrun ∧ circularSize < size ∧ size ≤ s.kbd.circChars)
      ((s.windowOf s.cur).Misses (s.current.buffer + numPagData * pageSize) size.toNat) := by
  by_cases hnow : size ≤ s.kbd.circChars ∧ s.keyboardQueue = []
  · rw [sysReadKeyboard_of_enough hs hnow.1 hnow.2]
    have hends := (s.setPending size).copyFromCircBuffer_fails s.cur size
    have hbuffer : ((s.setPending size).task s.cur).buffer = s.current.buffer := by
      rw [setPending, updTask_task_self, current]
    rw [setPending, windowOf_updTask _ _ _ _ rfl, ← setPending, hbuffer] at hends
    generalize (s.setPending size).copyFromCircBuffer s.cur size = o at hends ⊢
    cases o with
    | ret | switched => trivial
    | fault t => exact hends.2
    | stop r => exact .inr ⟨hends.1, hends.2, hnow.1⟩
  · have hwait := (s.waits_iff size).mpr hnow
    by_cases hpid : s.current.pid = 0
    · rw [sysReadKeyboard_of_task0 hs hwait hpid]
      trivial
    · rw [sysReadKeyboard_of_waits hs hwait hpid]
      exact (switchToNext_fails ..).imp (fun _ _ => .inl) False.elim

/-- `sys_read` fails for want of a page, or delivers too much. -/
lemma sysRead_fails (hs : SchedOk s Q) (h : s.DevicesOk) (fd : ℤ) (buffer : ℕ) (size : ℤ) :
    (s.sysRead fd buffer size).Fails
      (fun r => r = .notATask ∨ s.StopCause (.read fd buffer size) r)
      (s.MissesPage (.read fd buffer size)) := by
  unfold sysRead
  cases hfd : s.openFile fd with
  | none => trivial
  | some v =>
    obtain ⟨f, hdev⟩ := h.openFile hfd
    simp only [updTask_fs, hdev]
    split_ifs with hneg hbig hmode haccess
    iterate 4 trivial
    cases hroutine : (s.fs.ops f).sysReadDev with
    | null => trivial
    | sysReadKeyboard =>
      have hq : Quiet s (s.updTask s.cur fun k => { k with size := size, buffer := buffer }) :=
        .updTask s s.cur _ rfl rfl rfl
      have hends := sysReadKeyboard_fails (hs.congr hq.sched) size
      rw [current, updTask_cur, updTask_task_self, windowOf_updTask _ _ _ _ rfl] at hends
      refine hends.imp (fun r _ hr => hr.imp_right ?_) .inr
      rintro ⟨rfl, hover⟩
      exact hover
    | sysReadFile =>
      have hends : (s.fs.sysReadFile s.mm v f buffer size.toNat).Fails (fun _ => False)
          (s.mm.Misses buffer size.toNat) := FileSystem.readLoop_fails _ 0 _ _ _ _
      exact (hends.imp (fun _ _ => False.elim) .inl).lift _

lemma sysGetStats_fails (s : Kernel) (spid : ℤ) (st : ℕ) (beyond : Task) :
    (s.sysGetStats spid st beyond).Fails (fun _ => False) (s.MissesPage (.getStats spid st beyond)) := by
  unfold sysGetStats
  split_ifs
  iterate 3 trivial
  exact (s.mm.copyToUser_fails st (statsBytes (s.statsTask spid beyond))).lift _

/-- A key press fails in the delivery to the first blocked reader. -/
lemma keyboardRoutine_fails (hs : SchedOk s Q) (scan beyond : Byte) :
    (s.keyboardRoutine scan beyond).Fails (s.StopCause (.key scan beyond))
      (s.MissesPage (.key scan beyond)) := by
  rcases hs.keyboardRoutine_cases scan beyond with ⟨-, h⟩ | ⟨-, ⟨-, h⟩ | ⟨b, rest, hQ, h⟩⟩
  · rw [h]
    trivial
  · rw [h]
    trivial
  · have hqueue : s.keyboardQueue = b :: rest := by rw [hs.keyboardQueue_eq, hQ]
    rw [h, serveReader]
    set s₁ := (s.putChar (charOf scan beyond)).updTask b
      fun k => { k with pendingChars := k.pendingChars - 1 } with hs₁
    have hwindow : s₁.windowOf b = s.windowOf b := windowOf_updTask _ _ _ _ rfl
    have htask : s₁.task b = { s.task b with pendingChars := (s.task b).pendingChars - 1 } :=
      updTask_task_self ..
    have hdeliver : ∀ size, (s₁.copyFromCircBuffer b size).Fails
        (fun r => r = .overrun ∧ circularSize < size) (s.MissesPage (.key scan beyond)) := by
      intro size
      refine (s₁.copyFromCircBuffer_fails b size).imp (fun _ _ => id) ?_
      rintro ⟨hsize, hmiss⟩
      rw [hwindow, htask] at hmiss
      exact ⟨b, rest, hqueue, hmiss.mono (by omega)⟩
    split_ifs with hlast hfull
    · have hends := hdeliver (s₁.task b).size
      rw [htask] at hlast
      generalize s₁.copyFromCircBuffer b (s₁.task b).size = o at hends ⊢
      cases o with
      | ret | switched => trivial
      | fault t => exact hends
      | stop r =>
        obtain ⟨rfl, hsize⟩ := hends
        rw [htask] at hsize
        exact ⟨b, rest, hqueue, by simpa using hlast, hsize⟩
    · have hends := hdeliver circularSize
      generalize s₁.copyFromCircBuffer b circularSize = o at hends ⊢
      cases o with
      | ret | switched => trivial
      | fault t => exact hends
      | stop r => exact absurd hends.2 (lt_irrefl _)
    · trivial

/-- Saving the registers of the caller changes nothing that counts. -/
lemma stopCause_enter (s : Kernel) (regs : SavedRegs) (act : Action) (r : Stop) :
    (s.enter regs).StopCause act r ↔ s.StopCause act r := by
  have htask : ∀ b, ((s.enter regs).task b).buffer = (s.task b).buffer ∧
      ((s.enter regs).task b).size = (s.task b).size ∧
      ((s.enter regs).task b).pendingChars = (s.task b).pendingChars := by
    intro b
    by_cases hb : b = s.cur
    · subst hb
      simp [enter]
    · rw [enter, updTask_task_ne _ _ hb]
      exact ⟨rfl, rfl, rfl⟩
  have hwindow : ∀ b, (s.enter regs).windowOf b = s.windowOf b :=
    fun b => windowOf_updTask _ _ _ _ rfl
  have hpid : (s.enter regs).current.pid = s.current.pid := by simp [enter, current]
  have hfds : (s.enter regs).fds (s.enter regs).cur = s.fds s.cur :=
    (s.sameFiles_enter regs).fds s.cur
  cases r with
  | hang =>
    rw [StopCause, StopCause, hpid]
    refine and_congr_right fun _ => ?_
    cases act <;> simp only [MissesPage, hwindow, htask] <;> rfl
  | overrun => cases act <;> simp only [StopCause, Overfull, htask] <;> rfl
  | offDisk => simp only [StopCause, writesDevice_enter]; rfl
  | errorPointer => simp only [StopCause, hfds]; rfl
  | _ => rfl

/-! ## Steps -/

lemma pageFaultRoutine_stop {cause : ExitCause} (h : t.pageFaultRoutine cause = .stop r) :
    r = .hang ∧ t.current.pid = 0 := by
  unfold pageFaultRoutine at h
  split_ifs at h with hpid
  exact ⟨(Phase.stop.inj h).symm, not_not.mp hpid⟩

/-- Kernel code that only makes effects leaves the running process the running process when it
faults. -/
lemma pid_of_effects (hs : SchedOk s Q) {α : Type} {o : Outcome Kernel α}
    (heff : o.Effects act (s, Q)) (ho : o = .fault t) (hpid : t.current.pid = 0) :
    s.current.pid = 0 := by
  subst ho
  obtain ⟨Q', hc⟩ := heff
  have hcur : t.cur = s.cur := hc.cur_eq
  have h0 := (hc.schedOk hs).current_pid_eq_zero_iff.mp hpid
  exact hs.current_pid_eq_zero_iff.mpr (hcur ▸ h0)

lemma pid_of_ends {α : Type} {o : Outcome Kernel α} (hends : o.Ends (Quiet s)) (ho : o = .fault t)
    (hpid : t.current.pid = 0) : s.current.pid = 0 := by
  subst ho
  have hq : Quiet s t := hends
  rwa [current, hq.sched.pid, hq.sched.cur] at hpid

lemma finish_stop {o : Outcome Kernel ℤ} (h : finish o = .stop r) :
    o = .stop r ∨ ∃ t, o = .fault t ∧ t.pageFaultRoutine .kernelFault = .stop r := by
  cases o with
  | ret | switched => cases h
  | fault t => exact .inr ⟨t, rfl, h⟩
  | stop r' => exact .inl (congrArg Outcome.stop (Phase.stop.inj h))

lemma finishInt_stop {o : Outcome Kernel Unit} (h : finishInt o = .stop r) :
    o = .stop r ∨ ∃ t, o = .fault t ∧ t.pageFaultRoutine .kernelFault = .stop r := by
  cases o with
  | ret | switched => cases h
  | fault t => exact .inr ⟨t, rfl, h⟩
  | stop r' => exact .inl (congrArg Outcome.stop (Phase.stop.inj h))

lemma finishExcept_stop {o : Except Stop (ℤ × Kernel)} (h : finishExcept o = .stop r) :
    o = .error r := by
  cases o with
  | ok p => cases h
  | error r' => rw [Phase.stop.inj h]

/-- A routine that may stop or fault for its causes only, at the end of its entry to the kernel. -/
lemma cause_of_fails {α : Type} {o : Outcome Kernel α} {why : Stop → Prop}
    (hfail : o.Fails why (s.MissesPage act)) (hwhy : ∀ r, why r → r = .notATask ∨ s.StopCause act r)
    (hpid : ∀ t, o = .fault t → t.current.pid = 0 → s.current.pid = 0)
    (h : o = .stop r ∨ ∃ t, o = .fault t ∧ t.pageFaultRoutine .kernelFault = .stop r) :
    r = .notATask ∨ s.StopCause act r := by
  rcases h with rfl | ⟨t, rfl, ht⟩
  · exact hwhy r hfail
  · obtain ⟨rfl, h0⟩ := pageFaultRoutine_stop ht
    exact .inr ⟨hpid t rfl h0, hfail⟩

lemma sysFork_ne_error (hs : SchedOk s Q) (hf : FramesOk s) : s.sysFork ≠ .error r := by
  rcases s.sysFork_cases hs.cur_live with ⟨-, h⟩ | ⟨new, -, -, ⟨mm, -, h⟩ | ⟨frames, mm, hmm, h⟩⟩
  · simp [h]
  · simp [h]
  · have hlen := (Memory.allocFrames_length (hf.ne_neg_one hs.cur_live) _ hmm).1
    rw [List.length_nil, List.length_finRange, Nat.zero_add] at hlen
    rcases h with ⟨-, h⟩ | ⟨hne, -⟩
    · simp [h]
    · exact absurd hlen hne

/-- `sys_open` faults on its path, or uses an error of `create_file` as a pointer. -/
lemma sysOpen_fails (hok : s.TableOk) (addr : ℕ) (path : List Byte) (flags : ℤ) :
    (s.sysOpen addr path flags).Fails (s.StopCause (.open addr path flags))
      (s.MissesPage (.open addr path flags)) := by
  obtain ⟨C, hC⟩ := hok
  rcases s.sysOpen_cases addr path flags with
    ⟨-, h⟩ | ⟨-, hlen, h⟩ | ⟨hpath, ⟨r, herr, h⟩ | ⟨r, fs, fds, -, h⟩⟩
  · rw [h]
    trivial
  · rw [h]
    exact Memory.misses_strlen hlen
  · rw [h]
    rcases s.fs.sysOpen_cases hC.ffb_cases s.current.fileDescriptors path flags with
      ⟨code, -, ho⟩ | ⟨hpoints, ho⟩ | ⟨v, fd, -, -, ⟨file, mode, -, ho⟩ | ⟨i, mode, -, ho⟩⟩
    · cases ho.symm.trans herr
    · cases ho.symm.trans herr
      exact ⟨addr, path, flags, rfl, hpath, hpoints⟩
    · cases ho.symm.trans herr
    · cases ho.symm.trans herr
  · rw [h]
    trivial

lemma sysClose_ne_error (hdev : s.DevicesOk) (fd : ℤ) : s.sysClose fd ≠ .error r := by
  unfold sysClose FileSystem.sysClose
  split_ifs with hfd
  · simp only
    cases hv : s.current.fileDescriptors ⟨fd.toNat, toNat_lt_maxFds hfd⟩ with
    | none => simp
    | some v =>
      obtain ⟨f, hf⟩ := hdev s.cur _ v hv
      simp [hf]
  · simp

/-- An open of a path that cannot be read is a page fault in the kernel. -/
lemma dispatch_open_fault {addr : ℕ} {path : List Byte} {flags : ℤ}
    (hact : e.act = .open addr path flags) (haddr : Memory.checkAddress addr 1 = true)
    (hlen : s.mm.strlen addr path = none) :
    s.dispatch e = (s.enter e.regs).pageFaultRoutine .kernelFault := by
  have hlen' : (s.enter e.regs).mm.strlen addr path = none := hlen
  rw [dispatch, hact]
  simp only [Kernel.sysOpen, haddr, hlen']
  rfl

lemma sysUnlink_fails (hok : s.TableOk) (addr : ℕ) (path : List Byte) :
    (s.sysUnlink addr path).Fails (fun _ => False) (s.MissesPage (.unlink addr path)) := by
  obtain ⟨C, hC⟩ := hok
  obtain ⟨r', fs', -, hun, -⟩ := hC.sysUnlink path
  rcases s.sysUnlink_cases addr path with ⟨-, h⟩ | ⟨-, hlen, h⟩ | ⟨-, ⟨r, herr, h⟩ | ⟨r, fs, -, h⟩⟩
  · rw [h]
    trivial
  · rw [h]
    exact Memory.misses_strlen hlen
  · cases hun.symm.trans herr
  · rw [h]
    trivial

lemma sysSemDestroy_ne_error (hs : SchedOk s Q) (k : ℤ) : s.sysSemDestroy k ≠ .error r := by
  cases hk : semId k with
  | none =>
    rw [sysSemDestroy, hk]
    simp
  | some n =>
    by_cases hn : (s.sem n).init = 1
    · by_cases hown : s.current.ownedSems n = 1
      · obtain ⟨t, ht, -⟩ := hs.sysSemDestroy hk hn hown
        rw [ht]
        simp
      · rw [sysSemDestroy, hk]
        simp [hn, hown]
    · rw [sysSemDestroy, hk]
      simp [hn]

lemma sysSemSignal_ne_error (hs : SchedOk s Q) (k : ℤ) : s.sysSemSignal k ≠ .error r := by
  cases hk : semId k with
  | none =>
    rw [sysSemSignal, hk]
    simp
  | some n =>
    by_cases hn : (s.sem n).init = 1
    · rcases hs.sysSemSignal hk hn with ⟨-, t, ht, -⟩ | ⟨u, rest, -, ht, -⟩ <;> simp [ht]
    · rw [sysSemSignal, hk]
      simp [hn]

/-- An entry to the kernel, up to a call of `sys_exit`, stops only for its causes. -/
lemma dispatch_stop (hs : SchedOk s Q) (hok : s.TableOk) (hf : FramesOk s) (hdev : s.DevicesOk)
    (h : s.dispatch e = .stop r) : r = .notATask ∨ s.StopCause e.act r := by
  obtain ⟨regs, act⟩ := e
  have hq := s.quiet_enter regs
  have hs' : SchedOk (s.enter regs) Q := hs.congr hq.sched
  have hok' : (s.enter regs).TableOk := hok
  have hf' : FramesOk (s.enter regs) := hf.ofSameSched hq.sched hq.mm.physMem
  have hdev' : (s.enter regs).DevicesOk := by
    intro u fd v hv
    have hfds : (s.enter regs).fds u = s.fds u := (s.sameFiles_enter regs).fds u
    exact hdev u fd v (hfds ▸ hv)
  suffices hcause : r = .notATask ∨ (s.enter regs).StopCause act r by
    rwa [stopCause_enter] at hcause
  unfold dispatch at h
  cases act with
  | write fd buffer size =>
    exact cause_of_fails (sysWrite_fails hdev' hok' fd buffer size) (fun _ => .inr)
      (fun _ => pid_of_ends (quiet_sysWrite ..)) (finish_stop h)
  | read fd buffer size =>
    have hon : (Action.read fd buffer size).OnKeyboard := trivial
    exact cause_of_fails (sysRead_fails hs' hdev' fd buffer size) (fun _ => id)
      (fun _ => pid_of_effects hs' (hs'.sysRead_effects hon fd buffer size)) (finish_stop h)
  | «open» addr path flags =>
    exact cause_of_fails (sysOpen_fails hok' addr path flags) (fun _ => .inr)
      (fun _ => pid_of_ends (quiet_sysOpen ..)) (finish_stop h)
  | close fd => exact absurd (finishExcept_stop h) (sysClose_ne_error hdev' fd)
  | unlink addr path =>
    exact cause_of_fails (sysUnlink_fails hok' addr path) (fun _ => False.elim)
      (fun _ => pid_of_ends (quiet_sysUnlink ..)) (finish_stop h)
  | fork => exact absurd (finishExcept_stop h) (sysFork_ne_error hs' hf')
  | semWait k =>
    exact cause_of_fails (sysSemWait_fails _ k) (fun _ => .inl)
      (fun _ => pid_of_effects hs' (hs'.sysSemWait_effects k)) (finish_stop h)
  | semSignal k => exact absurd (finishExcept_stop h) (sysSemSignal_ne_error hs' k)
  | semDestroy k => exact absurd (finishExcept_stop h) (sysSemDestroy_ne_error hs' k)
  | getStats spid st beyond =>
    exact cause_of_fails (sysGetStats_fails _ spid st beyond) (fun _ => False.elim)
      (fun _ => pid_of_ends (quiet_sysGetStats ..)) (finish_stop h)
  | clock =>
    have heff : (s.enter regs).clockRoutine.Effects .clock (s.enter regs, Q) :=
      hs'.clockRoutine_effects
    exact cause_of_fails (clockRoutine_fails _) (fun _ => .inl)
      (fun _ => pid_of_effects hs' heff) (finishInt_stop h)
  | key scan beyond =>
    have hon : (Action.key scan beyond).OnKeyboard := trivial
    exact cause_of_fails (keyboardRoutine_fails hs' scan beyond) (fun _ => .inr)
      (fun _ => pid_of_effects hs' (hs'.keyboardRoutine_effects hon scan beyond)) (finishInt_stop h)
  | store addr b =>
    simp only at h
    split_ifs at h with hw
    obtain ⟨rfl, hpid⟩ := pageFaultRoutine_stop h
    have hmiss : s.mm.userWritable addr = false := by simpa using hw
    exact .inr ((s.stopCause_enter regs _ _).mpr ⟨hpid, hmiss⟩)
  | pageFault =>
    obtain ⟨rfl, hpid⟩ := pageFaultRoutine_stop h
    exact .inr ((s.stopCause_enter regs _ _).mpr ⟨hpid, trivial⟩)
  | dup | getpid | exit | semInit | nice | niSyscall => cases h

/-- A step stops only for its causes. -/
lemma step_stop (hs : SystemOk s Q) (hok : s.TableOk) (hf : FramesOk s) (hdev : s.DevicesOk)
    (hg : s.ExitsFindTwo e) (hst : s.step e = .error r) : s.StopCause e.act r := by
  have hne := (hs.step_effects e hg).2
  have heff := hs.sched.dispatch_effects e
  rw [hst] at hne
  unfold step at hst
  cases hp : s.dispatch e with
  | done t =>
    rw [hp] at hst
    cases hst
  | stop r' =>
    rw [hp] at hst
    obtain rfl : r' = r := Except.error.inj hst
    rcases dispatch_stop hs.sched hok hf hdev hp with rfl | hcause
    · exact absurd rfl hne
    · exact hcause
  | exits cause s₁ =>
    -- a call of `sys_exit` never stops the kernel
    rw [hp] at hst heff
    obtain ⟨Q₁, hc⟩ := heff
    have hs₁ := hc.systemOk hs
    by_cases h0 : s₁.cur = 0
    · have hpid : s₁.current.pid = 0 := hs₁.sched.current_pid_eq_zero_iff.mpr h0
      rcases dispatch_eq_exits hp with ⟨x, -, rfl, -⟩ | hne'
      · have hexit : s₁.sysExit = .ret () s₁ := by
          rw [sysExit, if_neg (not_not.mpr hpid)]
        simp [hexit, afterExit] at hst
      · exact absurd hpid hne'
    · obtain ⟨t, Q', ht, -, -, -, -, -, -, ⟨-, u, rest, -, hsw, -⟩ | ⟨hlen, -⟩⟩ :=
        hs₁.sysExit_cases h0
      · simp [hsw, afterExit] at hst
      · have hpid : s₁.current.pid ≠ 0 := fun hp => h0 (hs₁.sched.current_pid_eq_zero_iff.mp hp)
        have := hg cause s₁ t hp hpid ht
        omega

end Kernel

/-! ## Runs -/

lemma Env.boot_devicesOk (E : Env) : E.boot.DevicesOk := by
  intro u fd v hv
  by_cases hu : u = 0
  · subst hu
    have hstd : ∀ (fd : Fd) (v : FdtId), stdDescriptors fd = some v →
        ∃ f, (zeroEnv.boot.fs.fdt v).logicDev = some f := by decide
    exact hstd fd v hv
  · have hnone : E.boot.task u = emptyTask := by simp [Env.boot, hu]
    rw [Kernel.fds, hnone] at hv
    cases hv

/-- **What can stop the kernel.**  In a run from boot whose exits find two processes to run, a step
that ends the run has one of four causes: an access of task 0, or of the kernel for it, that meets no
page, a delivery from the keyboard of more characters than fit, a write that runs over the end of its
last block, or an open that has to create a file and cannot.  So no queue, chain or table ever leads
the kernel astray, and a process other than task 0 cannot make it loop forever. -/
theorem stops_only_for (E : Env) {es : List Event} {t : Kernel} (h : ExitRun E.boot es t) {e : Event}
    {r : Stop} (hg : t.ExitsFindTwo e) (hst : t.step e = .error r) : t.StopCause e.act r := by
  have hstep : ∀ (s : Kernel) (e : Event) (t : Kernel),
      (∃ Q, SystemOk s Q) ∧ FramesOk s ∧ s.TableOk ∧ s.DevicesOk → s.ExitsFindTwo e →
      s.step e = .ok t → (∃ Q, SystemOk t Q) ∧ FramesOk t ∧ t.TableOk ∧ t.DevicesOk := by
    rintro s e t ⟨⟨Q, hs⟩, hf, hok, hdev⟩ hg hst
    obtain ⟨Q', hs', hf'⟩ := hf.step hs hg hst
    exact ⟨⟨Q', hs'⟩, hf', hok.step hst, hdev.step hok hst⟩
  obtain ⟨⟨Q, hs⟩, hf, hok, hdev⟩ := h.invariant hstep
    ⟨⟨_, E.boot_systemOk⟩, E.boot_framesOk, E.boot_tableOk, E.boot_devicesOk⟩
  exact Kernel.step_stop hs hok hf hdev hg hst

/-- Right after boot, task 0 opens a path at the first address after user space.  The check of the
address lets it pass, and the kernel hangs when it reads the path. -/
theorem stops_only_for_path :
    zeroEnv.boot.step (plain (.open userEnd nameF oRdonly)) = .error .hang ∧
      zeroEnv.boot.StopCause (.open userEnd nameF oRdonly) .hang := by
  have hmiss : zeroEnv.boot.mm.present userEnd = false := by
    have hother : ∀ i : Fin numPagData, 284 ≠ pagLogInitDataP0 + i.val := by
      intro i
      show 284 ≠ 264 + i.val
      have := Memory.pageIndex_lt i
      omega
    have htable := zeroEnv.boot_table_other hother
    rw [Memory.present, show userEnd / pageSize = 284 by decide, htable,
      zeroEnv.codeMemory_above (by decide), Bool.and_false]
  have hlen : zeroEnv.boot.mm.strlen userEnd nameF = none :=
    Memory.strlen_eq_none_iff.mpr ⟨0, by decide, hmiss⟩
  have hdisp : zeroEnv.boot.dispatch (plain (.open userEnd nameF oRdonly)) = .stop .hang :=
    Kernel.dispatch_open_fault rfl (by decide) hlen
  have hst : zeroEnv.boot.step (plain (.open userEnd nameF oRdonly)) = .error .hang := by
    rw [Kernel.step, hdisp]
  refine ⟨hst, stops_only_for zeroEnv (.nil _) (fun cause s₁ s₂ hd => ?_) hst⟩
  rw [hdisp] at hd
  cases hd

end ZeOS
