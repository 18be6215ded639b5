import ZeOS.Invariants.Steps
import ZeOS.Invariants.Fat
import Mathlib.Data.Fintype.Prod

/-!
# Reference counts

`fdt[].refs` and `dir[].n_refs` count the descriptors that use an entry.  `RefsOk` says that
neither is ever too low, which is what the code relies on when it takes an entry with
`refs <= 0` or `n_refs == -1` for a free one.

`TablesEffect` lists what one step can do to the counters and the descriptors.  Each of its
cases keeps `RefsOk`, except one: `sys_open` looks up names in free directory entries too, and
an entry with `n_refs == -1` that it opens has its count raised to 0 only.
-/

namespace ZeOS

open FileSystem

namespace Kernel

/-- The descriptors of every task. -/
abbrev fds (s : Kernel) (u : Slot) : Descriptors := (s.task u).fileDescriptors

lemma openFile_val (s : Kernel) (fd : Fd) : s.openFile fd.val = s.fds s.cur fd := by
  have hfd : 0 ≤ (fd.val : ℤ) ∧ (fd.val : ℤ) < maxFds := ⟨by omega, by exact_mod_cast fd.isLt⟩
  rw [openFile, dif_pos hfd]
  rfl

/-- The descriptors of live processes that point to an entry of `fdt[]`. -/
def users (s : Kernel) (v : FdtId) : Finset (Slot × Fd) :=
  {p | s.Live p.1 ∧ s.fds p.1 p.2 = some v}

/-- The descriptors of live processes that refer to a directory entry. -/
def usersOfFile (s : Kernel) (f : FileId) : Finset (Slot × Fd) :=
  {p | s.Live p.1 ∧ ∃ v, s.fds p.1 p.2 = some v ∧ (s.fs.fdt v).logicDev = some f}

/-- No counter is below the number of descriptors that it counts. -/
structure RefsOk (s : Kernel) : Prop where
  refs : ∀ v, ((s.users v).card : ℤ) ≤ (s.fs.fdt v).refs
  nRefs : ∀ f, (s.usersOfFile f).Nonempty → ((s.usersOfFile f).card : ℤ) ≤ (s.fs.dir f).nRefs

@[simp] lemma mem_users {s : Kernel} {v : FdtId} {p : Slot × Fd} :
    p ∈ s.users v ↔ s.Live p.1 ∧ s.fds p.1 p.2 = some v := by
  simp [users]

@[simp] lemma mem_usersOfFile {s : Kernel} {f : FileId} {p : Slot × Fd} :
    p ∈ s.usersOfFile f ↔
      s.Live p.1 ∧ ∃ v, s.fds p.1 p.2 = some v ∧ (s.fs.fdt v).logicDev = some f := by
  simp [usersOfFile]

/-! ## What a step does to the tables -/

/-- The counters, the logical devices, the names, the access modes and the operations are the same,
and no offset goes back. -/
structure SameRefs (fs fs' : FileSystem) : Prop where
  refs : ∀ v, (fs'.fdt v).refs = (fs.fdt v).refs
  dev : ∀ v, (fs'.fdt v).logicDev = (fs.fdt v).logicDev
  mode : ∀ v, (fs'.fdt v).accessMode = (fs.fdt v).accessMode
  nRefs : ∀ f, (fs'.dir f).nRefs = (fs.dir f).nRefs
  name : ∀ f, (fs'.dir f).name = (fs.dir f).name
  allow : ∀ f, (fs'.dir f).accessModeAllow = (fs.dir f).accessModeAllow
  ops : fs'.ops = fs.ops
  offset : ∀ v, (fs.fdt v).offset ≤ (fs'.fdt v).offset

namespace SameRefs

/-- Nothing but the blocks changes. -/
lemma blocks {fs fs' : FileSystem} (hfdt : fs'.fdt = fs.fdt) (hdir : fs'.dir = fs.dir)
    (hops : fs'.ops = fs.ops) : SameRefs fs fs' :=
  ⟨fun _ => by rw [hfdt], fun _ => by rw [hfdt], fun _ => by rw [hfdt], fun _ => by rw [hdir],
    fun _ => by rw [hdir], fun _ => by rw [hdir], hops, fun _ => by rw [hfdt]⟩

lemma refl (fs : FileSystem) : SameRefs fs fs := .blocks rfl rfl rfl

lemma trans {fs fs' fs'' : FileSystem} (h : SameRefs fs fs') (h' : SameRefs fs' fs'') :
    SameRefs fs fs'' :=
  ⟨fun v => (h'.refs v).trans (h.refs v), fun v => (h'.dev v).trans (h.dev v),
    fun v => (h'.mode v).trans (h.mode v), fun f => (h'.nRefs f).trans (h.nRefs f),
    fun f => (h'.name f).trans (h.name f), fun f => (h'.allow f).trans (h.allow f),
    h'.ops.trans h.ops,
    fun v => (h.offset v).trans (h'.offset v)⟩

/-- The size or the blocks of an entry change. -/
lemma updDir (fs : FileSystem) (f : FileId) (g : File → File)
    (hnRefs : (g (fs.dir f)).nRefs = (fs.dir f).nRefs) (hname : (g (fs.dir f)).name = (fs.dir f).name)
    (hallow : (g (fs.dir f)).accessModeAllow = (fs.dir f).accessModeAllow) :
    SameRefs fs (fs.updDir f g) := by
  have hdir : ∀ {β : Type} (p : File → β), p (g (fs.dir f)) = p (fs.dir f) →
      ∀ k, p ((fs.updDir f g).dir k) = p (fs.dir k) := by
    intro β p hp k
    by_cases hk : k = f
    · subst hk
      simpa using hp
    · simp [hk]
  exact ⟨fun _ => rfl, fun _ => rfl, fun _ => rfl, hdir File.nRefs hnRefs, hdir File.name hname,
    hdir File.accessModeAllow hallow, rfl, fun _ => le_rfl⟩

/-- The offset of an entry moves on. -/
lemma moveOn (fs : FileSystem) (v : FdtId) :
    SameRefs fs (fs.updFdt v fun w => { w with offset := w.offset + 1 }) := by
  refine ⟨fun w => ?_, fun w => ?_, fun w => ?_, fun _ => rfl, fun _ => rfl, fun _ => rfl, rfl,
    fun w => ?_⟩ <;>
  · by_cases hw : w = v
    · subst hw
      simp
    · simp [hw]

end SameRefs

lemma sameRefs_grown (fs : FileSystem) (f : FileId) (l : ℤ) : SameRefs fs (fs.grown f l) := by
  have h : SameRefs fs (fs.popFree.addBlock l fs.ffb) := .blocks rfl rfl rfl
  exact h.trans (.updDir _ f _ rfl rfl rfl)

lemma sameRefs_advance (fs : FileSystem) (v : FdtId) (f : FileId) : SameRefs fs (fs.advance v f) := by
  have h := SameRefs.moveOn fs v
  unfold advance
  simp only
  split_ifs
  · exact h.trans (.updDir _ f _ rfl rfl rfl)
  · exact h

/-- The tables `fs` and the descriptors `D` of all tasks, with process `c` running, before and
after a step other than a fork. -/
inductive TablesEffect (act : Action) (m : Memory) (fs : FileSystem) (D : Slot → Descriptors)
    (c : Slot) :
    FileSystem → (Slot → Descriptors) → Prop
  /-- No counter and no descriptor changes, and the directory only by a write. -/
  | same {fs' : FileSystem} (h : SameRefs fs fs')
      (hdir : (∃ fd buffer size, act = .write fd buffer size) ∨ fs'.dir = fs.dir) :
      TablesEffect act m fs D c fs' D
  /-- An entry of the directory is opened. -/
  | opens {addr : ℕ} {path : List Byte} {flags mode : ℤ} {v : FdtId} {fd : Fd} {f : FileId}
      (hact : act = .open addr path flags) (hpath : m.PathOk addr path)
      (hv : fs.freeFdt = some v) (hfd : freeFd (D c) = some fd)
      (hopen : fs.OpensEntry path flags f mode) :
      TablesEffect act m fs D c (fs.opened v f mode)
        (Function.update D c (Function.update (D c) fd (some v)))
  /-- A new file is created and opened. -/
  | creates {addr : ℕ} {path : List Byte} {flags mode : ℤ} {v : FdtId} {fd : Fd} {f : FileId}
      (hact : act = .open addr path flags) (hv : fs.freeFdt = some v)
      (hfd : freeFd (D c) = some fd) (hnew : fs.CreatesEntry path flags f mode) :
      TablesEffect act m fs D c ((fs.popFree.newFile f path fs.ffb).opened v f mode)
        (Function.update D c (Function.update (D c) fd (some v)))
  /-- A descriptor is copied. -/
  | dups {v : FdtId} {fd new : Fd} (hact : act = .dup fd.val) (hfd : D c fd = some v)
      (hnew : freeFd (D c) = some new) :
      TablesEffect act m fs D c (fs.incRefs v)
        (Function.update D c (Function.update (D c) new (some v)))
  /-- A descriptor is closed. -/
  | closes {v : FdtId} {fd : Fd} {f : FileId} (hact : act = .close fd.val) (hfd : D c fd = some v)
      (hdev : (fs.fdt v).logicDev = some f) :
      TablesEffect act m fs D c
        ((fs.updFdt v fun w => { w with refs := w.refs - 1 }).updDir f
          fun d => { d with nRefs := d.nRefs - 1 })
        (Function.update D c (Function.update (D c) fd none))
  /-- A directory entry is removed. -/
  | unlinks {fs' : FileSystem} {addr : ℕ} {path : List Byte} {f : FileId}
      (hact : act = .unlink addr path) (hlookup : fs.lookup path = some f)
      (hf : (fs.dir f).nRefs = 0) (hfdt : fs'.fdt = fs.fdt)
      (hdir : ∀ g, (fs'.dir g).nRefs = if g = f then -1 else (fs.dir g).nRefs)
      (hname : ∀ g, (fs'.dir g).name =
        if g = f then Function.update (fs.dir g).name 0 0 else (fs.dir g).name)
      (hallow : ∀ g, (fs'.dir g).accessModeAllow = (fs.dir g).accessModeAllow)
      (hops : fs'.ops = Function.update fs.ops f noOps)
      (hother : ∀ g, g ≠ f → fs'.dir g = fs.dir g) :
      TablesEffect act m fs D c fs' D

section

variable {s : Kernel} {act : Action}

/-- The step has one of the listed effects on the tables. -/
def HasEffect (s : Kernel) (act : Action) (t : Kernel) : Prop :=
  TablesEffect act s.mm s.fs s.fds s.cur t.fs t.fds

lemma HasEffect.of_sameFiles (t u : Kernel) (h : SameFiles t u) (ht : HasEffect s act t) :
    HasEffect s act u := by
  have hfds : u.fds = t.fds := funext h.fds
  rw [HasEffect, h.fs, hfds]
  exact ht

/-- The effect of a call is that of the step that enters the kernel for it. -/
lemma HasEffect.enter {regs : SavedRegs} {t : Kernel} (h : HasEffect (s.enter regs) act t) :
    HasEffect s act t := by
  have hfds : (s.enter regs).fds = s.fds := funext (s.sameFiles_enter regs).fds
  rw [HasEffect, hfds] at h
  exact h

lemma HasEffect.refl (s : Kernel) : HasEffect s act s :=
  .same (.refl s.fs) (.inr rfl)

/-- The descriptors of the running process are replaced. -/
lemma fds_withFiles (s : Kernel) (fs : FileSystem) (d : Descriptors) :
    (s.withFiles fs d).fds = Function.update s.fds s.cur d := by
  funext u
  by_cases hu : u = s.cur
  · subst hu
    simp [fds, withFiles]
  · simp [fds, withFiles, updTask, hu]

lemma hasEffect_withFiles {fs : FileSystem} {d : Descriptors}
    (h : TablesEffect act s.mm s.fs s.fds s.cur fs (Function.update s.fds s.cur d)) :
    HasEffect s act (s.withFiles fs d) := by
  rw [HasEffect, fds_withFiles]
  exact h

lemma hasEffect_unchanged : HasEffect s act (s.withFiles s.fs (s.fds s.cur)) := by
  refine hasEffect_withFiles ?_
  rw [Function.update_eq_self]
  exact .same (.refl s.fs) (.inr rfl)

lemma hasEffect_sysOpen (hok : s.TableOk) (addr : ℕ) (path : List Byte) (flags : ℤ) :
    (s.sysOpen addr path flags).Leaves (HasEffect s (.open addr path flags)) := by
  obtain ⟨C, hC⟩ := hok
  refine leaves_sysOpen (.refl s) fun r fs fds hpath h => ?_
  rcases s.fs.sysOpen_cases hC.ffb_cases s.current.fileDescriptors path flags with
    ⟨code, -, ho⟩ | ⟨-, ho⟩ | ⟨v, fd, hv, hfd, ⟨f, mode, hopen, ho⟩ | ⟨f, mode, hnew, ho⟩⟩
  · simp only [ho, Except.ok.injEq, Prod.mk.injEq] at h
    obtain ⟨-, rfl, rfl⟩ := h
    exact hasEffect_unchanged
  · simp [ho] at h
  · simp only [ho, Except.ok.injEq, Prod.mk.injEq] at h
    obtain ⟨-, rfl, rfl⟩ := h
    exact hasEffect_withFiles (.opens rfl hpath hv hfd hopen)
  · simp only [ho, Except.ok.injEq, Prod.mk.injEq] at h
    obtain ⟨-, rfl, rfl⟩ := h
    exact hasEffect_withFiles (.creates rfl hv hfd hnew)

lemma hasEffect_sysDup (s : Kernel) (fd : ℤ) : HasEffect s (.dup fd) (s.sysDup fd).2 := by
  change HasEffect s (.dup fd) (s.withFiles (s.fs.sysDup (s.fds s.cur) fd).2.1
    (s.fs.sysDup (s.fds s.cur) fd).2.2)
  unfold FileSystem.sysDup
  split_ifs with hfd
  · split
    · exact hasEffect_unchanged
    · next v hv =>
      split
      · exact hasEffect_unchanged
      · next new hnew =>
        refine hasEffect_withFiles (.dups ?_ hv hnew)
        simp only [Action.dup.injEq]
        omega
  · exact hasEffect_unchanged

lemma hasEffect_sysClose {t : Kernel} {fd r : ℤ} (h : s.sysClose fd = .ok (r, t)) :
    HasEffect s (.close fd) t := by
  unfold sysClose at h
  split at h
  · simp at h
  · next hc =>
    simp only [Except.ok.injEq, Prod.mk.injEq] at h
    obtain ⟨-, rfl⟩ := h
    unfold FileSystem.sysClose at hc
    split_ifs at hc with hfd
    · simp only at hc
      split at hc
      · simp only [Except.ok.injEq, Prod.mk.injEq] at hc
        obtain ⟨-, rfl, rfl⟩ := hc
        exact hasEffect_unchanged
      · next v hv =>
        split at hc
        · simp at hc
        · next f hf =>
          simp only [Except.ok.injEq, Prod.mk.injEq] at hc
          obtain ⟨-, rfl, rfl⟩ := hc
          refine hasEffect_withFiles (.closes ?_ hv hf)
          simp only [Action.close.injEq]
          omega
    · simp only [Except.ok.injEq, Prod.mk.injEq] at hc
      obtain ⟨-, rfl, rfl⟩ := hc
      exact hasEffect_unchanged

lemma sysReleaseFile_keeps {fs fs' : FileSystem} {f : FileId} (h : fs.sysReleaseFile f = .ok fs') :
    SameRefs fs fs' ∧ fs'.fdt = fs.fdt ∧ ∀ g, g ≠ f → fs'.dir g = fs.dir g := by
  unfold FileSystem.sysReleaseFile at h
  split at h
  · simp at h
  · next r fs₁ hfree =>
    simp only [Except.ok.injEq] at h
    have hkeep : fs₁.fdt = fs.fdt ∧ fs₁.dir = fs.dir ∧ fs₁.ops = fs.ops := by
      unfold FileSystem.freeb at hfree
      split_ifs at hfree
      · simp only [Except.ok.injEq, Prod.mk.injEq] at hfree
        exact hfree.2 ▸ ⟨rfl, rfl, rfl⟩
      · simp only [Except.ok.injEq, Prod.mk.injEq] at hfree
        exact hfree.2 ▸ ⟨rfl, rfl, rfl⟩
      · split at hfree
        · simp at hfree
        · simp only [Except.ok.injEq, Prod.mk.injEq] at hfree
          exact hfree.2 ▸ ⟨rfl, rfl, rfl⟩
    subst h
    refine ⟨?_, hkeep.1, fun g hg => ?_⟩
    · exact (SameRefs.blocks hkeep.1 hkeep.2.1 hkeep.2.2).trans (.updDir fs₁ f _ rfl rfl rfl)
    · simp [hg, hkeep.2.1]

lemma hasEffect_sysUnlink (s : Kernel) (addr : ℕ) (path : List Byte) :
    (s.sysUnlink addr path).Leaves (HasEffect s (.unlink addr path)) := by
  refine leaves_sysUnlink (.refl s) fun r fs _ hu => ?_
  unfold FileSystem.sysUnlink at hu
  split_ifs at hu
  · simp only [Except.ok.injEq, Prod.mk.injEq] at hu
    obtain ⟨-, rfl⟩ := hu
    exact .refl s
  · split at hu
    · simp only [Except.ok.injEq, Prod.mk.injEq] at hu
      obtain ⟨-, rfl⟩ := hu
      exact .refl s
    · next f hf =>
      split_ifs at hu with hrefs
      · simp only at hu
        split at hu
        · simp at hu
        · next fs₁ hrel =>
          simp only [Except.ok.injEq, Prod.mk.injEq] at hu
          obtain ⟨-, rfl⟩ := hu
          obtain ⟨hkeep, hfdt, hother⟩ : SameRefs s.fs fs₁ ∧ fs₁.fdt = s.fs.fdt ∧
              ∀ g, g ≠ f → fs₁.dir g = s.fs.dir g := by
            split at hrel
            · simp only [Except.ok.injEq] at hrel
              exact hrel ▸ ⟨.refl s.fs, rfl, fun _ _ => rfl⟩
            · exact sysReleaseFile_keeps hrel
          refine .unlinks rfl hf hrefs hfdt (fun g => ?_) (fun g => ?_) (fun g => ?_) ?_
            (fun g hg => ?_)
          · by_cases hg : g = f <;> simp [hg, hkeep.nRefs]
          · by_cases hg : g = f <;> simp [hg, hkeep.name]
          · by_cases hg : g = f <;> simp [updDir, updOps, hg, hkeep.allow]
          · simp [updDir, updOps, hkeep.ops]
          · simp [hg, hother g hg]
      · simp only [Except.ok.injEq, Prod.mk.injEq] at hu
        obtain ⟨-, rfl⟩ := hu
        exact .refl s

/-- A write moves offsets and sizes only. -/
lemma writeLoop_keeps (m : Memory) (v : FdtId) (f : FileId) (buffer : ℕ) (n : ℕ) :
    ∀ (i : ℕ) (destBlock destByte : ℤ) (fs : FileSystem),
      (writeLoop m v f buffer n i destBlock destByte fs).Leaves (SameRefs fs) := by
  induction n with
  | zero =>
    intro i destBlock destByte fs
    exact .refl fs
  | succ n ih =>
    intro i destBlock destByte fs
    have hbyte : ∀ b y fs', SameRefs fs fs' →
        (writeByte m v f buffer n i b y fs').Leaves (SameRefs fs) := by
      intro b y fs' h
      unfold writeByte
      split_ifs
      · have hdisk : SameRefs fs' (fs'.setDisk (b * blockSize + y) (m.load (buffer + i))) :=
          .blocks rfl rfl rfl
        refine (ih _ _ _ _).imp (fun fs'' h' => ?_)
        exact h.trans (hdisk.trans ((sameRefs_advance _ v f).trans h'))
      · trivial
      · exact h
    rw [writeLoop_succ]
    split_ifs
    · exact .refl fs
    · exact hbyte _ _ _ (sameRefs_grown fs f destBlock)
    · exact hbyte _ _ _ (.refl fs)

lemma readLoop_keeps (v : FdtId) (f : FileId) (buffer size : ℕ) (n : ℕ) :
    ∀ (i : ℕ) (block0 byte0 : ℤ) (st : FileSystem × Memory),
      (readLoop v f buffer size n i block0 byte0 st).Leaves
        (fun u => SameRefs st.1 u.1 ∧ u.1.dir = st.1.dir) := by
  induction n with
  | zero =>
    intro i block0 byte0 st
    exact ⟨.refl st.1, rfl⟩
  | succ n ih =>
    rintro i block0 byte0 ⟨fs, m⟩
    have hoff := SameRefs.moveOn fs v
    simp only [readLoop]
    split_ifs
    all_goals first
      | exact ⟨SameRefs.refl fs, rfl⟩
      | exact (ih _ _ _ _).imp (fun u hu => ⟨hoff.trans hu.1, hu.2⟩)

/-- No counter and no descriptor changes. -/
structure KeepsRefs (s t : Kernel) : Prop where
  tables : SameRefs s.fs t.fs
  fds : t.fds = s.fds

lemma KeepsRefs.refl (s : Kernel) : KeepsRefs s s := ⟨.refl s.fs, rfl⟩

lemma KeepsRefs.of_sameFiles {t u : Kernel} (h : SameFiles t u) (ht : KeepsRefs s t) :
    KeepsRefs s u :=
  ⟨h.fs ▸ ht.tables, (funext h.fds).trans ht.fds⟩

lemma KeepsRefs.hasEffect {t : Kernel} (h : KeepsRefs s t)
    (hdir : (∃ fd buffer size, act = .write fd buffer size) ∨ t.fs.dir = s.fs.dir) :
    HasEffect s act t := by
  rw [HasEffect, h.fds]
  exact .same h.tables hdir

lemma keepsRefs_sysWrite (s : Kernel) (fd : ℤ) (buffer : ℕ) (size : ℤ) :
    (s.sysWrite fd buffer size).Leaves (KeepsRefs s) := by
  unfold sysWrite
  split
  · exact .refl s
  · split_ifs
    all_goals try exact .refl s
    split
    · trivial
    · next f _ =>
      split
      · exact .refl s
      · exact Outcome.leaves_lift (fun sc => ⟨.refl s.fs, rfl⟩) _
      · refine Outcome.Leaves.lift (P := SameRefs s.fs) ?_ (fun fs hfs => ⟨hfs, rfl⟩)
        unfold FileSystem.sysWriteFile
        split
        · trivial
        · exact writeLoop_keeps ..

lemma keepsRefs_sysRead (s : Kernel) (fd : ℤ) (buffer : ℕ) (size : ℤ) :
    (s.sysRead fd buffer size).Leaves (fun t => KeepsRefs s t ∧ t.fs.dir = s.fs.dir) := by
  have hfiles : ∀ t, SameFiles s t → KeepsRefs s t ∧ t.fs.dir = s.fs.dir :=
    fun t ht => ⟨.of_sameFiles ht (.refl s), by rw [ht.fs]⟩
  unfold sysRead
  split
  · exact ⟨.refl s, rfl⟩
  · split_ifs
    all_goals try exact ⟨.refl s, rfl⟩
    simp only
    have hnote : SameFiles s (s.updTask s.cur fun k => { k with size := size, buffer := buffer }) :=
      .change rfl rfl rfl
    split
    · trivial
    · split
      · exact hfiles _ hnote
      · exact (sameFiles_sysReadKeyboard ..).imp (fun t ht => hfiles t (hnote.trans ht))
      · refine (readLoop_keeps ..).lift (fun st hst => ⟨⟨hst.1, ?_⟩, hst.2⟩)
        exact funext hnote.fds

/-- Up to a call of `sys_exit` no counter and no descriptor changes. -/
lemma keepsRefs_exits {e : Event} {cause : ExitCause} {s₁ : Kernel}
    (hd : s.dispatch e = .exits cause s₁) : KeepsRefs s s₁ := by
  have hleaves : (s.dispatch e).Leaves (KeepsRefs s) := by
    have htables : ∀ t u, SameData t u → KeepsRefs s t → KeepsRefs s u :=
      fun _ _ htu ht => ht.of_sameFiles htu.toSameFiles
    have henter : ∀ t, KeepsRefs (s.enter e.regs) t → KeepsRefs s t := fun t ht =>
      ⟨ht.tables, ht.fds.trans (funext (s.sameFiles_enter e.regs).fds)⟩
    have hfault : ∀ {u : Kernel}, u = s.enter e.regs →
        u.pageFaultRoutine .kernelFault = .exits cause s₁ → KeepsRefs s s₁ := by
      rintro u rfl hu
      obtain ⟨-, rfl⟩ := pageFaultRoutine_eq_exits hu
      exact henter _ (.of_sameFiles (sameData_printFault _).toSameFiles (.refl _))
    by_cases hfile : FileAction e.act
    · obtain ⟨regs, act⟩ := e
      cases act with
      | write fd buffer size => exact leaves_finish htables ((keepsRefs_sysWrite ..).imp henter)
      | read fd buffer size =>
        exact leaves_finish htables ((keepsRefs_sysRead ..).imp fun t ht => henter t ht.1)
      | «open» addr path flags =>
        obtain ⟨u, ho, hu⟩ := finish_eq_exits hd
        rw [hd]
        exact hfault (sysOpen_eq_fault ho).1 hu
      | close fd => exact absurd hd (finishExcept_ne_exits _)
      | dup fd => simp [dispatch, finishExcept] at hd
      | unlink addr path =>
        obtain ⟨u, ho, hu⟩ := finish_eq_exits hd
        rw [hd]
        exact hfault (sysUnlink_eq_fault ho).1 hu
      | fork => exact absurd hd (finishExcept_ne_exits _)
      | _ => simp [FileAction] at hfile
    · exact (s.sameFiles_dispatch e hfile).imp (fun t ht => .of_sameFiles ht (.refl s))
  rw [hd] at hleaves
  exact hleaves

lemma hasEffect_dispatch (hok : s.TableOk) (e : Event) (hfork : e.act ≠ .fork) :
    (s.dispatch e).Leaves (HasEffect s e.act) := by
  have htables : ∀ t u, SameData t u → HasEffect s e.act t → HasEffect s e.act u :=
    fun t u htu => .of_sameFiles t u htu.toSameFiles
  have henter : (s.enter e.regs).TableOk := by
    obtain ⟨C, hC⟩ := hok
    exact ⟨C, (s.sameFiles_enter e.regs).fs.symm ▸ hC⟩
  by_cases hfile : FileAction e.act
  · obtain ⟨regs, act⟩ := e
    unfold dispatch
    cases act with
    | write fd buffer size =>
      refine leaves_finish htables ((keepsRefs_sysWrite ..).imp (fun t ht => ?_))
      exact (ht.hasEffect (.inl ⟨fd, buffer, size, rfl⟩)).enter
    | read fd buffer size =>
      refine leaves_finish htables ((keepsRefs_sysRead ..).imp (fun t ht => ?_))
      exact (ht.1.hasEffect (.inr ht.2)).enter
    | «open» addr path flags =>
      exact leaves_finish htables ((hasEffect_sysOpen henter ..).imp fun t ht => ht.enter)
    | close fd => exact leaves_finishExcept htables (fun r t ht => (hasEffect_sysClose ht).enter)
    | dup fd =>
      refine leaves_finishExcept htables (fun r t ht => ?_)
      simp only [Except.ok.injEq] at ht
      have h : HasEffect (s.enter regs) (.dup fd) ((s.enter regs).sysDup fd).2 :=
        hasEffect_sysDup _ fd
      rw [ht] at h
      exact h.enter
    | unlink addr path =>
      exact leaves_finish htables ((hasEffect_sysUnlink ..).imp fun t ht => ht.enter)
    | fork => exact absurd rfl hfork
    | _ => simp [FileAction] at hfile
  · exact (s.sameFiles_dispatch e hfile).imp (fun t ht => .of_sameFiles s t ht (.refl s))

/-- A step other than a fork has one of the listed effects on the tables. -/
lemma hasEffect_step {t : Kernel} {e : Event} (hok : s.TableOk) (hfork : e.act ≠ .fork)
    (hst : s.step e = .ok t) : HasEffect s e.act t :=
  leaves_step (fun t u htu => .of_sameFiles t u htu.toSameFiles) (hasEffect_dispatch hok e hfork) hst

/-- A fork counts references and copies the descriptors of the running process. -/
lemma step_fork_files {t : Kernel} {e : Event} (hact : e.act = .fork) (hst : s.step e = .ok t) :
    (t.fs = s.fs ∨ t.fs = s.fs.forkRefs (s.fds s.cur)) ∧
      ∀ u, t.fds u = if s.srchFreeTask = some u then s.fds s.cur else s.fds u := by
  rw [Kernel.step, dispatch, hact] at hst
  simp only at hst
  cases ho : (s.enter e.regs).sysFork with
  | error r =>
    rw [ho] at hst
    simp [finishExcept] at hst
  | ok p =>
    rw [ho] at hst
    simp only [finishExcept, Except.ok.injEq] at hst
    have henter := s.sameFiles_enter e.regs
    have hcur : (s.enter e.regs).current.fileDescriptors = s.fds s.cur := henter.fds s.cur
    have hfree : (s.enter e.regs).srchFreeTask = s.srchFreeTask := by
      have hpid : ∀ u, ((s.enter e.regs).task u).pid = (s.task u).pid := by
        intro u
        by_cases hu : u = s.cur <;> simp [enter, updTask, hu]
      simp only [srchFreeTask, hpid]
    obtain ⟨hfs, hfds⟩ := sysFork_files (s := s.enter e.regs) (t := p.2) ho
    rw [hcur] at hfs
    rw [← hst]
    refine ⟨hfs, fun u => ?_⟩
    rw [fds, (sameFiles_setEax p.2 p.1).fds, hfds u, hcur, hfree, henter.fds u]

end

/-- The state after `sys_open` gave the running process a descriptor. -/
abbrev afterOpen (s : Kernel) (regs : SavedRegs) (fs' : FileSystem) (fd : Fd) (v : FdtId) : Kernel :=
  ((s.enter regs).withFiles fs' (Function.update (s.fds s.cur) fd (some v))).setEax fd.val

lemma afterOpen_mm (s : Kernel) (regs : SavedRegs) (fs' : FileSystem) (fd : Fd) (v : FdtId) :
    (s.afterOpen regs fs' fd v).mm = s.mm := rfl

/-- Opening an entry that may be opened. -/
lemma dispatch_open {s : Kernel} {e : Event} {fd : Fd} {v : FdtId} {f : FileId} {addr : ℕ}
    {path : List Byte} {flags mode : ℤ}
    (hact : e.act = .open addr path flags) (hpath : s.mm.PathOk addr path)
    (hopens : s.fs.OpensEntry path flags f mode) (hv : s.fs.freeFdt = some v)
    (hfd : freeFd (s.fds s.cur) = some fd) :
    s.dispatch e = .done (s.afterOpen e.regs (s.fs.opened v f mode) fd v) := by
  have hfds : (s.enter e.regs).current.fileDescriptors = s.fds s.cur := by
    simp [enter, current]
  have hpath' : (s.enter e.regs).mm.PathOk addr path := hpath
  rw [dispatch, hact]
  simp only
  rw [sysOpen_of_pathOk hpath', hfds, show (s.enter e.regs).fs = s.fs from rfl, hopens.sysOpen hv hfd]
  rfl

/-- Creating a file that may be created. -/
lemma dispatch_new {s : Kernel} {e : Event} {fd : Fd} {v : FdtId} {i : FileId} {addr : ℕ}
    {path : List Byte} {flags mode : ℤ}
    (hact : e.act = .open addr path flags) (hpath : s.mm.PathOk addr path)
    (hnew : s.fs.CreatesEntry path flags i mode) (hffb : 0 ≤ s.fs.ffb) (hv : s.fs.freeFdt = some v)
    (hfd : freeFd (s.fds s.cur) = some fd) :
    s.dispatch e = .done (s.afterOpen e.regs
      ((s.fs.popFree.newFile i path s.fs.ffb).opened v i mode) fd v) := by
  have hfds : (s.enter e.regs).current.fileDescriptors = s.fds s.cur := by
    simp [enter, current]
  have hpath' : (s.enter e.regs).mm.PathOk addr path := hpath
  rw [dispatch, hact]
  simp only
  rw [sysOpen_of_pathOk hpath', hfds, show (s.enter e.regs).fs = s.fs from rfl,
    hnew.sysOpen hffb hv hfd]
  rfl

/-! ## The counters over a step -/

/-- The counters are high enough, and a directory entry is free at -1, never below. -/
structure CountsOk (s : Kernel) : Prop extends RefsOk s where
  free : ∀ f, -1 ≤ (s.fs.dir f).nRefs

/-- Only the count of an entry of `fdt[]` changes. -/
lemma incRefs_fdt (fs : FileSystem) (v w : FdtId) :
    (fs.incRefs v).fdt w =
      { fs.fdt w with refs := (fs.fdt w).refs + if w = v then 1 else 0 } := by
  unfold incRefs
  simp only
  by_cases hw : w = v
  · subst hw
    split <;> simp
  · split <;> simp [hw]

lemma incRefs_refs (fs : FileSystem) (v w : FdtId) :
    ((fs.incRefs v).fdt w).refs = (fs.fdt w).refs + if w = v then 1 else 0 := by
  rw [incRefs_fdt]

lemma incRefs_logicDev (fs : FileSystem) (v w : FdtId) :
    ((fs.incRefs v).fdt w).logicDev = (fs.fdt w).logicDev := by
  rw [incRefs_fdt]

lemma incRefs_nRefs (fs : FileSystem) (v : FdtId) (f : FileId) :
    ((fs.incRefs v).dir f).nRefs =
      (fs.dir f).nRefs + if (fs.fdt v).logicDev = some f then 1 else 0 := by
  have hdev : ((fs.updFdt v fun w => { w with refs := w.refs + 1 }).fdt v).logicDev =
      (fs.fdt v).logicDev := by simp
  unfold incRefs
  simp only [hdev]
  cases hg : (fs.fdt v).logicDev with
  | none => simp
  | some g =>
    by_cases hf : f = g
    · subst hf
      simp
    · simp [hf, Ne.symm hf]

lemma incRefs_offset (fs : FileSystem) (v w : FdtId) :
    ((fs.incRefs v).fdt w).offset = (fs.fdt w).offset := by
  rw [incRefs_fdt]

@[simp] lemma incRefs_ops (fs : FileSystem) (v : FdtId) : (fs.incRefs v).ops = fs.ops := by
  unfold incRefs
  simp only
  split <;> rfl

/-- The loop of `sys_fork` over a list of descriptors. -/
def forkRefsOver (l : List Fd) (fs : FileSystem) (d : Descriptors) : FileSystem :=
  l.foldl (fun fs fd => match d fd with
    | some v => fs.incRefs v
    | none => fs) fs

lemma forkRefsOver_counts (d : Descriptors) (l : List Fd) :
    ∀ fs : FileSystem,
      (∀ w, ((forkRefsOver l fs d).fdt w).refs =
        (fs.fdt w).refs + l.countP (fun fd => d fd = some w)) ∧
      (∀ w, ((forkRefsOver l fs d).fdt w).logicDev = (fs.fdt w).logicDev) ∧
      (∀ f, ((forkRefsOver l fs d).dir f).nRefs = (fs.dir f).nRefs +
        l.countP (fun fd => ∃ v, d fd = some v ∧ (fs.fdt v).logicDev = some f)) := by
  induction l with
  | nil =>
    intro fs
    simp [forkRefsOver]
  | cons fd l ih =>
    intro fs
    cases hfd : d fd with
    | none =>
      have heq : forkRefsOver (fd :: l) fs d = forkRefsOver l fs d := by
        simp [forkRefsOver, hfd]
      obtain ⟨h₁, h₂, h₃⟩ := ih fs
      rw [heq]
      exact ⟨by simpa [hfd] using h₁, h₂, by simpa [hfd] using h₃⟩
    | some v =>
      have heq : forkRefsOver (fd :: l) fs d = forkRefsOver l (fs.incRefs v) d := by
        simp [forkRefsOver, hfd]
      obtain ⟨h₁, h₂, h₃⟩ := ih (fs.incRefs v)
      rw [heq]
      refine ⟨fun w => ?_, fun w => ?_, fun f => ?_⟩
      · rw [h₁ w, incRefs_refs, List.countP_cons]
        by_cases hw : w = v
        · subst hw
          simp [hfd]
          omega
        · simp [hfd, hw, Ne.symm hw]
      · rw [h₂ w, incRefs_logicDev]
      · rw [h₃ f, incRefs_nRefs, List.countP_cons]
        simp only [incRefs_logicDev, hfd, Option.some.injEq, exists_eq_left', decide_eq_true_eq]
        split_ifs <;> push_cast <;> omega

lemma countP_finRange (P : Fd → Prop) [DecidablePred P] :
    (List.finRange maxFds).countP (fun fd => P fd) = (Finset.univ.filter P).card := by
  rw [List.countP_eq_length_filter]
  rfl

lemma forkRefs_refs (fs : FileSystem) (d : Descriptors) (w : FdtId) :
    ((fs.forkRefs d).fdt w).refs =
      (fs.fdt w).refs + ({fd | d fd = some w} : Finset Fd).card := by
  rw [← countP_finRange]
  exact (forkRefsOver_counts d _ fs).1 w

lemma forkRefs_logicDev (fs : FileSystem) (d : Descriptors) (w : FdtId) :
    ((fs.forkRefs d).fdt w).logicDev = (fs.fdt w).logicDev :=
  (forkRefsOver_counts d _ fs).2.1 w

lemma forkRefs_nRefs (fs : FileSystem) (d : Descriptors) (f : FileId) :
    ((fs.forkRefs d).dir f).nRefs = (fs.dir f).nRefs +
      ({fd | ∃ v, d fd = some v ∧ (fs.fdt v).logicDev = some f} : Finset Fd).card := by
  rw [← countP_finRange]
  exact (forkRefsOver_counts d _ fs).2.2 f

lemma forkRefs_ops (d : Descriptors) (fs : FileSystem) : (fs.forkRefs d).ops = fs.ops := by
  unfold forkRefs
  generalize List.finRange maxFds = l
  induction l generalizing fs with
  | nil => rfl
  | cons fd l ih =>
    rw [List.foldl_cons, ih]
    split
    · exact incRefs_ops fs _
    · rfl

lemma forkRefs_fdt (d : Descriptors) (fs : FileSystem) (w : FdtId) :
    ∃ n, (fs.forkRefs d).fdt w = { fs.fdt w with refs := n } := by
  unfold forkRefs
  generalize List.finRange maxFds = l
  induction l generalizing fs with
  | nil => exact ⟨(fs.fdt w).refs, rfl⟩
  | cons fd l ih =>
    rw [List.foldl_cons]
    split
    · next v _ =>
      obtain ⟨n, hn⟩ := ih (fs.incRefs v)
      exact ⟨n, by rw [hn, incRefs_fdt]⟩
    · exact ih fs

/-- Only the count of a directory entry changes. -/
lemma incRefs_dir (fs : FileSystem) (v : FdtId) (f : FileId) :
    ∃ n, (fs.incRefs v).dir f = { fs.dir f with nRefs := n } := by
  unfold incRefs
  simp only
  split
  · next g _ =>
    by_cases hf : f = g
    · subst hf
      exact ⟨(fs.dir f).nRefs + 1, by simp⟩
    · exact ⟨(fs.dir f).nRefs, by simp [hf]⟩
  · exact ⟨(fs.dir f).nRefs, rfl⟩

lemma forkRefs_dir (d : Descriptors) (fs : FileSystem) (f : FileId) :
    ∃ n, (fs.forkRefs d).dir f = { fs.dir f with nRefs := n } := by
  unfold forkRefs
  generalize List.finRange maxFds = l
  induction l generalizing fs with
  | nil => exact ⟨(fs.dir f).nRefs, rfl⟩
  | cons fd l ih =>
    rw [List.foldl_cons]
    split
    · next v _ =>
      obtain ⟨n, hn⟩ := ih (fs.incRefs v)
      obtain ⟨m, hm⟩ := incRefs_dir fs v f
      exact ⟨n, by rw [hn, hm]⟩
    · exact ih fs

/-- What a step makes of one directory entry: a write aside, only the counter changes, or the entry
is that of a new file, or it is removed. -/
lemma step_dir {s t : Kernel} {e : Event} (hok : s.TableOk) (hst : s.step e = .ok t) (g : FileId) :
    ((∃ fd buffer size, e.act = .write fd buffer size) ∧ SameRefs s.fs t.fs) ∨
    ((∃ n, t.fs.dir g = { s.fs.dir g with nRefs := n }) ∧ t.fs.ops g = s.fs.ops g) ∨
    (t.fs.dir g = { name := (t.fs.dir g).name, accessModeAllow := oRdwr, firstBlock := s.fs.ffb,
                    nBlocks := 1, size := 0, nRefs := 1 } ∧ t.fs.ops g = fileOps) ∨
    ((t.fs.dir g).accessModeAllow = (s.fs.dir g).accessModeAllow ∧ t.fs.ops g = noOps) := by
  have hkept : ∀ {fs : FileSystem}, fs.dir g = s.fs.dir g →
      ∃ n, fs.dir g = { s.fs.dir g with nRefs := n } := fun h => ⟨(s.fs.dir g).nRefs, h⟩
  by_cases hfork : e.act = .fork
  · rcases (step_fork_files hfork hst).1 with hfs | hfs
    · rw [hfs]
      exact .inr (.inl ⟨hkept rfl, rfl⟩)
    · rw [hfs]
      exact .inr (.inl ⟨forkRefs_dir (s.fds s.cur) s.fs g, by rw [forkRefs_ops]⟩)
  · have heff := hasEffect_step hok hfork hst
    rw [HasEffect] at heff
    generalize t.fs = fs at heff ⊢
    generalize t.fds = D at heff
    cases heff with
    | same hsame hdir =>
      rcases hdir with hwrite | hdir
      · exact .inl ⟨hwrite, hsame⟩
      · exact .inr (.inl ⟨hkept (by rw [hdir]), by rw [hsame.ops]⟩)
    | @opens addr path flags mode v fd f =>
      refine .inr (.inl ⟨?_, rfl⟩)
      by_cases hg : g = f
      · subst hg
        exact ⟨(s.fs.dir g).nRefs + 1, by simp⟩
      · exact hkept (by simp [hg])
    | @creates addr path flags mode v fd f =>
      by_cases hg : g = f
      · subst hg
        refine .inr (.inr (.inl ?_))
        simp
      · refine .inr (.inl ⟨hkept ?_, ?_⟩) <;>
          simp [hg]
    | @dups v => exact .inr (.inl ⟨incRefs_dir s.fs v g, by rw [incRefs_ops]⟩)
    | @closes v fd f =>
      refine .inr (.inl ⟨?_, rfl⟩)
      by_cases hg : g = f
      · subst hg
        exact ⟨(s.fs.dir g).nRefs - 1, by simp⟩
      · exact hkept (by simp [hg])
    | @unlinks _ addr path f _ _ _ _ _ _ hallow hops hother =>
      by_cases hg : g = f
      · subst hg
        exact .inr (.inr (.inr ⟨hallow g, by rw [hops, Function.update_self]⟩))
      · exact .inr (.inl ⟨hkept (hother g hg), by rw [hops, Function.update_of_ne hg]⟩)

lemma forkRefs_offset (d : Descriptors) (fs : FileSystem) (w : FdtId) :
    ((fs.forkRefs d).fdt w).offset = (fs.fdt w).offset := by
  obtain ⟨n, hn⟩ := forkRefs_fdt d fs w
  rw [hn]

lemma forkRefs_accessMode (d : Descriptors) (fs : FileSystem) (w : FdtId) :
    ((fs.forkRefs d).fdt w).accessMode = (fs.fdt w).accessMode := by
  obtain ⟨n, hn⟩ := forkRefs_fdt d fs w
  rw [hn]

/-- A change of one descriptor leaves the others alone. -/
lemma updateFd_of_ne {D : Slot → Descriptors} {c u : Slot} {fd k : Fd} {x : Option FdtId}
    (h : ¬ (u = c ∧ k = fd)) :
    Function.update D c (Function.update (D c) fd x) u k = D u k := by
  rw [Function.update_apply]
  split_ifs with hu
  · subst hu
    exact Function.update_of_ne (fun hk => h ⟨rfl, hk⟩) _ _
  · rfl

/-- After a descriptor of process `c` is replaced, an open one is the new one or an old one. -/
lemma fds_of_update {s t : Kernel} {c : Slot} {fd : Fd} {x : Option FdtId}
    (hfds : t.fds = Function.update s.fds c (Function.update (s.fds c) fd x)) {p : Slot × Fd}
    {w : FdtId} (hw : t.fds p.1 p.2 = some w) :
    (p = (c, fd) ∧ x = some w) ∨ (p ≠ (c, fd) ∧ s.fds p.1 p.2 = some w) := by
  by_cases hp : p.1 = c ∧ p.2 = fd
  · rw [hfds, hp.1, hp.2, Function.update_self, Function.update_self] at hw
    exact .inl ⟨Prod.ext hp.1 hp.2, hw⟩
  · rw [hfds, updateFd_of_ne hp] at hw
    exact .inr ⟨fun heq => hp (Prod.ext_iff.mp heq), hw⟩

namespace CountsOk

variable {s t : Kernel}

/-- A live descriptor counts in its directory entry. -/
lemma one_le_nRefs (h : CountsOk s) {u : Slot} {fd : Fd} {v : FdtId} {f : FileId} (hu : s.Live u)
    (hfd : s.fds u fd = some v) (hdev : (s.fs.fdt v).logicDev = some f) :
    1 ≤ (s.fs.dir f).nRefs := by
  have hmem : (u, fd) ∈ s.usersOfFile f := mem_usersOfFile.mpr ⟨hu, v, hfd, hdev⟩
  have hcard := h.nRefs f ⟨_, hmem⟩
  have hpos := Finset.card_pos.mpr ⟨_, hmem⟩
  omega

/-- An entry of `fdt[]` that `sys_open` takes is used by no live process. -/
lemma no_users (h : CountsOk s) {v : FdtId} (hv : s.fs.freeFdt = some v) {u : Slot} {fd : Fd}
    (hu : s.Live u) : s.fds u fd ≠ some v := by
  intro hfd
  have hfree : ¬ (s.fs.fdt v).refs > 0 := by simpa using List.find?_some hv
  have hmem : (u, fd) ∈ s.users v := mem_users.mpr ⟨hu, hfd⟩
  have hcard := h.refs v
  have hpos := Finset.card_pos.mpr ⟨_, hmem⟩
  omega

/-- Descriptors that were in use before, with the same counters. -/
lemma of_subset (h : CountsOk s) (hrefs : ∀ v, (s.fs.fdt v).refs ≤ (t.fs.fdt v).refs)
    (hnRefs : ∀ f, (s.fs.dir f).nRefs ≤ (t.fs.dir f).nRefs)
    (husers : ∀ v, t.users v ⊆ s.users v) (hfiles : ∀ f, t.usersOfFile f ⊆ s.usersOfFile f) :
    CountsOk t := by
  refine ⟨⟨fun v => ?_, fun f hne => ?_⟩, fun f => (h.free f).trans (hnRefs f)⟩
  · have hle := Finset.card_le_card (husers v)
    have := h.refs v
    have := hrefs v
    omega
  · have hle := Finset.card_le_card (hfiles f)
    have := h.nRefs f (hne.mono (hfiles f))
    have := hnRefs f
    omega

/-- No counter and no descriptor changes. -/
lemma same (h : CountsOk s) (hsame : SameRefs s.fs t.fs) (hfds : t.fds = s.fds)
    (hlive : ∀ u, t.Live u → s.Live u) : CountsOk t := by
  refine h.of_subset (fun v => (hsame.refs v).ge) (fun f => (hsame.nRefs f).ge) (fun v p hp => ?_)
    (fun f p hp => ?_)
  · rw [mem_users, hfds] at hp
    exact mem_users.mpr ⟨hlive _ hp.1, hp.2⟩
  · rw [mem_usersOfFile, hfds] at hp
    obtain ⟨hu, v, hv, hdev⟩ := hp
    exact mem_usersOfFile.mpr ⟨hlive _ hu, v, hv, (hsame.dev v).symm.trans hdev⟩

/-- The running process gets one more descriptor, on a fresh entry of `fdt[]` for file `f`. -/
lemma opened (h : CountsOk s) {fs : FileSystem} {v : FdtId} {fd : Fd} {f : FileId} {mode : ℤ}
    (hv : s.fs.freeFdt = some v)
    (hfds : t.fds = Function.update s.fds s.cur (Function.update (s.fds s.cur) fd (some v)))
    (hfs : t.fs = fs.opened v f mode) (hfdt₁ : fs.fdt = s.fs.fdt)
    (hother₁ : ∀ g, g ≠ f → (fs.dir g).nRefs = (s.fs.dir g).nRefs)
    (hf₁ : ((s.usersOfFile f).card : ℤ) ≤ (fs.dir f).nRefs)
    (hlive : ∀ u, t.Live u → s.Live u) : CountsOk t := by
  have hfdt : ∀ w, w ≠ v → t.fs.fdt w = s.fs.fdt w := by
    intro w hw
    simp [hfs, hw, hfdt₁]
  have hrefs : (t.fs.fdt v).refs = 1 := by simp [hfs]
  have hdev : (t.fs.fdt v).logicDev = some f := by simp [hfs]
  have hother : ∀ g, g ≠ f → (t.fs.dir g).nRefs = (s.fs.dir g).nRefs := by
    intro g hg
    simpa [hfs, hg] using hother₁ g hg
  have hf : ((s.usersOfFile f).card : ℤ) + 1 ≤ (t.fs.dir f).nRefs := by
    simpa [hfs] using hf₁
  -- a descriptor after the call is the new one, or an old one that points elsewhere
  have hsplit : ∀ p w, t.Live p.1 → t.fds p.1 p.2 = some w →
      (p = (s.cur, fd) ∧ w = v) ∨ (w ≠ v ∧ s.Live p.1 ∧ s.fds p.1 p.2 = some w) := by
    intro p w hu hw
    rcases fds_of_update hfds hw with ⟨hp, hv'⟩ | ⟨-, hold⟩
    · exact .inl ⟨hp, (Option.some.inj hv').symm⟩
    · refine .inr ⟨?_, hlive _ hu, hold⟩
      rintro rfl
      exact h.no_users hv (hlive _ hu) hold
  refine ⟨⟨fun w => ?_, fun g hne => ?_⟩, fun g => ?_⟩
  · by_cases hw : w = v
    · subst hw
      have hsub : t.users w ⊆ {(s.cur, fd)} := by
        intro p hp
        rw [mem_users] at hp
        rcases hsplit p w hp.1 hp.2 with ⟨rfl, -⟩ | ⟨hne, -⟩
        · exact Finset.mem_singleton_self _
        · exact absurd rfl hne
      have hle := Finset.card_le_card hsub
      rw [Finset.card_singleton] at hle
      omega
    · have hsub : t.users w ⊆ s.users w := by
        intro p hp
        rw [mem_users] at hp
        rcases hsplit p w hp.1 hp.2 with ⟨-, rfl⟩ | ⟨-, hu, hp'⟩
        · exact absurd rfl hw
        · exact mem_users.mpr ⟨hu, hp'⟩
      have hle := Finset.card_le_card hsub
      have := h.refs w
      rw [hfdt w hw]
      omega
  · have hold : ∀ p ∈ t.usersOfFile g, p ≠ (s.cur, fd) ∨ g ≠ f → p ∈ s.usersOfFile g := by
      intro p hp hcase
      rw [mem_usersOfFile] at hp
      obtain ⟨hu, w, hw, hwdev⟩ := hp
      rcases hsplit p w hu hw with ⟨rfl, rfl⟩ | ⟨hne, hu', hp'⟩
      · rw [hdev, Option.some.injEq] at hwdev
        exact absurd hwdev.symm (hcase.resolve_left (fun hne => hne rfl))
      · rw [hfdt w hne] at hwdev
        exact mem_usersOfFile.mpr ⟨hu', w, hp', hwdev⟩
    by_cases hg : g = f
    · subst hg
      have hsub : t.usersOfFile g ⊆ insert (s.cur, fd) (s.usersOfFile g) := by
        intro p hp
        by_cases hpe : p = (s.cur, fd)
        · exact Finset.mem_insert.mpr (.inl hpe)
        · exact Finset.mem_insert_of_mem (hold p hp (.inl hpe))
      have hle := (Finset.card_le_card hsub).trans (Finset.card_insert_le _ _)
      omega
    · have hsub : t.usersOfFile g ⊆ s.usersOfFile g := fun p hp => hold p hp (.inr hg)
      have hle := Finset.card_le_card hsub
      have := h.nRefs g (hne.mono hsub)
      rw [hother g hg]
      omega
  · by_cases hg : g = f
    · subst hg
      omega
    · rw [hother g hg]
      exact h.free g

/-- The running process gets one more descriptor on an entry that it uses already. -/
lemma dup (h : CountsOk s) (hcur : s.Live s.cur) {v : FdtId} {fd new : Fd}
    (hfd : s.fds s.cur fd = some v)
    (hfds : t.fds = Function.update s.fds s.cur (Function.update (s.fds s.cur) new (some v)))
    (hfs : t.fs = s.fs.incRefs v) (hlive : ∀ u, t.Live u → s.Live u) : CountsOk t := by
  have hsplit : ∀ p w, t.Live p.1 → t.fds p.1 p.2 = some w →
      (p = (s.cur, new) ∧ w = v) ∨ (s.Live p.1 ∧ s.fds p.1 p.2 = some w) := by
    intro p w hu hw
    rcases fds_of_update hfds hw with ⟨hp, hv⟩ | ⟨-, hold⟩
    · exact .inl ⟨hp, (Option.some.inj hv).symm⟩
    · exact .inr ⟨hlive _ hu, hold⟩
  have hrefs : ∀ w, (t.fs.fdt w).refs = (s.fs.fdt w).refs + if w = v then 1 else 0 := by
    intro w
    rw [hfs]
    exact incRefs_refs s.fs v w
  have hdev : ∀ w, (t.fs.fdt w).logicDev = (s.fs.fdt w).logicDev := by
    intro w
    rw [hfs]
    exact incRefs_logicDev s.fs v w
  have hnRefs : ∀ g, (t.fs.dir g).nRefs =
      (s.fs.dir g).nRefs + if (s.fs.fdt v).logicDev = some g then 1 else 0 := by
    intro g
    rw [hfs]
    exact incRefs_nRefs s.fs v g
  refine ⟨⟨fun w => ?_, fun g hne => ?_⟩, fun g => ?_⟩
  · have hsub : t.users w ⊆ if w = v then insert (s.cur, new) (s.users w) else s.users w := by
      intro p hp
      rw [mem_users] at hp
      rcases hsplit p w hp.1 hp.2 with ⟨rfl, rfl⟩ | ⟨hu, hp'⟩
      · rw [if_pos rfl]
        exact Finset.mem_insert_self _ _
      · have hmem : p ∈ s.users w := mem_users.mpr ⟨hu, hp'⟩
        split_ifs
        · exact Finset.mem_insert_of_mem hmem
        · exact hmem
    have hle := Finset.card_le_card hsub
    have hw := h.refs w
    rw [hrefs w]
    split_ifs at hle ⊢
    · have := hle.trans (Finset.card_insert_le _ _)
      omega
    · omega
  · have hold : ∀ p ∈ t.usersOfFile g, p ∈ s.usersOfFile g ∨
        (p = (s.cur, new) ∧ (s.fs.fdt v).logicDev = some g) := by
      intro p hp
      rw [mem_usersOfFile] at hp
      obtain ⟨hu, w, hw, hwdev⟩ := hp
      rw [hdev w] at hwdev
      rcases hsplit p w hu hw with ⟨rfl, rfl⟩ | ⟨hu', hp'⟩
      · exact .inr ⟨rfl, hwdev⟩
      · exact .inl (mem_usersOfFile.mpr ⟨hu', w, hp', hwdev⟩)
    rw [hnRefs g]
    split_ifs with hg
    · have hmem : (s.cur, fd) ∈ s.usersOfFile g := mem_usersOfFile.mpr ⟨hcur, v, hfd, hg⟩
      have hsub : t.usersOfFile g ⊆ insert (s.cur, new) (s.usersOfFile g) := by
        intro p hp
        rcases hold p hp with hp' | ⟨rfl, -⟩
        · exact Finset.mem_insert_of_mem hp'
        · exact Finset.mem_insert_self _ _
      have hle := (Finset.card_le_card hsub).trans (Finset.card_insert_le _ _)
      have := h.nRefs g ⟨_, hmem⟩
      omega
    · have hsub : t.usersOfFile g ⊆ s.usersOfFile g := by
        intro p hp
        exact (hold p hp).resolve_right (fun hp' => hg hp'.2)
      have hle := Finset.card_le_card hsub
      have := h.nRefs g (hne.mono hsub)
      omega
  · have := h.free g
    rw [hnRefs g]
    split_ifs <;> omega

/-- The running process loses a descriptor. -/
lemma close (h : CountsOk s) (hcur : s.Live s.cur) {v : FdtId} {fd : Fd} {f : FileId}
    (hfd : s.fds s.cur fd = some v) (hdev : (s.fs.fdt v).logicDev = some f)
    (hfds : t.fds = Function.update s.fds s.cur (Function.update (s.fds s.cur) fd none))
    (hfs : t.fs = (s.fs.updFdt v fun w => { w with refs := w.refs - 1 }).updDir f
      fun d => { d with nRefs := d.nRefs - 1 })
    (hlive : ∀ u, t.Live u → s.Live u) : CountsOk t := by
  have hsplit : ∀ p w, t.Live p.1 → t.fds p.1 p.2 = some w →
      p ≠ (s.cur, fd) ∧ s.Live p.1 ∧ s.fds p.1 p.2 = some w := by
    intro p w hu hw
    rcases fds_of_update hfds hw with ⟨-, hnone⟩ | ⟨hne, hold⟩
    · exact absurd hnone (by simp)
    · exact ⟨hne, hlive _ hu, hold⟩
  have hrefs : ∀ w, (t.fs.fdt w).refs = (s.fs.fdt w).refs - if w = v then 1 else 0 := by
    intro w
    rw [hfs]
    by_cases hw : w = v <;> simp [hw]
  have hdev' : ∀ w, (t.fs.fdt w).logicDev = (s.fs.fdt w).logicDev := by
    intro w
    rw [hfs]
    by_cases hw : w = v <;> simp [hw]
  have hnRefs : ∀ g, (t.fs.dir g).nRefs = (s.fs.dir g).nRefs - if g = f then 1 else 0 := by
    intro g
    rw [hfs]
    by_cases hg : g = f <;> simp [hg]
  have hmemv : (s.cur, fd) ∈ s.users v := mem_users.mpr ⟨hcur, hfd⟩
  have hmemf : (s.cur, fd) ∈ s.usersOfFile f := mem_usersOfFile.mpr ⟨hcur, v, hfd, hdev⟩
  have husers : ∀ w, t.users w ⊆ (s.users w).erase (s.cur, fd) := by
    intro w p hp
    rw [mem_users] at hp
    obtain ⟨hne, hu, hw⟩ := hsplit p w hp.1 hp.2
    exact Finset.mem_erase.mpr ⟨hne, mem_users.mpr ⟨hu, hw⟩⟩
  have hfiles : ∀ g, t.usersOfFile g ⊆ (s.usersOfFile g).erase (s.cur, fd) := by
    intro g p hp
    rw [mem_usersOfFile] at hp
    obtain ⟨hu, w, hw, hwdev⟩ := hp
    rw [hdev' w] at hwdev
    obtain ⟨hne, hu', hw'⟩ := hsplit p w hu hw
    exact Finset.mem_erase.mpr ⟨hne, mem_usersOfFile.mpr ⟨hu', w, hw', hwdev⟩⟩
  refine ⟨⟨fun w => ?_, fun g hne => ?_⟩, fun g => ?_⟩
  · have hle := Finset.card_le_card (husers w)
    have hw := h.refs w
    rw [hrefs w]
    split_ifs with hwv
    · subst hwv
      rw [Finset.card_erase_of_mem hmemv] at hle
      have := Finset.card_pos.mpr ⟨_, hmemv⟩
      omega
    · have := hle.trans (Finset.card_le_card (Finset.erase_subset _ _))
      omega
  · have hle := Finset.card_le_card (hfiles g)
    have hg := h.nRefs g (hne.mono ((hfiles g).trans (Finset.erase_subset _ _)))
    rw [hnRefs g]
    split_ifs with hgf
    · subst hgf
      rw [Finset.card_erase_of_mem hmemf] at hle
      have := Finset.card_pos.mpr ⟨_, hmemf⟩
      omega
    · have := hle.trans (Finset.card_le_card (Finset.erase_subset _ _))
      omega
  · have hg := h.free g
    have hf := h.one_le_nRefs hcur hfd hdev
    rw [hnRefs g]
    split_ifs with hgf
    · subst hgf
      omega
    · omega

/-- A directory entry without references is removed. -/
lemma unlink (h : CountsOk s) {f : FileId} (hf : (s.fs.dir f).nRefs = 0)
    (hfdt : t.fs.fdt = s.fs.fdt)
    (hdir : ∀ g, (t.fs.dir g).nRefs = if g = f then -1 else (s.fs.dir g).nRefs)
    (hfds : t.fds = s.fds) (hlive : ∀ u, t.Live u → s.Live u) : CountsOk t := by
  have hfiles : ∀ g, t.usersOfFile g ⊆ s.usersOfFile g := by
    intro g p hp
    rw [mem_usersOfFile, hfds, hfdt] at hp
    exact mem_usersOfFile.mpr ⟨hlive _ hp.1, hp.2⟩
  refine ⟨⟨fun v => ?_, fun g hne => ?_⟩, fun g => ?_⟩
  · have hsub : t.users v ⊆ s.users v := by
      intro p hp
      rw [mem_users, hfds] at hp
      exact mem_users.mpr ⟨hlive _ hp.1, hp.2⟩
    have hle := Finset.card_le_card hsub
    have := h.refs v
    rw [hfdt]
    omega
  · have hle := Finset.card_le_card (hfiles g)
    have hg := h.nRefs g (hne.mono (hfiles g))
    rw [hdir g]
    split_ifs with hgf
    · have hpos := Finset.card_pos.mpr (hne.mono (hfiles g))
      rw [hgf] at hg hpos
      omega
    · omega
  · rw [hdir g]
    split_ifs
    · exact le_refl _
    · exact h.free g

/-- A child gets the descriptors of the running process. -/
lemma fork (h : CountsOk s) (hcur : s.Live s.cur) {new : Slot}
    (hfds : t.fds = Function.update s.fds new (s.fds s.cur))
    (hfs : t.fs = s.fs.forkRefs (s.fds s.cur))
    (hlive : ∀ u, t.Live u → s.Live u ∨ u = new) : CountsOk t := by
  -- a descriptor after the call is an old one or a copy in the child
  have hsplit : ∀ (p : Slot × Fd) (w : FdtId), t.Live p.1 → t.fds p.1 p.2 = some w →
      (p.1 = new ∧ s.fds s.cur p.2 = some w) ∨ (s.Live p.1 ∧ s.fds p.1 p.2 = some w) := by
    rintro ⟨u, g⟩ w hu hw
    rw [hfds, Function.update_apply] at hw
    split_ifs at hw with hn
    · exact .inl ⟨hn, hw⟩
    · exact .inr ⟨(hlive u hu).resolve_right hn, hw⟩
  have hcopies : ∀ (A : Finset (Slot × Fd)) (P : Fd → Prop) [DecidablePred P]
      (B : Finset (Slot × Fd)), (∀ p ∈ A, p ∈ B ∨ (p.1 = new ∧ P p.2)) →
      A.card ≤ B.card + (Finset.univ.filter P).card := by
    intro A P _ B hAB
    have hsub : A ⊆ B ∪ (Finset.univ.filter P).image (fun fd => (new, fd)) := by
      intro p hp
      rcases hAB p hp with hB | ⟨hnew, hP⟩
      · exact Finset.mem_union_left _ hB
      · refine Finset.mem_union_right _ (Finset.mem_image.mpr ⟨p.2, by simpa using hP, ?_⟩)
        exact Prod.ext hnew.symm rfl
    calc A.card ≤ _ := Finset.card_le_card hsub
      _ ≤ B.card + _ := Finset.card_union_le _ _
      _ ≤ B.card + (Finset.univ.filter P).card := Nat.add_le_add_left Finset.card_image_le _
  refine ⟨⟨fun w => ?_, fun g hne => ?_⟩, fun g => ?_⟩
  · have hle := hcopies (t.users w) (fun fd => s.fds s.cur fd = some w) (s.users w) (by
      intro p hp
      rw [mem_users] at hp
      exact (hsplit p w hp.1 hp.2).elim .inr (fun hp' => .inl (mem_users.mpr hp')))
    have hw := h.refs w
    rw [hfs, forkRefs_refs]
    omega
  · have hle := hcopies (t.usersOfFile g)
      (fun fd => ∃ v, s.fds s.cur fd = some v ∧ (s.fs.fdt v).logicDev = some g) (s.usersOfFile g) (by
        intro p hp
        rw [mem_usersOfFile] at hp
        obtain ⟨hu, w, hw, hwdev⟩ := hp
        rw [hfs, forkRefs_logicDev] at hwdev
        rcases hsplit p w hu hw with ⟨hn, hp'⟩ | ⟨hu', hp'⟩
        · exact .inr ⟨hn, w, hp', hwdev⟩
        · exact .inl (mem_usersOfFile.mpr ⟨hu', w, hp', hwdev⟩))
    -- the copied descriptors are in use by the parent
    have hsome : (s.usersOfFile g).Nonempty := by
      obtain ⟨p, hp⟩ := hne
      rw [mem_usersOfFile] at hp
      obtain ⟨hu, w, hw, hwdev⟩ := hp
      rw [hfs, forkRefs_logicDev] at hwdev
      rcases hsplit p w hu hw with ⟨-, hp'⟩ | ⟨hu', hp'⟩
      · exact ⟨(s.cur, p.2), mem_usersOfFile.mpr ⟨hcur, w, hp', hwdev⟩⟩
      · exact ⟨p, mem_usersOfFile.mpr ⟨hu', w, hp', hwdev⟩⟩
    have hg := h.nRefs g hsome
    rw [hfs, forkRefs_nRefs]
    omega
  · have hg := h.free g
    rw [hfs, forkRefs_nRefs]
    omega

end CountsOk

/-- `sys_open` finds the name in a free directory entry and opens that entry. -/
def OpensFree (s : Kernel) (e : Event) : Prop :=
  ∃ addr path flags f mode, e.act = .open addr path flags ∧ s.mm.PathOk addr path ∧
    s.fs.freeFdt.isSome ∧ (freeFd (s.fds s.cur)).isSome ∧ s.fs.OpensEntry path flags f mode ∧
    (s.fs.dir f).nRefs = -1

section

variable {s t : Kernel} {e : Event} {Q : Node → List Slot}

/-- A fork makes no process, or one with the descriptors of its parent. -/
lemma step_fork_tables (hs : SystemOk s Q) (hfork : e.act = .fork) (hst : s.step e = .ok t) :
    (t.fs = s.fs ∧ ∀ u, (t.Live u ↔ s.Live u) ∧ (s.Live u → t.fds u = s.fds u)) ∨
    ∃ new, ¬ s.Live new ∧ t.Live new ∧ t.fs = s.fs.forkRefs (s.fds s.cur) ∧
      t.fds = Function.update s.fds new (s.fds s.cur) ∧ ∀ u, u ≠ new → (t.Live u ↔ s.Live u) := by
  have hq := s.quiet_enter e.regs
  have henter : ∀ u, (s.enter e.regs).fds u = s.fds u := (s.sameFiles_enter e.regs).fds
  -- the result in `%eax` changes nothing of this
  have hset : ∀ (u : Kernel) (r : ℤ), (u.setEax r).fs = u.fs ∧ (u.setEax r).fds = u.fds ∧
      ∀ v, (u.setEax r).Live v ↔ u.Live v := fun u r =>
    ⟨(u.sameFiles_setEax r).fs, funext (u.sameFiles_setEax r).fds, (u.quiet_setEax r).sched.live_iff⟩
  rcases step_fork_cases hs.sched.cur_live hfork hst with rfl | ⟨new, hdead, hne, ⟨mm, -, rfl⟩ |
    ⟨frames, mm, -, -, rfl⟩⟩
  · obtain ⟨hfs, hfds, hlive⟩ := hset (s.enter e.regs) (-eAgain)
    refine .inl ⟨hfs, fun u => ⟨(hlive u).trans (hq.sched.live_iff u), fun _ => ?_⟩⟩
    rw [hfds, henter]
  · -- the slot of the child stays dead
    obtain ⟨hfs, hfds, hlive⟩ := hset ((s.enter e.regs).forkFailed new mm) (-eAgain)
    refine .inl ⟨hfs, fun u => ?_⟩
    rw [hlive, hfds, ← hq.sched.live_iff u]
    by_cases hu : u = new
    · subst hu
      have hno : ¬ (s.enter e.regs).Live u := fun h => hdead ((hq.sched.live_iff u).mp h)
      exact ⟨iff_of_false (by simp [Live, forkFailed]) hno, fun h => absurd h hno⟩
    · have htask : ((s.enter e.regs).forkFailed new mm).task u = (s.enter e.regs).task u :=
        Function.update_of_ne hu _ _
      refine ⟨by rw [Live, htask], fun _ => ?_⟩
      rw [fds, htask, ← henter u]
  · obtain ⟨hfs, hfds, hlive⟩ :=
      hset ((s.enter e.regs).forked new (fun j => frames.getD j.val 0) mm) s.pid
    have htask : ∀ u, u ≠ new → ((s.enter e.regs).forked new (fun j => frames.getD j.val 0) mm).task u =
        (s.enter e.regs).task u := fun u hu => Function.update_of_ne hu _ _
    refine .inr ⟨new, hdead, ?_, ?_, ?_, fun u hu => ?_⟩
    · rw [hlive, Live]
      have hpos : 0 ≤ (s.enter e.regs).pid := hs.sched.counter.le
      simpa [forked, child] using hpos
    · rw [hfs, ← henter s.cur]
      rfl
    · rw [hfds]
      funext u
      by_cases hu : u = new
      · subst hu
        have hchild : ((s.enter e.regs).forked u (fun j => frames.getD j.val 0) mm).task u =
            (s.enter e.regs).child fun j => frames.getD j.val 0 := Function.update_self ..
        rw [Function.update_self, ← henter s.cur, fds, hchild]
        rfl
      · rw [Function.update_of_ne hu, fds, htask u hu, ← henter u]
    · rw [hlive, Live, htask u hu]
      exact hq.sched.live_iff u

/-- The counters over a fork. -/
lemma CountsOk.step_fork (h : CountsOk s) (hs : SystemOk s Q) (hfork : e.act = .fork)
    (hst : s.step e = .ok t) : CountsOk t := by
  rcases step_fork_tables hs hfork hst with ⟨hfs, hold⟩ | ⟨new, -, -, hfs, hfds, hlive⟩
  · refine h.of_subset (fun _ => by rw [hfs]) (fun _ => by rw [hfs]) (fun v p hp => ?_)
      (fun f p hp => ?_)
    · rw [mem_users] at hp ⊢
      obtain ⟨hiff, hfds⟩ := hold p.1
      have hl := hiff.mp hp.1
      exact ⟨hl, hfds hl ▸ hp.2⟩
    · rw [mem_usersOfFile, hfs] at hp
      rw [mem_usersOfFile]
      obtain ⟨hiff, hfds⟩ := hold p.1
      have hl := hiff.mp hp.1
      exact ⟨hl, hfds hl ▸ hp.2⟩
  · refine h.fork hs.sched.cur_live hfds hfs (fun u hu => ?_)
    by_cases hun : u = new
    · exact .inr hun
    · exact .inl ((hlive u hun).mp hu)

/-- The counters stay high enough over a step that opens no free directory entry. -/
lemma CountsOk.step (h : CountsOk s) (hs : SystemOk s Q) (hok : s.TableOk) (hg : s.ExitsFindTwo e)
    (hst : s.step e = .ok t) (hopen : ¬ s.OpensFree e) : CountsOk t := by
  have hcur := hs.sched.cur_live
  by_cases hfork : e.act = .fork
  · exact h.step_fork hs hfork hst
  · have hlive : ∀ u, t.Live u → s.Live u := by
      intro u hu
      obtain ⟨Q', hturn⟩ := (hs.step_effects e hg).1 t hst
      by_contra hnot
      exact hfork (hturn.live hu hnot)
    have heff := hasEffect_step hok hfork hst
    rw [HasEffect] at heff
    generalize hfs : t.fs = fs at heff
    generalize hfds : t.fds = D at heff
    cases heff with
    | same hsame => exact h.same (hfs ▸ hsame) hfds hlive
    | @opens addr path flags mode v fd f hact hpath hv hfd hentry =>
      refine h.opened hv hfds hfs rfl (fun g _ => rfl) ?_ hlive
      have hne : (s.fs.dir f).nRefs ≠ -1 := fun hfree =>
        hopen ⟨addr, path, flags, f, mode, hact, hpath, by simp [hv], by simp [hfd], hentry, hfree⟩
      rcases (s.usersOfFile f).eq_empty_or_nonempty with hempty | hsome
      · have hfree := h.free f
        rw [hempty, Finset.card_empty]
        omega
      · exact h.nRefs f hsome
    | @creates addr path flags mode v fd f hact hv hfd hnew =>
      have hfree : (s.fs.dir f).nRefs = -1 := by simpa using List.find?_some hnew.free
      refine h.opened hv hfds hfs rfl (fun g hg => ?_) ?_ hlive
      · simp [hg]
      · -- a free entry has no users
        rcases (s.usersOfFile f).eq_empty_or_nonempty with hempty | hsome
        · simp [hempty]
        · have := h.nRefs f hsome
          omega
    | dups _ hfd hnew => exact h.dup hcur hfd hfds hfs hlive
    | closes hact hfd hdev => exact h.close hcur hfd hdev hfds hfs hlive
    | unlinks _ _ hf hfdt hdir => exact h.unlink hf (hfs ▸ hfdt) (hfs ▸ hdir) hfds hlive

/-- A free directory entry that is opened has a count of 0 and one descriptor. -/
lemma OpensFree.not_refsOk (h : s.OpensFree e) (hs : SystemOk s Q) (hst : s.step e = .ok t) :
    ¬ t.RefsOk := by
  obtain ⟨addr, path, flags, f, mode, hact, hpath, hv, hfd, hentry, hfree⟩ := h
  obtain ⟨v, hv⟩ := Option.isSome_iff_exists.mp hv
  obtain ⟨fd, hfd⟩ := Option.isSome_iff_exists.mp hfd
  simp only [Kernel.step, dispatch_open hact hpath hentry hv hfd, Except.ok.injEq] at hst
  -- the new descriptor is live and refers to the entry
  have hsched : SameSched s t := by
    rw [← hst]
    exact ((s.quiet_enter e.regs).trans ((quiet_withFiles ..).trans (quiet_setEax ..))).sched
  have hmem : (s.cur, fd) ∈ t.usersOfFile f := by
    refine mem_usersOfFile.mpr ⟨(hsched.live_iff _).mpr hs.sched.cur_live, v, ?_, ?_⟩
    · simp [← hst, fds, setEax, withFiles, enter]
    · simp [← hst, setEax, withFiles]
  have hcount : (t.fs.dir f).nRefs = 0 := by
    simp [← hst, setEax, withFiles, hfree]
  intro hrefs
  have hle := hrefs.nRefs f ⟨_, hmem⟩
  have hpos := Finset.card_pos.mpr ⟨_, hmem⟩
  omega

end

end Kernel

end ZeOS
