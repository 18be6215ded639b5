import ZeOS.DiskSpace
import ZeOS.Invariants.Contents

/-!
# The directory

`sys_open` and `sys_unlink` look a name up in all the entries of the directory, with `strcmp`, and
`create_file` takes an entry whose counter is -1.  Names are written into arrays of
`MAX_NAME_LENGTH` bytes that are never cleared: `create_file` writes a name and its terminator over
what was there, and `sys_unlink` only its first byte.

A name is written for a new file when the lookup has found no entry that has it, so names are
unique, and `create_file` takes only names that fit with their terminator
(`names_unique_and_terminated`).

That an entry is free is recorded in its counter, and the lookup does not see the counter.  A free
entry has no name, as long as no counter falls to -1 by a close, so only the empty path leads the
lookup to one: `sys_open` with the empty path opens the first free entry.  The counters of the
display are one short from the start, so that a descriptor can be left over when its entry is
removed; a copy of such a descriptor counts the entry as used, too.  In the runs without these steps
only `create_file` takes free entries (`free_entries_taken_by_create`).
-/

namespace ZeOS

open FileSystem LinkChain

/-! ## Names -/

/-- A path of a call is a C string. -/
def Action.PathIsCString : Action → Prop
  | .open _ path _ | .unlink _ path => (0 : Byte) ∉ path
  | _ => True

/-- An empty array holds the empty string. -/
lemma cString_erased (name : Fin maxNameLength → Byte) : cString (Function.update name 0 0) = [] := by
  rw [cString, List.ofFn_succ]
  simp

namespace FileSystem

variable {fs : FileSystem}

/-- The names of all entries. -/
def names (fs : FileSystem) : FileId → Fin maxNameLength → Byte := fun f => (fs.dir f).name

/-- Every name ends inside its array, and no two entries have the same name but the empty one. -/
structure NamesOk (fs : FileSystem) : Prop where
  terminated : ∀ f, ∃ i, fs.names f i = 0
  unique : ∀ f g, cString (fs.names f) = cString (fs.names g) → cString (fs.names f) ≠ [] → f = g

lemma copyName_terminated {path : List Byte} (hlen : path.length ≤ maxNameLength - 1)
    (name : Fin maxNameLength → Byte) : ∃ i, copyName path name i = 0 := by
  have hlt : path.length < maxNameLength := by
    change path.length ≤ 9 at hlen
    change path.length < 10
    omega
  refine ⟨⟨path.length, hlt⟩, ?_⟩
  rw [copyName, dif_neg (Nat.lt_irrefl _), if_pos rfl]

/-- One name is replaced, by the empty one or by one that no other entry has. -/
lemma NamesOk.update {fs' : FileSystem} (h : NamesOk fs) {f : FileId}
    {name : Fin maxNameLength → Byte} (hnames : fs'.names = Function.update fs.names f name)
    (hterm : ∃ i, name i = 0) (hnew : cString name ≠ [] → ∀ g, cString (fs.names g) ≠ cString name) :
    NamesOk fs' := by
  constructor
  · intro g
    rw [hnames, Function.update_apply]
    split_ifs
    · exact hterm
    · exact h.terminated g
  · intro g k hgk hne
    rw [hnames, Function.update_apply, Function.update_apply] at hgk
    rw [hnames, Function.update_apply] at hne
    split_ifs at hgk hne with hg hk hk
    · rw [hg, hk]
    · exact absurd hgk.symm (hnew hne k)
    · rw [hgk] at hne
      exact absurd hgk (hnew hne g)
    · exact h.unique g k hgk hne

/-- The search finds the only entry with a name. -/
lemma NamesOk.lookup_eq_some_iff (h : NamesOk fs) {path : List Byte} (hpath : path ≠ [])
    (f : FileId) : fs.lookup path = some f ↔ cString (fs.dir f).name = path := by
  constructor
  · intro hf
    have := List.find?_some hf
    rwa [decide_eq_true_eq, strcmp_eq_zero_iff] at this
  · intro hf
    refine lookup_eq_some (fun g => ⟨fun hg => ?_, fun hg => hg ▸ hf⟩)
    exact h.unique g f (hg.trans hf.symm) (fun hnil => hpath (hg.symm.trans hnil))

end FileSystem

namespace Kernel

variable {s t : Kernel} {e : Event}

/-- What a step does to the names: nothing, or a new file, or an entry that is removed. -/
lemma step_names (hok : s.TableOk) (hst : s.step e = .ok t) :
    t.fs.names = s.fs.names ∨
    (∃ addr path flags f mode, e.act = .open addr path flags ∧ s.fs.CreatesEntry path flags f mode ∧
      t.fs.names = Function.update s.fs.names f (copyName path (s.fs.names f))) ∨
    ∃ f, t.fs.names = Function.update s.fs.names f (Function.update (s.fs.names f) 0 0) := by
  by_cases hfork : e.act = .fork
  · rcases (step_fork_files hfork hst).1 with hfs | hfs
    · exact .inl (by rw [hfs])
    · refine .inl (funext fun f => ?_)
      obtain ⟨n, hn⟩ := forkRefs_dir (s.fds s.cur) s.fs f
      rw [names, hfs, hn, names]
  · have heff := hasEffect_step hok hfork hst
    rw [HasEffect] at heff
    generalize t.fs = fs at heff ⊢
    generalize t.fds = D at heff
    cases heff with
    | same hsame => exact .inl (funext hsame.name)
    | @opens addr path flags mode v fd f =>
      refine .inl (funext fun g => ?_)
      by_cases hg : g = f <;> simp [names, hg]
    | @creates addr path flags mode v fd f hact hv hfd hnew =>
      refine .inr (.inl ⟨addr, path, flags, f, mode, hact, hnew, funext fun g => ?_⟩)
      by_cases hg : g = f
      · subst hg
        simp [names]
      · simp [names, hg]
    | @dups v fd new hact hfd hnew =>
      refine .inl (funext fun g => ?_)
      obtain ⟨n, hn⟩ := incRefs_dir s.fs v g
      rw [names, hn, names]
    | @closes v fd f =>
      refine .inl (funext fun g => ?_)
      by_cases hg : g = f <;> simp [names, hg]
    | @unlinks _ addr path f _ _ _ _ _ hname =>
      refine .inr (.inr ⟨f, funext fun g => ?_⟩)
      by_cases hg : g = f
      · subst hg
        rw [names, hname, if_pos rfl, Function.update_self, names]
      · rw [names, hname, if_neg hg, Function.update_of_ne hg, names]

lemma names_step (h : NamesOk s.fs) (hok : s.TableOk) (hpath : e.act.PathIsCString)
    (hst : s.step e = .ok t) : NamesOk t.fs := by
  rcases step_names hok hst with hsame | ⟨addr, path, flags, f, mode, hact, hnew, hnames⟩ | ⟨f, hnames⟩
  · exact ⟨hsame ▸ h.terminated, hsame ▸ h.unique⟩
  · rw [hact] at hpath
    -- the lookup has gone through all entries
    refine h.update hnames (copyName_terminated hnew.len _) (fun _ g => ?_)
    rw [cString_copyName hnew.len hpath]
    exact lookup_eq_none_iff.mp hnew.lookup g
  · exact h.update hnames ⟨0, Function.update_self ..⟩ (fun hne => absurd (cString_erased _) hne)

end Kernel

lemma Env.boot_namesOk (E : Env) : NamesOk E.boot.fs := by
  have hnames : E.boot.fs.names = zeroEnv.boot.fs.names := rfl
  constructor
  · rw [hnames]
    decide
  · rw [hnames]
    decide

/-- **Names are unique and terminated**, in every state that a run comes to: each name ends inside
its array, no two entries have the same name but the empty one, and a search finds the only entry
that has the name. -/
theorem names_unique_and_terminated (E : Env) {es : List Event} {t : Kernel}
    (h : GuardedRun.Run Kernel.step (fun _ e => e.act.PathIsCString) E.boot es t) :
    (∀ f, ∃ i, (t.fs.dir f).name i = 0) ∧
    (∀ f g, cString (t.fs.dir f).name = cString (t.fs.dir g).name →
      cString (t.fs.dir f).name ≠ [] → f = g) ∧
    (∀ path f, path ≠ [] → (t.fs.lookup path = some f ↔ cString (t.fs.dir f).name = path)) := by
  have hstep : ∀ (s : Kernel) (e : Event) (t : Kernel), (s.TableOk ∧ NamesOk s.fs) →
      e.act.PathIsCString → s.step e = .ok t →
      (t.TableOk ∧ NamesOk t.fs) := by
    rintro s e t ⟨hok, hnames⟩ hpath hst
    exact ⟨hok.step hst, Kernel.names_step hnames hok hpath hst⟩
  obtain ⟨-, hnames⟩ := h.invariant hstep ⟨E.boot_tableOk, E.boot_namesOk⟩
  exact ⟨hnames.terminated, hnames.unique, fun path f hpath => hnames.lookup_eq_some_iff hpath f⟩

/-- The file that task 0 creates is found under its name. -/
theorem names_unique_and_terminated_after_create :
    ∃ t, GuardedRun.Run Kernel.step (fun _ e => e.act.PathIsCString) zeroEnv.boot
        [plain (.open lUserStart nameF (oCreat + oRdwr))] t ∧
      (∀ f, ∃ i, (t.fs.dir f).name i = 0) ∧
      (∀ f g, cString (t.fs.dir f).name = cString (t.fs.dir g).name →
        cString (t.fs.dir f).name ≠ [] → f = g) ∧
      (∀ path f, path ≠ [] → (t.fs.lookup path = some f ↔ cString (t.fs.dir f).name = path)) := by
  have hv : zeroEnv.boot.fs.freeFdt = some 2 := by decide
  have hfd : freeFd zeroEnv.boot.current.fileDescriptors = some 3 := by decide
  have hi : zeroEnv.boot.fs.freeDir = some 2 := by decide
  have hdisp := Kernel.dispatch_create (e := plain (.open lUserStart nameF (oCreat + oRdwr))) rfl
    zeroEnv.boot_userMapped.pathOk_nameF (by decide) (by decide) hv hfd hi (by decide)
  have hpath : (plain (.open lUserStart nameF (oCreat + oRdwr))).act.PathIsCString := by
    change (0 : Byte) ∉ nameF
    decide
  have hrun : GuardedRun.Run Kernel.step (fun _ e => e.act.PathIsCString) zeroEnv.boot
      [plain (.open lUserStart nameF (oCreat + oRdwr))] _ :=
    .cons hpath (Kernel.step_of_done hdisp) (.nil _)
  exact ⟨_, hrun, names_unique_and_terminated zeroEnv hrun⟩

/-! ## Free entries -/

namespace FileSystem

variable {fs : FileSystem}

/-- The tables `fs'` are those that `create_file` of file `f` and its open leave. -/
def CreatesFile (fs : FileSystem) (path : List Byte) (f : FileId) (fs' : FileSystem) : Prop :=
  ∃ v mode, fs' = (fs.popFree.newFile f path fs.ffb).opened v f mode

/-- An entry keeps its name, and it is free just when it was. -/
structure KeptEntry (d d' : File) : Prop where
  name : d'.name = d.name
  free : d'.nRefs = -1 ↔ d.nRefs = -1
  counter : -1 ≤ d'.nRefs

/-- No counter is below -1, and a free entry has no name. -/
structure FreeOk (fs : FileSystem) : Prop where
  counter : ∀ f, -1 ≤ (fs.dir f).nRefs
  unnamed : ∀ f, (fs.dir f).nRefs = -1 → cString (fs.dir f).name = []

lemma OpensEntry.name_eq {path : List Byte} {flags mode : ℤ} {f : FileId}
    (h : fs.OpensEntry path flags f mode) : cString (fs.dir f).name = path := by
  have := List.find?_some h.lookup
  rwa [decide_eq_true_eq, strcmp_eq_zero_iff] at this

/-- Only the empty path leads to a free entry. -/
lemma FreeOk.opens (h : FreeOk fs) {path : List Byte} {flags mode : ℤ} {f : FileId}
    (hopen : fs.OpensEntry path flags f mode) (hpath : path ≠ []) : 0 ≤ (fs.dir f).nRefs := by
  have hge := h.counter f
  have hne : (fs.dir f).nRefs ≠ -1 := fun hfree =>
    hpath (hopen.name_eq.symm.trans (h.unnamed f hfree))
  omega

end FileSystem

namespace Kernel

variable {s t : Kernel} {e : Event}

/-- `sys_open` opens an entry under the empty name. -/
def OpensEmpty (s : Kernel) (e : Event) : Prop :=
  ∃ addr flags f mode, e.act = .open addr [] flags ∧ s.fs.OpensEntry [] flags f mode

/-- `sys_close` closes a descriptor of an entry whose counter is not above 0. -/
def ClosesUnused (s : Kernel) (e : Event) : Prop :=
  ∃ (fd : Fd) (v : FdtId) (f : FileId), e.act = .close fd.val ∧ s.fds s.cur fd = some v ∧
    (s.fs.fdt v).logicDev = some f ∧ (s.fs.dir f).nRefs ≤ 0

/-- `sys_dup` or `sys_fork` copies a descriptor of a free entry. -/
def CopiesFree (s : Kernel) (e : Event) : Prop :=
  ∃ (fd : Fd) (v : FdtId) (f : FileId), (e.act = .fork ∨ e.act = .dup fd.val) ∧
    s.fds s.cur fd = some v ∧ (s.fs.fdt v).logicDev = some f ∧ (s.fs.dir f).nRefs = -1

/-- The step neither opens the empty name nor uses a descriptor that its entry does not count. -/
structure KeepsEntries (s : Kernel) (e : Event) : Prop where
  opens : ¬ s.OpensEmpty e
  closes : ¬ s.ClosesUnused e
  copies : ¬ s.CopiesFree e

/-- The step is an open that creates the file. -/
def Creates (s : Kernel) (e : Event) (t : Kernel) (f : FileId) : Prop :=
  ∃ addr path flags, e.act = .open addr path flags ∧ s.fs.CreatesFile path f t.fs

/-- What a step makes of one entry: it is kept, or it is a new file, or it is removed. -/
lemma step_entry (h : FreeOk s.fs) (hok : s.TableOk) (hg : s.KeepsEntries e)
    (hst : s.step e = .ok t) (f : FileId) :
    KeptEntry (s.fs.dir f) (t.fs.dir f) ∨
    (s.Creates e t f ∧ 0 ≤ (t.fs.dir f).nRefs) ∨
    (cString (t.fs.dir f).name = [] ∧ (t.fs.dir f).nRefs = -1) := by
  have hge := h.counter f
  have hkept : ∀ {d : File}, d = s.fs.dir f → KeptEntry (s.fs.dir f) d := by
    rintro d rfl
    exact ⟨rfl, .rfl, hge⟩
  by_cases hfork : e.act = .fork
  · rcases (step_fork_files hfork hst).1 with hfs | hfs
    · exact .inl (hkept (by rw [hfs]))
    · obtain ⟨n, hn⟩ := forkRefs_dir (s.fds s.cur) s.fs f
      rw [hfs]
      refine .inl ⟨by rw [hn], ?_, ?_⟩
      · rw [forkRefs_nRefs]
        constructor
        · omega
        · intro hfree
          have hempty : ({fd | ∃ v, s.fds s.cur fd = some v ∧ (s.fs.fdt v).logicDev = some f} :
              Finset Fd) = ∅ := by
            refine Finset.filter_eq_empty_iff.mpr (fun fd _ => ?_)
            rintro ⟨v, hfd, hdev⟩
            exact hg.copies ⟨fd, v, f, .inl hfork, hfd, hdev, hfree⟩
          rw [hempty, hfree]
          rfl
      · rw [forkRefs_nRefs]
        omega
  · have heff := hasEffect_step hok hfork hst
    rw [HasEffect] at heff
    unfold Creates
    generalize t.fs = fs at heff ⊢
    generalize t.fds = D at heff
    cases heff with
    | same hsame => exact .inl ⟨hsame.name f, by rw [hsame.nRefs], (hsame.nRefs f).symm ▸ hge⟩
    | @opens addr path flags mode v fd g hact haddr hv hfd hopen =>
      have hpath : path ≠ [] := by
        rintro rfl
        exact hg.opens ⟨addr, flags, g, mode, hact, hopen⟩
      have hused := h.opens hopen hpath
      by_cases hfg : f = g
      · subst hfg
        rw [opened_dir_self]
        exact .inl ⟨rfl, by dsimp only; omega, by dsimp only; omega⟩
      · exact .inl (hkept (by simp [hfg]))
    | @creates addr path flags mode v fd g hact hv hfd hnew =>
      by_cases hfg : f = g
      · subst hfg
        refine .inr (.inl ⟨⟨addr, path, flags, hact, v, mode, rfl⟩, ?_⟩)
        simp
      · exact .inl (hkept (by simp [hfg]))
    | @dups v fd new hact hfd hnew =>
      obtain ⟨n, hn⟩ := incRefs_dir s.fs v f
      have hcount := incRefs_nRefs s.fs v f
      have hused : (s.fs.fdt v).logicDev = some f → (s.fs.dir f).nRefs ≠ -1 := fun hdev hfree =>
        hg.copies ⟨fd, v, f, .inr hact, hfd, hdev, hfree⟩
      refine .inl ⟨by rw [hn], ?_, ?_⟩
      · split_ifs at hcount with hdev
        · have := hused hdev
          omega
        · omega
      · split_ifs at hcount <;> omega
    | @closes v fd g hact hfd hdev =>
      by_cases hfg : f = g
      · subst hfg
        have hpos : ¬ (s.fs.dir f).nRefs ≤ 0 := fun hle =>
          hg.closes ⟨fd, v, f, hact, hfd, hdev, hle⟩
        simp only [updDir, updFdt, Function.update_self]
        exact .inl ⟨rfl, by dsimp only; omega, by dsimp only; omega⟩
      · exact .inl (hkept (by simp [hfg]))
    | @unlinks _ addr path g _ _ _ _ hdir hname =>
      by_cases hfg : f = g
      · rw [hdir, hname, if_pos hfg, if_pos hfg]
        exact .inr (.inr ⟨cString_erased _, rfl⟩)
      · have hcount := hdir f
        rw [if_neg hfg] at hcount
        exact .inl ⟨by rw [hname, if_neg hfg], by rw [hcount], hcount.symm ▸ hge⟩

lemma freeOk_step (h : FreeOk s.fs) (hok : s.TableOk) (hg : s.KeepsEntries e)
    (hst : s.step e = .ok t) : FreeOk t.fs := by
  constructor
  · intro f
    rcases step_entry h hok hg hst f with hkept | ⟨-, hge⟩ | ⟨-, hfree⟩
    · exact hkept.counter
    · omega
    · omega
  · intro f hfree
    rcases step_entry h hok hg hst f with hkept | ⟨-, hge⟩ | ⟨hnil, -⟩
    · rw [hkept.name]
      exact h.unnamed f (hkept.free.mp hfree)
    · omega
    · exact hnil

/-- The step opens no free entry: an open without a new file finds an entry in use, and a free entry
that does not stay free becomes a new file. -/
structure OpensInUse (s : Kernel) (e : Event) (t : Kernel) : Prop where
  opens : ∀ addr path flags (fd : Fd) fs' fds', e.act = .open addr path flags →
    s.fs.sysOpen (s.fds s.cur) path flags = .ok ((fd.val : ℤ), fs', fds') →
    (∀ g, ¬ s.fs.CreatesFile path g fs') →
    ∃ v f, fds' fd = some v ∧ (fs'.fdt v).logicDev = some f ∧ 0 ≤ (s.fs.dir f).nRefs
  taken : ∀ f, (s.fs.dir f).nRefs = -1 → (t.fs.dir f).nRefs ≠ -1 → s.Creates e t f

lemma opensInUse_step (h : FreeOk s.fs) (hok : s.TableOk) (hg : s.KeepsEntries e)
    (hst : s.step e = .ok t) : s.OpensInUse e t := by
  constructor
  · intro addr path flags fd fs' fds' hact ho hnot
    obtain ⟨C, hC⟩ := hok
    rcases s.fs.sysOpen_cases hC.ffb_cases (s.fds s.cur) path flags with
      ⟨code, hneg, ho'⟩ | ⟨-, ho'⟩ | ⟨v, fd', hv, hfd, ⟨f, mode, hopen, ho'⟩ | ⟨f, mode, hnew, ho'⟩⟩
    · simp only [ho, Except.ok.injEq, Prod.mk.injEq] at ho'
      omega
    · simp [ho] at ho'
    · simp only [ho, Except.ok.injEq, Prod.mk.injEq, Int.natCast_inj] at ho'
      obtain ⟨hfd', rfl, rfl⟩ := ho'
      obtain rfl : fd = fd' := Fin.ext hfd'
      have hpath : path ≠ [] := by
        rintro rfl
        exact hg.opens ⟨addr, flags, f, mode, hact, hopen⟩
      refine ⟨v, f, Function.update_self .., ?_, h.opens hopen hpath⟩
      simp
    · simp only [ho, Except.ok.injEq, Prod.mk.injEq] at ho'
      exact absurd ⟨v, mode, ho'.2.1⟩ (hnot f)
  · intro f hfree hne
    rcases step_entry h hok hg hst f with hkept | ⟨hnew, -⟩ | ⟨-, hgone⟩
    · exact absurd (hkept.free.mpr hfree) hne
    · exact hnew
    · exact absurd hgone hne

end Kernel

lemma Env.boot_freeOk (E : Env) : FreeOk E.boot.fs := by
  have hdir : E.boot.fs.dir = zeroEnv.boot.fs.dir := rfl
  constructor
  · rw [hdir]
    decide
  · rw [hdir]
    decide

/-- **Only entries in use are opened, and only `create_file` takes free ones**, at every step of a
run that opens nothing under the empty name, closes no descriptor of an entry with its counter at 0
or below, and copies no descriptor of a free entry. -/
theorem free_entries_taken_by_create (E : Env) {es : List Event} {s t : Kernel} {e : Event}
    (h : GuardedRun.Run Kernel.step Kernel.KeepsEntries E.boot es s) (hg : s.KeepsEntries e)
    (hst : s.step e = .ok t) : s.OpensInUse e t := by
  have hstep : ∀ (s : Kernel) (e : Event) (t : Kernel), (s.TableOk ∧ FreeOk s.fs) →
      s.KeepsEntries e → s.step e = .ok t → (t.TableOk ∧ FreeOk t.fs) := by
    rintro s e t ⟨hok, hfree⟩ hg hst
    exact ⟨hok.step hst, Kernel.freeOk_step hfree hok hg hst⟩
  obtain ⟨hok, hfree⟩ := h.invariant hstep ⟨E.boot_tableOk, E.boot_freeOk⟩
  exact Kernel.opensInUse_step hfree hok hg hst

/-- Task 0 opens the display. -/
theorem free_entries_taken_by_create_display :
    ∃ t, zeroEnv.boot.step (plain (.open lUserStart (asciiBytes "DISPLAY") oWronly)) = .ok t ∧
      zeroEnv.boot.OpensInUse (plain (.open lUserStart (asciiBytes "DISPLAY") oWronly)) t := by
  have hentry : zeroEnv.boot.fs.OpensEntry (asciiBytes "DISPLAY") oWronly 1 oWronly :=
    ⟨by decide, by decide, by decide, by decide, by decide, .inr (by decide)⟩
  have hv : zeroEnv.boot.fs.freeFdt = some 2 := by decide
  have hfd : freeFd (zeroEnv.boot.fds zeroEnv.boot.cur) = some 3 := by decide
  have hst := Kernel.step_of_done (Kernel.dispatch_open
    (e := plain (.open lUserStart (asciiBytes "DISPLAY") oWronly)) rfl
    (zeroEnv.boot_userMapped.pathOk le_rfl (by decide)) hentry hv hfd)
  have hg : zeroEnv.boot.KeepsEntries (plain (.open lUserStart (asciiBytes "DISPLAY") oWronly)) := by
    constructor
    · rintro ⟨addr, flags, f, mode, hact, -⟩
      have hpath : asciiBytes "DISPLAY" = [] := (Action.open.inj hact).2.1
      exact absurd hpath (by decide)
    · rintro ⟨fd, v, f, hact, -⟩
      simp [plain] at hact
    · rintro ⟨fd, v, f, hact | hact, -⟩
      · simp [plain] at hact
      · simp [plain] at hact
  exact ⟨_, hst, free_entries_taken_by_create zeroEnv (.nil _) hg hst⟩

/-- At boot task 0 opens the empty path with no flags, and gets a descriptor of a free entry, which
then looks used. -/
theorem empty_path_opens_free_entry :
    ∃ t, AnyRun zeroEnv.boot [plain (.open lUserStart [] 0)] t ∧ (zeroEnv.boot.fs.dir 2).nRefs = -1 ∧
      t.fds 0 3 = some 2 ∧ (t.fs.fdt 2).logicDev = some 2 ∧ (t.fs.dir 2).nRefs = 0 ∧
      ¬ zeroEnv.boot.OpensInUse (plain (.open lUserStart [] 0)) t := by
  have hentry : zeroEnv.boot.fs.OpensEntry [] 0 2 0 :=
    ⟨by decide, by decide, by decide, by decide, by decide, .inr (by decide)⟩
  have hv : zeroEnv.boot.fs.freeFdt = some 2 := by decide
  have hfd : freeFd (zeroEnv.boot.fds zeroEnv.boot.cur) = some 3 := by decide
  have hst := Kernel.step_of_done (Kernel.dispatch_open (e := plain (.open lUserStart [] 0)) rfl
    (zeroEnv.boot_userMapped.pathOk le_rfl (by decide)) hentry hv hfd)
  refine ⟨_, .cons trivial hst (.nil _), by decide, by decide, by decide, by decide, ?_⟩
  intro huse
  obtain ⟨addr, path, flags, -, v, mode, hfs⟩ := huse.taken 2 (by decide) (by decide)
  -- the free list has not moved
  have hffb : zeroEnv.boot.fs.ffb = zeroEnv.boot.fs.fat zeroEnv.boot.fs.ffb :=
    congrArg FileSystem.ffb hfs
  exact absurd hffb (by decide)

end ZeOS
