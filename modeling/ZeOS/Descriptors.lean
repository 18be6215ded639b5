import ZeOS.FileStores
import ZeOS.Invariants.Keyboard
import ZeOS.Scheduling
import ZeOS.Library.Tally

/-!
# What `sys_exit` does to the reference counts

Every descriptor of a live process is counted twice, in `refs` of its entry of `fdt[]` and in
`n_refs` of the directory entry behind it.  `sys_open`, `sys_dup` and `sys_fork` count the
descriptors that they make, `sys_close` takes its one off, and `sys_exit` does nothing: what the
process had open stays counted for ever.

`Counted` says by how much each counter differs from the number of live descriptors.  Every step
keeps these differences, except an exit with descriptors left and an open that takes an entry of
`fdt[]` which is not free (`Counted.step`).  In a run without these two the counters change with
the descriptors, and a file that nobody has open can be unlinked (`exit_gives_back_iff`).
-/

namespace ZeOS

open FileSystem GuardedRun Tally

namespace Kernel

variable {s t : Kernel} {e : Event} {Q : Node → List Slot}

/-! ## The descriptors of live processes as a table -/

/-- The descriptors of live processes. -/
def held (s : Kernel) : Slot → Descriptors := fun u => if s.Live u then s.fds u else fun _ => none

/-- The device behind an entry of `fdt[]`. -/
def device (s : Kernel) (v : FdtId) : Option FileId := (s.fs.fdt v).logicDev

/-- The directory entries that the descriptors of live processes refer to. -/
def heldFiles (s : Kernel) : Slot → Fd → Option FileId := fun u fd => (s.held u fd).bind s.device

lemma held_eq_some_iff {u : Slot} {fd : Fd} {v : FdtId} :
    s.held u fd = some v ↔ s.Live u ∧ s.fds u fd = some v := by
  by_cases hu : s.Live u <;> simp [held, hu]

lemma held_of_live {u : Slot} (hu : s.Live u) : s.held u = s.fds u := if_pos hu

lemma heldFiles_eq_some_iff {u : Slot} {fd : Fd} {f : FileId} :
    s.heldFiles u fd = some f ↔
      s.Live u ∧ ∃ v, s.fds u fd = some v ∧ (s.fs.fdt v).logicDev = some f := by
  rw [heldFiles, Option.bind_eq_some_iff]
  constructor
  · rintro ⟨v, hv, hdev⟩
    obtain ⟨hu, hfd⟩ := held_eq_some_iff.mp hv
    exact ⟨hu, v, hfd, hdev⟩
  · rintro ⟨hu, v, hfd, hdev⟩
    exact ⟨v, held_eq_some_iff.mpr ⟨hu, hfd⟩, hdev⟩

lemma card_users (s : Kernel) (v : FdtId) : ((s.users v).card : ℤ) = tally s.held v := by
  rw [tally_eq_card, users]
  simp only [held_eq_some_iff]

lemma card_usersOfFile (s : Kernel) (f : FileId) :
    ((s.usersOfFile f).card : ℤ) = tally s.heldFiles f := by
  rw [tally_eq_card, usersOfFile]
  simp only [heldFiles_eq_some_iff]

lemma held_congr (hlive : ∀ u, t.Live u ↔ s.Live u) (hfds : t.fds = s.fds) : t.held = s.held := by
  funext u
  rw [held, held, hfds]
  simp only [hlive u]

/-- The devices behind the descriptors in use are the same. -/
lemma heldFiles_congr (hheld : t.held = s.held)
    (hdev : ∀ u fd v, s.held u fd = some v → t.device v = s.device v) :
    t.heldFiles = s.heldFiles := by
  funext u fd
  rw [heldFiles, heldFiles, hheld]
  cases hv : s.held u fd with
  | none => rfl
  | some v => exact hdev u fd v hv

/-- One descriptor of the running process changes. -/
lemma held_update (hcur : s.Live s.cur) (hlive : ∀ u, t.Live u ↔ s.Live u) {fd : Fd}
    {x : Option FdtId}
    (hfds : t.fds = Function.update s.fds s.cur (Function.update (s.fds s.cur) fd x)) :
    t.held = Function.update s.held s.cur (Function.update (s.held s.cur) fd x) := by
  rw [held_of_live hcur]
  funext u
  by_cases hu : u = s.cur
  · subst hu
    rw [held_of_live ((hlive _).mpr hcur), hfds, Function.update_self, Function.update_self]
  · rw [Function.update_of_ne hu, held, held, hfds, Function.update_of_ne hu]
    simp only [hlive u]

lemma heldFiles_update {fd : Fd} {x : Option FdtId}
    (hheld : t.held = Function.update s.held s.cur (Function.update (s.held s.cur) fd x))
    (hdev : ∀ u fd v, s.held u fd = some v → t.device v = s.device v) :
    t.heldFiles =
      Function.update s.heldFiles s.cur (Function.update (s.heldFiles s.cur) fd (x.bind t.device)) := by
  have hold : ∀ u k, (s.held u k).bind t.device = s.heldFiles u k := by
    intro u k
    rw [heldFiles]
    cases hv : s.held u k with
    | none => rfl
    | some v => exact hdev u k v hv
  funext u k
  rw [heldFiles, hheld]
  by_cases hu : u = s.cur
  · subst hu
    rw [Function.update_self, Function.update_self]
    by_cases hk : k = fd
    · subst hk
      rw [Function.update_self, Function.update_self]
    · rw [Function.update_of_ne hk, Function.update_of_ne hk, hold]
  · rw [Function.update_of_ne hu, Function.update_of_ne hu, hold]

/-! ## Who lives after a step -/

/-- A step other than a fork ends at most the running process, and that by `sys_exit`. -/
lemma step_live (hs : SystemOk s Q) (hg : s.ExitsFindTwo e) (hfork : e.act ≠ .fork)
    (hst : s.step e = .ok t) :
    (∀ u, u ≠ s.cur → (t.Live u ↔ s.Live u)) ∧
      (t.Live s.cur ∨ ∃ cause s₁, s.dispatch e = .exits cause s₁ ∧ s₁.current.pid ≠ 0) := by
  obtain ⟨Q', hturn⟩ := (hs.step_effects e hg).1 t hst
  have hback : ∀ u, t.Live u → s.Live u := by
    intro u hu
    by_contra hnot
    exact hfork (hturn.live hu hnot)
  have hhand : ∀ {z : Config}, Calms e.act (s, Q) z → Handover e.act z (t, Q') →
      ∀ u, u ≠ s.cur → s.Live u → t.Live u := by
    intro z hc hh u hu hl
    have hz := (hc.pages hl).1
    have hcur : z.1.cur = s.cur := hc.cur_eq
    cases hh with
    | move => simpa [Live, moveCurrent] using hz
    | exit => simpa [Live, leave_eq, hcur ▸ hu] using hz
  refine ⟨fun u hu => ⟨hback u, fun hl => ?_⟩, ?_⟩
  · rcases hturn with hc | ⟨z, hc, hh⟩
    · exact (hc.pages hl).1
    · exact hhand hc hh u hu hl
  · have heff := hs.sched.dispatch_effects e
    have hcur := hs.sched.cur_live
    cases hd : s.dispatch e with
    | done t' =>
      rw [hd] at heff
      obtain rfl : t' = t := by
        rw [step_of_done hd, Except.ok.injEq] at hst
        exact hst
      obtain ⟨Q'', hc | ⟨z, hc, -, hl, -⟩⟩ := heff
      · exact .inl (hc.pages hcur).1
      · rw [show z.1.cur = s.cur from hc.cur_eq] at hl
        exact .inl hl
    | exits cause s₁ =>
      by_cases hpid : s₁.current.pid = 0
      · -- task 0 is never ended
        rw [hd] at heff
        obtain ⟨Q₁, hc⟩ := heff
        have hpid' : ∀ u : Kernel, Quiet s₁ u → u.Live s.cur := by
          intro u hu
          exact (hu.sched.live_iff _).mpr (hc.pages hcur).1
        rw [Kernel.step, hd] at hst
        simp only [sysExit, if_neg (not_not.mpr hpid)] at hst
        cases cause with
        | «syscall» eax =>
          simp only [afterExit, Except.ok.injEq] at hst
          exact .inl (hst ▸ hpid' _ (s₁.quiet_setEax eax))
        | userFault =>
          simp only [afterExit, Except.ok.injEq] at hst
          exact .inl (hst ▸ hpid' _ (.refl s₁))
        | kernelFault => simp [afterExit] at hst
      · exact .inr ⟨cause, s₁, rfl, hpid⟩
    | stop r =>
      rw [Kernel.step, hd] at hst
      simp at hst

/-! ## One exit -/

/-- The counters have gone down by the number of descriptors that the running process had. -/
structure GivesBack (s t : Kernel) : Prop where
  refs : ∀ v, (t.fs.fdt v).refs =
    (s.fs.fdt v).refs - ({fd | s.fds s.cur fd = some v} : Finset Fd).card
  nRefs : ∀ f, (t.fs.dir f).nRefs = (s.fs.dir f).nRefs -
    ({fd | ∃ v, s.fds s.cur fd = some v ∧ (s.fs.fdt v).logicDev = some f} : Finset Fd).card

/-- `sys_exit` changes no counter and no descriptor. -/
lemma keepsRefs_step_exits {cause : ExitCause} {s₁ : Kernel} (hd : s.dispatch e = .exits cause s₁)
    (hst : s.step e = .ok t) : KeepsRefs s t := by
  have hleaves : (s.dispatch e).Leaves (KeepsRefs s) := by
    rw [hd]
    exact keepsRefs_exits hd
  exact leaves_step (fun _ _ hsame hk => hk.of_sameFiles hsame.toSameFiles) hleaves hst

lemma givesBack_iff {cause : ExitCause} {s₁ : Kernel} (hd : s.dispatch e = .exits cause s₁)
    (hst : s.step e = .ok t) : GivesBack s t ↔ ∀ fd, s.fds s.cur fd = none := by
  have hkeep := (keepsRefs_step_exits hd hst).tables
  constructor
  · intro h fd
    by_contra hsome
    obtain ⟨v, hv⟩ := Option.ne_none_iff_exists'.mp hsome
    have hcount := h.refs v
    rw [hkeep.refs] at hcount
    have hpos : 0 < ({fd | s.fds s.cur fd = some v} : Finset Fd).card :=
      Finset.card_pos.mpr ⟨fd, by simpa using hv⟩
    omega
  · intro hnone
    refine ⟨fun v => ?_, fun f => ?_⟩
    · rw [hkeep.refs]
      simp [hnone]
    · rw [hkeep.nRefs]
      simp [hnone]

/-! ## The counters and the descriptors -/

/-- By how much the counters differ from the number of live descriptors: by `d v` for an entry of
`fdt[]`, by `b f` for a directory entry that holds no file, and not at all for a file. -/
structure Counted (d : FdtId → ℤ) (b : FileId → ℤ) (s : Kernel) : Prop where
  refs : ∀ v, (s.fs.fdt v).refs = tally s.held v + d v
  nRefs : ∀ f, (s.fs.dir f).nRefs = tally s.heldFiles f - if s.fs.IsRegular f then 0 else b f
  /-- A file stands in an entry that was free at -1. -/
  free : ∀ f, s.fs.IsRegular f → b f = 1

namespace Counted

variable {d : FdtId → ℤ} {b : FileId → ℤ}

/-- Whether an entry holds a file is told by its operations. -/
lemma regular_iff {fs fs' : FileSystem} {f : FileId} (h : fs'.ops f = fs.ops f) :
    fs'.IsRegular f ↔ fs.IsRegular f := by
  rw [FileSystem.IsRegular, h]

/-- Neither the counters nor the live descriptors change. -/
lemma same (h : Counted d b s) (htab : SameRefs s.fs t.fs) (hheld : t.held = s.held) :
    Counted d b t := by
  have hfiles : t.heldFiles = s.heldFiles := heldFiles_congr hheld fun u fd v _ => htab.dev v
  have hreg : ∀ f, t.fs.IsRegular f ↔ s.fs.IsRegular f :=
    fun f => regular_iff (by rw [htab.ops])
  refine ⟨fun v => ?_, fun f => ?_, fun f hf => h.free f ((hreg f).mp hf)⟩
  · rw [htab.refs, hheld]
    exact h.refs v
  · rw [htab.nRefs, hfiles]
    simp only [hreg f]
    exact h.nRefs f

/-- The running process gets a descriptor for an entry of `fdt[]` that nobody uses; `fs` are the
tables in which the entry is made. -/
lemma opened (h : Counted d b s) (hcur : s.Live s.cur) (hlive : ∀ u, t.Live u ↔ s.Live u)
    {fs : FileSystem} {v : FdtId} {fd : Fd} {f : FileId} {mode : ℤ}
    (hrefs : (s.fs.fdt v).refs = 0) (hunused : s.users v = ∅) (hfd : s.fds s.cur fd = none)
    (hfds : t.fds = Function.update s.fds s.cur (Function.update (s.fds s.cur) fd (some v)))
    (hfs : t.fs = fs.opened v f mode) (hfdt : fs.fdt = s.fs.fdt)
    (hdir : ∀ g, g ≠ f → (fs.dir g).nRefs = (s.fs.dir g).nRefs ∧ fs.ops g = s.fs.ops g)
    (hf : (fs.dir f).nRefs = tally s.heldFiles f - if fs.IsRegular f then 0 else b f)
    (hfree : fs.IsRegular f → b f = 1) : Counted d b t := by
  have hnone : ∀ u k w, s.held u k = some w → w ≠ v := by
    rintro u k w hw rfl
    have hmem : (u, k) ∈ s.users w := mem_users.mpr (held_eq_some_iff.mp hw)
    rw [hunused] at hmem
    exact absurd hmem (Finset.notMem_empty _)
  have hheld := held_update hcur hlive hfds
  have hdev : ∀ u k w, s.held u k = some w → t.device w = s.device w := by
    intro u k w hw
    simp [device, hfs, hnone u k w hw, hfdt]
  have hfiles := heldFiles_update hheld hdev
  have hdevv : t.device v = some f := by simp [device, hfs]
  have hcell : s.held s.cur fd = none := by rw [held_of_live hcur, hfd]
  have hcellf : s.heldFiles s.cur fd = none := by rw [heldFiles, hcell]; rfl
  have hzero : tally s.held v = 0 := by rw [← card_users, hunused]; rfl
  have hreg : ∀ g, t.fs.IsRegular g ↔ fs.IsRegular g := fun g => regular_iff (by rw [hfs]; rfl)
  have hother : ∀ g, g ≠ f → (t.fs.IsRegular g ↔ s.fs.IsRegular g) :=
    fun g hg => (hreg g).trans (regular_iff (hdir g hg).2)
  refine ⟨fun w => ?_, fun g => ?_, fun g hg => ?_⟩
  · rw [hheld, tally_update_cell, hcell]
    have hw := h.refs w
    by_cases hwv : w = v
    · subst hwv
      simp [hfs]
      omega
    · simpa [hfs, hwv, Ne.symm hwv, hfdt] using hw
  · rw [hfiles, tally_update_cell, hcellf]
    by_cases hgf : g = f
    · subst hgf
      have hcount : (t.fs.dir g).nRefs = (fs.dir g).nRefs + 1 := by
        simp [hfs]
      rw [hcount, hf, Option.bind_some, hdevv]
      simp only [hreg g, reduceCtorEq, if_false, if_true]
      omega
    · have hcount : (t.fs.dir g).nRefs = (s.fs.dir g).nRefs := by
        simpa [hfs, hgf] using (hdir g hgf).1
      rw [hcount, h.nRefs g, Option.bind_some, hdevv]
      simp only [hother g hgf, reduceCtorEq, if_false, Option.some.injEq, Ne.symm hgf]
      omega
  · by_cases hgf : g = f
    · subst hgf
      exact hfree ((hreg g).mp hg)
    · exact h.free g ((hother g hgf).mp hg)

/-- The running process gets one more descriptor for an entry that it uses. -/
lemma dup (h : Counted d b s) (hcur : s.Live s.cur) (hlive : ∀ u, t.Live u ↔ s.Live u) {v : FdtId}
    {new : Fd} (hnew : s.fds s.cur new = none)
    (hfds : t.fds = Function.update s.fds s.cur (Function.update (s.fds s.cur) new (some v)))
    (hfs : t.fs = s.fs.incRefs v) : Counted d b t := by
  have hheld := held_update hcur hlive hfds
  have hdev : ∀ w, t.device w = s.device w := by
    intro w
    rw [device, hfs, incRefs_logicDev]
    rfl
  have hfiles := heldFiles_update hheld fun u k w _ => hdev w
  have hcell : s.held s.cur new = none := by rw [held_of_live hcur, hnew]
  have hcellf : s.heldFiles s.cur new = none := by rw [heldFiles, hcell]; rfl
  have hreg : ∀ g, t.fs.IsRegular g ↔ s.fs.IsRegular g :=
    fun g => regular_iff (by rw [hfs, incRefs_ops])
  refine ⟨fun w => ?_, fun g => ?_, fun g hg => h.free g ((hreg g).mp hg)⟩
  · rw [hheld, tally_update_cell, hcell, hfs, incRefs_refs, h.refs w]
    simp only [Option.some.injEq, eq_comm (a := w), reduceCtorEq, if_false]
    omega
  · have hcount : (t.fs.dir g).nRefs =
        (s.fs.dir g).nRefs + if (s.fs.fdt v).logicDev = some g then 1 else 0 := by
      rw [hfs, incRefs_nRefs]
    rw [hfiles, tally_update_cell, hcellf, hcount, h.nRefs g, Option.bind_some, hdev, device]
    simp only [hreg g, reduceCtorEq, if_false]
    omega

/-- The running process loses a descriptor. -/
lemma close (h : Counted d b s) (hcur : s.Live s.cur) (hlive : ∀ u, t.Live u ↔ s.Live u) {v : FdtId}
    {fd : Fd} {f : FileId} (hfd : s.fds s.cur fd = some v) (hdev : (s.fs.fdt v).logicDev = some f)
    (hfds : t.fds = Function.update s.fds s.cur (Function.update (s.fds s.cur) fd none))
    (hfs : t.fs = (s.fs.updFdt v fun w => { w with refs := w.refs - 1 }).updDir f
      fun d => { d with nRefs := d.nRefs - 1 }) : Counted d b t := by
  have hheld := held_update hcur hlive hfds
  have hdev' : ∀ w, t.device w = s.device w := by
    intro w
    by_cases hw : w = v <;> simp [device, hfs, hw]
  have hfiles := heldFiles_update hheld fun u k w _ => hdev' w
  have hcell : s.held s.cur fd = some v := by rw [held_of_live hcur, hfd]
  have hcellf : s.heldFiles s.cur fd = some f := by rw [heldFiles, hcell]; exact hdev
  have hreg : ∀ g, t.fs.IsRegular g ↔ s.fs.IsRegular g := fun g => regular_iff (by rw [hfs]; rfl)
  refine ⟨fun w => ?_, fun g => ?_, fun g hg => h.free g ((hreg g).mp hg)⟩
  · rw [hheld, tally_update_cell, hcell]
    have hw := h.refs w
    by_cases hwv : w = v
    · subst hwv
      simp [hfs]
      omega
    · simpa [hfs, hwv, Ne.symm hwv] using hw
  · have hcount : (t.fs.dir g).nRefs = (s.fs.dir g).nRefs - if f = g then 1 else 0 := by
      rw [hfs]
      by_cases hgf : g = f
      · simp [hgf]
      · simp [hgf, Ne.symm hgf]
    rw [hfiles, tally_update_cell, hcellf, hcount, h.nRefs g]
    simp only [hreg g, Option.some.injEq, Option.bind_none, reduceCtorEq, if_false]
    omega

/-- A file that nobody has open is removed. -/
lemma unlink (h : Counted d b s) {f : FileId} (hreg : s.fs.IsRegular f)
    (hf : (s.fs.dir f).nRefs = 0) (hheld : t.held = s.held) (hfdt : t.fs.fdt = s.fs.fdt)
    (hdir : ∀ g, (t.fs.dir g).nRefs = if g = f then -1 else (s.fs.dir g).nRefs)
    (hops : t.fs.ops = Function.update s.fs.ops f noOps) : Counted d b t := by
  have hfiles : t.heldFiles = s.heldFiles :=
    heldFiles_congr hheld fun u fd v _ => by rw [device, hfdt]; rfl
  have hno : ¬ t.fs.IsRegular f := by
    rw [FileSystem.IsRegular, hops, Function.update_self]
    decide
  have hother : ∀ g, g ≠ f → (t.fs.IsRegular g ↔ s.fs.IsRegular g) := by
    intro g hg
    rw [FileSystem.IsRegular, hops, Function.update_of_ne hg]
  refine ⟨fun v => ?_, fun g => ?_, fun g hg => ?_⟩
  · rw [hfdt, hheld]
    exact h.refs v
  · have hg := h.nRefs g
    rw [hfiles, hdir g]
    by_cases hgf : g = f
    · subst hgf
      rw [if_pos hreg] at hg
      rw [if_pos rfl, if_neg hno, h.free g hreg]
      omega
    · rw [if_neg hgf, hg]
      simp only [hother g hgf]
  · have hgf : g ≠ f := by
      rintro rfl
      exact hno hg
    exact h.free g ((hother g hgf).mp hg)

/-- A child gets the descriptors of the running process. -/
lemma fork (h : Counted d b s) (hcur : s.Live s.cur) {new : Slot} (hnew : ¬ s.Live new)
    (hheld : t.held = Function.update s.held new (s.held s.cur))
    (hfs : t.fs = s.fs.forkRefs (s.fds s.cur)) : Counted d b t := by
  have hdev : ∀ w, t.device w = s.device w := by
    intro w
    rw [device, hfs, forkRefs_logicDev]
    rfl
  have hfiles : t.heldFiles = Function.update s.heldFiles new (s.heldFiles s.cur) := by
    funext u fd
    have hbind : ∀ x : Option FdtId, x.bind t.device = x.bind s.device := by
      intro x
      cases x with
      | none => rfl
      | some w => exact hdev w
    rw [heldFiles, hbind, hheld]
    by_cases hu : u = new
    · subst hu
      rw [Function.update_self, Function.update_self]
      rfl
    · rw [Function.update_of_ne hu, Function.update_of_ne hu]
      rfl
  have hnone : s.held new = fun _ => none := if_neg hnew
  have hnonef : s.heldFiles new = fun _ => none := by
    funext fd
    rw [heldFiles, hnone]
    rfl
  have hreg : ∀ g, t.fs.IsRegular g ↔ s.fs.IsRegular g :=
    fun g => regular_iff (by rw [hfs, forkRefs_ops])
  refine ⟨fun w => ?_, fun g => ?_, fun g hg => h.free g ((hreg g).mp hg)⟩
  · rw [hheld, tally_update, hnone, row_none, hfs, forkRefs_refs, h.refs w, held_of_live hcur,
      row_eq_card]
    omega
  · have hrow : row (s.heldFiles s.cur) g = ({fd | ∃ v, s.fds s.cur fd = some v ∧
        (s.fs.fdt v).logicDev = some g} : Finset Fd).card := by
      rw [row_eq_card]
      simp only [heldFiles_eq_some_iff, hcur, true_and]
    have hcount := forkRefs_nRefs s.fs (s.fds s.cur) g
    rw [← hfs, h.nRefs g] at hcount
    rw [hfiles, tally_update, hnonef, row_none, hrow, hcount]
    simp only [hreg g]
    omega

end Counted

/-- A fork fails and changes no descriptor of a live process, or makes a child with the
descriptors of its parent. -/
lemma step_fork_held (hs : SystemOk s Q) (hfork : e.act = .fork) (hst : s.step e = .ok t) :
    (t.fs = s.fs ∧ t.held = s.held ∧ ∀ u, t.Live u → s.Live u) ∨ ∃ new, ¬ s.Live new ∧
      t.fs = s.fs.forkRefs (s.fds s.cur) ∧ t.held = Function.update s.held new (s.held s.cur) ∧
      ∀ u, t.Live u → s.Live u ∨ u = new := by
  have hcur := hs.sched.cur_live
  rcases step_fork_tables hs hfork hst with ⟨hfs, hold⟩ | ⟨new, hdead, hnew, hfs, hfds, hlive⟩
  · refine .inl ⟨hfs, funext fun u => ?_, fun u hu => (hold u).1.mp hu⟩
    obtain ⟨hiff, hfds⟩ := hold u
    by_cases hu : s.Live u
    · rw [held_of_live (hiff.mpr hu), held_of_live hu, hfds hu]
    · rw [held, held, if_neg (mt hiff.mp hu), if_neg hu]
  · refine .inr ⟨new, hdead, hfs, funext fun u => ?_, fun u hu => ?_⟩
    · by_cases hu : u = new
      · subst hu
        rw [Function.update_self, held_of_live hnew, held_of_live hcur, hfds, Function.update_self]
      · rw [Function.update_of_ne hu, held, held, hfds, Function.update_of_ne hu]
        simp only [hlive u hu]
    · by_cases hu' : u = new
      · exact .inr hu'
      · exact .inl ((hlive u hu').mp hu)

/-! ## The counters over a step -/

/-- `sys_open` gets as far as an entry of `fdt[]`, a descriptor and a directory entry. -/
def OpensAt (s : Kernel) (e : Event) (v : FdtId) : Prop :=
  ∃ addr path flags, e.act = .open addr path flags ∧ s.fs.freeFdt = some v ∧
    (freeFd (s.fds s.cur)).isSome ∧
    ((∃ f mode, s.fs.OpensEntry path flags f mode) ∨ s.fs.freeDir.isSome)

/-- What keeps the counters in step with the descriptors: a process other than task 0 ends with no
descriptors, and with two processes left to run; `sys_open` takes an entry of `fdt[]` that counts
nothing and that nobody uses; and only files are unlinked. -/
structure KeepsCount (s : Kernel) (e : Event) : Prop where
  exits : s.ExitsFindTwo e
  gone : ∀ cause s₁, s.dispatch e = .exits cause s₁ → s₁.current.pid ≠ 0 →
    ∀ fd, s.fds s.cur fd = none
  opens : ∀ v, s.OpensAt e v → (s.fs.fdt v).refs = 0 ∧ s.users v = ∅
  unlinks : ∀ addr path f, e.act = .unlink addr path → s.fs.lookup path = some f →
    s.fs.IsRegular f

/-- Every step that keeps the count keeps the differences. -/
lemma Counted.step {d : FdtId → ℤ} {b : FileId → ℤ} (h : Counted d b s) (hb : ∀ f, b f ≤ 1)
    (hs : SystemOk s Q) (hok : s.TableOk) (hkeep : s.KeepsCount e) (hst : s.step e = .ok t) :
    Counted d b t := by
  have hcur := hs.sched.cur_live
  by_cases hfork : e.act = .fork
  · rcases step_fork_held hs hfork hst with ⟨hfs, hheld, -⟩ | ⟨new, hnew, hfs, hheld, -⟩
    · exact h.same (hfs ▸ .refl s.fs) hheld
    · exact h.fork hcur hnew hheld hfs
  obtain ⟨hothers, hcurs⟩ := step_live hs hkeep.exits hfork hst
  rcases hcurs with hcur' | ⟨cause, s₁, hd, hpid⟩
  · have hlive : ∀ u, t.Live u ↔ s.Live u := by
      intro u
      by_cases hu : u = s.cur
      · subst hu
        exact iff_of_true hcur' hcur
      · exact hothers u hu
    have heff := hasEffect_step hok hfork hst
    rw [HasEffect] at heff
    generalize hfs : t.fs = fs at heff
    generalize hfds : t.fds = D at heff
    cases heff with
    | same hsame => exact h.same (hfs ▸ hsame) (held_congr hlive hfds)
    | @opens addr path flags mode v fd f hact haddr hv hfd hentry =>
      obtain ⟨hrefs, hunused⟩ := hkeep.opens v
        ⟨addr, path, flags, hact, hv, by simp [hfd], .inl ⟨f, mode, hentry⟩⟩
      have hnone : s.fds s.cur fd = none := by simpa using List.find?_some hfd
      exact h.opened hcur hlive hrefs hunused hnone hfds hfs rfl (fun g _ => ⟨rfl, rfl⟩) (h.nRefs f)
        (h.free f)
    | @creates addr path flags mode v fd f hact hv hfd hnew =>
      have hf := hnew.free
      obtain ⟨hrefs, hunused⟩ := hkeep.opens v
        ⟨addr, path, flags, hact, hv, by simp [hfd], .inr (by simp [hf])⟩
      have hnone : s.fds s.cur fd = none := by simpa using List.find?_some hfd
      have hfree : (s.fs.dir f).nRefs = -1 := by simpa using List.find?_some hf
      -- a free entry holds no file, and nobody refers to it
      have hcount := h.nRefs f
      have hpos := tally_nonneg s.heldFiles f
      have hreg : (s.fs.popFree.newFile f path s.fs.ffb).IsRegular f := by
        simp [FileSystem.IsRegular]
      have hzero : tally s.heldFiles f = 0 ∧ b f = 1 := by
        have hbf := hb f
        rw [hfree] at hcount
        split_ifs at hcount
        · omega
        · omega
      refine h.opened hcur hlive hrefs hunused hnone hfds hfs rfl (fun g hg => ⟨?_, ?_⟩) ?_
        (fun _ => hzero.2)
      · simp [hg]
      · simp [hg]
      · rw [if_pos hreg, hzero.1]
        simp
    | @dups v fd new hact hfd hnew =>
      have hnone : s.fds s.cur new = none := by simpa using List.find?_some hnew
      exact h.dup hcur hlive hnone hfds hfs
    | closes hact hfd hdev => exact h.close hcur hlive hfd hdev hfds hfs
    | unlinks hact hlookup hf hfdt hdir _ _ hops =>
      exact h.unlink (hkeep.unlinks _ _ _ hact hlookup) hf (held_congr hlive hfds) (hfs ▸ hfdt)
        (hfs ▸ hdir) (hfs ▸ hops)
  · -- the running process is gone, and it had nothing open
    have hnone := hkeep.gone cause s₁ hd hpid
    have hkept := keepsRefs_step_exits hd hst
    refine h.same hkept.tables ?_
    funext u
    by_cases hu : u = s.cur
    · subst hu
      funext fd
      rw [held_of_live hcur, hnone fd, held, hkept.fds]
      split_ifs
      · exact hnone fd
      · rfl
    · rw [held, held, hkept.fds]
      simp only [hothers u hu]

/-! ## Runs -/

/-- Since `s₀`, every counter has changed as the number of live descriptors that it counts.  The
counter of a file is counted from its creation: before that the entry is free, at -1. -/
structure Balanced (s₀ s : Kernel) : Prop where
  refs : ∀ v, (s.fs.fdt v).refs - (s₀.fs.fdt v).refs = (s.users v).card - (s₀.users v).card
  nRefs : ∀ f, ¬ s.fs.IsRegular f →
    (s.fs.dir f).nRefs - (s₀.fs.dir f).nRefs = (s.usersOfFile f).card - (s₀.usersOfFile f).card
  files : ∀ f, s.fs.IsRegular f → (s.fs.dir f).nRefs = (s.usersOfFile f).card

/-- `sys_unlink` of every path that can be read and names the entry succeeds. -/
def CanUnlink (s : Kernel) (f : FileId) : Prop :=
  ∀ e addr path, e.act = .unlink addr path → s.mm.PathOk addr path →
    path.length ≤ maxNameLength → s.fs.lookup path = some f →
    ∃ t, s.step e = .ok t ∧ t.result = 0

lemma canUnlink_of_nRefs (hok : s.TableOk) {f : FileId} (hf : (s.fs.dir f).nRefs = 0) :
    s.CanUnlink f := by
  intro e addr path hact hpath hlen hlook
  obtain ⟨C, hC⟩ := hok
  obtain ⟨r, fs', -, hun, -⟩ := hC.sysUnlink path
  have hzero : r = 0 := by
    rw [FileSystem.sysUnlink, if_neg (not_lt.mpr hlen), hlook] at hun
    simp only [if_pos hf] at hun
    split at hun
    · simp at hun
    · simp only [Except.ok.injEq, Prod.mk.injEq] at hun
      exact hun.1.symm
  have hdisp : s.dispatch e = .done ({ s.enter e.regs with fs := fs' }.setEax r) := by
    have hpath' : (s.enter e.regs).mm.PathOk addr path := hpath
    rw [dispatch, hact]
    simp only
    rw [sysUnlink_of_pathOk hpath', show (s.enter e.regs).fs = s.fs from rfl, hun]
    rfl
  exact ⟨_, step_of_done hdisp, by rw [result_setEax, hzero]⟩

end Kernel

namespace Env

variable (E : Env)

/-- At boot the display is in use by two descriptors and counted once, and the free directory
entries are at -1. -/
lemma boot_counted : ∃ d b, (∀ f, b f ≤ 1) ∧ Kernel.Counted d b E.boot ∧
    (∀ v, d v = (E.boot.fs.fdt v).refs - (E.boot.users v).card) ∧
    ∀ f, b f = (E.boot.usersOfFile f).card - (E.boot.fs.dir f).nRefs := by
  have hno : ∀ f, ¬ E.boot.fs.IsRegular f := by
    intro f
    rw [FileSystem.IsRegular, show E.boot.fs.ops = zeroEnv.boot.fs.ops from rfl]
    revert f
    decide
  -- nothing of this depends on what the source leaves open
  have hfds : E.boot.fds = zeroEnv.boot.fds := by
    funext u
    by_cases hu : u = 0
    · simp [Kernel.fds, boot, hu, task0]
    · simp [Kernel.fds, boot, hu]
  have husers : ∀ f, E.boot.usersOfFile f = zeroEnv.boot.usersOfFile f := by
    intro f
    ext p
    rw [Kernel.mem_usersOfFile, Kernel.mem_usersOfFile, Kernel.Live, Kernel.Live, E.boot_task_pid,
      zeroEnv.boot_task_pid, hfds, show E.boot.fs.fdt = zeroEnv.boot.fs.fdt from rfl]
  have hle : ∀ f, ((zeroEnv.boot.usersOfFile f).card : ℤ) - (zeroEnv.boot.fs.dir f).nRefs ≤ 1 := by
    decide +kernel
  refine ⟨fun v => (E.boot.fs.fdt v).refs - (E.boot.users v).card,
    fun f => (E.boot.usersOfFile f).card - (E.boot.fs.dir f).nRefs, ?_, ⟨?_, ?_, ?_⟩, fun _ => rfl,
    fun _ => rfl⟩
  · intro f
    have hf := hle f
    rw [← husers f, show zeroEnv.boot.fs.dir = E.boot.fs.dir from rfl] at hf
    exact hf
  · intro v
    rw [Kernel.card_users]
    omega
  · intro f
    rw [if_neg (hno f), Kernel.card_usersOfFile]
    omega
  · exact fun f hf => absurd hf (hno f)

end Env

/-- **What an exit gives back.**  In every state, reached or not, a process other than task 0 that
ends gives its descriptors back just when it has none.  And in a run from boot in which every such
process ends so, every `sys_open` finds an entry of `fdt[]` that is really free, and only files
are unlinked, the counters change with the descriptors, and a file that no live process has open can
be unlinked. -/
theorem exit_gives_back_iff (E : Env) (es : List Event) (s : Kernel) :
    (∀ e cause s₁ t, s.dispatch e = .exits cause s₁ → s₁.current.pid ≠ 0 → s.step e = .ok t →
      (s.GivesBack t ↔ ∀ fd, s.fds s.cur fd = none)) ∧
    (Run Kernel.step Kernel.KeepsCount E.boot es s →
      E.boot.Balanced s ∧
      ∀ f, s.fs.IsRegular f → s.usersOfFile f = ∅ → s.CanUnlink f) := by
  refine ⟨fun e cause s₁ t hd _ hst => Kernel.givesBack_iff hd hst, fun hkeep => ?_⟩
  obtain ⟨d, b, hb, hboot, hd, hbase⟩ := E.boot_counted
  have hstep : ∀ s e t, ((∃ Q, SystemOk s Q) ∧ s.TableOk ∧ s.Counted d b) → s.KeepsCount e →
      s.step e = .ok t → (∃ Q, SystemOk t Q) ∧ t.TableOk ∧ t.Counted d b := by
    rintro s e t ⟨⟨Q, hs⟩, hok, hc⟩ hk hst
    exact ⟨hs.step hk.exits hst, hok.step hst, hc.step hb hs hok hk hst⟩
  obtain ⟨-, hok, hc⟩ := hkeep.invariant hstep ⟨⟨_, E.boot_systemOk⟩, E.boot_tableOk, hboot⟩
  have hfile : ∀ f, s.fs.IsRegular f → (s.fs.dir f).nRefs = (s.usersOfFile f).card := by
    intro f hf
    have hcount := hc.nRefs f
    rw [if_pos hf] at hcount
    rw [hcount, Kernel.card_usersOfFile, Int.sub_zero]
  refine ⟨⟨fun v => ?_, fun f hf => ?_, hfile⟩, fun f hf hempty => ?_⟩
  · have hcount := hc.refs v
    rw [hd v, ← Kernel.card_users] at hcount
    omega
  · have hcount := hc.nRefs f
    rw [if_neg hf, hbase f, ← Kernel.card_usersOfFile] at hcount
    omega
  · refine Kernel.canUnlink_of_nRefs hok ?_
    rw [hfile f hf, hempty]
    rfl

/-- Task 0 creates a file and closes it; then nobody has it open, and it can be unlinked. -/
theorem exit_gives_back_iff_closed_file :
    ∃ t, Run Kernel.step Kernel.KeepsCount zeroEnv.boot
        [plain (.open lUserStart nameF (oCreat + oRdwr)), plain (.close (3 : Fd).val)] t ∧
      zeroEnv.boot.Balanced t ∧ ∃ f, t.fs.IsRegular f ∧ t.usersOfFile f = ∅ ∧ t.CanUnlink f := by
  have hv : zeroEnv.boot.fs.freeFdt = some 2 := by decide
  have hfd : freeFd (zeroEnv.boot.fds zeroEnv.boot.cur) = some 3 := by decide
  have hi : zeroEnv.boot.fs.freeDir = some 2 := by decide
  have hunused : (zeroEnv.boot.fs.fdt 2).refs = 0 ∧ zeroEnv.boot.users 2 = ∅ := by decide +kernel
  have hd₁ := Kernel.dispatch_create (e := plain (.open lUserStart nameF (oCreat + oRdwr))) rfl
    zeroEnv.boot_userMapped.pathOk_nameF (by decide) (by decide) hv hfd hi (by decide)
  have hkeep₁ : zeroEnv.boot.KeepsCount (plain (.open lUserStart nameF (oCreat + oRdwr))) := by
    refine ⟨Kernel.exitsFindTwo_of_done hd₁, fun cause s₁ hd => ?_, ?_, fun addr path f hact => ?_⟩
    · rw [hd₁] at hd
      exact absurd hd (by simp)
    · rintro v ⟨-, -, -, -, hv', -⟩
      rw [hv, Option.some.injEq] at hv'
      exact hv' ▸ hunused
    · exact absurd hact (by simp [plain])
  have hst₁ := Kernel.step_of_done hd₁
  set s₁ : Kernel := ((zeroEnv.boot.enter _).withFiles _ _).setEax _
  have hfs₁ : s₁.fs = (zeroEnv.boot.fs.popFree.newFile 2 nameF zeroEnv.boot.fs.ffb).opened 2 2 oRdwr :=
    rfl
  have hfd₁ : s₁.fds s₁.cur 3 = some 2 := by
    rw [show s₁.fds s₁.cur = _ from Kernel.fds_returned ..]
    exact Function.update_self ..
  clear_value s₁
  have hdev₁ : (s₁.fs.fdt 2).logicDev = some 2 := by
    simp [hfs₁]
  have hreg₁ : s₁.fs.IsRegular 2 := by
    simp [hfs₁, FileSystem.IsRegular]
  have hrefs₁ : (s₁.fs.dir 2).nRefs = 1 := by
    simp [hfs₁]
  have hst₂ := Kernel.step_close (e := plain (.close (3 : Fd).val)) rfl hfd₁ hdev₁
  set s₂ : Kernel := ((s₁.enter _).withFiles _ _).setEax 0
  have hreg₂ : s₂.fs.IsRegular 2 := hreg₁
  have hrefs₂ : (s₂.fs.dir 2).nRefs = 0 := by
    rw [show s₂.fs = Kernel.closed s₁.fs 2 2 from rfl]
    simp [hrefs₁]
  clear_value s₂
  have hkeep₂ : s₁.KeepsCount (plain (.close (3 : Fd).val)) := by
    have hno : ∀ cause s', s₁.dispatch (plain (.close (3 : Fd).val)) ≠ .exits cause s' :=
      fun cause s' => Kernel.finishExcept_ne_exits _
    refine ⟨fun cause s' s'' hd => absurd hd (hno cause s'), fun cause s' hd => absurd hd (hno _ _),
      ?_, fun addr path f hact => ?_⟩
    · rintro v ⟨addr, path, flags, hact, -⟩
      exact absurd hact (by simp [plain])
    · exact absurd hact (by simp [plain])
  have hrun := Run.cons hkeep₁ hst₁ (.cons hkeep₂ hst₂ (.nil s₂))
  obtain ⟨hbal, hunlink⟩ := (exit_gives_back_iff zeroEnv _ s₂).2 hrun
  have hempty : s₂.usersOfFile 2 = ∅ := by
    have hcount := hbal.files 2 hreg₂
    rw [hrefs₂] at hcount
    exact Finset.card_eq_zero.mp (by exact_mod_cast hcount.symm)
  exact ⟨s₂, hrun, hbal, 2, hreg₂, hempty, hunlink 2 hreg₂ hempty⟩

/-- A child that inherits three descriptors from task 0 ends, and the keyboard stays counted
twice. -/
theorem exit_keeps_inherited_descriptors_counted :
    ∃ s t, AnyRun zeroEnv.boot childRuns s ∧ (s.enter fun _ => 0).current.pid ≠ 0 ∧
      s.dispatch (plain (.exit 0)) = .exits (.syscall 0) (s.enter fun _ => 0) ∧
      s.step (plain (.exit 0)) = .ok t ∧ ¬ s.GivesBack t := by
  obtain ⟨s, Q, hrun, hs, hcur, -, -⟩ := childRuns_run zeroEnv
  have hq := s.quiet_enter fun _ => 0
  have hok : SystemOk (s.enter fun _ => 0) Q :=
    ⟨hs.sched.congr hq.sched, hs.owned.ofSameSched hq.sched⟩
  have h0 : (s.enter fun _ => 0).cur ≠ 0 := by
    show s.cur ≠ 0
    rw [hcur]
    decide
  have hpid : (s.enter fun _ => 0).current.pid ≠ 0 :=
    fun hp => h0 (hok.sched.current_pid_eq_zero_iff.mp hp)
  have hd : s.dispatch (plain (.exit 0)) = .exits (.syscall 0) (s.enter fun _ => 0) := rfl
  have hst : ∃ t, s.step (plain (.exit 0)) = .ok t := by
    obtain ⟨u, Q', -, -, -, -, -, -, -, ⟨-, v, rest, -, hsw, -⟩ | ⟨-, u', hret, -⟩⟩ :=
      hok.sysExit_cases h0
    · refine ⟨u.leave.handTo 0 v, ?_⟩
      rw [Kernel.step, hd]
      simp only [hsw, Kernel.afterExit]
    · refine ⟨u'.setEax 0, ?_⟩
      rw [Kernel.step, hd]
      simp only [hret, Kernel.afterExit]
  obtain ⟨t, hst⟩ := hst
  refine ⟨s, t, hrun.unguarded, hpid, hd, hst, fun hback => ?_⟩
  have hnone := (Kernel.givesBack_iff hd hst).mp hback 0
  have hkeyboard : s.fds 1 0 = some 0 := (ExitRun.child_hasStdin hrun).descriptor
  rw [hcur, hkeyboard] at hnone
  exact absurd hnone (by simp)

end ZeOS
