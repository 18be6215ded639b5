import ZeOS.Files

/-!
# No block is lost

A block is on the free list or in the chain of a file, and whether an entry of the directory is in
use is known from its counter alone: `create_file` takes any entry whose counter is -1.  A file
whose counter has come to -1 therefore loses its chain to the next file that is created.

The counter comes to -1 when a descriptor is closed while it stands at 0.  No other step takes a
file out of use or loses a block (`no_block_lost_iff`), and while the counters are right no
such step is possible (second part of the theorem).
-/

namespace ZeOS

open FileSystem LinkChain

namespace FileSystem

variable {fs : FileSystem} {C : Option FileId → List ℤ}

/-- A block is on the list that starts with a block. -/
def OnChain (fs : FileSystem) (first b : ℤ) : Prop := ∃ xs, IsChain fs.fat (-1) first xs ∧ b ∈ xs

/-- Every block is free, or in the chain of a file that is in use. -/
def NoBlockLost (fs : FileSystem) : Prop :=
  ∀ b : ℤ, 0 ≤ b → b < maxBlocks → fs.OnChain fs.ffb b ∨
    ∃ f, 0 ≤ (fs.dir f).nRefs ∧ fs.IsRegular f ∧ fs.OnChain (fs.dir f).firstBlock b

/-- Every file is in use. -/
def FilesInUse (fs : FileSystem) : Prop := ∀ f, fs.IsRegular f → 0 ≤ (fs.dir f).nRefs

/-- Every block of the disk is in a chain. -/
def Covers (C : Option FileId → List ℤ) : Prop := ∀ b : ℤ, 0 ≤ b → b < maxBlocks → ∃ i, b ∈ C i

lemma covers_freeChains : Covers freeChains := by
  intro b h0 hlt
  refine ⟨none, ?_⟩
  rw [freeChains, if_pos rfl, List.mem_map]
  refine ⟨b.toNat, ?_, by omega⟩
  change b < 80 at hlt
  rw [List.mem_range'_1]
  show 0 ≤ b.toNat ∧ b.toNat < 0 + 80
  omega

lemma Covers.of_keeps {C' : Option FileId → List ℤ} (h : Covers C) (hk : Keeps C C') : Covers C' := by
  intro b h0 hlt
  obtain ⟨i, hi⟩ := h b h0 hlt
  exact hk i b hi

lemma FatOk.onChain_free_iff (h : FatOk fs C) (b : ℤ) : fs.OnChain fs.ffb b ↔ b ∈ C none := by
  have hc := h.chains.chain none
  rw [heads_none] at hc
  constructor
  · rintro ⟨xs, hxs, hb⟩
    rwa [hxs.unique hc] at hb
  · exact fun hb => ⟨_, hc, hb⟩

lemma FatOk.onChain_iff (h : FatOk fs C) {f : FileId} (hf : fs.IsRegular f) (b : ℤ) :
    fs.OnChain (fs.dir f).firstBlock b ↔ b ∈ C (some f) := by
  have hc := h.chains.chain (some f)
  rw [heads_regular hf] at hc
  constructor
  · rintro ⟨xs, hxs, hb⟩
    rwa [hxs.unique hc] at hb
  · exact fun hb => ⟨_, hc, hb⟩

/-- When all blocks are in chains, none is lost just when every file is in use. -/
lemma FatOk.noBlockLost_iff (h : FatOk fs C) (hcov : Covers C) :
    fs.NoBlockLost ↔ fs.FilesInUse := by
  constructor
  · intro hno f hf
    obtain ⟨b, bs, hbs⟩ := List.exists_cons_of_ne_nil (h.regular f hf).nonempty
    have hb : b ∈ C (some f) := by simp [hbs]
    obtain ⟨h0, hlt⟩ := h.range _ b hb
    rcases hno b h0 hlt with hfree | ⟨g, hrefs, hg, hchain⟩
    · rw [h.onChain_free_iff] at hfree
      exact absurd hb (h.chains.disjoint none (some f) (by simp) hfree)
    · rw [h.onChain_iff hg] at hchain
      by_cases hgf : g = f
      · exact hgf ▸ hrefs
      · exact absurd hb (h.chains.disjoint (some g) (some f) (by simpa using hgf) hchain)
  · intro huse b h0 hlt
    obtain ⟨i, hi⟩ := hcov b h0 hlt
    cases i with
    | none => exact .inl ((h.onChain_free_iff b).mpr hi)
    | some f =>
      have hf : fs.IsRegular f := by
        by_contra hno
        rw [h.not_regular_nil hno] at hi
        simp at hi
      exact .inr ⟨f, huse f hf, hf, (h.onChain_iff hf b).mpr hi⟩

/-- While every file is in use, `create_file` takes an entry without a chain. -/
lemma FilesInUse.freeUnused (h : fs.FilesInUse) : fs.FreeUnused := by
  intro f hfree hf
  have hrefs : (fs.dir f).nRefs = -1 := by simpa using List.find?_some hfree
  have := h f hf
  omega

end FileSystem

namespace Kernel

variable {s t : Kernel} {e : Event}

/-- `sys_close` closes a descriptor of a file whose counter stands at 0. -/
def ClosesUncounted (s : Kernel) (e : Event) : Prop :=
  ∃ (fd : Fd) (v : FdtId) (f : FileId), e.act = .close fd.val ∧ s.fds s.cur fd = some v ∧
    (s.fs.fdt v).logicDev = some f ∧ s.fs.IsRegular f ∧ (s.fs.dir f).nRefs = 0

/-- The invariant: the chains hold every block, and every file is in use. -/
def SpaceOk (s : Kernel) : Prop := ∃ C, FatOk s.fs C ∧ Covers C ∧ s.fs.FilesInUse

lemma SpaceOk.noBlockLost (h : s.SpaceOk) : s.fs.NoBlockLost := by
  obtain ⟨C, hC, hcov, huse⟩ := h
  exact (hC.noBlockLost_iff hcov).mpr huse

/-- A step takes a file out of use only by closing it once too often. -/
lemma SpaceOk.filesInUse_step (h : s.SpaceOk) (hclose : ¬ s.ClosesUncounted e)
    (hst : s.step e = .ok t) : t.fs.FilesInUse := by
  obtain ⟨C, hC, -, huse⟩ := h
  by_cases hfork : e.act = .fork
  · rcases (step_fork_files hfork hst).1 with hfs | hfs
    · rw [hfs]
      exact huse
    · intro f hf
      rw [FileSystem.IsRegular, hfs, forkRefs_ops] at hf
      have := huse f hf
      rw [hfs, forkRefs_nRefs]
      omega
  · have heff := hasEffect_step ⟨C, hC⟩ hfork hst
    rw [HasEffect] at heff
    generalize t.fs = fs at heff ⊢
    generalize t.fds = D at heff
    intro g hg
    cases heff with
    | same hsame =>
      rw [FileSystem.IsRegular, hsame.ops] at hg
      rw [hsame.nRefs]
      exact huse g hg
    | @opens addr path flags mode v fd f hact haddr hv hfd hentry =>
      have := huse g hg
      by_cases hgf : g = f
      · subst hgf
        rw [opened_dir_self]
        show 0 ≤ (s.fs.dir g).nRefs + 1
        omega
      · simpa [hgf] using this
    | @creates addr path flags mode v fd f =>
      by_cases hgf : g = f
      · subst hgf
        simp
      · have hg' : s.fs.IsRegular g := by
          simpa [FileSystem.IsRegular, hgf] using hg
        simpa [hgf] using huse g hg'
    | @dups v fd new hact hfd hnew =>
      rw [FileSystem.IsRegular, incRefs_ops] at hg
      have := huse g hg
      rw [incRefs_nRefs]
      split_ifs <;> omega
    | @closes v fd f hact hfd hdev =>
      have := huse g hg
      by_cases hgf : g = f
      · subst hgf
        have hne : (s.fs.dir g).nRefs ≠ 0 := fun h0 => hclose ⟨fd, v, g, hact, hfd, hdev, hg, h0⟩
        simp only [updDir, updFdt, Function.update_self]
        omega
      · simpa [hgf] using this
    | @unlinks _ addr path f hact hlookup hf hfdt hdir _ _ hops =>
      have hgf : g ≠ f := by
        rintro rfl
        rw [FileSystem.IsRegular, hops, Function.update_self] at hg
        exact absurd hg (by decide)
      rw [FileSystem.IsRegular, hops, Function.update_of_ne hgf] at hg
      rw [hdir, if_neg hgf]
      exact huse g hg

lemma SpaceOk.step (h : s.SpaceOk) (hclose : ¬ s.ClosesUncounted e) (hst : s.step e = .ok t) :
    t.SpaceOk := by
  have huse' := h.filesInUse_step hclose hst
  obtain ⟨C, hC, hcov, huse⟩ := h
  obtain ⟨C', hC', hkeep⟩ := tables_step hC hst
  exact ⟨C', hC', hcov.of_keeps (hkeep huse.freeUnused), huse'⟩

/-- The tables after a descriptor has been closed. -/
abbrev closed (fs : FileSystem) (v : FdtId) (f : FileId) : FileSystem :=
  (fs.updFdt v fun w => { w with refs := w.refs - 1 }).updDir f
    fun d => { d with nRefs := d.nRefs - 1 }

/-- The step that closes a descriptor. -/
lemma step_close {fd : Fd} {v : FdtId} {f : FileId} (hact : e.act = .close fd.val)
    (hfd : s.fds s.cur fd = some v) (hdev : (s.fs.fdt v).logicDev = some f) :
    s.step e = .ok (((s.enter e.regs).withFiles (closed s.fs v f)
      (Function.update (s.fds s.cur) fd none)).setEax 0) := by
  have hclose : s.fs.sysClose (s.fds s.cur) fd.val =
      .ok (0, closed s.fs v f, Function.update (s.fds s.cur) fd none) := by
    have hlt := fd.isLt
    rw [FileSystem.sysClose, dif_pos ⟨by omega, by exact_mod_cast hlt⟩]
    simp only [Int.toNat_natCast, Fin.eta, hfd, hdev]
  have hfds : (s.enter e.regs).current.fileDescriptors = s.fds s.cur :=
    (s.sameFiles_enter e.regs).fds s.cur
  have hfs : (s.enter e.regs).fs = s.fs := (s.sameFiles_enter e.regs).fs
  rw [Kernel.step, dispatch, hact]
  simp only [Kernel.sysClose, hfds, hfs, hclose, finishExcept]

/-- The descriptors of the caller when a call on the tables returns. -/
lemma fds_returned (s : Kernel) (regs : SavedRegs) (fs : FileSystem) (d : Descriptors) (r : ℤ) :
    (((s.enter regs).withFiles fs d).setEax r).fds s.cur = d := by
  rw [fds, (sameFiles_setEax _ r).fds]
  change ((s.enter regs).withFiles fs d).fds s.cur = d
  rw [fds_withFiles]
  exact Function.update_self ..

/-- A close with the counter at 0 takes the file out of use. -/
lemma ClosesUncounted.not_filesInUse (h : s.ClosesUncounted e) (hst : s.step e = .ok t) :
    ¬ t.fs.FilesInUse := by
  obtain ⟨fd, v, f, hact, hfd, hdev, hf, hzero⟩ := h
  rw [step_close hact hfd hdev, Except.ok.injEq] at hst
  have hfs : t.fs = closed s.fs v f := by
    rw [← hst]
    rfl
  intro huse
  rw [hfs] at huse
  have := huse f hf
  simp only [closed, updDir, updFdt, Function.update_self] at this
  omega

/-- A close with the counter at 0 loses a block, if none was lost before. -/
lemma ClosesUncounted.not_noBlockLost (h : s.ClosesUncounted e) (hs : s.SpaceOk)
    (hst : s.step e = .ok t) : ¬ t.fs.NoBlockLost := by
  obtain ⟨C, hC, hcov, huse⟩ := hs
  obtain ⟨C', hC', hkeep⟩ := tables_step hC hst
  have hcov' := hcov.of_keeps (hkeep huse.freeUnused)
  rw [hC'.noBlockLost_iff hcov']
  exact h.not_filesInUse hst

end Kernel

lemma Env.boot_spaceOk (E : Env) : E.boot.SpaceOk :=
  ⟨_, E.boot_fatOk, covers_freeChains, fun f hf => absurd hf (E.boot_not_regular f)⟩

/-- A file `f` is created, with the first free descriptor and the first free entries. -/
lemma Kernel.step_create_nameF {s : Kernel} {v : FdtId} {fd : Fd} {i : FileId}
    (hpath : s.mm.PathOk lUserStart nameF) (hlook : s.fs.lookup nameF = none)
    (hv : s.fs.freeFdt = some v) (hfd : freeFd (s.fds s.cur) = some fd)
    (hi : s.fs.freeDir = some i) (hffb : 0 ≤ s.fs.ffb) :
    ∃ t, s.step (plain (.open lUserStart nameF (oCreat + oRdwr))) = .ok t ∧
      t.fds t.cur = Function.update (s.fds s.cur) fd (some v) ∧
      (t.fs.fdt v).logicDev = some i ∧ t.fs.IsRegular i ∧ (t.fs.dir i).nRefs = 1 := by
  have hdisp := Kernel.dispatch_create (e := plain (.open lUserStart nameF (oCreat + oRdwr))) rfl
    hpath (by decide) hlook hv hfd hi hffb
  refine ⟨_, Kernel.step_of_done hdisp, Kernel.fds_returned .., ?_, ?_, ?_⟩
  · show (((s.fs.popFree.newFile i nameF s.fs.ffb).opened v i oRdwr).fdt v).logicDev = some i
    simp
  · show ((s.fs.popFree.newFile i nameF s.fs.ffb).opened v i oRdwr).IsRegular i
    simp [FileSystem.IsRegular]
  · show (((s.fs.popFree.newFile i nameF s.fs.ffb).opened v i oRdwr).dir i).nRefs = 1
    simp

/-- A close of a descriptor whose file is counted, or is no regular file. -/
lemma not_closesUncounted {s : Kernel} {fd : Fd} (h : ∀ v f, s.fds s.cur fd = some v →
    (s.fs.fdt v).logicDev = some f → s.fs.IsRegular f → (s.fs.dir f).nRefs ≠ 0) :
    ¬ s.ClosesUncounted (plain (.close fd.val)) := by
  rintro ⟨fd', v, f, hact, hfd, hdev, hf, hzero⟩
  obtain rfl : fd' = fd := by
    have : (fd.val : ℤ) = fd'.val := Action.close.inj hact
    exact Fin.ext (by omega)
  exact h v f hfd hdev hf hzero

/-- **No block is lost**, in all the states of a run, just when no `sys_close` of the run closes a
descriptor of a file whose counter stands at 0.  From a state with right counters, the runs that
open no free directory entry have no such step. -/
theorem no_block_lost_iff (E : Env) :
    (∀ (es : List Event) (t : Kernel), AnyRun E.boot es t →
      ((∀ pre u, pre <+: es → AnyRun E.boot pre u → u.fs.NoBlockLost) ↔
        GuardedRun.Run Kernel.step (fun s e => True ∧ ¬ s.ClosesUncounted e) E.boot es t)) ∧
    (∀ (s t : Kernel) (Q : Node → List Slot) (es : List Event), SystemOk s Q → s.SpaceOk →
      s.CountsOk → GuardedRun.Run Kernel.step (fun s e => s.ExitsFindTwo e ∧ ¬ s.OpensFree e) s es t →
      t.fs.NoBlockLost) := by
  constructor
  · intro es t hrun
    refine hrun.forall_prefix_iff (fun s hs => Kernel.SpaceOk.noBlockLost hs) ?_ ?_ E.boot_spaceOk
    · intro s e t hs _ hclose hst
      exact Kernel.SpaceOk.step hs hclose hst
    · intro s e t hs _ hclose hst
      exact (not_not.mp hclose).not_noBlockLost hs hst
  · intro s t Q es hs hspace hcounts hrun
    have hstep : ∀ s e t, ((∃ Q, SystemOk s Q) ∧ s.SpaceOk ∧ s.CountsOk) →
        (s.ExitsFindTwo e ∧ ¬ s.OpensFree e) → s.step e = .ok t →
        ((∃ Q, SystemOk t Q) ∧ t.SpaceOk ∧ t.CountsOk) := by
      rintro s e t ⟨⟨Q, hs⟩, hspace, hcounts⟩ ⟨hg, hopen⟩ hst
      have hclose : ¬ s.ClosesUncounted e := by
        rintro ⟨fd, v, f, -, hfd, hdev, -, hzero⟩
        have := hcounts.one_le_nRefs hs.sched.cur_live hfd hdev
        omega
      have hok : s.TableOk := by
        obtain ⟨C, hC, -⟩ := hspace
        exact ⟨C, hC⟩
      exact ⟨hs.step hg hst, hspace.step hclose hst, hcounts.step hs hok hg hst hopen⟩
    exact (hrun.invariant hstep ⟨⟨Q, hs⟩, hspace, hcounts⟩).2.1.noBlockLost

/-- Task 0 creates a file and closes it again: no block is lost. -/
theorem no_block_lost_iff_create_close :
    ∃ t, AnyRun zeroEnv.boot [plain (.open lUserStart nameF (oCreat + oRdwr)), plain (.close 3)] t ∧
      t.fs.IsRegular 2 ∧ ∀ pre u, pre <+: [plain (.open lUserStart nameF (oCreat + oRdwr)),
        plain (.close 3)] → AnyRun zeroEnv.boot pre u → u.fs.NoBlockLost := by
  have hfree : freeFd (zeroEnv.boot.fds zeroEnv.boot.cur) = some 3 := by decide
  obtain ⟨s, hcreate, hfds, hdev, hreg, hrefs⟩ := Kernel.step_create_nameF (s := zeroEnv.boot)
    (v := 2) (i := 2) zeroEnv.boot_userMapped.pathOk_nameF (by decide) (by decide) hfree
    (by decide) (by decide)
  have hfd : s.fds s.cur 3 = some 2 := by rw [hfds, Function.update_self]
  have hclose : s.step (plain (.close (3 : Fd).val)) = .ok _ := Kernel.step_close rfl hfd hdev
  have hcounted : ¬ s.ClosesUncounted (plain (.close (3 : Fd).val)) := by
    refine not_closesUncounted fun v f hv hf _ => ?_
    obtain rfl : v = 2 := Option.some.inj (hv.symm.trans hfd)
    obtain rfl : f = 2 := Option.some.inj (hf.symm.trans hdev)
    rw [hrefs]
    decide
  have hopen : ¬ zeroEnv.boot.ClosesUncounted (plain (.open lUserStart nameF (oCreat + oRdwr))) := by
    rintro ⟨_, _, _, hact, -⟩
    simp [plain] at hact
  have hrun : AnyRun zeroEnv.boot [plain (.open lUserStart nameF (oCreat + oRdwr)),
      plain (.close (3 : Fd).val)] _ := .cons trivial hcreate (.cons trivial hclose (.nil _))
  refine ⟨_, hrun, hreg, ((no_block_lost_iff zeroEnv).1 _ _ hrun).mpr ?_⟩
  exact .cons ⟨trivial, hopen⟩ hcreate (.cons ⟨trivial, hcounted⟩ hclose (.nil _))

/-- Task 0 closes descriptor 1 and creates a file, which takes the entry of `fdt[]` that descriptor
2 still points to; when both are closed, the file is out of use with a block in its chain. -/
theorem block_lost_after_two_closes :
    ∃ t, AnyRun zeroEnv.boot [plain (.close 1), plain (.open lUserStart nameF (oCreat + oRdwr)),
      plain (.close 1), plain (.close 2)] t ∧ ¬ t.fs.NoBlockLost := by
  have hclose : ∀ {s : Kernel} (fd : Fd) (v : FdtId) (f : FileId), s.fds s.cur fd = some v →
      (s.fs.fdt v).logicDev = some f → s.step (plain (.close fd.val)) = .ok _ :=
    fun fd v f hfd hdev => Kernel.step_close rfl hfd hdev
  have h₁ := hclose 1 1 1 (s := zeroEnv.boot) rfl rfl
  have hdisplay : ¬ zeroEnv.boot.ClosesUncounted (plain (.close (1 : Fd).val)) :=
    not_closesUncounted fun _ f _ _ hf => absurd hf (zeroEnv.boot_not_regular f)
  have hs₁ := zeroEnv.boot_spaceOk.step hdisplay h₁
  have hmap₁ := zeroEnv.boot_userMapped.of_same (Kernel.step_userPages h₁)
  set s₁ : Kernel := ((zeroEnv.boot.enter _).withFiles _ _).setEax 0
  have hv : s₁.fs.freeFdt = some 1 := by decide
  have hfd : freeFd (s₁.fds s₁.cur) = some 1 := by decide
  have hi : s₁.fs.freeDir = some 2 := by decide
  have hlook : s₁.fs.lookup nameF = none := by decide
  have hffb : 0 ≤ s₁.fs.ffb := by decide
  have hfd₁ : s₁.fds s₁.cur 2 = some 1 := by decide
  clear_value s₁
  obtain ⟨s₂, h₂, hfds₂, hdev₂, hreg₂, hrefs₂⟩ :=
    Kernel.step_create_nameF hmap₁.pathOk_nameF hlook hv hfd hi hffb
  have hs₂ := hs₁.step (by rintro ⟨_, _, _, hact, -⟩; simp [plain] at hact) h₂
  have hfd₂ : s₂.fds s₂.cur 1 = some 1 := by rw [hfds₂, Function.update_self]
  have h₃ := hclose 1 1 2 hfd₂ hdev₂
  have hcounted : ¬ s₂.ClosesUncounted (plain (.close (1 : Fd).val)) := by
    refine not_closesUncounted fun v f hv hf _ => ?_
    obtain rfl : v = 1 := Option.some.inj (hv.symm.trans hfd₂)
    obtain rfl : f = 2 := Option.some.inj (hf.symm.trans hdev₂)
    rw [hrefs₂]
    decide
  have hs₃ := hs₂.step hcounted h₃
  set s₃ : Kernel := ((s₂.enter _).withFiles _ _).setEax 0
  have hfs₃ : s₃.fs = Kernel.closed s₂.fs 1 2 := rfl
  have hfds₃ : s₃.fds s₃.cur = Function.update (s₂.fds s₂.cur) 1 none := Kernel.fds_returned ..
  have hfd₃ : s₃.fds s₃.cur 2 = some 1 := by
    rw [hfds₃, Function.update_of_ne (by decide), hfds₂, Function.update_of_ne (by decide), hfd₁]
  have hdev₃ : (s₃.fs.fdt 1).logicDev = some 2 := by simp [hfs₃, hdev₂]
  have hreg₃ : s₃.fs.IsRegular 2 := hreg₂
  have hrefs₃ : (s₃.fs.dir 2).nRefs = 0 := by simp [hfs₃, hrefs₂]
  clear_value s₃
  have h₄ := hclose 2 1 2 hfd₃ hdev₃
  refine ⟨_, .cons trivial h₁ (.cons trivial h₂ (.cons trivial h₃ (.cons trivial h₄ (.nil _)))), ?_⟩
  exact Kernel.ClosesUncounted.not_noBlockLost ⟨2, 1, 2, rfl, hfd₃, hdev₃, hreg₃, hrefs₃⟩ hs₃ h₄

end ZeOS
