import ZeOS.Invariants.References
import ZeOS.Invariants.UserPages

/-!
# The file system over whole runs

The block structure stays well formed in every run, whatever the processes do
(`fat_wellFormed`).  The reference counts do not: `init_task0` points two descriptors at the
display and counts one, so they are too low from the start (`reference_counts_too_low`).  The
same theorem says what the calls themselves do: from a state with right counts they keep them
right, except when `sys_open` finds its name in a free directory entry.
-/

namespace ZeOS

open FileSystem LinkChain

/-! ## Blocks -/

/-- In every state that a run from boot reaches, the free list and the chains of the regular
files are duplicate-free, end in -1 and share no block, every file has as many blocks as its
entry says and no more bytes than fit in them.  So the loops that walk the table end. -/
theorem fat_wellFormed (E : Env) {es : List Event} {t : Kernel} (h : AnyRun E.boot es t) :
    ∃ C : Option FileId → List ℤ,
      (IsChain t.fs.fat (-1) t.fs.ffb (C none) ∧ (C none).Nodup) ∧
      (∀ f, t.fs.IsRegular f →
        IsChain t.fs.fat (-1) (t.fs.dir f).firstBlock (C (some f)) ∧ (C (some f)).Nodup ∧
        (t.fs.dir f).nBlocks = (C (some f)).length ∧
        (t.fs.dir f).size ≤ blockSize * (t.fs.dir f).nBlocks) ∧
      (∀ f, t.fs.IsRegular f → (C none).Disjoint (C (some f))) ∧
      (∀ f g, f ≠ g → t.fs.IsRegular f → t.fs.IsRegular g → (C (some f)).Disjoint (C (some g))) ∧
      (∀ n r, t.fs.balloc n ≠ .error r) ∧
      (∀ i r, t.fs.freeb i ≠ .error r) ∧
      (∀ f m v buffer size, t.fs.IsRegular f → t.fs.sysWriteFile m v f buffer size ≠ .stop .diverge) := by
  have hstep : ∀ s e t, s.TableOk → True → Kernel.step s e = .ok t → t.TableOk :=
    fun s e t hs _ hst => hs.step hst
  obtain ⟨C, hC⟩ := h.invariant hstep E.boot_tableOk
  refine ⟨C, ⟨hC.chains.chain none, hC.chains.nodup none⟩, ?_, ?_, ?_, hC.balloc_ne_error,
    hC.freeb_ne_error, fun f m v buffer size hf => (hC.sysWriteFile hf m v buffer size).2⟩
  · intro f hf
    have hc := hC.chains.chain (some f)
    rw [heads_regular hf] at hc
    exact ⟨hc, hC.chains.nodup _, (hC.regular f hf).nBlocks, (hC.regular f hf).size_le⟩
  · exact fun f _ => hC.chains.disjoint none (some f) (by simp)
  · exact fun f g hfg _ _ => hC.chains.disjoint (some f) (some g) (by simpa using hfg)

/-- The name `f`. -/
def nameF : List Byte := [102]

lemma Memory.UserMapped.pathOk_nameF {E : Env} {m : Memory} (h : m.UserMapped E) :
    m.PathOk lUserStart nameF := h.pathOk le_rfl (by decide)

/-- Task 0 creates a file right after boot, and its one block is a chain of its own. -/
theorem fat_wellFormed_after_create :
    ∃ t, AnyRun zeroEnv.boot [plain (.open lUserStart nameF (oCreat + oRdwr))] t ∧
      t.fs.IsRegular 2 ∧
      ∃ C : Option FileId → List ℤ,
        (IsChain t.fs.fat (-1) t.fs.ffb (C none) ∧ (C none).Nodup) ∧
        (∀ f, t.fs.IsRegular f →
          IsChain t.fs.fat (-1) (t.fs.dir f).firstBlock (C (some f)) ∧ (C (some f)).Nodup ∧
          (t.fs.dir f).nBlocks = (C (some f)).length ∧
          (t.fs.dir f).size ≤ blockSize * (t.fs.dir f).nBlocks) ∧
        (∀ f, t.fs.IsRegular f → (C none).Disjoint (C (some f))) ∧
        (∀ f g, f ≠ g → t.fs.IsRegular f → t.fs.IsRegular g →
          (C (some f)).Disjoint (C (some g))) ∧
        (∀ n r, t.fs.balloc n ≠ .error r) ∧
        (∀ i r, t.fs.freeb i ≠ .error r) ∧
        (∀ f m v buffer size, t.fs.IsRegular f →
          t.fs.sysWriteFile m v f buffer size ≠ .stop .diverge) := by
  have hv : zeroEnv.boot.fs.freeFdt = some 2 := by decide
  have hfd : freeFd zeroEnv.boot.current.fileDescriptors = some 3 := by decide
  have hi : zeroEnv.boot.fs.freeDir = some 2 := by decide
  have hdisp := Kernel.dispatch_create (e := plain (.open lUserStart nameF (oCreat + oRdwr))) rfl
    zeroEnv.boot_userMapped.pathOk_nameF (by decide) (by decide) hv hfd hi (by decide)
  have hrun : AnyRun zeroEnv.boot [plain (.open lUserStart nameF (oCreat + oRdwr))] _ :=
    .cons trivial (Kernel.step_of_done hdisp) (.nil _)
  exact ⟨_, hrun, by decide, fat_wellFormed zeroEnv hrun⟩

/-! ## Reference counts -/

namespace Env

variable (E : Env)

lemma boot_mem_users {v : FdtId} {p : Slot × Fd} :
    p ∈ E.boot.users v ↔ p.1 = 0 ∧ stdDescriptors p.2 = some v := by
  rw [Kernel.mem_users, Kernel.Live, E.boot_task_pid]
  constructor
  · rintro ⟨hlive, hfd⟩
    split_ifs at hlive with h0
    · rw [h0] at hfd
      exact ⟨h0, hfd⟩
    · omega
  · rintro ⟨h0, hfd⟩
    rw [if_pos h0, h0]
    exact ⟨le_refl _, hfd⟩

/-- The display has two descriptors and a count of one. -/
lemma boot_not_refsOk : ¬ E.boot.RefsOk := by
  intro h
  have hsub : {((0 : Slot), (1 : Fd)), ((0 : Slot), (2 : Fd))} ⊆ E.boot.users 1 := by
    intro p hp
    rw [Finset.mem_insert, Finset.mem_singleton] at hp
    rcases hp with rfl | rfl <;> exact (E.boot_mem_users).mpr ⟨rfl, by decide⟩
  have hcard : 2 ≤ (E.boot.users 1).card := Finset.card_le_card hsub
  have hrefs : (E.boot.fs.fdt 1).refs = 1 := rfl
  have hle := h.refs 1
  omega

end Env

/-- From boot the reference counts are never right: every run starts in a state where they are
too low.  From a state where they are right, they are right in every state of a run exactly
when no `sys_open` of the run opens a free directory entry. -/
theorem reference_counts_too_low (E : Env) :
    (∀ (es : List Event) (t : Kernel), AnyRun E.boot es t →
      ¬ ∀ pre u, pre <+: es → AnyRun E.boot pre u → u.RefsOk) ∧
    (∀ (s t : Kernel) (Q : Node → List Slot) (es : List Event), SystemOk s Q → s.TableOk →
      s.CountsOk → ExitRun s es t →
      ((∀ pre u, pre <+: es → ExitRun s pre u → u.RefsOk) ↔
        GuardedRun.Run Kernel.step (fun s e => s.ExitsFindTwo e ∧ ¬ s.OpensFree e) s es t)) := by
  constructor
  · intro es t _ hall
    exact E.boot_not_refsOk (hall [] E.boot (List.nil_prefix) (.nil _))
  · intro s t Q es hs hok hcounts hrun
    have hgood : ∀ s : Kernel, ((∃ Q, SystemOk s Q) ∧ s.TableOk ∧ s.CountsOk) → s.RefsOk :=
      fun s h => h.2.2.toRefsOk
    refine hrun.forall_prefix_iff hgood ?_ ?_ ⟨⟨Q, hs⟩, hok, hcounts⟩
    · rintro s e t ⟨⟨Q, hs⟩, hok, hcounts⟩ hg hopen hst
      exact ⟨hs.step hg hst, hok.step hst, hcounts.step hs hok hg hst hopen⟩
    · rintro s e t ⟨⟨Q, hs⟩, -, -⟩ _ hopen hst
      exact (not_not.mp hopen).not_refsOk hs hst

/-- After `close (1)` the display's entry of `fdt[]` passes for free while descriptor 2 uses it. -/
theorem boot_display_undercounted :
    ¬ zeroEnv.boot.RefsOk ∧
      ∃ t, AnyRun zeroEnv.boot [plain (.close 1)] t ∧ t.fs.freeFdt = some 1 ∧ (0, 2) ∈ t.users 1 := by
  refine ⟨zeroEnv.boot_not_refsOk, _, .cons trivial rfl (.nil _), by decide, ?_⟩
  exact Kernel.mem_users.mpr ⟨by decide, by decide⟩

/-- The kernel as `init_task0` should leave it, with both descriptors of the display counted. -/
def Env.bootCounted (E : Env) : Kernel :=
  { E.boot with fs := E.boot.fs.incRefs 1 }

lemma zeroEnv_bootCounted_countsOk : zeroEnv.bootCounted.CountsOk := by
  have huser : ∀ p : Slot × Fd, zeroEnv.bootCounted.Live p.1 → p.1 = 0 := by
    intro p hp
    have hlive : 0 ≤ (zeroEnv.boot.task p.1).pid := hp
    rw [zeroEnv.boot_task_pid] at hlive
    split_ifs at hlive with h0
    · exact h0
    · omega
  -- the descriptors in use are the standard ones of task 0
  have hcard : ∀ (A : Finset (Slot × Fd)) (P : Fd → Prop) [DecidablePred P],
      (∀ p ∈ A, p.1 = 0 ∧ P p.2) → A.card ≤ (Finset.univ.filter P).card := by
    intro A P _ hA
    refine Finset.card_le_card_of_injOn Prod.snd (fun p hp => ?_) (fun p hp q hq hpq => ?_)
    · simpa using (hA p hp).2
    · exact Prod.ext ((hA p hp).1.trans (hA q hq).1.symm) hpq
  refine ⟨⟨fun v => ?_, fun f hne => ?_⟩, by decide⟩
  · have hle := hcard (zeroEnv.bootCounted.users v) (fun fd => stdDescriptors fd = some v) (by
      intro p hp
      rw [Kernel.mem_users] at hp
      have h0 := huser p hp.1
      exact ⟨h0, by rw [h0] at hp; exact hp.2⟩)
    have hrefs : ∀ v, ((Finset.univ.filter (fun fd => stdDescriptors fd = some v)).card : ℤ) ≤
        (zeroEnv.bootCounted.fs.fdt v).refs := by decide
    have := hrefs v
    omega
  · have hstd : ∀ p ∈ zeroEnv.bootCounted.usersOfFile f, p.1 = 0 ∧ ∃ v,
        stdDescriptors p.2 = some v ∧ (zeroEnv.bootCounted.fs.fdt v).logicDev = some f := by
      intro p hp
      rw [Kernel.mem_usersOfFile] at hp
      have h0 := huser p hp.1
      exact ⟨h0, by rw [h0] at hp; exact hp.2⟩
    have hle := hcard _ (fun fd => ∃ v, stdDescriptors fd = some v ∧
      (zeroEnv.bootCounted.fs.fdt v).logicDev = some f) hstd
    have hrefs : ∀ f, (∃ fd v, stdDescriptors fd = some v ∧
        (zeroEnv.bootCounted.fs.fdt v).logicDev = some f) →
        ((Finset.univ.filter (fun fd => ∃ v, stdDescriptors fd = some v ∧
          (zeroEnv.bootCounted.fs.fdt v).logicDev = some f)).card : ℤ) ≤
        (zeroEnv.bootCounted.fs.dir f).nRefs := by decide
    obtain ⟨p, hp⟩ := hne
    have := hrefs f ⟨p.2, (hstd p hp).2⟩
    omega

/-- With the display counted twice, a `dup` keeps the counts right. -/
theorem reference_counts_right_after_dup :
    ∃ t, ExitRun zeroEnv.bootCounted [plain (.dup 1)] t ∧
      ((∀ pre u, pre <+: [plain (.dup 1)] → ExitRun zeroEnv.bootCounted pre u → u.RefsOk) ↔
        GuardedRun.Run Kernel.step (fun s e => s.ExitsFindTwo e ∧ ¬ s.OpensFree e)
          zeroEnv.bootCounted [plain (.dup 1)] t) := by
  have hquiet : ∀ (s : Kernel) (fs : FileSystem), Quiet s { s with fs := fs } :=
    fun s fs => .other rfl rfl rfl rfl rfl rfl
  have hq : Quiet zeroEnv.boot zeroEnv.bootCounted := hquiet _ _
  have hs : SystemOk zeroEnv.bootCounted Env.bootQueues :=
    ⟨zeroEnv.boot_systemOk.sched.congr hq.sched, zeroEnv.boot_systemOk.owned.ofSameSched hq.sched⟩
  have hok : zeroEnv.bootCounted.TableOk := by
    obtain ⟨C, hC⟩ := zeroEnv.boot_tableOk
    exact ⟨C, hC.incRefs 1⟩
  have hdisp : zeroEnv.bootCounted.dispatch (plain (.dup 1)) = .done _ := rfl
  have hrun : ExitRun zeroEnv.bootCounted [plain (.dup 1)] _ :=
    .cons (Kernel.exitsFindTwo_of_done hdisp) (Kernel.step_of_done hdisp) (.nil _)
  exact ⟨_, hrun, (reference_counts_too_low zeroEnv).2 _ _ _ _ hs hok zeroEnv_bootCounted_countsOk hrun⟩

end ZeOS
