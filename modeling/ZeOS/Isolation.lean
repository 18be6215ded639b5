import ZeOS.Invariants.Keyboard
import ZeOS.Ownership
import ZeOS.Scheduling

/-!
# Address spaces

There is one page table for all processes.  Twenty of its entries are the data pages, which
`task_switch` writes for the process it switches to, and twenty are the window above them, which
`sys_fork` clears when it is done with it and which `copy_from_circ_buffer` leaves on the frames of
the running process.  `task_switch` does not touch the window.

So the window is harmless while the process goes on running, and shows the frames of that process
to the next one when it does not: a run keeps the processes apart just when the window is clear at
every change of process (`isolated_iff`).
-/

namespace ZeOS

open IntrusiveList Relation Memory GuardedRun

namespace Kernel

/-- Nothing that user code can reach belongs to another live process, or to nobody. -/
def Isolated (s : Kernel) : Prop :=
  ∀ page < totalPages, (s.mm.pagusrTable page).present = true →
    (s.mm.pagusrTable page).user = true →
      (∀ u, s.Live u → u ≠ s.cur → ∀ i,
        (s.task u).phPages i ≠ (s.mm.pagusrTable page).pbaseAddr) ∧
      s.mm.physMem (s.mm.pagusrTable page).pbaseAddr ≠ .free

/-- When the event takes the processor from the running process, the window is clear: before the
event, or where the event calls `sys_exit`. -/
def HandsOverClear (s : Kernel) (e : Event) : Prop :=
  (∀ t, s.dispatch e = .done t → t.cur ≠ s.cur → s.mm.WindowClear) ∧
  (∀ cause s₁, s.dispatch e = .exits cause s₁ → s₁.current.pid ≠ 0 → s₁.mm.WindowClear)

end Kernel

/-! ## The entries of the table -/

section

variable {E : Env} {s t : Kernel} {e : Event} {Q : Node → List Slot} {D : Fin numPagData → ℤ}
  {W : Option (Fin numPagData → ℤ)}

/-- The data pages map the frames of the running process, or the ones of the start; the window is
clear or maps the frames of the running process. -/
structure OwnPages (s : Kernel) (D : Fin numPagData → ℤ) (W : Option (Fin numPagData → ℤ)) : Prop where
  data : D = s.current.phPages ∨ D = startFrames
  window : W = none ∨ W = some s.current.phPages

/-- A present entry is one of the kernel or the code, of the data or of the window. -/
lemma Memory.TableIs.present_cases (ht : TableIs E.codeMemory.pagusrTable s.mm D W) {page : ℕ}
    (hp : (s.mm.pagusrTable page).present = true) :
    ((s.mm.pagusrTable page).pbaseAddr = page ∧ page < 264) ∨
    (∃ i, s.mm.pagusrTable page = ssEntry (D i)) ∨
    ∃ w i, W = some w ∧ s.mm.pagusrTable page = ssEntry (w i) := by
  by_cases hlow : page < 264
  · rw [ht.other page (.inl hlow)]
    by_cases hcode : 256 ≤ page
    · rw [E.codeMemory_code ⟨hcode, hlow⟩]
      exact .inl ⟨rfl, hlow⟩
    · exact .inl ⟨(E.codeMemory_kernel (by omega)).2, hlow⟩
  · by_cases hdata : page < 284
    · have hd := ht.data ⟨page - 264, by show page - 264 < 20; omega⟩
      have hpage : pagLogInitDataP0 + (page - 264) = page := by
        show 264 + (page - 264) = page
        omega
      simp only [hpage] at hd
      exact .inr (.inl ⟨_, hd⟩)
    · by_cases hwin : page < 304
      · have hpage : windowPage + (page - 284) = page := by
          show 284 + (page - 284) = page
          omega
        have hw := ht.window
        cases W with
        | none =>
          have hc := hw ⟨page - 284, by show page - 284 < 20; omega⟩
          simp only [hpage] at hc
          rw [hc] at hp
          exact absurd hp (by decide)
        | some w =>
          have hc := hw ⟨page - 284, by show page - 284 < 20; omega⟩
          simp only [hpage] at hc
          exact .inr (.inr ⟨w, _, rfl, hc⟩)
      · rw [ht.other page (.inr (by show 304 ≤ page; omega)), E.codeMemory_above (by omega)] at hp
        exact absurd hp (by decide)

lemma reserved_code {f : ℕ} (h : f < 264) : Reserved f := by
  rw [Reserved, taken_eq_used_iff]
  omega

lemma reserved_startFrames (i : Fin numPagData) : Reserved (frameNat (startFrames i)) := by
  have hi := pageIndex_lt i
  have hlt : 264 + 2 * i.val < totalPages := by
    show 264 + 2 * i.val < 1024
    omega
  rw [startFrames]
  change Reserved (frameNat ((264 + 2 * i.val : ℕ) : ℤ))
  rw [frameNat_natCast hlt, Reserved, taken_eq_used_iff]
  omega

/-- Every present entry maps a reserved frame or one of the running process. -/
lemma OwnPages.present_cases (h : OwnPages s D W)
    (ht : TableIs E.codeMemory.pagusrTable s.mm D W) {page : ℕ}
    (hp : (s.mm.pagusrTable page).present = true) :
    Reserved (s.mm.pagusrTable page).pbaseAddr ∨
      ∃ i, (s.mm.pagusrTable page).pbaseAddr = frameNat (s.current.phPages i) := by
  rcases ht.present_cases hp with ⟨hbase, hlow⟩ | ⟨i, hentry⟩ | ⟨w, i, hw, hentry⟩
  · rw [hbase]
    exact .inl (reserved_code hlow)
  · rw [hentry, ssEntry_pbaseAddr]
    rcases h.data with rfl | rfl
    · exact .inr ⟨i, rfl⟩
    · exact .inl (reserved_startFrames i)
  · rw [hentry, ssEntry_pbaseAddr]
    rcases h.window with hnone | hsome
    · rw [hnone] at hw
      simp at hw
    · rw [hsome, Option.some.injEq] at hw
      exact .inr ⟨i, by rw [hw]⟩

/-- The frames of the other processes are not mapped. -/
lemma OwnPages.unmapped (h : OwnPages s D W) (hs : SchedOk s Q) (hf : FramesOk s)
    (ht : TableIs E.codeMemory.pagusrTable s.mm D W) {u : Slot} (hu : s.Live u) (hne : u ≠ s.cur)
    (i : Fin numPagData) : s.mm.Unmapped (frameNat ((s.task u).phPages i)) := by
  intro page _ hp heq
  rcases h.present_cases ht hp with hres | ⟨j, hj⟩
  · exact hf.not_reserved hu i (heq ▸ hres)
  · rw [heq] at hj
    exact hf.frameNat_ne hu hs.cur_live (fun h => hne h.1) hj

/-- A process keeps to itself while its own pages are mapped. -/
lemma OwnPages.isolated (h : OwnPages s D W) (hs : SchedOk s Q) (hf : FramesOk s)
    (ht : TableIs E.codeMemory.pagusrTable s.mm D W) : s.Isolated := by
  intro page hlt hp _
  refine ⟨fun u hu hne i heq => ?_, ?_⟩
  · refine h.unmapped hs hf ht hu hne i page hlt hp ?_
    have hfr := (hf.frameNat_eq hu i).trans heq
    exact_mod_cast hfr.symm
  · rcases h.present_cases ht hp with hres | ⟨i, hi⟩
    · rw [hf.reserved _ hres]
      decide
    · obtain ⟨g, hg, hglt, -, hused⟩ := hf.valid s.cur hs.cur_live i
      rw [hi, Kernel.current, hg, frameNat_natCast hglt, hused]
      decide

/-! ## Changes of process -/

/-- A process that is there before and after a step keeps its frames. -/
lemma Turn.pages_eq {act : Action} {x y : Config} (h : Turn act x y) {u : Slot} (hx : x.1.Live u)
    (hy : y.1.Live u) : (y.1.task u).phPages = (x.1.task u).phPages := by
  rcases h with hc | ⟨z, hc, hh⟩
  · exact (hc.pages hx).2
  · exact (hh.pages hy).2.trans (hc.pages hx).2

/-- The process that runs before and after a step keeps its frames. -/
lemma Turn.current_pages {act : Action} {Q' : Node → List Slot} (h : Turn act (s, Q) (t, Q'))
    (hs : SchedOk s Q) (hs' : SchedOk t Q') (hcur : t.cur = s.cur) :
    t.current.phPages = s.current.phPages := by
  rw [Kernel.current, Kernel.current, ← hcur]
  refine h.pages_eq ?_ hs'.cur_live
  rw [hcur]
  exact hs.cur_live

/-- When `sys_exit` ends the running process, another one runs with its data pages mapped, and the
window is the one of the call: it maps nothing, or the frames of a process that has ended or
waits. -/
lemma SystemOk.exit_table {T : ℕ → PageTableEntry} {cause : ExitCause} {s₁ : Kernel}
    (hs : SystemOk s Q) (hf : FramesOk s) (ht : TableIs T s.mm D W) (hg : s.ExitsFindTwo e)
    (hd : s.dispatch e = .exits cause s₁) (hst : s.step e = .ok t) (hpid : s₁.current.pid ≠ 0) :
    SameSched s s₁ ∧ t.cur ≠ s.cur ∧
    ∃ W', TableIs T s₁.mm D W' ∧ TableIs T t.mm t.current.phPages W' ∧
      (W' = W ∨ ∃ b, (b = s.cur ∨ b ∈ s.keyboardQueue) ∧ W' = some (s.task b).phPages) := by
  obtain ⟨hsame, W', ht₁, hW⟩ := hs.sched.exits_pages hf ht hd
  have heff := hs.sched.dispatch_effects e
  rw [hd] at heff
  obtain ⟨Q₁, hc⟩ := heff
  have hs₁ := hc.systemOk hs
  have h0 : s₁.cur ≠ 0 := fun h0 => hpid (hs₁.sched.current_pid_eq_zero_iff.mpr h0)
  obtain ⟨u, Q', hu, -, hrel, hcalm, hok, -, -, ⟨-, v, rest, -, hsw, hh⟩ | ⟨hlen, -⟩⟩ :=
    hs₁.sysExit_cases h0
  · rw [Kernel.step, hd] at hst
    simp only [hsw, Kernel.afterExit, Except.ok.injEq] at hst
    have hfu : FramesOk u := Calm.frames (hcalm .clock) (hc.frames hf)
    have htu : TableIs T u.mm D W' := ht₁.congr (by rw [hrel.mm])
    have hcur := (hh .clock).cur_ne hok.sched
    have htable := (hh .clock).table hok.sched hfu htu
    simp only [hst] at hcur htable
    refine ⟨hsame, ?_, W', ht₁, htable, ?_⟩
    · rw [hrel.cur, hsame.cur] at hcur
      exact hcur
    · rw [hs.sched.keyboardQueue_eq]
      exact hW
  · have := hg cause s₁ u hd hpid hu
    omega

/-- `sys_exit` of task 0 does nothing. -/
lemma Kernel.quiet_exit_of_task0 {cause : ExitCause} {s₁ : Kernel} {eax : ℤ}
    (hact : e.act = .exit eax) (hd : s.dispatch e = .exits cause s₁) (hpid : s₁.current.pid = 0)
    (hst : s.step e = .ok t) : Quiet s t := by
  obtain ⟨regs, act⟩ := e
  subst hact
  have hexit : s₁.sysExit = .ret () s₁ := by
    rw [Kernel.sysExit, if_neg (not_not.mpr hpid)]
  rw [Kernel.step, hd] at hst
  rw [Kernel.dispatch, Phase.exits.injEq] at hd
  obtain ⟨rfl, rfl⟩ := hd
  simp only [hexit, Kernel.afterExit, Except.ok.injEq] at hst
  subst hst
  exact (s.quiet_enter regs).trans (Kernel.quiet_setEax _ eax)

/-- The state in which the pages are the process's own. -/
def OwnTable (E : Env) (s : Kernel) : Prop :=
  ∃ Q D W, SystemOk s Q ∧ FramesOk s ∧ TableIs E.codeMemory.pagusrTable s.mm D W ∧ OwnPages s D W

lemma OwnTable.isolated (h : OwnTable E s) : s.Isolated := by
  obtain ⟨Q, D, W, hs, hf, ht, hown⟩ := h
  exact hown.isolated hs.sched hf ht

/-- A step that hands over with the window clear. -/
lemma OwnTable.step (h : OwnTable E s) (hg : s.ExitsFindTwo e) (hclear : s.HandsOverClear e)
    (hst : s.step e = .ok t) : OwnTable E t := by
  obtain ⟨Q, D, W, hs, hf, ht, hown⟩ := h
  obtain ⟨Q', hturn⟩ := (hs.step_effects e hg).1 t hst
  have hs' := hturn.systemOk hs
  have hf' := hturn.frames hs.sched hf
  have hstay : t.cur = s.cur → t.current.phPages = s.current.phPages :=
    hturn.current_pages hs.sched hs'.sched
  cases hd : s.dispatch e with
  | done u =>
    rw [Kernel.step_of_done hd, Except.ok.injEq] at hst
    subst hst
    rcases hs.sched.done_pages hf ht hd with ⟨hcur, W', ht', hW⟩ | ⟨hcur, ht'⟩
    · refine ⟨Q', D, W', hs', hf', ht', ?_, ?_⟩
      · rw [hstay hcur]
        exact hown.data
      · rw [hstay hcur]
        rcases hW with rfl | rfl | rfl
        · exact hown.window
        · exact .inl rfl
        · exact .inr rfl
    · have hnone := ht.window.clear_iff.mp (hclear.1 u hd hcur)
      exact ⟨Q', _, W, hs', hf', ht', .inl rfl, .inl hnone⟩
  | exits cause s₁ =>
    by_cases hpid : s₁.current.pid = 0
    · -- task 0 goes on
      rcases Kernel.exits_cases hd with ⟨eax, hact, -⟩ | hno
      · have hq := Kernel.quiet_exit_of_task0 hact hd hpid hst
        refine ⟨Q', D, W, hs', hf', ht.congr hq.mm.table, ?_, ?_⟩
        · rw [hstay hq.sched.cur]
          exact hown.data
        · rw [hstay hq.sched.cur]
          exact hown.window
      · exact absurd hpid hno
    · obtain ⟨-, -, W', ht₁, ht', -⟩ := hs.exit_table hf ht hg hd hst hpid
      have hnone := ht₁.window.clear_iff.mp (hclear.2 cause s₁ hd hpid)
      exact ⟨Q', _, W', hs', hf', ht', .inl rfl, .inl hnone⟩
  | stop r =>
    rw [Kernel.step, hd] at hst
    simp at hst

/-- Only the keyboard leaves frames in the window. -/
lemma OwnTable.windowClear (h : OwnTable E s) (hg : s.ExitsFindTwo e) (hkbd : ¬ e.act.OnKeyboard)
    (hclear : s.mm.WindowClear) (hst : s.step e = .ok t) : t.mm.WindowClear := by
  obtain ⟨Q, D, W, hs, hf, ht, -⟩ := h
  obtain rfl := ht.window.clear_iff.mp hclear
  obtain ⟨Q', hturn⟩ := (hs.step_effects e hg).1 t hst
  have hnone : ∀ {v : Kernel} {W' : Option (Fin numPagData → ℤ)},
      WindowAfter e.act v none W' → W' = none := by
    rintro v W' (hw | ⟨-, hw⟩ | ⟨hact, -⟩)
    · exact hw
    · exact hw
    · exact absurd hact hkbd
  rcases hturn with hc | ⟨z, hc, hh⟩
  · obtain ⟨W', ht', hw⟩ := hc.table hs.sched ht
    exact ht'.window.clear_iff.mpr (hnone hw)
  · obtain ⟨W', ht', hw⟩ := hc.table hs.sched ht
    have ht'' := hh.table (Calms.schedOk hc hs.sched) (hc.frames hf) ht'
    exact ht''.window.clear_iff.mpr (hnone hw)

/-- The window on the frames of another live process, or on frames that are free. -/
lemma not_isolated_of_window {w : Fin numPagData → ℤ} {T : ℕ → PageTableEntry}
    (ht : TableIs T t.mm D (some w)) (hbad : (∃ u, t.Live u ∧ u ≠ t.cur ∧ FramesOk t ∧
      w = (t.task u).phPages) ∨ t.mm.physMem (frameNat (w 0)) = .free) : ¬ t.Isolated := by
  intro hiso
  have hentry : t.mm.pagusrTable windowPage = ssEntry (w 0) := ht.window 0
  have h := hiso windowPage (by decide) (by rw [hentry]; rfl) (by rw [hentry]; rfl)
  rw [hentry, ssEntry_pbaseAddr] at h
  rcases hbad with ⟨u, hu, hne, hf, rfl⟩ | hfree
  · exact h.1 u hu hne 0 (hf.frameNat_eq hu 0).symm
  · exact h.2 hfree

/-- A step that hands over with the window in use. -/
lemma OwnTable.not_isolated (h : OwnTable E s) (hg : s.ExitsFindTwo e)
    (hno : ¬ s.HandsOverClear e) (hst : s.step e = .ok t) : ¬ t.Isolated := by
  obtain ⟨Q, D, W, hs, hf, ht, hown⟩ := h
  obtain ⟨Q', hturn⟩ := (hs.step_effects e hg).1 t hst
  have hs' := hturn.systemOk hs
  have hf' := hturn.frames hs.sched hf
  cases hd : s.dispatch e with
  | done u =>
    rw [Kernel.step_of_done hd, Except.ok.injEq] at hst
    subst hst
    -- the process that ran goes on living, and the window maps its frames
    obtain ⟨hcur, hused⟩ : u.cur ≠ s.cur ∧ ¬ s.mm.WindowClear := by
      by_contra hcon
      refine hno ⟨fun t' hd' hcur => ?_, fun cause s₁ hd' => ?_⟩
      · rw [hd, Phase.done.injEq] at hd'
        subst hd'
        by_contra hused
        exact hcon ⟨hcur, hused⟩
      · rw [hd] at hd'
        simp at hd'
    have hW : W = some s.current.phPages :=
      hown.window.resolve_left fun hnone => hused (ht.window.clear_iff.mpr hnone)
    rcases hs.sched.done_pages hf ht hd with ⟨hcur', -⟩ | ⟨-, ht'⟩
    · exact absurd hcur' hcur
    have hlive : u.Live s.cur := by
      have heff := hs.sched.dispatch_effects e
      rw [hd] at heff
      obtain ⟨Q'', hc | ⟨z, hc, -, hl, -⟩⟩ := heff
      · exact absurd hc.cur_eq hcur
      · have hz : z.1.cur = s.cur := hc.cur_eq
        rwa [hz] at hl
    rw [hW] at ht'
    refine not_isolated_of_window ht' (.inl ⟨s.cur, hlive, Ne.symm hcur, hf', ?_⟩)
    exact (hturn.pages_eq hs.sched.cur_live hlive).symm
  | exits cause s₁ =>
    obtain ⟨hpid, hused⟩ : s₁.current.pid ≠ 0 ∧ ¬ s₁.mm.WindowClear := by
      by_contra hcon
      refine hno ⟨fun t' hd' => ?_, fun cause' s₁' hd' hpid => ?_⟩
      · rw [hd] at hd'
        simp at hd'
      · rw [hd, Phase.exits.injEq] at hd'
        obtain ⟨rfl, rfl⟩ := hd'
        by_contra hused
        exact hcon ⟨hpid, hused⟩
    obtain ⟨hsame, hcur, W', ht₁, ht', hW⟩ := hs.exit_table hf ht hg hd hst hpid
    have hW' : ∃ b, (b = s.cur ∨ b ∈ s.keyboardQueue) ∧ W' = some (s.task b).phPages := by
      rcases hW with hW | hW
      · rcases hown.window with hnone | hsome
        · exact absurd (ht₁.window.clear_iff.mpr (hW.trans hnone)) hused
        · exact ⟨s.cur, .inl rfl, hW.trans hsome⟩
      · exact hW
    obtain ⟨b, hb, rfl⟩ := hW'
    rcases hb with rfl | hb
    · -- the process has ended, and its frames are free
      refine not_isolated_of_window ht' (.inr ?_)
      obtain ⟨t', hst', hphys⟩ := hs.exit_frames hf hg hd
      rw [hst, Except.ok.injEq] at hst'
      subst hst'
      rw [hphys, if_pos]
      refine ⟨?_, 0, (hf.frameNat_eq hs.sched.cur_live 0).symm⟩
      rwa [Kernel.current, hsame.cur, hsame.pid] at hpid
    · -- the process waits for the keyboard
      have hqueue : t.keyboardQueue = s.keyboardQueue := by
        rw [(Kernel.sameKeyboard_of_exits hs hg hd hst).queue]
        exact congrArg (fun L => Kernel.queue { s with links := L } .keyboardQueue) hsame.links
      have hb' := hb
      rw [← hqueue] at hb'
      obtain ⟨hne, hlive⟩ := Kernel.reader_ne_cur hs'.sched hb'
      refine not_isolated_of_window ht' (.inl ⟨b, hlive, hne, hf', ?_⟩)
      exact (hturn.pages_eq (Kernel.reader_ne_cur hs.sched hb).2 hlive).symm
  | stop r =>
    rw [Kernel.step, hd] at hst
    simp at hst

end

lemma Kernel.handsOverClear_of_stays {s t : Kernel} {e : Event} (hd : s.dispatch e = .done t)
    (hcur : t.cur = s.cur) : s.HandsOverClear e := by
  refine ⟨fun t' hd' hne => ?_, fun cause s₁ hd' => ?_⟩
  · rw [hd, Phase.done.injEq] at hd'
    subst hd'
    exact absurd hcur hne
  · rw [hd] at hd'
    simp at hd'

lemma Kernel.handsOverClear_of_clock {s : Kernel} {e : Event} (hact : e.act = .clock)
    (hclear : s.mm.WindowClear) : s.HandsOverClear e :=
  ⟨fun _ _ _ => hclear, fun cause s₁ hd => absurd hd (Kernel.clock_ne_exits hact cause s₁)⟩

/-- A step that comes to no call of `sys_exit`. -/
lemma Kernel.dispatch_of_step {s t : Kernel} {e : Event} (h : s.step e = .ok t)
    (hno : ∀ cause s₁, s.dispatch e ≠ .exits cause s₁) : s.dispatch e = .done t := by
  rw [Kernel.step] at h
  cases hd : s.dispatch e with
  | done u =>
    rw [hd, Except.ok.injEq] at h
    rw [h]
  | exits cause s₁ => exact absurd hd (hno cause s₁)
  | stop r =>
    rw [hd] at h
    simp at h

lemma Env.boot_ownTable (E : Env) : OwnTable E E.boot :=
  ⟨_, _, _, E.boot_systemOk, E.boot_framesOk, E.boot_tableIs, .inr rfl, .inl rfl⟩

/-- **Address-space isolation** holds in every state of a run just when the window is clear at
every change of process. -/
theorem isolated_iff {E : Env} {es : List Event} {t : Kernel} (h : ExitRun E.boot es t) :
    (∀ pre s, pre <+: es → ExitRun E.boot pre s → s.Isolated) ↔
      Run Kernel.step (fun s e => s.ExitsFindTwo e ∧ s.HandsOverClear e) E.boot es t := by
  exact h.forall_prefix_iff (fun s hs => hs.isolated)
    (fun s e t hs hg hclear hst => hs.step hg hclear hst)
    (fun s e t hs hg hno hst => hs.not_isolated hg hno hst) E.boot_ownTable

theorem isolated_iff_after_fork :
    ∃ s, ExitRun linkedEnv.boot [plain .fork] s ∧ s.Live 1 ∧ s.Isolated := by
  obtain ⟨s, hrun, hs, -, -⟩ := linkedEnv.boot_fork
  obtain ⟨s', hg, hst, hnil⟩ := run_cons_iff.mp hrun
  obtain rfl : s' = s := run_nil_iff.mp hnil
  have hd : linkedEnv.boot.dispatch (plain .fork) = .done s' :=
    Kernel.dispatch_of_step hst fun cause s₁ hd => Kernel.ne_fork_of_exits hd rfl
  have hcur : s'.cur = 0 := by
    have h := hs.sched.head
    rw [Function.update_self] at h
    simpa using h.symm
  have hclear : linkedEnv.boot.HandsOverClear (plain .fork) := Kernel.handsOverClear_of_stays hd hcur
  refine ⟨s', hrun, ?_, ?_⟩
  · rw [hs.sched.live_iff]
    exact ⟨.runqueue, by simp⟩
  · exact (isolated_iff hrun).mpr (.cons ⟨hg, hclear⟩ hst (.nil s')) _ s' (List.prefix_refl _) hrun

/-! ## A window that is left behind -/

lemma OwnTable.of_quiet {E : Env} {s t : Kernel} (h : OwnTable E s) (hq : Quiet s t) : OwnTable E t := by
  obtain ⟨Q, D, W, hs, hf, ht, hown⟩ := h
  have hph : t.current.phPages = s.current.phPages := by
    rw [Kernel.current, hq.sched.cur, hq.sched.pages]
  refine ⟨Q, D, W, ⟨hs.sched.congr hq.sched, hs.owned.ofSameSched hq.sched⟩,
    hf.ofSameSched hq.sched hq.mm.physMem, ht.congr hq.mm.table, ?_, ?_⟩
  · rw [hph]
    exact hown.data
  · rw [hph]
    exact hown.window

/-- A read of no characters, with nobody waiting, leaves the window on the frames of the running
process. -/
lemma SystemOk.readNothing {s : Kernel} {Q : Node → List Slot} (hs : SystemOk s Q)
    (hQ : Q .keyboardQueue = []) (hcirc : 0 ≤ s.kbd.circChars) {fd : ℤ} {buffer : ℕ}
    (hread : s.ReadsKeyboard fd buffer 0) :
    ∃ t, s.dispatch (plain (.read fd buffer 0)) = .done t ∧ SystemOk t Q ∧ t.cur = s.cur ∧
      t.left4current = s.left4current ∧ ¬ t.mm.WindowClear := by
  have hread' := (s.readsKeyboard_enter (fun _ => 0) fd buffer 0).mpr hread
  set u := (((s.enter fun _ => 0).updTask (s.enter fun _ => 0).cur fun k =>
    { k with size := 0, buffer := buffer }).setPending 0) with hu
  have hq : Quiet s u := (s.quiet_enter _).trans
    (Quiet.trans (.updTask _ _ _ rfl rfl rfl) (Kernel.quiet_setPending _ 0))
  have hok := hs.sched.congr hq.sched
  have hnow : u.current.pendingChars ≤ 0 ∧ u.links.listEmpty .keyboardQueue = true := by
    constructor
    · rw [hu, Kernel.setPending_pendingChars, if_neg]
      show ¬ 0 > s.kbd.circChars
      omega
    · rw [(hok.pool.ring .keyboardQueue trivial).listEmpty_iff, hQ]
      rfl
  rcases u.copyFromCircBuffer_cases u.cur 0 with ⟨hover, -⟩ | ⟨-, mm, ⟨-, hc⟩ | ⟨hc, -⟩⟩
  · exact absurd hover (by decide)
  · set v := { u with
      mm := mm.setSsPags windowPage u.current.phPages (List.finRange numPagData) } with hv
    have hret : (s.enter fun _ => 0).sysRead fd buffer 0 = .ret 0 (v.consume 0) := by
      rw [hread'.sysRead_eq, Kernel.sysReadKeyboard, ← hu, if_pos hnow, hc]
    have hend : SameSched u (v.consume 0) := .other rfl rfl rfl rfl rfl
    have hsame : SameSched s ((v.consume 0).setEax 0) :=
      hq.sched.trans (hend.trans (Kernel.quiet_setEax _ 0).sched)
    refine ⟨(v.consume 0).setEax 0, ?_, ⟨hs.sched.congr hsame, hs.owned.ofSameSched hsame⟩,
      hsame.cur, rfl, fun hclear => ?_⟩
    · show Kernel.finish ((s.enter fun _ => 0).sysRead fd buffer 0) = _
      rw [hret]
      rfl
    · have h0 : v.mm.pagusrTable (windowPage + (0 : Fin numPagData).val) =
          ssEntry (u.current.phPages 0) := setSsPags_table_mem (List.mem_finRange 0)
      have hp : (v.mm.pagusrTable (windowPage + (0 : Fin numPagData).val)).present = false := hclear 0
      rw [h0] at hp
      simp [ssEntry] at hp
  · simp [Kernel.circBytes, Memory.copyToUser, Memory.copyBytes] at hc

/-- Task 0 forks, reads no characters from the keyboard, and is preempted: its child can reach its
frames. -/
def windowLeft : List Event :=
  [plain .fork, plain (.read 0 userData 0)] ++ List.replicate 60 (plain .clock)

theorem not_isolated_after_read :
    ∃ s, ExitRun linkedEnv.boot windowLeft s ∧ s.cur = 1 ∧ s.Live 0 ∧ ¬ s.Isolated := by
  obtain ⟨s₁, hrun₁, hs₁, hleft₁, -⟩ := linkedEnv.boot_fork
  obtain ⟨s₁', hg₁, hst₁, hnil⟩ := run_cons_iff.mp hrun₁
  obtain rfl : s₁' = s₁ := run_nil_iff.mp hnil
  have hQ : Function.update Env.bootQueues .runqueue [0, 1] .runqueue = [0, 1] :=
    Function.update_self ..
  have hcur₁ : s₁'.cur = 0 := by
    have h := hs₁.sched.head
    rw [hQ] at h
    simpa using h.symm
  -- the read
  have hstd := (linkedEnv.boot_fork_hasStdin hst₁).1
  rw [← hcur₁] at hstd
  have hread : s₁'.ReadsKeyboard 0 userData 0 := hstd.readsKeyboard le_rfl (by decide)
    (linkedEnv_accessOk (n := 0) hrun₁ (by decide) (by decide))
  have hkbd : s₁'.kbd = linkedEnv.boot.kbd :=
    (Kernel.sameKeyboard_step linkedEnv.boot_systemOk hg₁ (fun h => h) hst₁).kbd
  have hcirc : 0 ≤ s₁'.kbd.circChars := by
    rw [hkbd]
    decide
  obtain ⟨s₂, hd₂, hs₂, hcur₂, hleft₂, hwin₂⟩ := hs₁.readNothing rfl hcirc hread
  -- the ticks
  obtain ⟨s₃, hrun₃, hq₃, hleft₃⟩ := Kernel.ticks (n := 59) (s := s₂) (by omega)
  have hs₃ : SystemOk s₃ _ := ⟨hs₂.sched.congr hq₃.sched, hs₂.owned.ofSameSched hq₃.sched⟩
  obtain ⟨s₄, hrun₄, hs₄, hcur₄, -⟩ := hs₃.lastTick (by omega) hQ
  obtain ⟨s₄', hg₄, hst₄, hnil⟩ := run_cons_iff.mp hrun₄
  obtain rfl : s₄' = s₄ := run_nil_iff.mp hnil
  have hcur₃ : s₃.cur = 0 := hq₃.sched.cur.trans (hcur₂.trans hcur₁)
  have hd₁ : linkedEnv.boot.dispatch (plain .fork) = .done s₁' :=
    Kernel.dispatch_of_step hst₁ fun cause s₁ hd => Kernel.ne_fork_of_exits hd rfl
  have hown₁ : OwnTable linkedEnv s₁' :=
    linkedEnv.boot_ownTable.step hg₁ (Kernel.handsOverClear_of_stays hd₁ hcur₁) hst₁
  have hown₂ : OwnTable linkedEnv s₂ := hown₁.step (Kernel.exitsFindTwo_of_done hd₂)
    (Kernel.handsOverClear_of_stays hd₂ hcur₂) (Kernel.step_of_done hd₂)
  refine ⟨s₄', ?_, hcur₄, ?_, (hown₂.of_quiet hq₃).not_isolated hg₄ (fun hclear => ?_) hst₄⟩
  · have hlist : windowLeft = [plain .fork] ++ ([plain (.read 0 userData 0)] ++
        (List.replicate 59 (plain .clock) ++ [plain .clock])) := by
      rw [← List.replicate_succ']
      rfl
    have hrun₂ : ExitRun s₁' [plain (.read 0 userData 0)] s₂ :=
      .cons (Kernel.exitsFindTwo_of_done hd₂) (Kernel.step_of_done hd₂) (.nil s₂)
    rw [hlist]
    exact run_append_iff.mpr ⟨s₁', hrun₁, run_append_iff.mpr ⟨s₂, hrun₂,
      run_append_iff.mpr ⟨s₃, hrun₃, hrun₄⟩⟩⟩
  · rw [hs₄.sched.live_iff]
    exact ⟨.runqueue, by simp [Pool.moved_apply]⟩
  · have hd₄ := Kernel.dispatch_of_step hst₄ (Kernel.clock_ne_exits rfl)
    have hne : s₄'.cur ≠ s₃.cur := by
      rw [hcur₄, hcur₃]
      decide
    refine hwin₂ fun i => ?_
    rw [← hq₃.mm.table]
    exact hclear.1 s₄' hd₄ hne i

end ZeOS
