import ZeOS.Isolation
import ZeOS.RoundRobin

/-!
# The memory of a process

A process finds the bytes it left at its data addresses when it runs again, because `task_switch`
maps the data pages to the frames of the process that it switches to, and nothing else writes to
those frames in between but the delivery of keyboard input.

Task 0 is the exception.  `set_user_pages` maps the data pages to one set of frames and
`init_task0` gives task 0 another, so that the first process runs in frames that are not its own
until it has been switched to; `DataMapped` holds from the first change of process on, and not
before (`memory_kept`).
-/

namespace ZeOS

open IntrusiveList Relation Memory GuardedRun

namespace Kernel

/-- The data pages are present, user and writable, and map the frames of the running process. -/
def DataMapped (s : Kernel) : Prop :=
  ∀ i : Fin numPagData, (s.mm.pagusrTable (pagLogInitDataP0 + i.val)).present = true ∧
    (s.mm.pagusrTable (pagLogInitDataP0 + i.val)).user = true ∧
    (s.mm.pagusrTable (pagLogInitDataP0 + i.val)).rw = true ∧
    ((s.mm.pagusrTable (pagLogInitDataP0 + i.val)).pbaseAddr : ℤ) = s.current.phPages i

end Kernel

section

variable {E : Env} {T : ℕ → PageTableEntry} {s t : Kernel} {e : Event} {Q : Node → List Slot}
  {D : Fin numPagData → ℤ} {W : Option (Fin numPagData → ℤ)}

lemma dataMapped_iff (ht : TableIs T s.mm D W) :
    s.DataMapped ↔ ∀ i, (frameNat (D i) : ℤ) = s.current.phPages i := by
  refine forall_congr' fun i => ?_
  rw [ht.data i, ssEntry_pbaseAddr]
  simp [ssEntry]

/-- A step maps the data pages to the frames of the process that runs after it, when that is
another process, and leaves them otherwise. -/
lemma SystemOk.step_table (hs : SystemOk s Q) (hf : FramesOk s) (ht : TableIs T s.mm D W)
    (hg : s.ExitsFindTwo e) (hst : s.step e = .ok t) :
    (t.cur = s.cur ∧ ∃ W', TableIs T t.mm D W') ∨
      (t.cur ≠ s.cur ∧ ∃ W', TableIs T t.mm t.current.phPages W') := by
  cases hd : s.dispatch e with
  | done u =>
    rw [Kernel.step_of_done hd, Except.ok.injEq] at hst
    subst hst
    rcases hs.sched.done_pages hf ht hd with ⟨hcur, W', ht', -⟩ | ⟨hcur, ht'⟩
    · exact .inl ⟨hcur, W', ht'⟩
    · exact .inr ⟨hcur, W, ht'⟩
  | exits cause s₁ =>
    by_cases hpid : s₁.current.pid = 0
    · rcases Kernel.exits_cases hd with ⟨eax, hact, -⟩ | hno
      · have hq := Kernel.quiet_exit_of_task0 hact hd hpid hst
        exact .inl ⟨hq.sched.cur, W, ht.congr hq.mm.table⟩
      · exact absurd hpid hno
    · obtain ⟨-, hcur, W', -, ht', -⟩ := hs.exit_table hf ht hg hd hst hpid
      exact .inr ⟨hcur, W', ht'⟩
  | stop r =>
    rw [Kernel.step, hd] at hst
    simp at hst

/-- The data pages map the frames of the running process. -/
def OwnData (E : Env) (s : Kernel) : Prop :=
  ∃ Q W, SystemOk s Q ∧ FramesOk s ∧ TableIs E.codeMemory.pagusrTable s.mm s.current.phPages W

/-- Task 0 runs, in the frames of the start. -/
def StartData (E : Env) (s : Kernel) : Prop :=
  s.cur = 0 ∧ ∃ Q W, SystemOk s Q ∧ FramesOk s ∧ TableIs E.codeMemory.pagusrTable s.mm startFrames W

lemma OwnData.dataMapped (h : OwnData E s) : s.DataMapped := by
  obtain ⟨Q, W, hs, hf, ht⟩ := h
  rw [dataMapped_iff ht]
  exact fun i => hf.frameNat_eq hs.sched.cur_live i

lemma OwnData.step (h : OwnData E s) (hg : s.ExitsFindTwo e) (hst : s.step e = .ok t) :
    OwnData E t := by
  obtain ⟨Q, W, hs, hf, ht⟩ := h
  obtain ⟨Q', hturn⟩ := (hs.step_effects e hg).1 t hst
  have hs' := hturn.systemOk hs
  have hf' := hturn.frames hs.sched hf
  rcases hs.step_table hf ht hg hst with ⟨hcur, W', ht'⟩ | ⟨-, W', ht'⟩
  · refine ⟨Q', W', hs', hf', ?_⟩
    rw [hturn.current_pages hs.sched hs'.sched hcur]
    exact ht'
  · exact ⟨Q', W', hs', hf', ht'⟩

lemma StartData.not_dataMapped (h : StartData E s) : ¬ s.DataMapped := by
  obtain ⟨hcur, Q, W, hs, hf, ht⟩ := h
  rw [dataMapped_iff ht]
  intro hmap
  refine hf.not_reserved hs.sched.cur_live 0 ?_
  have h0 := hmap 0
  rw [← hf.frameNat_eq hs.sched.cur_live 0] at h0
  have hnat : frameNat (startFrames 0) = frameNat (s.current.phPages 0) := by exact_mod_cast h0
  exact hnat ▸ reserved_startFrames 0

lemma StartData.step (h : StartData E s) (hg : s.ExitsFindTwo e) (hst : s.step e = .ok t) :
    StartData E t ∨ (t.cur ≠ 0 ∧ OwnData E t) := by
  obtain ⟨hcur, Q, W, hs, hf, ht⟩ := h
  obtain ⟨Q', hturn⟩ := (hs.step_effects e hg).1 t hst
  have hs' := hturn.systemOk hs
  have hf' := hturn.frames hs.sched hf
  rcases hs.step_table hf ht hg hst with ⟨hcur', W', ht'⟩ | ⟨hcur', W', ht'⟩
  · exact .inl ⟨hcur'.trans hcur, Q', W', hs', hf', ht'⟩
  · exact .inr ⟨hcur ▸ hcur', Q', W', hs', hf', ht'⟩

/-- From the start on, the pages are the process's own just when another process has run. -/
lemma StartData.dataMapped_iff {es : List Event} :
    ∀ {s : Kernel}, StartData E s → ExitRun s es t →
      (t.DataMapped ↔ ∃ pre u, pre <+: es ∧ ExitRun s pre u ∧ u.cur ≠ 0) := by
  induction es with
  | nil =>
    intro s hstart hrun
    obtain rfl : s = t := run_nil_iff.mp hrun
    refine iff_of_false hstart.not_dataMapped ?_
    rintro ⟨pre, u, hpre, hrun', hu⟩
    rw [List.prefix_nil] at hpre
    subst hpre
    obtain rfl : s = u := run_nil_iff.mp hrun'
    exact hu hstart.1
  | cons e es ih =>
    intro s hstart hrun
    obtain ⟨s', hg, hst, hrest⟩ := run_cons_iff.mp hrun
    rcases hstart.step hg hst with hstart' | ⟨hcur', hown⟩
    · rw [ih hstart' hrest]
      constructor
      · rintro ⟨pre, u, hpre, hrun', hu⟩
        exact ⟨e :: pre, u, List.cons_prefix_cons.mpr ⟨rfl, hpre⟩, .cons hg hst hrun', hu⟩
      · rintro ⟨pre, u, hpre, hrun', hu⟩
        cases pre with
        | nil =>
          obtain rfl : s = u := run_nil_iff.mp hrun'
          exact absurd hstart.1 hu
        | cons e' pre =>
          obtain ⟨rfl, hpre'⟩ := List.cons_prefix_cons.mp hpre
          obtain ⟨s'', -, hst', hrun''⟩ := run_cons_iff.mp hrun'
          rw [hst, Except.ok.injEq] at hst'
          exact ⟨pre, u, hpre', hst' ▸ hrun'', hu⟩
    · have hend : OwnData E t := hrest.invariant (fun _ _ _ hs hg hst => hs.step hg hst) hown
      refine iff_of_true hend.dataMapped ⟨[e], s', ?_, .cons hg hst (.nil s'), hcur'⟩
      exact List.prefix_append [e] es

end

/-! ## Frames that no page is mapped to -/

/-- A frame that no page is mapped to stays so, and keeps its bytes. -/
def Memory.SparesFrame (f : ℕ) (m n : Memory) : Prop :=
  m.Unmapped f → n.Unmapped f ∧ n.frame f = m.frame f

namespace Memory

variable {f : ℕ} {m n o : Memory}

lemma SparesFrame.trans (h : SparesFrame f m n) (h' : SparesFrame f n o) : SparesFrame f m o := by
  intro hm
  obtain ⟨hn, hframe⟩ := h hm
  obtain ⟨ho, hframe'⟩ := h' hn
  exact ⟨ho, hframe'.trans hframe⟩

lemma SparesFrame.of_same (htable : n.pagusrTable = m.pagusrTable) (hframe : n.frame = m.frame) :
    SparesFrame f m n := by
  intro hm
  refine ⟨?_, by rw [hframe]⟩
  rw [Unmapped, htable]
  exact hm

lemma SparesFrame.of_samePages (h : SamePages m n) : SparesFrame f m n :=
  fun hm => ⟨(h.unmapped_iff f).mpr hm, h.unmapped f hm⟩

lemma spares_setSsPags {base : ℕ} {ph : Fin numPagData → ℤ} {is : List (Fin numPagData)}
    (h : ∀ i, frameNat (ph i) ≠ f) : SparesFrame f m (m.setSsPags base ph is) := by
  intro hm
  refine ⟨fun page hlt hp => ?_, by rw [setSsPags_frame]⟩
  by_cases hpage : ∃ i ∈ is, page = base + i.val
  · obtain ⟨i, hi, rfl⟩ := hpage
    rw [setSsPags_table_mem hi, ssEntry_pbaseAddr]
    exact h i
  · have hsame : (m.setSsPags base ph is).pagusrTable page = m.pagusrTable page :=
      setSsPags_table_of_ne fun i hi heq => hpage ⟨i, hi, heq⟩
    rw [hsame] at hp ⊢
    exact hm page hlt hp

lemma spares_copyDataPages {frames : Fin numPagData → ℤ} (h : ∀ i, f ≠ frameNat (frames i)) :
    SparesFrame f m (m.copyDataPages frames) := by
  intro hm
  refine ⟨fun page hlt hp => ?_, copyDataPages_frame_of_ne h⟩
  rw [copyDataPages_table] at hp ⊢
  split_ifs at hp ⊢ with hpage
  · simp [noEntry] at hp
  · exact hm page hlt hp

end Memory

/-- A delivery to another process spares the frame. -/
lemma Kernel.copyFromCircBuffer_spares {s : Kernel} {b : Slot} {f : ℕ}
    (hb : ∀ i, frameNat ((s.task b).phPages i) ≠ f)
    (hcur : ∀ i, frameNat (s.current.phPages i) ≠ f) (size : ℤ) :
    (s.copyFromCircBuffer b size).Leaves fun t => SparesFrame f s.mm t.mm := by
  have hwin : SparesFrame f s.mm (s.windowOf b) := spares_setSsPags hb
  have hcopy := samePages_copyToUser (s.windowOf b) ((s.task b).buffer + numPagData * pageSize)
    (circBytes s.kbd size.toNat)
  rcases s.copyFromCircBuffer_cases b size with ⟨-, h⟩ | ⟨-, mm, ⟨hc, h⟩ | ⟨hc, h⟩⟩
  · rw [h]
    trivial
  · rw [hc] at hcopy
    rw [h]
    exact hwin.trans ((SparesFrame.of_samePages hcopy).trans (spares_setSsPags hcur))
  · rw [hc] at hcopy
    rw [h]
    exact hwin.trans (.of_samePages hcopy)

section

variable {s t : Kernel} {e : Event} {Q : Node → List Slot} {u : Slot}

/-- The frames of a child were free, and the ones of a process are in use. -/
lemma FramesOk.spares_forked (hf : FramesOk s) (hu : s.Live u) (i : Fin numPagData) {fs : List ℕ}
    (hlen : fs.length = numPagData)
    (hfree : ∀ f ∈ fs, numPagKernel ≤ f ∧ f < totalPages ∧ s.mm.physMem f = .free) :
    SparesFrame (frameNat ((s.task u).phPages i)) s.mm
      ((s.mm.mark fs .used).copyDataPages fun j => (fs.map fun f : ℕ => (f : ℤ)).getD j.val 0) := by
  obtain ⟨g, hg, hglt, -, hused⟩ := hf.valid u hu i
  rw [hg, frameNat_natCast hglt]
  have hmark : SparesFrame g s.mm (s.mm.mark fs .used) := .of_same rfl rfl
  exact hmark.trans (spares_copyDataPages fun j => ne_frameNat_of_used hlen hfree hused j)

/-- Effects other than the delivery of input spare the frames of a process. -/
lemma Calm.sparesFrame {act : Action} {x y : Config} (h : Calm act x y) (hact : ¬ act.OnKeyboard)
    (hf : FramesOk x.1) (hu : x.1.Live u) (i : Fin numPagData) :
    SparesFrame (frameNat ((x.1.task u).phPages i)) x.1.mm y.1.mm := by
  cases h with
  | quiet h => exact .of_samePages h.mm
  | wake => exact .of_same rfl rfl
  | count => exact .of_same rfl rfl
  | @init s t Q k n v hk hact hn hsame hsem htask hok =>
    have hmm : t.mm = s.mm := by rw [hsame]
    exact .of_same (by rw [hmm]) (by rw [hmm])
  | release hown hrel hok => exact .of_same (by rw [hrel.mm]) (by rw [hrel.mm])
  | deliver hon => exact absurd hon hact
  | deliverFault hon => exact absurd hon hact
  | @fork s Q new frames mm hfork hnew hmm hlen =>
    obtain ⟨fs, -, hfree, rfl, rfl⟩ := allocFrames_some hmm
    rw [List.length_map] at hlen
    exact hf.spares_forked hu i hlen hfree
  | @forkFailed s Q new mm hnew hmm =>
    obtain rfl : mm = s.mm := allocFrames_none hmm
    exact .of_same rfl rfl

lemma Calms.sparesFrame {act : Action} {x y : Config} (h : Calms act x y) (hact : ¬ act.OnKeyboard)
    (hf : FramesOk x.1) (hu : x.1.Live u) (i : Fin numPagData) :
    SparesFrame (frameNat ((x.1.task u).phPages i)) x.1.mm y.1.mm := by
  induction h with
  | refl => exact .of_same rfl rfl
  | @tail y z hcs hc ih =>
    obtain ⟨hu', hph⟩ := Calms.pages hcs hu
    have hstep := hc.sparesFrame hact (Calms.frames hcs hf) hu' i
    rw [hph] at hstep
    exact ih.trans hstep

/-! ## Steps -/

/-- The event has `copy_from_circ_buffer` called for a process that waits: a key is pressed, the
process is the first reader, and this is its last character or the buffer is full. -/
def Kernel.DeliversTo (s : Kernel) (e : Event) (u : Slot) : Prop :=
  match e.act with
  | .key scan _ => Kernel.isMake scan = true ∧ s.keyboardQueue.head? = some u ∧
      ((s.task u).pendingChars ≤ 1 ∨ circularSize ≤ s.kbd.circChars + 1)
  | _ => False

namespace Kernel

/-- Properties of memory that the ends of the routines keep. -/
lemma leavesMm_finish {P : Memory → Prop} {o : Outcome Kernel ℤ} (h : o.Leaves fun t => P t.mm) :
    (finish o).Leaves fun t => P t.mm := by
  cases o with
  | ret r t => exact h
  | switched t => exact h
  | fault t =>
    simp only [finish, pageFaultRoutine]
    split_ifs
    · exact h
    · trivial
  | stop r => trivial

lemma leavesMm_finishInt {P : Memory → Prop} {o : Outcome Kernel Unit}
    (h : o.Leaves fun t => P t.mm) : (finishInt o).Leaves fun t => P t.mm := by
  cases o with
  | ret r t => exact h
  | switched t => exact h
  | fault t =>
    simp only [finishInt, pageFaultRoutine]
    split_ifs
    · exact h
    · trivial
  | stop r => trivial

lemma switchToNext_frame {α : Type} (s : Kernel) (i : ℤ) :
    (s.switchToNext i : Outcome Kernel α).Leaves fun t => t.mm.frame = s.mm.frame := by
  unfold switchToNext
  split
  · exact setSsPags_frame ..
  · trivial

/-- A read from the keyboard, for a frame that is neither mapped nor the running process's. -/
lemma sysReadKeyboard_frame {f : ℕ} (hf : s.mm.Unmapped f)
    (hcur : ∀ i, frameNat (s.current.phPages i) ≠ f) (size : ℤ) :
    (s.sysReadKeyboard size).Leaves fun t => t.mm.frame f = s.mm.frame f := by
  have hph : ∀ i, frameNat ((s.setPending size).current.phPages i) ≠ f := by
    intro i
    have hq := s.quiet_setPending size
    rw [current, hq.sched.pages, hq.sched.cur]
    exact hcur i
  have hcopy := copyFromCircBuffer_spares (b := (s.setPending size).cur) hph hph size
  apply leaves_sysReadKeyboard
  · exact hcopy.imp fun t ht => ⟨(ht hf).2, (ht hf).2⟩
  · exact (switchToNext_frame ..).imp fun t ht => congrFun ht f
  · rfl

/-- The first reader is served, for a frame that is neither mapped nor the reader's nor the running
process's. -/
lemma serveReader_frame {b : Slot} {f : ℕ} (hf : s.mm.Unmapped f)
    (hb : ∀ i, frameNat ((s.task b).phPages i) ≠ f)
    (hcur : ∀ i, frameNat (s.current.phPages i) ≠ f) :
    (s.serveReader b).Leaves fun t => t.mm.frame f = s.mm.frame f := by
  set s₁ := s.updTask b fun k => { k with pendingChars := k.pendingChars - 1 } with hs₁
  have hsame : SameSched s s₁ := .updTask s b _ rfl rfl rfl
  have hb₁ : ∀ i, frameNat ((s₁.task b).phPages i) ≠ f := by
    intro i
    rw [hsame.pages]
    exact hb i
  have hcur₁ : ∀ i, frameNat (s₁.current.phPages i) ≠ f := by
    intro i
    rw [current, hsame.pages, hsame.cur]
    exact hcur i
  apply leaves_serveReader hs₁
  · intro size
    exact (copyFromCircBuffer_spares hb₁ hcur₁ size).imp fun t ht => ⟨(ht hf).2, (ht hf).2, (ht hf).2⟩
  · rfl

lemma keyboardRoutine_frame (hs : SchedOk s Q) (hf : FramesOk s) (hu : s.Live u) (hne : u ≠ s.cur)
    {i : Fin numPagData} (hun : s.mm.Unmapped (frameNat ((s.task u).phPages i))) (scan beyond : Byte)
    (hno : isMake scan = true → s.keyboardQueue.head? = some u →
      ¬ ((s.task u).pendingChars ≤ 1 ∨ circularSize ≤ s.kbd.circChars + 1)) :
    (s.keyboardRoutine scan beyond).Leaves fun t =>
      t.mm.frame (frameNat ((s.task u).phPages i)) = s.mm.frame (frameNat ((s.task u).phPages i)) := by
  rcases hs.keyboardRoutine_cases scan beyond with ⟨-, hk⟩ | ⟨hmake, ⟨-, hk⟩ | ⟨b, rest, hQ, hk⟩⟩
  · rw [hk]
    rfl
  · rw [hk]
    rfl
  · rw [hk]
    have hhead : s.keyboardQueue.head? = some b := by
      rw [hs.keyboardQueue_eq, hQ]
      rfl
    have hb : s.Live b := (reader_ne_cur hs (List.mem_of_mem_head? hhead)).2
    by_cases hbu : b = u
    · -- it is not the process's turn to be served
      subst hbu
      have hwait := hno hmake hhead
      have hpend : 1 < ((s.putChar (charOf scan beyond)).task b).pendingChars := by
        show 1 < (s.task b).pendingChars
        omega
      have hcirc : (s.putChar (charOf scan beyond)).kbd.circChars < circularSize := by
        show s.kbd.circChars + 1 < circularSize
        omega
      rw [serveReader_of_waits hpend hcirc]
      rfl
    · refine serveReader_frame (s := s.putChar (charOf scan beyond)) hun (fun j => ?_) (fun j => ?_)
      · exact hf.frameNat_ne hb hu fun h => hbu h.1
      · exact hf.frameNat_ne hs.cur_live hu fun h => hne h.1.symm

/-- A step up to a call of `sys_exit`, for the frames of a process that does not run and is given
no input. -/
lemma dispatch_frame (hs : SchedOk s Q) (hf : FramesOk s) (hu : s.Live u) (hne : u ≠ s.cur)
    {i : Fin numPagData} (hun : s.mm.Unmapped (frameNat ((s.task u).phPages i)))
    (hno : ¬ s.DeliversTo e u) :
    (s.dispatch e).Leaves fun t => t.mm.frame (frameNat ((s.task u).phPages i)) =
      s.mm.frame (frameNat ((s.task u).phPages i)) := by
  by_cases hact : e.act.OnKeyboard
  · obtain ⟨regs, act⟩ := e
    have hq := s.quiet_enter regs
    have hok := hs.congr hq.sched
    have hf' := hf.ofSameSched hq.sched hq.mm.physMem
    have hpages : ((s.enter regs).task u).phPages = (s.task u).phPages := hq.sched.pages u
    cases act with
    | read fd buffer size =>
      refine leavesMm_finish (P := fun m => m.frame (frameNat ((s.task u).phPages i)) =
        s.mm.frame (frameNat ((s.task u).phPages i))) ?_
      rcases (s.enter regs).sysRead_cases fd buffer size with h | ⟨-, -, -, h⟩
      · cases ho : (s.enter regs).sysRead fd buffer size with
        | ret r t =>
          rw [ho] at h
          exact (hq.trans h).mm.unmapped _ hun
        | switched t =>
          rw [ho] at h
          exact h.elim
        | fault t =>
          rw [ho] at h
          exact (hq.trans h).mm.unmapped _ hun
        | stop r => trivial
      · set w := (s.enter regs).updTask (s.enter regs).cur fun k =>
          { k with size := size, buffer := buffer } with hw
        have hsame : SameSched s w := hq.sched.trans (.updTask _ _ _ rfl rfl rfl)
        rw [h]
        refine sysReadKeyboard_frame (s := w) hun (fun j => ?_) size
        rw [current, hsame.pages, hsame.cur]
        exact hf.frameNat_ne hs.cur_live hu fun h => hne h.1.symm
    | key scan beyond =>
      have hun' : (s.enter regs).mm.Unmapped (frameNat (((s.enter regs).task u).phPages i)) := by
        rw [hpages]
        exact hun
      have htask : (s.enter regs).task u = s.task u := updTask_task_ne _ _ hne
      have hkey := keyboardRoutine_frame (s := s.enter regs) hok hf' ((hq.sched.live_iff u).mpr hu)
        hne hun' scan beyond (fun hmake hhead hd => hno ⟨hmake, hhead, htask ▸ hd⟩)
      rw [hpages] at hkey
      exact leavesMm_finishInt (P := fun m => m.frame (frameNat ((s.task u).phPages i)) =
        s.mm.frame (frameNat ((s.task u).phPages i))) hkey
    | _ => exact absurd hact (by simp [Action.OnKeyboard])
  · have heff := hs.dispatch_effects e
    cases hd : s.dispatch e with
    | done t =>
      rw [hd] at heff
      obtain ⟨Q', hc | ⟨z, -, -, -, hframe⟩⟩ := heff
      · exact (Calms.sparesFrame hc hact hf hu i hun).2
      · exact congrFun hframe _
    | exits cause t =>
      rw [hd] at heff
      obtain ⟨Q', hc⟩ := heff
      exact (Calms.sparesFrame hc hact hf hu i hun).2
    | stop r => trivial

lemma leave_frame (s : Kernel) : s.leave.mm.frame = s.mm.frame := by
  rw [leave_eq]
  change ((List.finRange numPagData).foldl (fun m i => m.freeFrame (s.current.phPages i))
    s.mm).frame = _
  generalize s.mm = m
  generalize List.finRange numPagData = l
  induction l generalizing m with
  | nil => rfl
  | cons i l ih => exact ih _

end Kernel

/-- `sys_exit` changes the contents of no frame. -/
lemma SystemOk.exit_contents {cause : ExitCause} {s₁ : Kernel} (hs : SystemOk s Q)
    (hg : s.ExitsFindTwo e) (hd : s.dispatch e = .exits cause s₁) (hst : s.step e = .ok t) :
    t.mm.frame = s₁.mm.frame := by
  have heff := hs.sched.dispatch_effects e
  rw [hd] at heff
  obtain ⟨Q₁, hc⟩ := heff
  have hs₁ := hc.systemOk hs
  rw [Kernel.step, hd] at hst
  by_cases h0 : s₁.cur = 0
  · have hpid := hs₁.sched.current_pid_eq_zero_iff.mpr h0
    have hexit : s₁.sysExit = .ret () s₁ := by
      rw [Kernel.sysExit, if_neg (not_not.mpr hpid)]
    cases cause with
    | «syscall» eax =>
      simp only [hexit, Kernel.afterExit, Except.ok.injEq] at hst
      exact hst ▸ rfl
    | userFault =>
      simp only [hexit, Kernel.afterExit, Except.ok.injEq] at hst
      exact hst ▸ rfl
    | kernelFault => simp [hexit, Kernel.afterExit] at hst
  · obtain ⟨u, Q', hu, -, hrel, -, -, -, -, ⟨-, v, rest, -, hsw, -⟩ | ⟨hlen, -⟩⟩ :=
      hs₁.sysExit_cases h0
    · simp only [hsw, Kernel.afterExit, Except.ok.injEq] at hst
      rw [← hst, Kernel.handTo_frame, Kernel.leave_frame, hrel.mm]
    · have := hg cause s₁ u hd (fun hp => h0 (hs₁.sched.current_pid_eq_zero_iff.mp hp)) hu
      omega

/-- A process that does not run stays alive. -/
lemma Turn.live_of_ne {act : Action} {x y : Config} (h : Turn act x y) (hu : x.1.Live u)
    (hne : u ≠ x.1.cur) : y.1.Live u := by
  rcases h with hc | ⟨z, hc, hh⟩
  · exact (hc.pages hu).1
  · have hz := (hc.pages hu).1
    have hzne : u ≠ z.1.cur := by
      rw [hc.cur_eq]
      exact hne
    cases hh with
    | move => rwa [Kernel.Live, Kernel.handTo_task_pid]
    | exit =>
      rw [Kernel.Live, Kernel.handTo_task_pid, Kernel.leave_task_of_ne hzne]
      exact hz

/-- What a process keeps while it does not run and is given no input. -/
structure KeepsMemory (u : Slot) (s t : Kernel) : Prop where
  live : t.Live u
  pages : (t.task u).phPages = (s.task u).phPages
  frame : ∀ i, t.mm.frame (frameNat ((s.task u).phPages i)) =
    s.mm.frame (frameNat ((s.task u).phPages i))

lemma OwnTable.keepsMemory {E : Env} (h : OwnTable E s) (hu : s.Live u) (hne : u ≠ s.cur)
    (hg : s.ExitsFindTwo e) (hno : ¬ s.DeliversTo e u) (hst : s.step e = .ok t) :
    KeepsMemory u s t := by
  obtain ⟨Q, D, W, hs, hf, ht, hown⟩ := h
  obtain ⟨Q', hturn⟩ := (hs.step_effects e hg).1 t hst
  have hlive : t.Live u := hturn.live_of_ne hu hne
  refine ⟨hlive, hturn.pages_eq hu hlive, fun i => ?_⟩
  have hun := hown.unmapped hs.sched hf ht hu hne i
  have hframe := Kernel.dispatch_frame hs.sched hf hu hne hun hno
  cases hd : s.dispatch e with
  | done w =>
    rw [hd] at hframe
    rw [Kernel.step_of_done hd, Except.ok.injEq] at hst
    exact hst ▸ hframe
  | exits cause w =>
    rw [hd] at hframe
    rw [hs.exit_contents hg hd hst]
    exact hframe
  | stop r =>
    rw [Kernel.step, hd] at hst
    simp at hst

/-- The steps of the other processes while a process is away: none of them delivers input to it,
and the window is clear when they change. -/
def AwayStep (u : Slot) (s : Kernel) (e : Event) : Prop :=
  s.ExitsFindTwo e ∧ s.HandsOverClear e ∧ s.cur ≠ u ∧ ¬ s.DeliversTo e u

lemma runs_clear_of_away {s : Kernel} {es : List Event} (h : Run Kernel.step (AwayStep u) s es t) :
    Run Kernel.step (fun s e => s.ExitsFindTwo e ∧ s.HandsOverClear e) s es t :=
  h.mono fun _ _ h => ⟨h.1, h.2.1⟩

lemma OwnTable.away {E : Env} {es : List Event} :
    ∀ {s : Kernel}, OwnTable E s → s.Live u → Run Kernel.step (AwayStep u) s es t →
      KeepsMemory u s t := by
  induction es with
  | nil =>
    intro s _ hu hrun
    obtain rfl : s = t := run_nil_iff.mp hrun
    exact ⟨hu, rfl, fun _ => rfl⟩
  | cons e es ih =>
    intro s hown hu hrun
    obtain ⟨s', ⟨hg, hclear, hne, hno⟩, hst, hrest⟩ := run_cons_iff.mp hrun
    have hstep := hown.keepsMemory hu (Ne.symm hne) hg hno hst
    have hrun' := ih (hown.step hg hclear hst) hstep.live hrest
    refine ⟨hrun'.live, hrun'.pages.trans hstep.pages, fun i => ?_⟩
    have hi := hrun'.frame i
    rw [hstep.pages] at hi
    exact hi.trans (hstep.frame i)

end

/-! ## Memory across changes of process -/

/-- The byte at a data address is the one in the frame of the running process. -/
lemma Kernel.DataMapped.load {s : Kernel} (h : s.DataMapped) (hf : FramesOk s) (hlive : s.Live s.cur)
    {a : ℕ} (hlo : userData ≤ a) (hhi : a < userEnd) :
    ∃ i, s.mm.load a = s.mm.frame (frameNat (s.current.phPages i)) (a % pageSize) ∧
      pagLogInitDataP0 + i.val = a / pageSize := by
  have hlo' : 264 * 4096 ≤ a := hlo
  have hhi' : a < 284 * 4096 := hhi
  have hi : a / 4096 - 264 < 20 := by omega
  have hpage : pagLogInitDataP0 + (a / 4096 - 264) = a / pageSize := by
    show 264 + (a / 4096 - 264) = a / 4096
    omega
  refine ⟨⟨a / 4096 - 264, hi⟩, ?_, hpage⟩
  have hbase := (h ⟨a / 4096 - 264, hi⟩).2.2.2
  rw [← hf.frameNat_eq hlive] at hbase
  simp only [hpage] at hbase
  have hframe : s.mm.frameOf a = frameNat (s.current.phPages ⟨a / 4096 - 264, hi⟩) := by
    rw [frameOf]
    exact_mod_cast hbase
  rw [Memory.load, hframe]

lemma Env.boot_startData (E : Env) : StartData E E.boot :=
  ⟨rfl, _, _, E.boot_systemOk, E.boot_framesOk, E.boot_tableIs⟩

/-- **A process keeps its memory** once another process has run, in runs whose exits find two processes
to run.  From then on the data pages of every state map the frames of the running process, and not
before; and when the processor changes hands with the window clear, a process that runs again finds
at its data addresses the bytes that were there when it stopped, unless input was delivered to it. -/
theorem memory_kept {E : Env} {es : List Event} {s : Kernel} (h : ExitRun E.boot es s) :
    (s.DataMapped ↔ ∃ pre u, pre <+: es ∧ ExitRun E.boot pre u ∧ u.cur ≠ 0) ∧
    (Run Kernel.step (fun s e => s.ExitsFindTwo e ∧ s.HandsOverClear e) E.boot es s → s.DataMapped →
      ∀ e s₁ es' t, s.dispatch e = .done s₁ → s₁.cur ≠ s.cur → s.HandsOverClear e →
        Run Kernel.step (AwayStep s.cur) s₁ es' t → t.cur = s.cur →
        t.DataMapped ∧ ∀ a, userData ≤ a → a < userEnd → t.mm.load a = s.mm.load a) := by
  have hstart := E.boot_startData
  refine ⟨hstart.dataMapped_iff h, ?_⟩
  intro hclear hmap e s₁ es' t hd hcur hclear' haway hback
  have hg := Kernel.exitsFindTwo_of_done hd
  have hst := Kernel.step_of_done hd
  have hown : OwnTable E s := hclear.invariant (fun _ _ _ hs hg hst => hs.step hg.1 hg.2 hst)
    E.boot_ownTable
  have hown₁ := hown.step hg hclear' hst
  obtain ⟨Q, D, W, hs, hf, ht, -⟩ := hown
  -- the step that stops the process
  obtain ⟨Q', hturn⟩ := (hs.step_effects e hg).1 s₁ hst
  obtain ⟨hlive₁, hframe₁⟩ : s₁.Live s.cur ∧ s₁.mm.frame = s.mm.frame := by
    have heff := hs.sched.dispatch_effects e
    rw [hd] at heff
    obtain ⟨Q'', hc | ⟨z, hc, -, hl, hframe⟩⟩ := heff
    · exact absurd hc.cur_eq hcur
    · rw [show z.1.cur = s.cur from hc.cur_eq] at hl
      exact ⟨hl, hframe⟩
  have hpages₁ : (s₁.task s.cur).phPages = s.current.phPages :=
    hturn.pages_eq hs.sched.cur_live hlive₁
  -- the steps of the others
  have hkeep := hown₁.away hlive₁ haway
  have hrun : ExitRun E.boot (es ++ e :: es') t :=
    run_append_iff.mpr ⟨s, h, .cons hg hst (haway.mono fun _ _ hstep => hstep.1)⟩
  have hmap' : t.DataMapped := by
    obtain ⟨pre, u, hpre, hu, hu0⟩ := (hstart.dataMapped_iff h).mp hmap
    exact (hstart.dataMapped_iff hrun).mpr ⟨pre, u, hpre.trans (List.prefix_append ..), hu, hu0⟩
  refine ⟨hmap', fun a hlo hhi => ?_⟩
  obtain ⟨Qt, hst', hft, -⟩ := ExitRun.accounted hrun
  obtain ⟨i, hload, hi⟩ := hmap.load hf hs.sched.cur_live hlo hhi
  obtain ⟨j, hload', hj⟩ := hmap'.load hft hst'.sched.cur_live hlo hhi
  obtain rfl : i = j := Fin.ext (by omega)
  have hph : t.current.phPages = s.current.phPages := by
    rw [Kernel.current, hback, hkeep.pages, hpages₁]
  have hframe := hkeep.frame i
  rw [hpages₁] at hframe
  rw [hload', hload, hph, hframe, hframe₁]

/-- User code may store at its data addresses. -/
lemma Kernel.DataMapped.dispatch_store {s : Kernel} (h : s.DataMapped) {a : ℕ} (hlo : userData ≤ a)
    (hhi : a < userEnd) (v : Byte) :
    s.dispatch (plain (.store a v)) = .done { s with mm := s.mm.store a v } := by
  have hlo' : 264 * 4096 ≤ a := hlo
  have hhi' : a < 284 * 4096 := hhi
  obtain ⟨hpresent, huser, hrw, -⟩ := h ⟨a / 4096 - 264, by show _ < 20; omega⟩
  have hpage : pagLogInitDataP0 + (a / 4096 - 264) = a / pageSize := by
    show 264 + (a / 4096 - 264) = a / 4096
    omega
  simp only [hpage] at hpresent huser hrw
  have hlt : a / pageSize < totalPages := by
    show a / 4096 < 1024
    omega
  have hwritable : s.mm.userWritable a = true := by
    simp [userWritable, Memory.present, hlt, hpresent, huser, hrw]
  exact if_pos hwritable

/-- A turn of another process, with the window clear. -/
lemma OwnTable.away_turn {E : Env} {s : Kernel} {p : Slot} {ts : List Slot} {es : List Event}
    (hown : OwnTable E s) (hclear : s.mm.WindowClear) (hu : p ≠ u)
    (h : Run Kernel.step (Kernel.TickInTurn (p :: ts)) s es t) :
    Run Kernel.step (AwayStep u) s es t ∧ OwnTable E t ∧ t.mm.WindowClear := by
  have hstep : ∀ (v v' : Kernel) (e : Event) (w : Kernel),
      v = v' ∧ OwnTable E v ∧ v.mm.WindowClear → Kernel.TickInTurn (p :: ts) v e →
      v.step e = .ok w →
      AwayStep u v' e ∧ ∃ w', v'.step e = .ok w' ∧ w = w' ∧ OwnTable E w ∧ w.mm.WindowClear := by
    rintro v _ e w ⟨rfl, hv, hw⟩ htick hst
    have hg := htick.exitsFindTwo
    have hhand := Kernel.handsOverClear_of_clock htick.2 hw
    refine ⟨⟨hg, hhand, ?_, ?_⟩, w, hst, rfl, hv.step hg hhand hst, hv.windowClear hg ?_ hw hst⟩
    · rw [htick.cur_eq]
      exact hu
    · simp [Kernel.DeliversTo, htick.2]
    · simp [Action.OnKeyboard, htick.2]
  obtain ⟨t', hrun, rfl, hown', hclear'⟩ := h.simulate hstep ⟨rfl, hown, hclear⟩
  exact ⟨hrun, hown', hclear'⟩

/-- The processes `p` and `q` are the only ones and take turns, and the window is clear. -/
structure TwoInTurn (E : Env) (s : Kernel) (p q : Slot) : Prop where
  own : OwnTable E s
  clear : s.mm.WindowClear
  inTurn : s.InTurn [p, q]
  quantum : ∀ u, u = p ∨ u = q → (s.task u).quantum = 60

namespace TwoInTurn

variable {E : Env} {s : Kernel} {p q : Slot}

lemma cur_eq (h : TwoInTurn E s p q) : s.cur = p := (Option.some.inj h.inTurn.head).symm

lemma afterFork (E : Env) :
    ∃ t, Run Kernel.step (fun s e => s.ExitsFindTwo e ∧ s.HandsOverClear e) E.boot [plain .fork] t ∧
      TwoInTurn E t 0 1 ∧ t.left4current = 60 := by
  obtain ⟨v, hrun, -⟩ := E.boot_fork
  obtain ⟨t, hg, hst, -⟩ := run_cons_iff.mp hrun
  obtain ⟨hin, hleft, hquantum⟩ := Kernel.inTurn_fork hst
  have hd := Kernel.dispatch_of_step hst fun cause s₁ hd => Kernel.ne_fork_of_exits hd rfl
  have hcur : t.cur = 0 := (Option.some.inj hin.head).symm
  have hhand := Kernel.handsOverClear_of_stays hd hcur
  have hclear : t.mm.WindowClear :=
    OwnTable.windowClear E.boot_ownTable hg (by simp [Action.OnKeyboard, plain])
      E.boot_tableIs.window hst
  exact ⟨t, .cons ⟨hg, hhand⟩ hst (.nil t), ⟨OwnTable.step E.boot_ownTable hg hhand hst, hclear, hin,
    fun u hu => hquantum u (by simpa using hu)⟩, hleft⟩

lemma ticks (h : TwoInTurn E s p q) (hu : p ≠ u) {n : ℕ} (hn : (n : ℤ) < s.left4current) :
    ∃ t, Run Kernel.step (AwayStep u) s (List.replicate n (plain .clock)) t ∧ TwoInTurn E t p q ∧
      t.left4current = s.left4current - n := by
  obtain ⟨t, hrun, hin, hleft, hgains⟩ := h.inTurn.ticks (Kernel.act_of_mem_ticks (n := n))
    (by rwa [List.length_replicate])
  obtain ⟨haway, hown, hclear⟩ := h.own.away_turn h.clear hu hrun
  rw [List.length_replicate] at hleft
  exact ⟨t, haway, ⟨hown, hclear, hin, fun v hv => (hgains.quantum v).trans (h.quantum v hv)⟩, hleft⟩

/-- The last tick of a quantum. -/
lemma lastTick (h : TwoInTurn E s p q) (hleft : s.left4current = 1) :
    ∃ t, s.dispatch (plain .clock) = .done t ∧ s.HandsOverClear (plain .clock) ∧
      TwoInTurn E t q p ∧ t.left4current = 60 := by
  obtain ⟨t, hst, hin, hleft', hgains⟩ := h.inTurn.tick_next (e := plain .clock) rfl hleft
  have hg : s.ExitsFindTwo (plain .clock) := Kernel.clock_exitsFindTwo rfl
  have hhand := Kernel.handsOverClear_of_clock (e := plain .clock) rfl h.clear
  exact ⟨t, Kernel.dispatch_of_step hst (Kernel.clock_ne_exits rfl), hhand,
    ⟨h.own.step hg hhand hst, h.own.windowClear hg (by simp [Action.OnKeyboard, plain]) h.clear hst,
      hin, fun v hv => (hgains.quantum v).trans (h.quantum v hv.symm)⟩,
    hleft'.trans (h.quantum q (.inr rfl))⟩

/-- A whole turn. -/
lemma turn (h : TwoInTurn E s p q) (hu : p ≠ u) (hleft : s.left4current = 60) :
    ∃ t, Run Kernel.step (AwayStep u) s (List.replicate 60 (plain .clock)) t ∧ TwoInTurn E t q p ∧
      t.left4current = 60 := by
  obtain ⟨v, hrun, hv, hleft'⟩ := h.ticks (n := 59) hu (by rw [hleft]; decide)
  obtain ⟨t, hd, hhand, ht, hleft''⟩ := hv.lastTick (by rw [hleft', hleft]; decide)
  refine ⟨t, ?_, ht, hleft''⟩
  rw [List.replicate_succ']
  exact hrun.snoc ⟨Kernel.clock_exitsFindTwo rfl, hhand, by rw [hv.cur_eq]; exact hu,
    by simp [Kernel.DeliversTo, plain]⟩ (Kernel.step_of_done hd)

/-- The running process stores a byte. -/
lemma store (h : TwoInTurn E s p q) (hmap : s.DataMapped) (v : Byte) :
    ∃ t, s.dispatch (plain (.store userData v)) = .done t ∧ TwoInTurn E t p q ∧
      t.left4current = s.left4current ∧ t.mm.load userData = v := by
  have hd := hmap.dispatch_store (a := userData) le_rfl (by decide) v
  have hst := Kernel.step_of_done hd
  have hg := Kernel.exitsFindTwo_of_done hd
  have hown := h.own.step hg (Kernel.handsOverClear_of_stays hd rfl) hst
  have hclear := h.own.windowClear hg (by simp [Action.OnKeyboard, plain]) h.clear hst
  obtain ⟨hring, hhead, hlive, hquantum, hremaining, hpos⟩ := h.inTurn
  exact ⟨_, hd, ⟨hown, hclear, ⟨hring, hhead, hlive, hquantum, hremaining, hpos⟩, h.quantum⟩, rfl,
    load_store_self ..⟩

end TwoInTurn

/-- Task 0 forks, its child comes to the last tick of its quantum, and stores a byte. -/
def childStores : List Event :=
  [plain .fork] ++ (List.replicate 60 (plain .clock) ++
    (List.replicate 59 (plain .clock) ++ [plain (.store userData 7)]))

/-- Task 0 stores at the same address, and its quantum is over. -/
def task0Stores : List Event := plain (.store userData 8) :: List.replicate 60 (plain .clock)

/-- Two processes use the same address, and each finds its own byte there. -/
theorem memory_kept_of_child :
    ∃ s s₁ t, ExitRun zeroEnv.boot childStores s ∧ s.cur = 1 ∧
      s.dispatch (plain .clock) = .done s₁ ∧ s₁.cur = 0 ∧ ExitRun s₁ task0Stores t ∧ t.cur = 1 ∧
      t.DataMapped ∧ t.mm.load userData = 7 := by
  -- the fork, the turn of task 0, and that of its child up to the last tick
  obtain ⟨v₀, hrun₀, h₀, hleft₀⟩ := TwoInTurn.afterFork zeroEnv
  obtain ⟨v₁, hrun₁, h₁, hleft₁⟩ := h₀.turn (u := 1) (by decide) hleft₀
  obtain ⟨v₂, hrun₂, h₂, hleft₂⟩ := h₁.ticks (n := 59) (u := 0) (by decide) (by rw [hleft₁]; decide)
  have hrun₀₂ := run_append_iff.mpr ⟨v₀, hrun₀, run_append_iff.mpr
    ⟨v₁, runs_clear_of_away hrun₁, runs_clear_of_away hrun₂⟩⟩
  have hexit₂ : ExitRun zeroEnv.boot _ v₂ := hrun₀₂.mono fun _ _ h => h.1
  have hne₂ : v₂.cur ≠ 0 := by
    rw [h₂.cur_eq]
    decide
  have hmap₂ : v₂.DataMapped :=
    (memory_kept hexit₂).1.mpr ⟨_, v₂, List.prefix_refl _, hexit₂, hne₂⟩
  -- the child stores, and its last tick gives the processor to task 0
  obtain ⟨s, hd, h, hleft, hload⟩ := h₂.store hmap₂ 7
  have hcur : s.cur = v₂.cur := h.cur_eq.trans h₂.cur_eq.symm
  have hrun : Run Kernel.step (fun s e => s.ExitsFindTwo e ∧ s.HandsOverClear e) zeroEnv.boot
      childStores s := by
    have hsnoc := hrun₀₂.snoc ⟨Kernel.exitsFindTwo_of_done hd,
      Kernel.handsOverClear_of_stays hd hcur⟩ (Kernel.step_of_done hd)
    simpa only [childStores, List.append_assoc] using hsnoc
  have hexit : ExitRun zeroEnv.boot childStores s := hrun.mono fun _ _ h => h.1
  have hmap : s.DataMapped :=
    (memory_kept hexit).1.mpr ⟨_, s, List.prefix_refl _, hexit, hcur ▸ hne₂⟩
  obtain ⟨s₁, hd₁, hhand₁, h₁', hleft₁'⟩ := h.lastTick (by rw [hleft, hleft₂, hleft₁]; decide)
  -- task 0 stores at the same address, and has its turn
  have hexit₁ : ExitRun zeroEnv.boot (childStores ++ [plain .clock]) s₁ :=
    hexit.snoc (Kernel.exitsFindTwo_of_done hd₁) (Kernel.step_of_done hd₁)
  have hmap₁ : s₁.DataMapped :=
    (memory_kept hexit₁).1.mpr ⟨_, s, List.prefix_append .., hexit, hcur ▸ hne₂⟩
  obtain ⟨v₃, hd₃, h₃, hleft₃, -⟩ := h₁'.store hmap₁ 8
  obtain ⟨t, hrun₄, h₄, -⟩ := h₃.turn (u := 1) (by decide) (hleft₃.trans hleft₁')
  have haway : Run Kernel.step (AwayStep s.cur) s₁ task0Stores t := by
    rw [h.cur_eq]
    refine .cons ⟨Kernel.exitsFindTwo_of_done hd₃, Kernel.handsOverClear_of_stays hd₃
      (h₃.cur_eq.trans h₁'.cur_eq.symm), ?_, ?_⟩ (Kernel.step_of_done hd₃) hrun₄
    · rw [h₁'.cur_eq]
      decide
    · simp [Kernel.DeliversTo, plain]
  have hne : s₁.cur ≠ s.cur := by
    rw [h₁'.cur_eq, h.cur_eq]
    decide
  obtain ⟨hmap', hbytes⟩ := (memory_kept hexit).2 hrun hmap _ s₁ _ t hd₁ hne hhand₁ haway
    (h₄.cur_eq.trans h.cur_eq.symm)
  refine ⟨s, s₁, t, hexit, h.cur_eq, hd₁, h₁'.cur_eq, haway.mono fun _ _ h => h.1, h₄.cur_eq,
    hmap', ?_⟩
  rw [hbytes userData le_rfl (by decide), hload]

/-- Task 0 starts in frames that are not its own. -/
theorem boot_not_dataMapped : ExitRun zeroEnv.boot [] zeroEnv.boot ∧ ¬ zeroEnv.boot.DataMapped :=
  ⟨.nil _, zeroEnv.boot_startData.not_dataMapped⟩

end ZeOS
