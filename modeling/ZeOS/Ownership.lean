import ZeOS.Invariants.Frames
import Mathlib.Data.Fintype.Prod

/-!
# Frame ownership

The frames of the live processes are different, in use, and neither kernel nor code frames
(`FramesOk`), and besides the reserved frames nothing else is in use (`FramesAccounted`).  The
second half is what makes room a matter of counting: ten processes and the reserved frames leave
at least 160 of the 384 frames that `alloc_frame` looks at, so `sys_fork` fails only for want of
a slot.
-/

namespace ZeOS

open IntrusiveList Relation Memory

/-! ## Every frame in use has an owner -/

/-- A frame in use is reserved or belongs to a live process. -/
def FramesAccounted (s : Kernel) : Prop :=
  ∀ f, s.mm.physMem f = .used → Reserved f ∨ ∃ u i, s.Live u ∧ (s.task u).phPages i = f

namespace FramesAccounted

variable {s t : Kernel}

/-- More live processes, with the same frames. -/
lemma congr (h : FramesAccounted s)
    (hpages : ∀ u, s.Live u → t.Live u ∧ (t.task u).phPages = (s.task u).phPages)
    (hused : ∀ f, t.mm.physMem f = .used → s.mm.physMem f = .used) : FramesAccounted t := by
  intro f hf
  rcases h f (hused f hf) with hres | ⟨u, i, hu, hi⟩
  · exact .inl hres
  · obtain ⟨hlive, hph⟩ := hpages u hu
    exact .inr ⟨u, i, hlive, by rw [hph, hi]⟩

lemma ofSameSched (h : FramesAccounted s) (hs : SameSched s t)
    (hphys : t.mm.physMem = s.mm.physMem) : FramesAccounted t :=
  h.congr (fun u hu => ⟨(hs.live_iff u).mpr hu, hs.pages u⟩) (fun _ hf => hphys ▸ hf)

/-- The frames of a process that ends are not in use any more. -/
lemma leave (h : FramesAccounted s) (hf : FramesOk s) (hcur : s.Live s.cur) :
    FramesAccounted s.leave := by
  obtain ⟨fr, hfr, -, hmm⟩ := hf.leave_mm hcur
  intro f hused
  rw [hmm] at hused
  simp only [mark] at hused
  split_ifs at hused with hmem
  rcases h f hused with hres | ⟨u, i, hu, hi⟩
  · exact .inl hres
  · have hne : u ≠ s.cur := by
      rintro rfl
      apply hmem
      refine List.mem_map.mpr ⟨i, List.mem_finRange i, ?_⟩
      have : ((fr i : ℕ) : ℤ) = f := (hfr i).symm.trans hi
      exact_mod_cast this
    refine .inr ⟨u, i, ?_, ?_⟩
    · rw [Kernel.Live, Kernel.leave_task_of_ne hne]
      exact hu
    · rw [Kernel.leave_task_of_ne hne, hi]

end FramesAccounted

section

variable {act : Action} {x y : Config}

/-- Calm effects keep the account of frames. -/
lemma Calm.accounted (h : Calm act x y) (hs : SchedOk x.1 x.2) (ha : FramesAccounted x.1) :
    FramesAccounted y.1 := by
  have hpages := fun u (hu : x.1.Live u) => h.pages hu
  cases h with
  | quiet h => exact ha.ofSameSched h.sched h.mm.physMem
  | wake => exact ha.congr hpages (fun f hf => hf)
  | count => exact ha.congr hpages (fun f hf => hf)
  | @init s t Q k n v hk hact hn hsame hsem htask hok =>
    refine ha.congr hpages (fun f hf => ?_)
    rw [hsame] at hf
    exact hf
  | release hown hrel hok => exact ha.congr hpages (fun f hf => hrel.mm ▸ hf)
  | deliver hact hb hwho h =>
    obtain ⟨-, hphys, -⟩ := Kernel.copyFromCircBuffer_pages (.inl h)
    exact ha.congr hpages (fun f hf => hphys ▸ hf)
  | deliverFault hact hb hwho h =>
    obtain ⟨-, hphys, -⟩ := Kernel.copyFromCircBuffer_pages (.inr h)
    exact ha.congr hpages (fun f hf => hphys ▸ hf)
  | @fork s Q new frames mm hact hnew hmm hlen =>
    obtain ⟨fs, hnd, hfree, rfl, rfl⟩ := allocFrames_some hmm
    intro f hf
    rw [Kernel.forked_mm, copyDataPages_physMem] at hf
    simp only [mark] at hf
    split_ifs at hf with hmem
    · -- a frame that the fork took
      obtain ⟨j, hj, rfl⟩ := List.getElem_of_mem hmem
      rw [List.length_map] at hlen
      refine .inr ⟨new, ⟨j, hlen ▸ hj⟩, ?_, ?_⟩
      · simp [Kernel.Live, Kernel.forked, Kernel.child, hs.counter.le]
      · simp [Kernel.forked, Kernel.child, hj]
    · rcases ha f hf with hres | ⟨u, i, hu, hi⟩
      · exact .inl hres
      · obtain ⟨hlive, hph⟩ := hpages u hu
        exact .inr ⟨u, i, hlive, by rw [hph, hi]⟩
  | @forkFailed s Q new mm hnew hmm =>
    obtain rfl : mm = s.mm := allocFrames_none hmm
    exact ha.congr hpages (fun f hf => hf)

/-- A handover keeps the account of frames. -/
lemma Handover.accounted (h : Handover act x y) (hs : SchedOk x.1 x.2) (hf : FramesOk x.1)
    (ha : FramesAccounted x.1) : FramesAccounted y.1 := by
  have hok := h.schedOk hs
  have hpages := fun u (hu : y.1.Live u) => h.pages hu
  have hcur := hok.cur_live
  cases h with
  | @move s Q h v rest i hact' h0 hact hkbd hne hQ =>
    have hv : ∀ j, ((s.moveCurrent h).task v).phPages j ≠ -1 := hf.ne_neg_one (hpages v hcur).1
    refine ha.congr (fun u hu => ⟨?_, Kernel.handTo_task_phPages ..⟩) (fun f hused => ?_)
    · rw [Kernel.Live, Kernel.handTo_task_pid]
      exact hu
    · rw [Kernel.handTo_mm hv, setSsPags_physMem] at hused
      exact hused
  | @exit s Q v rest h0 hfree hQ =>
    have hlive : s.leave.Live v := by
      rwa [Kernel.Live, Kernel.handTo_task_pid] at hcur
    have hv : ∀ j, (s.leave.task v).phPages j ≠ -1 := (hf.leave hs.cur_live).ne_neg_one hlive
    refine (ha.leave hf hs.cur_live).congr (fun u hu => ⟨?_, Kernel.handTo_task_phPages ..⟩)
      (fun f hused => ?_)
    · rw [Kernel.Live, Kernel.handTo_task_pid]
      exact hu
    · rw [Kernel.handTo_mm hv, setSsPags_physMem] at hused
      exact hused

lemma Calms.accounted (h : Calms act x y) (hs : SchedOk x.1 x.2) (ha : FramesAccounted x.1) :
    FramesAccounted y.1 := by
  induction h with
  | refl => exact ha
  | tail hcs hc ih => exact hc.accounted (Calms.schedOk hcs hs) ih

lemma Turn.accounted (h : Turn act x y) (hs : SchedOk x.1 x.2) (hf : FramesOk x.1)
    (ha : FramesAccounted x.1) : FramesAccounted y.1 := by
  rcases h with h | ⟨z, hc, hh⟩
  · exact h.accounted hs ha
  · exact hh.accounted (Calms.schedOk hc hs) (hc.frames hf) (hc.accounted hs ha)

end

lemma Env.boot_accounted (E : Env) : FramesAccounted E.boot := by
  intro f hf
  rw [E.boot_physMem, taken_eq_used_iff] at hf
  by_cases hres : f < 264 ∨ (f % 2 = 0 ∧ f < 264 + 2 * 20)
  · exact .inl ((taken_eq_used_iff 20 f).mpr hres)
  · have hi : f / 2 - 152 < 20 := by omega
    refine .inr ⟨0, ⟨f / 2 - 152, hi⟩, (E.boot_live_iff 0).mpr rfl, ?_⟩
    rw [E.boot_phPages]
    have : 264 + 2 * (20 + (f / 2 - 152)) = f := by omega
    exact_mod_cast this

/-- What holds of the frames in every state of every run. -/
lemma ExitRun.accounted {E : Env} {es : List Event} {s : Kernel} (h : ExitRun E.boot es s) :
    ∃ Q, SystemOk s Q ∧ FramesOk s ∧ FramesAccounted s := by
  have hstep : ∀ s e t, (∃ Q, SystemOk s Q ∧ FramesOk s ∧ FramesAccounted s) → s.ExitsFindTwo e →
      s.step e = .ok t → ∃ Q, SystemOk t Q ∧ FramesOk t ∧ FramesAccounted t := by
    rintro s e t ⟨Q, hs, hf, ha⟩ hg hst
    obtain ⟨Q', hturn⟩ := (hs.step_effects e hg).1 t hst
    exact ⟨Q', hturn.systemOk hs, hturn.frames hs.sched hf, hturn.accounted hs.sched hf ha⟩
  exact h.invariant hstep ⟨_, E.boot_systemOk, E.boot_framesOk, E.boot_accounted⟩

/-! ## Room for one more process -/

namespace Memory

/-- The free frames among those that `alloc_frame` looks at: every second one above the kernel. -/
def freeFrames (m : Memory) : Finset ℕ :=
  (Finset.range totalPages).filter fun f => numPagKernel ≤ f ∧ f % 2 = 0 ∧ m.physMem f = .free

lemma mem_freeFrames {m : Memory} {f : ℕ} :
    f ∈ m.freeFrames ↔ f < 1024 ∧ 256 ≤ f ∧ f % 2 = 0 ∧ m.physMem f = .free := by
  simp only [freeFrames, Finset.mem_filter, Finset.mem_range]

/-- While there is a free frame, `alloc_frame` finds one. -/
lemma allocFrame_of_mem {m : Memory} {f : ℕ} (h : f ∈ m.freeFrames) : m.allocFrame.1 ≠ -1 := by
  obtain ⟨hlt, hlow, heven, hfree⟩ := mem_freeFrames.mp h
  unfold allocFrame
  split
  · omega
  · next hnone =>
    rw [List.find?_eq_none] at hnone
    refine absurd (hnone f ?_) (by simpa using hfree)
    rw [List.mem_range']
    refine ⟨(f - 256) / 2, ?_, ?_⟩
    · show (f - 256) / 2 < 384
      omega
    · show f = 256 + 2 * ((f - 256) / 2)
      omega

/-- With enough free frames the allocation loop of `sys_fork` takes one for each page. -/
lemma allocFrames_of_room {ph : Fin numPagData → ℤ} (hph : ∀ i, ph i ≠ -1) {m : Memory}
    (is : List (Fin numPagData)) :
    ∀ old : List ℕ, old.length + is.length ≤ m.freeFrames.card →
      ∃ frames mm, allocFrames ph is (old.map fun f : ℕ => (f : ℤ)) (m.mark old .used) =
        (some frames, mm) ∧ frames.length = old.length + is.length := by
  induction is with
  | nil =>
    intro old _
    exact ⟨_, _, rfl, by simp⟩
  | cons i is ih =>
    intro old hroom
    rw [List.length_cons] at hroom
    -- more frames are free than have been taken so far
    obtain ⟨f, hf, hfold⟩ : ∃ f ∈ m.freeFrames, f ∉ old.toFinset := by
      refine Finset.exists_mem_notMem_of_card_lt_card ?_
      have := old.toFinset_card_le
      omega
    have hmem : f ∈ (m.mark old .used).freeFrames := by
      rw [mem_freeFrames] at hf ⊢
      have hno : f ∉ old := by simpa using hfold
      simpa [mark, hno] using hf
    have hfound := allocFrame_of_mem hmem
    rw [allocFrames, if_neg (hph i), if_neg hfound]
    rcases (m.mark old .used).allocFrame_cases with ⟨g, -, -, -, h⟩ | h
    · rw [h]
      obtain ⟨frames, mm, heq, hlen⟩ := ih (old ++ [g]) (by
        rw [List.length_append, List.length_singleton]
        omega)
      rw [List.map_append, ← mark_mark] at heq
      refine ⟨frames, mm, heq, ?_⟩
      rw [hlen, List.length_append, List.length_singleton, List.length_cons]
      omega
    · rw [h] at hfound
      exact absurd rfl hfound

lemma allocFrames_of_freeFrames {ph : Fin numPagData → ℤ} (hph : ∀ i, ph i ≠ -1) {m : Memory}
    (hroom : numPagData ≤ m.freeFrames.card) :
    ∃ frames mm, m.allocFrames ph (List.finRange numPagData) [] = (some frames, mm) ∧
      frames.length = numPagData := by
  obtain ⟨frames, mm, halloc, hlen⟩ :=
    allocFrames_of_room hph (List.finRange numPagData) [] (by simpa using hroom)
  rw [show m.mark [] .used = m by simp [mark], List.map_nil] at halloc
  exact ⟨frames, mm, halloc, by simpa using hlen⟩

end Memory

/-- The reserved frames and the frames of ten processes leave room. -/
lemma FramesAccounted.room {s : Kernel} (h : FramesAccounted s) : numPagData ≤ s.mm.freeFrames.card := by
  set owned : Finset ℕ := Finset.univ.image fun p : Slot × Fin numPagData =>
    ((s.task p.1).phPages p.2).toNat with howned
  set all : Finset ℕ := (Finset.range 360).image fun k => 304 + 2 * k with hall
  have hsub : all \ owned ⊆ s.mm.freeFrames := by
    intro f hf
    obtain ⟨hf, hno⟩ := Finset.mem_sdiff.mp hf
    obtain ⟨k, hk, rfl⟩ := Finset.mem_image.mp hf
    rw [Finset.mem_range] at hk
    refine mem_freeFrames.mpr ⟨by omega, by omega, by omega, ?_⟩
    cases hm : s.mm.physMem (304 + 2 * k) with
    | free => rfl
    | used =>
      exfalso
      rcases h _ hm with hres | ⟨u, i, -, hi⟩
      · rw [Reserved, taken_eq_used_iff] at hres
        omega
      · apply hno
        refine Finset.mem_image.mpr ⟨(u, i), Finset.mem_univ _, ?_⟩
        show ((s.task u).phPages i).toNat = 304 + 2 * k
        rw [hi]
        rfl
  have hcard : all.card = 360 := by
    rw [hall, Finset.card_image_of_injective _ (fun a b hab => by simpa using hab),
      Finset.card_range]
  have hle : owned.card ≤ 200 := by
    refine Finset.card_image_le.trans ?_
    rw [Finset.card_univ, Fintype.card_prod, Fintype.card_fin, Fintype.card_fin]
    exact le_rfl
  have hdiff := Finset.le_card_sdiff owned all
  have := Finset.card_le_card hsub
  show 20 ≤ _
  omega

/-- `sys_fork` finds no slot, or it creates a child. -/
lemma FramesAccounted.sysFork {s : Kernel} {Q : Node → List Slot} (ha : FramesAccounted s)
    (hs : SchedOk s Q) (hf : FramesOk s) :
    ((∀ u, s.Live u) ∧ s.sysFork = .ok (-eAgain, s)) ∨
      ∃ new frames mm, ¬ s.Live new ∧ s.sysFork = .ok (s.pid, s.forked new frames mm) := by
  obtain ⟨frames, mm, halloc, hlen⟩ := allocFrames_of_freeFrames (hf.ne_neg_one hs.cur_live) ha.room
  rcases s.sysFork_cases hs.cur_live with ⟨hnone, hfork⟩ | ⟨new, hnew, -, ⟨mm', hmm, -⟩ |
    ⟨frames', mm', hmm, ⟨-, hfork⟩ | ⟨hno, -⟩⟩⟩
  · refine .inl ⟨fun u => ?_, hfork⟩
    have := List.find?_eq_none.mp hnone u (List.mem_finRange u)
    simpa [Kernel.Live] using this
  · rw [halloc] at hmm
    simp at hmm
  · refine .inr ⟨new, _, mm', ?_, hfork⟩
    have := Kernel.srchFreeTask_some hnew
    rw [Kernel.Live]
    omega
  · rw [halloc, Prod.mk.injEq, Option.some.injEq] at hmm
    exact absurd (hmm.1 ▸ hlen) hno

/-! ## Ending a process -/

/-- Only a fork takes frames, and no calm effect gives any back. -/
lemma Calm.physMem {act : Action} {x y : Config} (h : Calm act x y) (hact : act ≠ .fork) :
    y.1.mm.physMem = x.1.mm.physMem := by
  cases h with
  | quiet h => exact h.mm.physMem
  | wake => rfl
  | count => rfl
  | init hk hact' hn hsame hsem htask hok => rw [hsame]
  | release hown hrel hok => exact congrArg Memory.physMem hrel.mm
  | deliver hact' hb hwho h => exact (Kernel.copyFromCircBuffer_pages (.inl h)).2.1
  | deliverFault hact' hb hwho h => exact (Kernel.copyFromCircBuffer_pages (.inr h)).2.1
  | fork hact' => exact absurd hact' hact
  | @forkFailed s Q new mm hnew hmm =>
    exact congrArg Memory.physMem (allocFrames_none hmm)

lemma Calms.physMem {act : Action} {x y : Config} (h : Calms act x y) (hact : act ≠ .fork) :
    y.1.mm.physMem = x.1.mm.physMem := by
  induction h with
  | refl => rfl
  | tail _ hc ih => exact (hc.physMem hact).trans ih

lemma Kernel.ne_fork_of_exits {s s₁ : Kernel} {e : Event} {cause : ExitCause}
    (hd : s.dispatch e = .exits cause s₁) : e.act ≠ .fork := by
  obtain ⟨regs, act⟩ := e
  rintro rfl
  change finishExcept (s.enter regs).sysFork = .exits cause s₁ at hd
  cases ho : (s.enter regs).sysFork <;> rw [ho] at hd <;> simp [finishExcept] at hd

/-- `sys_exit` frees the frames of the caller and no other, and none when task 0 calls it. -/
lemma SystemOk.exit_frames {s s₁ : Kernel} {Q : Node → List Slot} {e : Event} {cause : ExitCause}
    (hs : SystemOk s Q) (hf : FramesOk s) (hg : s.ExitsFindTwo e)
    (hd : s.dispatch e = .exits cause s₁) :
    ∃ t, s.step e = .ok t ∧ ∀ f : ℕ, t.mm.physMem f =
      if s.current.pid ≠ 0 ∧ ∃ i, s.current.phPages i = f then .free else s.mm.physMem f := by
  have heff := hs.sched.dispatch_effects e
  rw [hd] at heff
  obtain ⟨Q₁, hc⟩ := heff
  have hs₁ := hc.systemOk hs
  have hphys := hc.physMem (Kernel.ne_fork_of_exits hd)
  have hcur : s₁.cur = s.cur := hc.cur_eq
  have hpages : (s₁.task s.cur).phPages = s.current.phPages := (hc.pages hs.sched.cur_live).2
  rw [Kernel.step, hd]
  by_cases h0 : s.cur = 0
  · have hpid := hs.sched.current_pid_eq_zero_iff.mpr h0
    have hpid₁ : s₁.current.pid = 0 := hs₁.sched.current_pid_eq_zero_iff.mpr (hcur.trans h0)
    -- task 0 comes here by the system call only
    rcases Kernel.exits_cases hd with ⟨eax, hact, -⟩ | hno
    · obtain ⟨regs, act⟩ := e
      subst hact
      rw [Kernel.dispatch, Phase.exits.injEq] at hd
      obtain ⟨rfl, -⟩ := hd
      refine ⟨s₁.setEax eax, ?_, fun f => ?_⟩
      · simp [Kernel.sysExit, hpid₁, Kernel.afterExit]
      · rw [if_neg (fun h => h.1 hpid), ← hphys]
        rfl
    · exact absurd hpid₁ hno
  · have hpid : s.current.pid ≠ 0 := fun hp => h0 (hs.sched.current_pid_eq_zero_iff.mp hp)
    have hpid₁ : s₁.current.pid ≠ 0 := fun hp => h0 (hcur ▸ hs₁.sched.current_pid_eq_zero_iff.mp hp)
    obtain ⟨u, Q', hu, -, hrel, hcalm, hok, -, -, ⟨-, v, rest, -, hsw, hh⟩ | ⟨hlen, -⟩⟩ :=
      hs₁.sysExit_cases (hcur ▸ h0)
    · refine ⟨u.leave.handTo 0 v, by simp only [hsw, Kernel.afterExit], fun f => ?_⟩
      have hfu : FramesOk u := Calm.frames (hcalm .clock) (hc.frames hf)
      obtain ⟨fr, hfr, -, hmm⟩ := hfu.leave_mm hok.sched.cur_live
      have hlive : u.leave.Live v := by
        have h := ((hh .clock).schedOk hok.sched).cur_live
        rwa [Kernel.Live, Kernel.handTo_task_pid] at h
      have hv : ∀ j, (u.leave.task v).phPages j ≠ -1 :=
        (hfu.leave hok.sched.cur_live).ne_neg_one hlive
      have hfr' : ∀ i, s.current.phPages i = fr i := by
        intro i
        rw [← hpages, ← hfr i, Kernel.current, hrel.task_phPages, hrel.cur, hcur]
      rw [Kernel.handTo_mm hv, setSsPags_physMem, hmm, ← hphys, ← hrel.mm]
      have hiff : f ∈ (List.finRange numPagData).map fr ↔
          s.current.pid ≠ 0 ∧ ∃ i, s.current.phPages i = f := by
        simp only [List.mem_map, List.mem_finRange, true_and, hfr']
        constructor
        · rintro ⟨i, hi⟩
          exact ⟨hpid, i, by rw [hi]⟩
        · rintro ⟨-, i, hi⟩
          exact ⟨i, by exact_mod_cast hi⟩
      simp only [mark, hiff]
    · have := hg cause s₁ u hd hpid₁ hu
      omega

/-! ## Frame ownership -/

/-- **Frame ownership.** In every state of every run the frames of the live processes are all
different, in use, and neither kernel nor code frames; `sys_exit` of a process other than task 0
frees exactly the frames of the caller, and task 0 keeps its frames; and there are always enough
free frames for one more process, so that `sys_fork` fails just when every slot is in use. -/
theorem frame_ownership {E : Env} {es : List Event} {s : Kernel} (h : ExitRun E.boot es s) :
    (∀ u, s.Live u → ∀ i, ∃ f : ℕ, (s.task u).phPages i = f ∧ numPagKernel + numPagCode ≤ f ∧
      f < totalPages ∧ s.mm.physMem f = .used) ∧
    (∀ u v, s.Live u → s.Live v → ∀ i j, (s.task u).phPages i = (s.task v).phPages j →
      u = v ∧ i = j) ∧
    (∀ e cause s₁, s.ExitsFindTwo e → s.dispatch e = .exits cause s₁ →
      ∃ t, s.step e = .ok t ∧ ∀ f : ℕ, t.mm.physMem f =
        if s.current.pid ≠ 0 ∧ ∃ i, s.current.phPages i = f then .free else s.mm.physMem f) ∧
    numPagData ≤ s.mm.freeFrames.card ∧
    ∀ regs, ∃ r t, (s.enter regs).sysFork = .ok (r, t) ∧ (r = -eAgain ↔ ∀ u, s.Live u) := by
  obtain ⟨Q, hs, hf, ha⟩ := h.accounted
  refine ⟨fun u hu i => ?_, hf.inj, fun e cause s₁ hg hd => hs.exit_frames hf hg hd, ha.room,
    fun regs => ?_⟩
  · obtain ⟨f, hph, hlt, hres, hused⟩ := hf.valid u hu i
    refine ⟨f, hph, ?_, hlt, hused⟩
    rw [Reserved, taken_eq_used_iff] at hres
    show 264 ≤ f
    omega
  · have hq := s.quiet_enter regs
    have hs' := hs.sched.congr hq.sched
    have ha' := ha.ofSameSched hq.sched hq.mm.physMem
    rcases ha'.sysFork hs' (hf.ofSameSched hq.sched hq.mm.physMem) with ⟨hall, hfork⟩ |
      ⟨new, frames, mm, hnew, hfork⟩
    · refine ⟨_, _, hfork, fun _ u => (hq.sched.live_iff u).mp (hall u), fun _ => rfl⟩
    · refine ⟨_, _, hfork, fun hr => ?_, fun hall => ?_⟩
      · have hpos := hs'.counter
        rw [hr] at hpos
        exact absurd hpos (by decide)
      · exact absurd ((hq.sched.live_iff new).mpr (hall new)) hnew

theorem frame_ownership_after_fork :
    ∃ s, ExitRun zeroEnv.boot [plain .fork] s ∧ s.Live 0 ∧ s.Live 1 ∧
      ∀ i j, (s.task 0).phPages i ≠ (s.task 1).phPages j := by
  obtain ⟨s, hrun, hok, -, -⟩ := zeroEnv.boot_fork
  have h0 : s.Live 0 := (hok.sched.live_iff 0).mpr ⟨.runqueue, by simp⟩
  have h1 : s.Live 1 := (hok.sched.live_iff 1).mpr ⟨.runqueue, by simp⟩
  refine ⟨s, hrun, h0, h1, fun i j heq => ?_⟩
  exact absurd ((frame_ownership hrun).2.1 0 1 h0 h1 i j heq).1 (by decide)

/-- Task 0 calls `sys_exit` with two other processes on the runqueue, and keeps its frames. -/
theorem sysExit_of_task0_frees_nothing :
    ∃ s t : Kernel, ∃ f : ℕ, ExitRun zeroEnv.boot [plain .fork, plain .fork] s ∧
      s.cur = 0 ∧ s.Live s.cur ∧ s.runqueue.length = 3 ∧ s.step (plain (.exit 0)) = .ok t ∧
      s.current.phPages 0 = f ∧ t.mm.physMem f = .used := by
  obtain ⟨s₁, hrun₁, hok₁, -, -⟩ := zeroEnv.boot_fork
  obtain ⟨Q₁, hs₁, hf₁, ha₁⟩ := ExitRun.accounted hrun₁
  have hdead : ¬ s₁.Live 2 := by
    rw [hok₁.sched.live_iff 2]
    rintro ⟨h, hm⟩
    by_cases hh : h = .runqueue
    · subst hh
      simp at hm
    · rw [Function.update_of_ne hh, Env.bootQueues, Function.update_of_ne hh] at hm
      simp at hm
  have hcur₁ : s₁.cur = 0 := by
    have := hok₁.sched.head
    simpa using this.symm
  have hq := s₁.quiet_enter fun _ => 0
  have hs' := hok₁.sched.congr hq.sched
  have ha' := ha₁.ofSameSched hq.sched hq.mm.physMem
  rcases ha'.sysFork hs' (hf₁.ofSameSched hq.sched hq.mm.physMem) with ⟨hall, -⟩ |
    ⟨new, frames, mm, hnew, hfork⟩
  · exact absurd ((hq.sched.live_iff 2).mp (hall 2)) hdead
  have hdisp : s₁.dispatch (plain .fork) =
      .done (((s₁.enter fun _ => 0).forked new frames mm).setEax (s₁.enter fun _ => 0).pid) := by
    show Kernel.finishExcept (s₁.enter fun _ => 0).sysFork = _
    rw [hfork]
    rfl
  set s := ((s₁.enter fun _ => 0).forked new frames mm).setEax (s₁.enter fun _ => 0).pid with hsdef
  have hrun : ExitRun zeroEnv.boot [plain .fork, plain .fork] s :=
    hrun₁.snoc (Kernel.exitsFindTwo_of_done hdisp) (Kernel.step_of_done hdisp)
  have hok := (hs'.forked (by rw [Kernel.Live] at hnew; omega) frames mm).congr
    (((s₁.enter fun _ => 0).forked new frames mm).quiet_setEax (s₁.enter fun _ => 0).pid).sched
  obtain ⟨Q, hs, hf, -⟩ := ExitRun.accounted hrun
  have hcur : s.cur = 0 := hcur₁
  obtain ⟨f, hph, -, -, hused⟩ := hf.valid s.cur hs.sched.cur_live 0
  have hpid : s.current.pid = 0 := hs.sched.current_pid_eq_zero_iff.mpr hcur
  have hd : s.dispatch (plain (.exit 0)) = .exits (.syscall 0) (s.enter fun _ => 0) := rfl
  have hg : s.ExitsFindTwo (plain (.exit 0)) := by
    intro cause s₂ s₃ hd' hpid'
    rw [hd, Phase.exits.injEq] at hd'
    rw [← hd'.2] at hpid'
    exact absurd ((s.quiet_enter fun _ => 0).sched.current_pid.trans hpid) hpid'
  obtain ⟨t, ht, hmm⟩ := hs.exit_frames hf hg hd
  refine ⟨s, t, f, hrun, hcur, hs.sched.cur_live, ?_, ht, hph, ?_⟩
  · rw [hok.runqueue_eq]
    simp
  · rw [hmm f, if_neg (fun h => h.1 hpid)]
    exact hused

end ZeOS
