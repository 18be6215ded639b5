import ZeOS.Invariants.Boot
import Mathlib.Data.List.TakeWhile

/-!
# Who owns which frame

Every live process owns twenty frames, no two processes share one, and the frames of the kernel,
of the code and of the data pages at boot belong to nobody (`FramesOk`).  This holds in every
state of every run, whatever the page table says, and each effect of a step keeps it.

The page table has forty entries that ever change: those of the data pages, and those of the
*window* above them, which `sys_fork` and `copy_from_circ_buffer` use to reach the frames of
another process.  `TableIs` says what they map, and there is one lemma for each routine that
writes them.
-/

namespace ZeOS

open IntrusiveList Relation Memory

/-! ## Frames -/

/-- The frames that no process is ever given: those of the kernel, of the code, and of the data
pages that task 0 starts with. -/
abbrev Reserved (f : ℕ) : Prop := taken 20 f = .used

/-- The frames of the live processes are in use and all different. -/
structure FramesOk (s : Kernel) : Prop where
  valid : ∀ u, s.Live u → ∀ i, ∃ f : ℕ, (s.task u).phPages i = f ∧ f < totalPages ∧ ¬ Reserved f ∧
    s.mm.physMem f = .used
  inj : ∀ u v, s.Live u → s.Live v → ∀ i j, (s.task u).phPages i = (s.task v).phPages j →
    u = v ∧ i = j
  reserved : ∀ f, Reserved f → s.mm.physMem f = .used

namespace FramesOk

variable {s t : Kernel}

lemma ne_neg_one (h : FramesOk s) {u : Slot} (hu : s.Live u) (i : Fin numPagData) :
    (s.task u).phPages i ≠ -1 := by
  obtain ⟨f, hf, -⟩ := h.valid u hu i
  rw [hf]
  omega

/-- The frame of a live process as the page table stores it. -/
lemma frameNat_eq (h : FramesOk s) {u : Slot} (hu : s.Live u) (i : Fin numPagData) :
    (frameNat ((s.task u).phPages i) : ℤ) = (s.task u).phPages i := by
  obtain ⟨f, hf, hlt, -⟩ := h.valid u hu i
  rw [hf, frameNat_natCast hlt]

lemma frameNat_ne (h : FramesOk s) {u v : Slot} (hu : s.Live u) (hv : s.Live v)
    {i j : Fin numPagData} (hne : ¬ (u = v ∧ i = j)) :
    frameNat ((s.task u).phPages i) ≠ frameNat ((s.task v).phPages j) := by
  intro heq
  apply hne
  refine h.inj u v hu hv i j ?_
  rw [← h.frameNat_eq hu, ← h.frameNat_eq hv, heq]

lemma not_reserved (h : FramesOk s) {u : Slot} (hu : s.Live u) (i : Fin numPagData) :
    ¬ Reserved (frameNat ((s.task u).phPages i)) := by
  obtain ⟨f, hf, hlt, hres, -⟩ := h.valid u hu i
  rw [hf, frameNat_natCast hlt]
  exact hres

/-- Fewer live processes, with the same frames. -/
lemma congr (h : FramesOk s) (hlive : ∀ u, t.Live u → s.Live u)
    (hpages : ∀ u, t.Live u → (t.task u).phPages = (s.task u).phPages)
    (hused : ∀ f, (Reserved f ∨ ∃ u i, t.Live u ∧ (s.task u).phPages i = f) →
      s.mm.physMem f = .used → t.mm.physMem f = .used) : FramesOk t := by
  refine ⟨fun u hu i => ?_, fun u v hu hv i j heq => ?_, fun f hf => ?_⟩
  · obtain ⟨f, hf, hlt, hres, hmark⟩ := h.valid u (hlive u hu) i
    exact ⟨f, by rw [hpages u hu, hf], hlt, hres, hused f (.inr ⟨u, i, hu, hf⟩) hmark⟩
  · rw [hpages u hu, hpages v hv] at heq
    exact h.inj u v (hlive u hu) (hlive v hv) i j heq
  · exact hused f (.inl hf) (h.reserved f hf)

lemma ofSameSched (h : FramesOk s) (hs : SameSched s t) (hphys : t.mm.physMem = s.mm.physMem) :
    FramesOk t :=
  h.congr (fun u hu => (hs.live_iff u).mp hu) (fun u _ => hs.pages u)
    (fun f _ hf => by rw [hphys]; exact hf)

/-- A new process with frames that were free. -/
lemma forked (h : FramesOk s) {new : Slot} (hnew : (s.task new).pid < 0) {frames : List ℕ}
    (hnd : frames.Nodup) (hlen : frames.length = numPagData)
    (hfree : ∀ f ∈ frames, numPagKernel ≤ f ∧ f < totalPages ∧ s.mm.physMem f = .free) :
    FramesOk (s.forked new (fun j => (frames.map fun f : ℕ => (f : ℤ)).getD j.val 0)
      (s.mm.mark frames .used)) := by
  set t := s.forked new (fun j => (frames.map fun f : ℕ => (f : ℤ)).getD j.val 0)
    (s.mm.mark frames .used) with ht
  have hphys : t.mm.physMem = (s.mm.mark frames .used).physMem := by
    rw [ht, Kernel.forked]
    simp only [copyDataPages_physMem]
  have htask : ∀ u, u ≠ new → t.task u = s.task u := fun u hu => Function.update_of_ne hu _ _
  have hlive : ∀ u, u ≠ new → t.Live u → s.Live u := by
    intro u hu hl
    rwa [Kernel.Live, htask u hu] at hl
  have hpages : ∀ j : Fin numPagData, ∃ f ∈ frames, (t.task new).phPages j = f ∧
      frames[j.val]? = some f := by
    intro j
    have hchild : (t.task new).phPages =
        fun j => (frames.map fun f : ℕ => (f : ℤ)).getD j.val 0 := by
      simp [ht, Kernel.forked, Kernel.child]
    rw [hchild]
    exact exists_getD_eq hlen j
  have hmark : ∀ f, s.mm.physMem f = .used → t.mm.physMem f = .used := by
    intro f hf
    rw [hphys]
    simp [mark, hf]
  refine ⟨fun u hu i => ?_, ?_, fun f hf => hmark f (h.reserved f hf)⟩
  · by_cases hun : u = new
    · subst hun
      obtain ⟨f, hf, heq, -⟩ := hpages i
      obtain ⟨-, hlt, hff⟩ := hfree f hf
      refine ⟨f, heq, hlt, fun hres => ?_, ?_⟩
      · rw [h.reserved f hres] at hff
        exact absurd hff (by decide)
      · rw [hphys]
        simp [mark, hf]
    · obtain ⟨f, heq, hlt, hres, hf⟩ := h.valid u (hlive u hun hu) i
      exact ⟨f, by rw [htask u hun, heq], hlt, hres, hmark f hf⟩
  -- a frame that was free is not one of a process that was there
  · have hother : ∀ u, u ≠ new → t.Live u → ∀ i j, (t.task u).phPages i ≠ (t.task new).phPages j := by
      intro u hun hu i j heq
      obtain ⟨f, hf, hf', -⟩ := hpages j
      obtain ⟨g, hg, -, -, hused⟩ := h.valid u (hlive u hun hu) i
      rw [htask u hun, hg, hf'] at heq
      have hgf : g = f := by exact_mod_cast heq
      rw [hgf, (hfree f hf).2.2] at hused
      exact absurd hused (by decide)
    intro u v hu hv i j heq
    by_cases hun : u = new
    · subst hun
      by_cases hvn : v = u
      · subst hvn
        obtain ⟨f, -, hf, hfi⟩ := hpages i
        obtain ⟨g, -, hg, hgj⟩ := hpages j
        rw [hf, hg] at heq
        have hfg : f = g := by exact_mod_cast heq
        have hlt : i.val < frames.length := by
          rw [hlen]
          exact i.isLt
        refine ⟨rfl, Fin.ext ((List.getElem?_inj hlt hnd).mp ?_)⟩
        rw [hfi, hgj, hfg]
      · exact absurd heq.symm (hother v hvn hv j i)
    · by_cases hvn : v = new
      · subst hvn
        exact absurd heq (hother u hun hu i j)
      · rw [htask u hun, htask v hvn] at heq
        exact h.inj u v (hlive u hun hu) (hlive v hvn hv) i j heq

/-- `sys_exit` marks the frames of the running process, and no other. -/
lemma leave_mm (h : FramesOk s) (hcur : s.Live s.cur) :
    ∃ fr : Fin numPagData → ℕ, (∀ i, s.current.phPages i = fr i) ∧ (∀ i, ¬ Reserved (fr i)) ∧
      s.leave.mm = s.mm.mark ((List.finRange numPagData).map fr) .free := by
  choose fr hfr hlt hres hfused using h.valid s.cur hcur
  refine ⟨fr, hfr, hres, ?_⟩
  rw [Kernel.leave_eq]
  change (List.finRange numPagData).foldl (fun m i => m.freeFrame (s.current.phPages i)) s.mm = _
  have hmap : (List.finRange numPagData).foldl (fun m i => m.freeFrame (s.current.phPages i)) s.mm =
      (((List.finRange numPagData).map fr).map fun f : ℕ => (f : ℤ)).foldl freeFrame s.mm := by
    rw [List.map_map, List.foldl_map]
    congr 1
    funext m i
    exact congrArg m.freeFrame (hfr i)
  rw [hmap, foldl_freeFrame]
  intro f hf
  obtain ⟨i, -, rfl⟩ := List.mem_map.mp hf
  exact hlt i

/-- The running process ends and its frames are free. -/
lemma leave (h : FramesOk s) (hcur : s.Live s.cur) : FramesOk s.leave := by
  obtain ⟨fr, hfr, hres, hmm⟩ := h.leave_mm hcur
  have htask : ∀ u, u ≠ s.cur → s.leave.task u = s.task u := by
    intro u hu
    rw [Kernel.leave_eq]
    exact Function.update_of_ne hu _ _
  have hne : ∀ u, s.leave.Live u → u ≠ s.cur := by
    rintro u hu rfl
    rw [Kernel.Live, Kernel.leave_eq] at hu
    simp at hu
  refine h.congr (fun u hu => ?_) (fun u hu => by rw [htask u (hne u hu)]) (fun f hf hused => ?_)
  · rw [Kernel.Live, htask u (hne u hu)] at hu
    exact hu
  · rw [hmm]
    have hout : f ∉ (List.finRange numPagData).map fr := by
      intro hmem
      obtain ⟨i, -, rfl⟩ := List.mem_map.mp hmem
      rcases hf with hf | ⟨u, j, hu, hj⟩
      · exact hres i hf
      · have hu' : s.Live u := by
          have := hu
          rwa [Kernel.Live, htask u (hne u hu)] at this
        exact hne u hu (h.inj u s.cur hu' hcur j i (by rw [hj, hfr i])).1
    simp only [mark, if_neg hout]
    exact hused

end FramesOk

/-! ## The page table -/

namespace Memory

/-- No page of the window is present. -/
def WindowClear (m : Memory) : Prop :=
  ∀ i : Fin numPagData, (m.pagusrTable (windowPage + i.val)).present = false

/-- The window maps nothing, or the given frames. -/
def WindowIs (m : Memory) : Option (Fin numPagData → ℤ) → Prop
  | none => m.WindowClear
  | some w => ∀ i : Fin numPagData, m.pagusrTable (windowPage + i.val) = ssEntry (w i)

/-- The data pages map the frames `D` and the window `W`; the other entries are those of `T`. -/
structure TableIs (T : ℕ → PageTableEntry) (m : Memory) (D : Fin numPagData → ℤ)
    (W : Option (Fin numPagData → ℤ)) : Prop where
  data : ∀ i : Fin numPagData, m.pagusrTable (pagLogInitDataP0 + i.val) = ssEntry (D i)
  window : m.WindowIs W
  other : ∀ page, page < pagLogInitDataP0 ∨ windowPage + numPagData ≤ page →
    m.pagusrTable page = T page

variable {T : ℕ → PageTableEntry} {m n : Memory} {D : Fin numPagData → ℤ}
  {W : Option (Fin numPagData → ℤ)}

lemma pageIndex_lt (i : Fin numPagData) : i.val < 20 := i.isLt

/-- A window that maps frames is not clear. -/
lemma WindowIs.clear_iff (h : m.WindowIs W) : m.WindowClear ↔ W = none := by
  cases W with
  | none => exact ⟨fun _ => rfl, fun _ => h⟩
  | some w =>
    refine ⟨fun hc => ?_, fun hn => absurd hn (by simp)⟩
    have hp := hc 0
    rw [h 0] at hp
    exact absurd hp (by simp [ssEntry])

lemma TableIs.congr (h : TableIs T m D W) (htable : n.pagusrTable = m.pagusrTable) :
    TableIs T n D W := by
  refine ⟨by rw [htable]; exact h.data, ?_, by rw [htable]; exact h.other⟩
  cases W with
  | none =>
    intro i
    rw [htable]
    exact h.window i
  | some w =>
    intro i
    rw [htable]
    exact h.window i

lemma TableIs.setWindow (h : TableIs T m D W) (w : Fin numPagData → ℤ) :
    TableIs T (m.setSsPags windowPage w (List.finRange numPagData)) D (some w) := by
  refine ⟨fun i => ?_, fun i => setSsPags_table_mem (List.mem_finRange i), fun page hpage => ?_⟩
  · rw [setSsPags_table_of_ne]
    · exact h.data i
    · intro j _
      have := pageIndex_lt i
      show 264 + i.val ≠ 284 + j.val
      omega
  · rw [setSsPags_table_of_ne]
    · exact h.other page hpage
    · intro j _
      have := pageIndex_lt j
      change page < 264 ∨ 284 + 20 ≤ page at hpage
      show page ≠ 284 + j.val
      omega

lemma TableIs.setData (h : TableIs T m D W) (w : Fin numPagData → ℤ) :
    TableIs T (m.setSsPags pagLogInitDataP0 w (List.finRange numPagData)) w W := by
  have hwindow : ∀ i : Fin numPagData, (m.setSsPags pagLogInitDataP0 w
      (List.finRange numPagData)).pagusrTable (windowPage + i.val) =
        m.pagusrTable (windowPage + i.val) := by
    intro i
    refine setSsPags_table_of_ne (fun j _ => ?_)
    have := pageIndex_lt j
    show 284 + i.val ≠ 264 + j.val
    omega
  refine ⟨fun i => setSsPags_table_mem (List.mem_finRange i), ?_, fun page hpage => ?_⟩
  · cases W with
    | none =>
      intro i
      rw [hwindow]
      exact h.window i
    | some v =>
      intro i
      rw [hwindow]
      exact h.window i
  · rw [setSsPags_table_of_ne]
    · exact h.other page hpage
    · intro j _
      have := pageIndex_lt j
      change page < 264 ∨ 284 + 20 ≤ page at hpage
      show page ≠ 264 + j.val
      omega

/-- The copy for a child takes the window out of the table. -/
lemma TableIs.copyDataPages (h : TableIs T m D W) (frames : Fin numPagData → ℤ) :
    TableIs T (m.copyDataPages frames) D none := by
  refine ⟨fun i => ?_, fun i => ?_, fun page hpage => ?_⟩
  · rw [copyDataPages_table, if_neg]
    · exact h.data i
    · rintro ⟨j, hj⟩
      have := pageIndex_lt i
      change 264 + i.val = 284 + j.val at hj
      omega
  · rw [copyDataPages_table, if_pos ⟨i, rfl⟩]
    rfl
  · rw [copyDataPages_table, if_neg]
    · exact h.other page hpage
    · rintro ⟨j, hj⟩
      have := pageIndex_lt j
      change page < 264 ∨ 284 + 20 ≤ page at hpage
      change page = 284 + j.val at hj
      omega

end Memory

/-! ## Effects on frames and pages -/

namespace Kernel

/-- A switch maps the data pages to the frames of the next process. -/
lemma handTo_mm {s : Kernel} {u : Slot} (h : ∀ i, (s.task u).phPages i ≠ -1) (i : ℤ) :
    (s.handTo i u).mm =
      s.mm.setSsPags pagLogInitDataP0 (s.task u).phPages (List.finRange numPagData) := by
  have hall : (List.finRange numPagData).takeWhile (fun j => decide ((s.task u).phPages j ≠ -1)) =
      List.finRange numPagData := by
    rw [List.takeWhile_eq_self_iff]
    intro j _
    simpa using h j
  simp only [handTo, taskSwitch, updTask_task_self, updTask_mm]
  rw [hall]

lemma forked_mm (s : Kernel) (new : Slot) (frames : Fin numPagData → ℤ) (mm : Memory) :
    (s.forked new frames mm).mm = mm.copyDataPages frames := rfl

lemma leave_task_of_ne {s : Kernel} {u : Slot} (h : u ≠ s.cur) : s.leave.task u = s.task u := by
  rw [leave_eq]
  exact Function.update_of_ne h _ _

end Kernel

/-- A delivery changes the window only. -/
lemma Kernel.copyFromCircBuffer_pages {s t : Kernel} {b : Slot} {size : ℤ}
    (h : s.copyFromCircBuffer b size = .ret () t ∨ s.copyFromCircBuffer b size = .fault t) :
    SameSched s t ∧ t.mm.physMem = s.mm.physMem ∧
      ∀ {T : ℕ → PageTableEntry} {D : Fin numPagData → ℤ} {W : Option (Fin numPagData → ℤ)},
        TableIs T s.mm D W →
        (s.copyFromCircBuffer b size = .ret () t → TableIs T t.mm D (some s.current.phPages)) ∧
        (s.copyFromCircBuffer b size = .fault t → TableIs T t.mm D (some (s.task b).phPages)) := by
  have hsame := s.sameSched_copyFromCircBuffer b size
  rcases s.copyFromCircBuffer_cases b size with ⟨-, hc⟩ | ⟨-, mm, ⟨hcopy, hc⟩ | ⟨hcopy, hc⟩⟩
  · rw [hc] at h
    simp at h
  · have hpages := samePages_copyToUser (s.windowOf b) ((s.task b).buffer + numPagData * pageSize)
      (Kernel.circBytes s.kbd size.toNat)
    rw [hcopy] at hpages
    rw [hc] at h hsame
    simp only [Outcome.ret.injEq, true_and, reduceCtorEq, or_false] at h
    subst h
    refine ⟨hsame, ?_, fun htable => ⟨fun _ => ?_, fun hf => ?_⟩⟩
    · simp only [setSsPags_physMem]
      rw [hpages.physMem, Kernel.windowOf, setSsPags_physMem]
    · exact ((htable.setWindow (s.task b).phPages).congr hpages.table).setWindow _
    · rw [hc] at hf
      simp at hf
  · have hpages := samePages_copyToUser (s.windowOf b) ((s.task b).buffer + numPagData * pageSize)
      (Kernel.circBytes s.kbd size.toNat)
    rw [hcopy] at hpages
    rw [hc] at h hsame
    simp only [Outcome.fault.injEq, reduceCtorEq, false_or] at h
    subst h
    refine ⟨hsame, ?_, fun htable => ⟨fun hr => ?_, fun _ => ?_⟩⟩
    · rw [Kernel.updTask_mm, hpages.physMem, Kernel.windowOf, setSsPags_physMem]
    · rw [hc] at hr
      simp at hr
    · rw [Kernel.updTask_mm]
      exact (htable.setWindow (s.task b).phPages).congr hpages.table

/-- The live processes stay, with their frames. -/
lemma Calm.pages {act : Action} {x y : Config} (h : Calm act x y) {u : Slot} (hu : x.1.Live u) :
    y.1.Live u ∧ (y.1.task u).phPages = (x.1.task u).phPages := by
  have hsame : ∀ {s t : Kernel}, SameSched s t → s.Live u →
      t.Live u ∧ (t.task u).phPages = (s.task u).phPages :=
    fun hs hl => ⟨(hs.live_iff u).mpr hl, hs.pages u⟩
  cases h with
  | quiet h => exact hsame h.sched hu
  | wake => exact ⟨hu, rfl⟩
  | count => exact ⟨hu, rfl⟩
  | @init s t Q k n v hk hact hn hsame' hsem htask hok =>
    refine ⟨?_, ?_⟩
    · rw [Kernel.Live, htask]
      split_ifs <;> exact hu
    · rw [htask]
      split_ifs <;> rfl
  | release hown hrel hok =>
    exact ⟨by rw [Kernel.Live, hrel.task_pid]; exact hu, hrel.task_phPages u⟩
  | deliver hact hb hwho h => exact hsame (Kernel.copyFromCircBuffer_pages (.inl h)).1 hu
  | deliverFault hact hb hwho h => exact hsame (Kernel.copyFromCircBuffer_pages (.inr h)).1 hu
  | @fork s Q new frames mm hact hnew hmm hlen =>
    have hne : u ≠ new := by
      rintro rfl
      have : 0 ≤ (s.task u).pid := hu
      omega
    have htask : (s.forked new (fun j => frames.getD j.val 0) mm).task u = s.task u :=
      Function.update_of_ne hne _ _
    exact ⟨by rw [Kernel.Live, htask]; exact hu, by rw [htask]⟩
  | @forkFailed s Q new mm hnew hmm =>
    have hne : u ≠ new := by
      rintro rfl
      have : 0 ≤ (s.task u).pid := hu
      omega
    have htask : (s.forkFailed new mm).task u = s.task u := Function.update_of_ne hne _ _
    exact ⟨by rw [Kernel.Live, htask]; exact hu, by rw [htask]⟩

/-- Calm effects keep the ownership of frames. -/
lemma Calm.frames {act : Action} {x y : Config} (h : Calm act x y) (hf : FramesOk x.1) :
    FramesOk y.1 := by
  have hpages := fun u (hu : x.1.Live u) => h.pages hu
  cases h with
  | quiet h => exact hf.ofSameSched h.sched h.mm.physMem
  | wake => exact hf.congr (fun _ hu => hu) (fun _ _ => rfl) (fun _ _ hu => hu)
  | count => exact hf.congr (fun _ hu => hu) (fun _ _ => rfl) (fun _ _ hu => hu)
  | @init s t Q k n v hk hact hn hsame hsem htask hok =>
    have hpid : ∀ u, t.Live u → s.Live u := by
      intro u hu
      rw [Kernel.Live, htask] at hu
      split_ifs at hu <;> exact hu
    refine hf.congr hpid (fun u hu => (hpages u (hpid u hu)).2) (fun f _ hused => ?_)
    rw [hsame]
    exact hused
  | @release s t Q ns hown hrel hok =>
    have hpid : ∀ u, t.Live u → s.Live u := by
      intro u hu
      rwa [Kernel.Live, hrel.task_pid] at hu
    refine hf.congr hpid (fun u _ => hrel.task_phPages u) (fun f _ hused => ?_)
    rw [hrel.mm]
    exact hused
  | deliver hact hb hwho h =>
    obtain ⟨hs, hphys, -⟩ := Kernel.copyFromCircBuffer_pages (.inl h)
    exact hf.ofSameSched hs hphys
  | deliverFault hact hb hwho h =>
    obtain ⟨hs, hphys, -⟩ := Kernel.copyFromCircBuffer_pages (.inr h)
    exact hf.ofSameSched hs hphys
  | @fork s Q new frames mm hact hnew hmm hlen =>
    obtain ⟨fs, hnd, hfree, rfl, rfl⟩ := allocFrames_some hmm
    rw [List.length_map] at hlen
    exact hf.forked hnew hnd hlen hfree
  | @forkFailed s Q new mm hnew hmm =>
    have hmm' : mm = s.mm := allocFrames_none hmm
    have hne : ∀ u, (s.forkFailed new mm).Live u → u ≠ new := by
      rintro u hu rfl
      simp [Kernel.Live, Kernel.forkFailed] at hu
    have htask : ∀ u, u ≠ new → (s.forkFailed new mm).task u = s.task u :=
      fun u hu => Function.update_of_ne hu _ _
    refine hf.congr (fun u hu => ?_) (fun u hu => by rw [htask u (hne u hu)]) (fun f _ hused => ?_)
    · rw [Kernel.Live, htask u (hne u hu)] at hu
      exact hu
    · exact hmm' ▸ hused

section

variable {act : Action} {x y : Config} {T : ℕ → PageTableEntry} {D : Fin numPagData → ℤ}
  {W : Option (Fin numPagData → ℤ)}

/-- What the window may map after calm effects: what it did, nothing after a fork, or the frames
of a process after keyboard input. -/
def WindowAfter (act : Action) (s : Kernel) (W W' : Option (Fin numPagData → ℤ)) : Prop :=
  W' = W ∨ (act = .fork ∧ W' = none) ∨
    (act.OnKeyboard ∧ ∃ b, s.Live b ∧ W' = some (s.task b).phPages)

lemma Calm.table (h : Calm act x y) (hs : SchedOk x.1 x.2) (ht : TableIs T x.1.mm D W) :
    ∃ W', TableIs T y.1.mm D W' ∧ WindowAfter act y.1 W W' := by
  have hpages := fun u (hu : x.1.Live u) => h.pages hu
  cases h with
  | quiet h => exact ⟨W, ht.congr h.mm.table, .inl rfl⟩
  | wake => exact ⟨W, ht, .inl rfl⟩
  | count => exact ⟨W, ht, .inl rfl⟩
  | @init s t Q k n v hk hact hn hsame hsem htask hok =>
    refine ⟨W, ht.congr ?_, .inl rfl⟩
    rw [hsame]
  | release hown hrel hok => exact ⟨W, ht.congr (by rw [hrel.mm]), .inl rfl⟩
  | @deliver s t Q b size hact hb hwho h =>
    obtain ⟨-, -, htable⟩ := Kernel.copyFromCircBuffer_pages (.inl h)
    obtain ⟨hlive, hph⟩ := hpages s.cur hs.cur_live
    exact ⟨_, (htable ht).1 h, .inr (.inr ⟨hact, s.cur, hlive, congrArg some hph.symm⟩)⟩
  | @deliverFault s t Q b size hact hb hwho h =>
    obtain ⟨-, -, htable⟩ := Kernel.copyFromCircBuffer_pages (.inr h)
    obtain ⟨hlive, hph⟩ := hpages b hb
    exact ⟨_, (htable ht).2 h, .inr (.inr ⟨hact, b, hlive, congrArg some hph.symm⟩)⟩
  | @fork s Q new frames mm hact hnew hmm hlen =>
    obtain ⟨fs, -, -, -, rfl⟩ := allocFrames_some hmm
    have htable : (s.mm.mark fs .used).pagusrTable = s.mm.pagusrTable := rfl
    refine ⟨none, ?_, .inr (.inl ⟨hact, rfl⟩)⟩
    rw [Kernel.forked_mm]
    exact (ht.congr htable).copyDataPages _
  | @forkFailed s Q new mm hnew hmm =>
    have hsame : (s.forkFailed new mm).mm = s.mm := allocFrames_none hmm
    exact ⟨W, ht.congr (by rw [hsame]), .inl rfl⟩

lemma Calms.pages (h : Calms act x y) {u : Slot} (hu : x.1.Live u) :
    y.1.Live u ∧ (y.1.task u).phPages = (x.1.task u).phPages := by
  induction h with
  | refl => exact ⟨hu, rfl⟩
  | tail _ hc ih =>
    obtain ⟨hlive, hph⟩ := hc.pages ih.1
    exact ⟨hlive, hph.trans ih.2⟩

lemma Calms.frames (h : Calms act x y) (hf : FramesOk x.1) : FramesOk y.1 := by
  induction h with
  | refl => exact hf
  | tail _ hc ih => exact hc.frames ih

lemma Calms.table (h : Calms act x y) (hs : SchedOk x.1 x.2) (ht : TableIs T x.1.mm D W) :
    ∃ W', TableIs T y.1.mm D W' ∧ WindowAfter act y.1 W W' := by
  induction h with
  | refl => exact ⟨W, ht, .inl rfl⟩
  | @tail z w hcs hc ih =>
    obtain ⟨W₁, ht₁, hw₁⟩ := ih
    obtain ⟨W₂, ht₂, hw₂⟩ := hc.table (Calms.schedOk hcs hs) ht₁
    refine ⟨W₂, ht₂, ?_⟩
    rcases hw₂ with rfl | hw₂
    · rcases hw₁ with rfl | hw₁ | ⟨hact, b, hb, rfl⟩
      · exact .inl rfl
      · exact .inr (.inl hw₁)
      · obtain ⟨hlive, hph⟩ := hc.pages hb
        exact .inr (.inr ⟨hact, b, hlive, congrArg some hph.symm⟩)
    · exact .inr hw₂

/-- The processes that are left after a handover keep their frames. -/
lemma Handover.pages (h : Handover act x y) {u : Slot} (hu : y.1.Live u) :
    x.1.Live u ∧ (y.1.task u).phPages = (x.1.task u).phPages := by
  cases h with
  | @move s Q h v rest i ha h0 hact hkbd hne hQ =>
    refine ⟨?_, Kernel.handTo_task_phPages _ _ _ _⟩
    rwa [Kernel.Live, Kernel.handTo_task_pid] at hu
  | @exit s Q v rest h0 hfree hQ =>
    rw [Kernel.Live, Kernel.handTo_task_pid] at hu
    have hne : u ≠ s.cur := by
      rintro rfl
      rw [Kernel.leave_eq] at hu
      simp at hu
    rw [Kernel.leave_task_of_ne hne] at hu
    refine ⟨hu, ?_⟩
    rw [Kernel.handTo_task_phPages, Kernel.leave_task_of_ne hne]

lemma Handover.frames (h : Handover act x y) (hs : SchedOk x.1 x.2) (hf : FramesOk x.1) :
    FramesOk y.1 := by
  have hok := h.schedOk hs
  have hpages := fun u (hu : y.1.Live u) => h.pages hu
  have hcur := hok.cur_live
  cases h with
  | @move s Q h v rest i ha h0 hact hkbd hne hQ =>
    have hv : ∀ j, ((s.moveCurrent h).task v).phPages j ≠ -1 := hf.ne_neg_one (hpages v hcur).1
    refine hf.congr (fun u hu => (hpages u hu).1) (fun u hu => (hpages u hu).2) (fun f _ hused => ?_)
    rw [Kernel.handTo_mm hv, setSsPags_physMem]
    exact hused
  | @exit s Q v rest h0 hfree hQ =>
    have hleave := hf.leave hs.cur_live
    have hlive : ∀ u, (s.leave.handTo 0 v).Live u → s.leave.Live u := by
      intro u hu
      rwa [Kernel.Live, Kernel.handTo_task_pid] at hu
    have hv : ∀ j, (s.leave.task v).phPages j ≠ -1 := hleave.ne_neg_one (hlive v hcur)
    refine hleave.congr hlive (fun u _ => Kernel.handTo_task_phPages ..) (fun f _ hused => ?_)
    rw [Kernel.handTo_mm hv, setSsPags_physMem]
    exact hused

/-- After a handover the data pages map the frames of the process that runs. -/
lemma Handover.table (h : Handover act x y) (hs : SchedOk x.1 x.2) (hf : FramesOk x.1)
    (ht : TableIs T x.1.mm D W) : TableIs T y.1.mm y.1.current.phPages W := by
  have hok := h.schedOk hs
  have hpages := fun u (hu : y.1.Live u) => h.pages hu
  have hcur := hok.cur_live
  cases h with
  | @move s Q h v rest i ha h0 hact hkbd hne hQ =>
    have hv : ∀ j, ((s.moveCurrent h).task v).phPages j ≠ -1 := hf.ne_neg_one (hpages v hcur).1
    have hset := ht.setData ((s.moveCurrent h).task v).phPages
    rw [Kernel.current, Kernel.handTo_mm hv]
    simp only [Kernel.handTo_cur, Kernel.handTo_task_phPages]
    exact hset
  | @exit s Q v rest h0 hfree hQ =>
    have hleave := hf.leave hs.cur_live
    have hlive : s.leave.Live v := by
      rwa [Kernel.Live, Kernel.handTo_task_pid] at hcur
    have hv : ∀ j, (s.leave.task v).phPages j ≠ -1 := hleave.ne_neg_one hlive
    have hset := (ht.congr s.leave_table).setData (s.leave.task v).phPages
    rw [Kernel.current, Kernel.handTo_mm hv]
    simp only [Kernel.handTo_cur, Kernel.handTo_task_phPages]
    exact hset

/-- A handover changes which process runs. -/
lemma Handover.cur_ne (h : Handover act x y) (hs : SchedOk x.1 x.2) : y.1.cur ≠ x.1.cur := by
  cases h with
  | move i ha h0 hact hkbd hne hQ => exact hne
  | @exit s Q v rest h0 hfree hQ =>
    rw [leftQueues, Function.update_self] at hQ
    exact hs.ne_cur_of_mem_tail (by simp [hQ])

end

lemma Turn.frames {act : Action} {x y : Config} (h : Turn act x y) (hs : SchedOk x.1 x.2)
    (hf : FramesOk x.1) : FramesOk y.1 := by
  rcases h with h | ⟨z, hc, hh⟩
  · exact h.frames hf
  · exact hh.frames (Calms.schedOk hc hs) (hc.frames hf)

lemma Turn.table {act : Action} {x y : Config} {T : ℕ → PageTableEntry} {D : Fin numPagData → ℤ}
    {W : Option (Fin numPagData → ℤ)} (h : Turn act x y) (hs : SchedOk x.1 x.2) (hf : FramesOk x.1)
    (ht : TableIs T x.1.mm D W) : ∃ D' W', TableIs T y.1.mm D' W' := by
  rcases h with h | ⟨z, hc, hh⟩
  · obtain ⟨W', ht', -⟩ := h.table hs ht
    exact ⟨D, W', ht'⟩
  · obtain ⟨W', ht', -⟩ := hc.table hs ht
    exact ⟨_, W', hh.table (Calms.schedOk hc hs) (hc.frames hf) ht'⟩

/-! ## Boot -/

namespace Env

variable (E : Env)

lemma boot_live_iff (u : Slot) : E.boot.Live u ↔ u = 0 := by
  rw [Kernel.Live, E.boot_task_pid]
  split_ifs with h
  · simp [h]
  · simp [h]

lemma boot_phPages (i : Fin numPagData) :
    (E.boot.task 0).phPages i = ((firstFrame + 2 * (20 + i.val) : ℕ) : ℤ) := by
  change E.task0Pages.1 i = _
  rw [E.task0Pages_eq]

lemma boot_framesOk : FramesOk E.boot := by
  refine ⟨fun u hu i => ?_, fun u v hu hv i j heq => ?_, fun f hf => ?_⟩
  · rw [E.boot_live_iff] at hu
    subst hu
    have hi := pageIndex_lt i
    refine ⟨_, E.boot_phPages i, ?_, ?_, ?_⟩
    · show 264 + 2 * (20 + i.val) < 1024
      omega
    · rw [Reserved, taken_eq_used_iff]
      show ¬ (264 + 2 * (20 + i.val) < 264 ∨ _ ∧ 264 + 2 * (20 + i.val) < _)
      omega
    · rw [E.boot_physMem, taken_eq_used_iff]
      right
      show (264 + 2 * (20 + i.val)) % 2 = 0 ∧ 264 + 2 * (20 + i.val) < _
      omega
  · rw [E.boot_live_iff] at hu hv
    subst hu
    subst hv
    rw [E.boot_phPages, E.boot_phPages] at heq
    refine ⟨rfl, Fin.ext ?_⟩
    have : firstFrame + 2 * (20 + i.val) = firstFrame + 2 * (20 + j.val) := by exact_mod_cast heq
    omega
  · rw [E.boot_physMem, taken_eq_used_iff]
    rw [Reserved, taken_eq_used_iff] at hf
    omega

/-- The entries outside the data pages and above the code pages map nothing. -/
lemma codeMemory_above {page : ℕ} (h : 264 ≤ page) :
    (E.codeMemory.pagusrTable page).present = false := by
  show (if 256 ≤ page ∧ page < 264 then _ else initTablePages E.taskPage page).present = false
  rw [if_neg (by omega), initTablePages]
  split_ifs with htask hlow
  · rfl
  · change page < 256 at hlow
    omega
  · rfl

lemma codeMemory_code {page : ℕ} (h : 256 ≤ page ∧ page < 264) : E.codeMemory.pagusrTable page =
    { present := true, rw := false, user := true, pbaseAddr := page } := by
  show (if 256 ≤ page ∧ page < 264 then
    ({ present := true, rw := false, user := true, pbaseAddr := 256 + (page - 256) } : PageTableEntry)
    else _) = _
  rw [if_pos h, show 256 + (page - 256) = page by omega]

lemma codeMemory_init {page : ℕ} (h : page < 256) :
    E.codeMemory.pagusrTable page = initTablePages E.taskPage page := by
  show (if 256 ≤ page ∧ page < 264 then _ else initTablePages E.taskPage page) = _
  rw [if_neg (by omega)]

lemma codeMemory_kernel {page : ℕ} (h : page < 256) :
    (E.codeMemory.pagusrTable page).user = false ∧ (E.codeMemory.pagusrTable page).pbaseAddr = page := by
  rw [E.codeMemory_init h, initTablePages]
  split_ifs
  · exact ⟨rfl, rfl⟩
  · exact ⟨rfl, rfl⟩

/-- At boot the data pages map the first twenty data frames and the window nothing. -/
lemma boot_tableIs : TableIs E.codeMemory.pagusrTable E.boot.mm startFrames none := by
  refine ⟨E.boot_table_data, fun i => ?_, fun page hpage => E.boot_table_other fun i => ?_⟩
  · rw [E.boot_table_other]
    · exact E.codeMemory_above (by show 264 ≤ 284 + i.val; omega)
    · intro j
      have := pageIndex_lt j
      show 284 + i.val ≠ 264 + j.val
      omega
  · have := pageIndex_lt i
    change page < 264 ∨ 284 + 20 ≤ page at hpage
    show page ≠ 264 + i.val
    omega

end Env

lemma FramesOk.step {s t : Kernel} {Q : Node → List Slot} {e : Event} (hf : FramesOk s)
    (hs : SystemOk s Q) (hg : s.ExitsFindTwo e) (hst : s.step e = .ok t) :
    ∃ Q', SystemOk t Q' ∧ FramesOk t := by
  obtain ⟨Q', hturn⟩ := (hs.step_effects e hg).1 t hst
  exact ⟨Q', hturn.systemOk hs, hturn.frames hs.sched hf⟩

/-- In every run the page table has the shape it had at boot. -/
lemma ExitRun.table {E : Env} {es : List Event} {s : Kernel} (h : ExitRun E.boot es s) :
    ∃ D W, TableIs E.codeMemory.pagusrTable s.mm D W := by
  have hstep : ∀ s e t,
      (∃ Q, SystemOk s Q ∧ FramesOk s ∧ ∃ D W, TableIs E.codeMemory.pagusrTable s.mm D W) →
      s.ExitsFindTwo e → s.step e = .ok t →
      ∃ Q, SystemOk t Q ∧ FramesOk t ∧ ∃ D W, TableIs E.codeMemory.pagusrTable t.mm D W := by
    rintro s e t ⟨Q, hs, hf, D, W, ht⟩ hg hst
    obtain ⟨Q', hturn⟩ := (hs.step_effects e hg).1 t hst
    exact ⟨Q', hturn.systemOk hs, hturn.frames hs.sched hf, hturn.table hs.sched hf ht⟩
  obtain ⟨-, -, -, ht⟩ :=
    h.invariant hstep ⟨_, E.boot_systemOk, E.boot_framesOk, _, _, E.boot_tableIs⟩
  exact ht

/-! ## A step that comes to no call of `sys_exit` -/

section

variable {T : ℕ → PageTableEntry} {D : Fin numPagData → ℤ} {W : Option (Fin numPagData → ℤ)}
  {s t : Kernel} {Q : Node → List Slot}

/-- The same process runs, and the window is as it was, clear, or maps its own frames. -/
def StaysOn (T : ℕ → PageTableEntry) (D : Fin numPagData → ℤ) (W : Option (Fin numPagData → ℤ))
    (s t : Kernel) : Prop :=
  t.cur = s.cur ∧ ∃ W', TableIs T t.mm D W' ∧ (W' = W ∨ W' = none ∨ W' = some s.current.phPages)

/-- Another process runs, with its data pages mapped, and the window is as it was. -/
def MovesOn (T : ℕ → PageTableEntry) (W : Option (Fin numPagData → ℤ)) (s t : Kernel) : Prop :=
  t.cur ≠ s.cur ∧ TableIs T t.mm t.current.phPages W

lemma StaysOn.of_quiet {u : Kernel} (h : StaysOn T D W s t) (hq : Quiet t u) : StaysOn T D W s u := by
  obtain ⟨hcur, W', ht, hW⟩ := h
  exact ⟨hq.sched.cur.trans hcur, W', ht.congr hq.mm.table, hW⟩

lemma StaysOn.head {u : Kernel} (h : StaysOn T D W t u) (hq : Quiet s t) : StaysOn T D W s u := by
  obtain ⟨hcur, W', ht, hW⟩ := h
  have hph : t.current.phPages = s.current.phPages := by
    rw [Kernel.current, hq.sched.cur, hq.sched.pages]
  exact ⟨hcur.trans hq.sched.cur, W', ht, hph ▸ hW⟩

/-- The queues are as they were, and the window is too or maps the frames of the running process
or of a process that waits for the keyboard. -/
def FaultsOn (T : ℕ → PageTableEntry) (D : Fin numPagData → ℤ) (W : Option (Fin numPagData → ℤ))
    (Q : Node → List Slot) (s t : Kernel) : Prop :=
  SameSched s t ∧ ∃ W', TableIs T t.mm D W' ∧
    (W' = W ∨ ∃ b, (b = s.cur ∨ b ∈ Q .keyboardQueue) ∧ W' = some (s.task b).phPages)

/-- How kernel code that may touch the window ends. -/
def Outcome.Pages {α : Type} (T : ℕ → PageTableEntry) (D : Fin numPagData → ℤ)
    (W : Option (Fin numPagData → ℤ)) (Q : Node → List Slot) (s : Kernel) :
    Outcome Kernel α → Prop
  | .ret _ t => StaysOn T D W s t
  | .switched t => MovesOn T W s t
  | .fault t => FaultsOn T D W Q s t
  | .stop _ => True

lemma FaultsOn.of_quiet {u : Kernel} (h : FaultsOn T D W Q s t) (hq : Quiet t u) :
    FaultsOn T D W Q s u := by
  obtain ⟨hsame, W', ht, hW⟩ := h
  exact ⟨hsame.trans hq.sched, W', ht.congr hq.mm.table, hW⟩

lemma FaultsOn.head {u : Kernel} (h : FaultsOn T D W Q t u) (hq : Quiet s t) :
    FaultsOn T D W Q s u := by
  obtain ⟨hsame, W', ht, hW⟩ := h
  refine ⟨hq.sched.trans hsame, W', ht, hW.imp_right ?_⟩
  rintro ⟨b, hb, hW'⟩
  exact ⟨b, by rwa [hq.sched.cur] at hb, by rw [hW', hq.sched.pages]⟩

lemma Outcome.Pages.head {α : Type} {o : Outcome Kernel α} (h : o.Pages T D W Q t)
    (hq : Quiet s t) : o.Pages T D W Q s := by
  cases o with
  | ret r u => exact StaysOn.head h hq
  | switched u => exact ⟨by rw [← hq.sched.cur]; exact h.1, h.2⟩
  | fault u => exact FaultsOn.head h hq
  | stop r => trivial

lemma StaysOn.refl (ht : TableIs T s.mm D W) : StaysOn T D W s s := ⟨rfl, W, ht, .inl rfl⟩

/-- A delivery that ends well leaves the window on the frames of the running process. -/
lemma StaysOn.deliver {b : Slot} {size : ℤ} (ht : TableIs T s.mm D W)
    (h : s.copyFromCircBuffer b size = .ret () t) : StaysOn T D W s t := by
  obtain ⟨hsame, -, htable⟩ := Kernel.copyFromCircBuffer_pages (.inl h)
  exact ⟨hsame.cur, _, (htable ht).1 h, .inr (.inr rfl)⟩

lemma FaultsOn.deliver {b : Slot} {size : ℤ} (ht : TableIs T s.mm D W)
    (hwho : b = s.cur ∨ b ∈ Q .keyboardQueue) (h : s.copyFromCircBuffer b size = .fault t) :
    FaultsOn T D W Q s t := by
  obtain ⟨hsame, -, htable⟩ := Kernel.copyFromCircBuffer_pages (.inr h)
  exact ⟨hsame, _, (htable ht).2 h, .inr ⟨b, hwho, rfl⟩⟩

lemma SchedOk.sysReadKeyboard_pages (hs : SchedOk s Q) (hf : FramesOk s) (ht : TableIs T s.mm D W)
    (size : ℤ) : (s.sysReadKeyboard size).Pages T D W Q s := by
  have hq := s.quiet_setPending size
  have hok := hs.congr hq.sched
  have ht' := ht.congr hq.mm.table
  rw [Kernel.sysReadKeyboard]
  split_ifs with hnow hpid
  · cases hc : (s.setPending size).copyFromCircBuffer (s.setPending size).cur size with
    | ret r t =>
      have hstay := (StaysOn.deliver ht' hc).head hq
      exact hstay.of_quiet (.other rfl rfl rfl rfl rfl rfl)
    | switched t =>
      have hends := (s.setPending size).sameSched_copyFromCircBuffer (s.setPending size).cur size
      rw [hc] at hends
      exact hends.elim
    | fault t => exact (FaultsOn.deliver ht' (.inl rfl) hc).head hq
    | stop r => trivial
  · have hq' := hq.trans ((s.setPending size).quiet_noteRead size)
    have hok' := hs.congr hq'.sched
    have h0 : ((s.setPending size).noteRead size).cur ≠ 0 :=
      fun hc => hpid (hok.current_pid_eq_zero_iff.mpr hc)
    obtain ⟨u, rest, hQ, hsw, -⟩ := hok'.block (h := .keyboardQueue) (α := ℤ) trivial h0
    have hon : (Action.read 0 0 0).OnKeyboard := trivial
    have hactive : ((s.setPending size).noteRead size).Active .keyboardQueue := trivial
    have hh : Handover (.read 0 0 0) ((s.setPending size).noteRead size, Q) _ :=
      .move 0 hactive (fun hc => absurd hc h0) (by simp) (fun _ => hon)
        (hok'.ne_cur_of_moved (by simp) hQ) hQ
    rw [Kernel.waitForChars_eq, hsw]
    exact ⟨by rw [← hq'.sched.cur]; exact hh.cur_ne hok',
      hh.table hok' (hf.ofSameSched hq'.sched hq'.mm.physMem) (ht.congr hq'.mm.table)⟩
  · exact (StaysOn.refl ht).of_quiet hq

lemma SchedOk.keyboardRoutine_pages (hs : SchedOk s Q) (ht : TableIs T s.mm D W)
    (scan beyond : Byte) : (s.keyboardRoutine scan beyond).Pages T D W Q s := by
  have hput := s.quiet_putChar (Kernel.charOf scan beyond)
  -- the branches of `serveReader`, from a state that differs in the keyboard only
  have hserve : ∀ b ∈ Q .keyboardQueue,
      ((s.putChar (Kernel.charOf scan beyond)).serveReader b).Pages T D W Q s := by
    intro b hb
    have hq : Quiet s ((s.putChar (Kernel.charOf scan beyond)).updTask b fun k =>
        { k with pendingChars := k.pendingChars - 1 }) := hput.trans (.updTask _ b _ rfl rfl rfl)
    have ht' := ht.congr hq.mm.table
    rw [Kernel.serveReader]
    generalize (s.putChar (Kernel.charOf scan beyond)).updTask b _ = u at hq ht' ⊢
    split_ifs
    · have hends := u.sameSched_copyFromCircBuffer b (u.task b).size
      cases hc : u.copyFromCircBuffer b (u.task b).size with
      | ret r t =>
        obtain ⟨hcur, W', htW, hW⟩ := (StaysOn.deliver ht' hc).head hq
        exact ⟨hcur, W', htW, hW⟩
      | switched t =>
        rw [hc] at hends
        exact hends.elim
      | fault t => exact (FaultsOn.deliver ht' (.inr hb) hc).head hq
      | stop r => trivial
    · have hends := u.sameSched_copyFromCircBuffer b circularSize
      cases hc : u.copyFromCircBuffer b circularSize with
      | ret r t =>
        have hstay := (StaysOn.deliver ht' hc).head hq
        have hadv : Quiet t (t.advanceReader b) := .updTask t b _ rfl rfl rfl
        exact hstay.of_quiet (hadv.trans (Kernel.quiet_emptyCircBuffer _))
      | switched t =>
        rw [hc] at hends
        exact hends.elim
      | fault t => exact (FaultsOn.deliver ht' (.inr hb) hc).head hq
      | stop r => trivial
    · exact (StaysOn.refl ht).of_quiet hq
  rcases hs.keyboardRoutine_cases scan beyond with ⟨-, h⟩ | ⟨-, ⟨-, h⟩ | ⟨b, rest, hQ, h⟩⟩
  · rw [h]
    exact StaysOn.refl ht
  · rw [h]
    exact (StaysOn.refl ht).of_quiet (hput.trans (.other rfl rfl rfl rfl rfl rfl))
  · rw [h]
    exact hserve b (by simp [hQ])

/-- Effects that are no keyboard input and no fork leave the window alone. -/
lemma SchedOk.turn_pages {act : Action} {Q' : Node → List Slot} (hs : SchedOk s Q) (hf : FramesOk s)
    (ht : TableIs T s.mm D W) (hkbd : ¬ act.OnKeyboard) (hfork : act ≠ .fork)
    (h : Turn act (s, Q) (t, Q')) : StaysOn T D W s t ∨ MovesOn T W s t := by
  rcases h with hc | ⟨z, hc, hh⟩
  · obtain ⟨W', ht', hW | ⟨hact, -⟩ | ⟨hact, -⟩⟩ := hc.table hs ht
    · exact .inl ⟨hc.cur_eq, W', ht', .inl hW⟩
    · exact absurd hact hfork
    · exact absurd hact hkbd
  · obtain ⟨W', ht', rfl | ⟨hact, -⟩ | ⟨hact, -⟩⟩ := hc.table hs ht
    · have hz := hc.schedOk hs
      have hcur : z.1.cur = s.cur := hc.cur_eq
      exact .inr ⟨hcur ▸ hh.cur_ne hz, hh.table hz (hc.frames hf) ht'⟩
    · exact absurd hact hfork
    · exact absurd hact hkbd

lemma SchedOk.sysFork_pages {r : ℤ} (hs : SchedOk s Q) (ht : TableIs T s.mm D W)
    (h : s.sysFork = .ok (r, t)) : StaysOn T D W s t := by
  rcases s.sysFork_cases hs.cur_live with ⟨-, hc⟩ | ⟨new, hnew, -, ⟨mm, hmm, hc⟩ |
    ⟨frames, mm, hmm, ⟨hlen, hc⟩ | ⟨-, hc⟩⟩⟩
  · rw [hc, Except.ok.injEq, Prod.mk.injEq] at h
    exact h.2 ▸ .refl ht
  · rw [hc, Except.ok.injEq, Prod.mk.injEq] at h
    have hcalm : Calm .fork (s, Q) (s.forkFailed new mm, Q) :=
      .forkFailed (Kernel.srchFreeTask_some hnew) hmm
    obtain ⟨W', ht', hW | ⟨-, hW⟩ | ⟨hact, -⟩⟩ := hcalm.table hs ht
    · exact h.2 ▸ ⟨rfl, W', ht', .inl hW⟩
    · exact h.2 ▸ ⟨rfl, W', ht', .inr (.inl hW)⟩
    · exact hact.elim
  · rw [hc, Except.ok.injEq, Prod.mk.injEq] at h
    have hcalm : Calm .fork (s, Q) (s.forked new (fun j => frames.getD j.val 0) mm, _) :=
      .fork rfl (Kernel.srchFreeTask_some hnew) hmm hlen
    obtain ⟨W', ht', hW | ⟨-, hW⟩ | ⟨hact, -⟩⟩ := hcalm.table hs ht
    · exact h.2 ▸ ⟨rfl, W', ht', .inl hW⟩
    · exact h.2 ▸ ⟨rfl, W', ht', .inr (.inl hW)⟩
    · exact hact.elim
  · rw [hc] at h
    simp at h

/-- A step that ends without `sys_exit` keeps the process and may leave its own frames in the
window, or hands the processor over and leaves the window as it was. -/
lemma SchedOk.done_pages {e : Event} (hs : SchedOk s Q) (hf : FramesOk s) (ht : TableIs T s.mm D W)
    (hd : s.dispatch e = .done t) : StaysOn T D W s t ∨ MovesOn T W s t := by
  have henter := s.quiet_enter e.regs
  have hok := hs.congr henter.sched
  have hf' := hf.ofSameSched henter.sched henter.mm.physMem
  have ht' := ht.congr henter.mm.table
  have heff := hs.dispatch_effects e
  rw [hd] at heff
  obtain ⟨Q', hturn⟩ := heff.turn
  obtain ⟨regs, act⟩ := e
  cases act with
  | read fd buffer size =>
    change Kernel.finish ((s.enter regs).sysRead fd buffer size) = .done t at hd
    rcases (s.enter regs).sysRead_cases fd buffer size with h | ⟨-, -, -, h⟩
    · rcases Kernel.finish_eq_done hd with ⟨r, u, ho, rfl⟩ | ho
      · rw [ho] at h
        exact .inl ((StaysOn.refl ht).of_quiet (henter.trans (h.trans (u.quiet_setEax r))))
      · rw [ho] at h
        exact h.elim
    · have hq : Quiet s ((s.enter regs).updTask (s.enter regs).cur fun k =>
          { k with size := size, buffer := buffer }) := henter.trans (.updTask _ _ _ rfl rfl rfl)
      have hpages := (hs.congr hq.sched).sysReadKeyboard_pages
        (hf.ofSameSched hq.sched hq.mm.physMem) (ht.congr hq.mm.table) size
      rw [← h] at hpages
      have hpages := hpages.head hq
      rcases Kernel.finish_eq_done hd with ⟨r, u, ho, rfl⟩ | ho
      · rw [ho] at hpages
        exact .inl (hpages.of_quiet (u.quiet_setEax r))
      · rw [ho] at hpages
        exact .inr hpages
  | key scan beyond =>
    change Kernel.finishInt ((s.enter regs).keyboardRoutine scan beyond) = .done t at hd
    have hpages := (hok.keyboardRoutine_pages ht' scan beyond).head henter
    rcases Kernel.finishInt_eq_done hd with ho | ho
    · rw [ho] at hpages
      exact .inl hpages
    · rw [ho] at hpages
      exact .inr hpages
  | fork =>
    obtain ⟨r, u, ho, rfl⟩ := Kernel.finishExcept_eq_done hd
    exact .inl (((hok.sysFork_pages ht' ho).head henter).of_quiet (u.quiet_setEax r))
  | _ => exact hs.turn_pages hf ht (by simp [Action.OnKeyboard]) (by simp) hturn

/-- A call of `sys_exit` is the system call itself, or comes from a page fault of a process other
than task 0. -/
lemma Kernel.exits_cases {e : Event} {cause : ExitCause} {s₁ : Kernel}
    (hd : s.dispatch e = .exits cause s₁) :
    (∃ eax, e.act = .exit eax ∧ s₁ = s.enter e.regs) ∨ s₁.current.pid ≠ 0 := by
  have hfault : ∀ {u : Kernel} {c : ExitCause}, u.pageFaultRoutine c = .exits cause s₁ →
      s₁.current.pid ≠ 0 := by
    intro u c hu
    obtain ⟨hpid, rfl⟩ := pageFaultRoutine_eq_exits hu
    rwa [u.quiet_printFault.sched.current_pid]
  have hfinish : ∀ {o : Outcome Kernel ℤ}, finish o = .exits cause s₁ → s₁.current.pid ≠ 0 := by
    intro o ho
    obtain ⟨u, -, hu⟩ := finish_eq_exits ho
    exact hfault hu
  have hfinishInt : ∀ {o : Outcome Kernel Unit}, finishInt o = .exits cause s₁ →
      s₁.current.pid ≠ 0 := by
    intro o ho
    obtain ⟨u, -, hu⟩ := finishInt_eq_exits ho
    exact hfault hu
  obtain ⟨regs, act⟩ := e
  cases act with
  | exit eax =>
    rw [dispatch, Phase.exits.injEq] at hd
    exact .inl ⟨eax, rfl, hd.2.symm⟩
  | write fd buffer size => exact .inr (hfinish hd)
  | read fd buffer size => exact .inr (hfinish hd)
  | «open» addr path flags => exact .inr (hfinish hd)
  | unlink addr path => exact .inr (hfinish hd)
  | semWait n => exact .inr (hfinish hd)
  | getStats spid st beyond => exact .inr (hfinish hd)
  | clock => exact .inr (hfinishInt hd)
  | key scan beyond => exact .inr (hfinishInt hd)
  | store addr b =>
    simp only [dispatch] at hd
    split_ifs at hd
    exact .inr (hfault hd)
  | pageFault => exact .inr (hfault hd)
  | dup fd => simp [dispatch, finishExcept] at hd
  | getpid => simp [dispatch, finishExcept] at hd
  | semInit n v => simp [dispatch, finishExcept] at hd
  | nice q => simp [dispatch, finishExcept] at hd
  | niSyscall => simp [dispatch, finishExcept] at hd
  | _ => exact absurd hd (finishExcept_ne_exits _)

lemma Kernel.switchToNext_ne_fault {α : Type} (s : Kernel) (fromInt : ℤ) (u : Kernel) :
    (s.switchToNext fromInt : Outcome Kernel α) ≠ .fault u := by
  unfold switchToNext
  split <;> simp

lemma Kernel.schedule_ne_fault (s : Kernel) (fromInt : ℤ) (u : Kernel) :
    s.schedule fromInt ≠ .fault u := by
  unfold schedule
  split_ifs
  · simp
  · exact Kernel.switchToNext_ne_fault _ _ _
  · exact Kernel.switchToNext_ne_fault _ _ _
  · simp

lemma Kernel.clockRoutine_ne_fault (s u : Kernel) : s.clockRoutine ≠ .fault u := by
  unfold clockRoutine
  cases h : s.tick.schedule 1 with
  | fault t => exact absurd h (Kernel.schedule_ne_fault _ _ _)
  | ret a t => simp
  | switched t => simp
  | stop r => simp

/-- A tick calls `schedule`, and looks at the time on the screen if it returns. -/
lemma Kernel.step_clock_cases {e : Event} (hact : e.act = .clock) (hst : s.step e = .ok t) :
    (∃ v, (s.enter e.regs).tick.schedule 1 = .ret () v ∧ t = v.showTime) ∨
      (s.enter e.regs).tick.schedule 1 = .switched t := by
  rw [step, dispatch, hact] at hst
  simp only at hst
  unfold clockRoutine at hst
  cases h : (s.enter e.regs).tick.schedule 1 with
  | ret _ v =>
    rw [h] at hst
    exact .inl ⟨v, rfl, (Except.ok.inj hst).symm⟩
  | switched v =>
    rw [h] at hst
    exact .inr (congrArg _ (Except.ok.inj hst))
  | fault v => exact absurd h (schedule_ne_fault _ _ _)
  | stop r =>
    rw [h] at hst
    simp [finishInt] at hst

lemma Kernel.clock_ne_exits {e : Event} (hact : e.act = .clock) (cause : ExitCause) (s₁ : Kernel) :
    s.dispatch e ≠ .exits cause s₁ := by
  intro hd
  rw [dispatch, hact] at hd
  obtain ⟨u, ho, -⟩ := finishInt_eq_exits hd
  exact clockRoutine_ne_fault _ _ ho

lemma Kernel.clock_exitsFindTwo {e : Event} (hact : e.act = .clock) : s.ExitsFindTwo e :=
  fun cause s₁ _ hd => absurd hd (clock_ne_exits hact cause s₁)

lemma Kernel.sysSemWait_ne_fault (s : Kernel) (n : ℤ) (u : Kernel) :
    s.sysSemWait n ≠ .fault u := by
  unfold sysSemWait
  split_ifs
  · simp
  · split
    · simp
    · split_ifs
      · simp
      · exact Kernel.switchToNext_ne_fault _ _ _
      · simp

/-- Up to a call of `sys_exit` the queues are as they were, and only a delivery that meets a page
fault changes the window. -/
lemma SchedOk.exits_pages {e : Event} {cause : ExitCause} {s₁ : Kernel} (hs : SchedOk s Q)
    (hf : FramesOk s) (ht : TableIs T s.mm D W) (hd : s.dispatch e = .exits cause s₁) :
    FaultsOn T D W Q s s₁ := by
  have henter := s.quiet_enter e.regs
  have hok := hs.congr henter.sched
  have hf' := hf.ofSameSched henter.sched henter.mm.physMem
  have ht' := ht.congr henter.mm.table
  have hrefl : ∀ {u : Kernel}, Quiet s u → FaultsOn T D W Q s u :=
    fun hq => ⟨hq.sched, W, ht.congr hq.mm.table, .inl rfl⟩
  have hfault : ∀ {u : Kernel} {c : ExitCause}, FaultsOn T D W Q s u →
      u.pageFaultRoutine c = .exits cause s₁ → FaultsOn T D W Q s s₁ := by
    intro u c hu hexit
    obtain ⟨-, rfl⟩ := Kernel.pageFaultRoutine_eq_exits hexit
    exact hu.of_quiet u.quiet_printFault
  obtain ⟨regs, act⟩ := e
  by_cases hquiet : Kernel.QuietAction act
  · have hends := s.quiet_dispatch ⟨regs, act⟩ hquiet
    rw [hd] at hends
    exact hrefl hends
  · cases act with
    | read fd buffer size =>
      obtain ⟨u, ho, hu⟩ := Kernel.finish_eq_exits hd
      refine hfault ?_ hu
      rcases (s.enter regs).sysRead_cases fd buffer size with h | ⟨-, -, -, h⟩
      · rw [ho] at h
        exact hrefl (henter.trans h)
      · have hq : Quiet s ((s.enter regs).updTask (s.enter regs).cur fun k =>
            { k with size := size, buffer := buffer }) :=
          henter.trans (.updTask _ _ _ rfl rfl rfl)
        have hpages := ((hs.congr hq.sched).sysReadKeyboard_pages
          (hf.ofSameSched hq.sched hq.mm.physMem) (ht.congr hq.mm.table) size).head hq
        rw [← h, ho] at hpages
        exact hpages
    | key scan beyond =>
      obtain ⟨u, ho, hu⟩ := Kernel.finishInt_eq_exits hd
      have hpages := (hok.keyboardRoutine_pages ht' scan beyond).head henter
      rw [ho] at hpages
      exact hfault hpages hu
    | semWait n =>
      obtain ⟨u, ho, -⟩ := Kernel.finish_eq_exits hd
      exact absurd ho (Kernel.sysSemWait_ne_fault _ _ _)
    | clock =>
      obtain ⟨u, ho, -⟩ := Kernel.finishInt_eq_exits hd
      exact absurd ho (Kernel.clockRoutine_ne_fault _ _)
    | fork => exact absurd hd (Kernel.finishExcept_ne_exits _)
    | semInit n v => simp [Kernel.dispatch, Kernel.finishExcept] at hd
    | semSignal n => exact absurd hd (Kernel.finishExcept_ne_exits _)
    | semDestroy n => exact absurd hd (Kernel.finishExcept_ne_exits _)
    | _ => exact absurd trivial hquiet

end

end ZeOS
