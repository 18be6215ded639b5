import ZeOS.Ownership

/-!
# A fork that fails

`sys_fork` overwrites the slot of the child, its pid included, before it takes the first frame.
When a frame is missing it gives back those that it has taken and sets the pid of the slot to -1,
so that only memory that nobody uses has changed (`failed_fork_rolls_back`).  Nothing is assumed
of the byte map and of the task table but that the caller is alive and has all its pages.
-/

namespace ZeOS

open IntrusiveList Memory

/-! ## Frames taken -/

namespace Memory

/-- A frame that `alloc_frame` takes is one free frame less. -/
lemma card_freeFrames_allocFrame {m : Memory} (h : m.allocFrame.1 ≠ -1) :
    m.allocFrame.2.freeFrames.card + 1 = m.freeFrames.card := by
  unfold allocFrame at h ⊢
  split
  · next f hf =>
    have hfree : m.physMem f = .free := by simpa using List.find?_some hf
    have hmem : f ∈ m.freeFrames := by
      obtain ⟨j, hj, hij⟩ := List.mem_range'.mp (List.mem_of_find?_eq_some hf)
      have hj' : j < 384 := hj
      have hij' : f = 256 + 2 * j := hij
      exact mem_freeFrames.mpr ⟨by omega, by omega, by omega, hfree⟩
    have herase : freeFrames { m with physMem := Function.update m.physMem f .used } =
        m.freeFrames.erase f := by
      ext g
      rw [Finset.mem_erase, mem_freeFrames, mem_freeFrames]
      by_cases hg : g = f
      · simp [hg]
      · simp [hg]
    rw [herase]
    exact Finset.card_erase_add_one hmem
  · next hnone =>
    rw [hnone] at h
    exact absurd rfl h

/-- The frames that the loop of `sys_fork` ends with, one for each page, were free. -/
lemma allocFrames_length {ph : Fin numPagData → ℤ} (hph : ∀ i, ph i ≠ -1)
    (is : List (Fin numPagData)) :
    ∀ {old frames : List ℤ} {m mm : Memory}, allocFrames ph is old m = (some frames, mm) →
      frames.length = old.length + is.length ∧
        mm.freeFrames.card + is.length = m.freeFrames.card := by
  induction is with
  | nil =>
    intro old frames m mm h
    rw [allocFrames, Prod.mk.injEq, Option.some.injEq] at h
    rw [← h.1, ← h.2, List.length_nil, add_zero, add_zero]
    exact ⟨rfl, rfl⟩
  | cons i is ih =>
    intro old frames m mm h
    rw [allocFrames, if_neg (hph i)] at h
    split_ifs at h with hfail
    · simp at h
    · have hcard := card_freeFrames_allocFrame hfail
      obtain ⟨hlen, hrest⟩ := ih h
      rw [List.length_append, List.length_singleton] at hlen
      rw [List.length_cons]
      omega

end Memory

/-! ## Queues -/

/-- A walk only reads the links of the nodes that it visits. -/
lemma walk_congr {L L' : Links Node} {h : Node} (n : ℕ) :
    ∀ {x : Option Node}, (∀ y ∈ L.walk h n x, L'.next y = L.next y) →
      L'.walk h n x = L.walk h n x := by
  induction n with
  | zero =>
    intro x _
    rfl
  | succ n ih =>
    intro x hx
    cases x with
    | none => rfl
    | some x =>
      rw [Links.walk, Links.walk]
      rw [Links.walk] at hx
      split_ifs at hx ⊢ with hxh
      · rfl
      · rw [hx x (List.mem_cons_self ..), ih fun y hy => hx y (List.mem_cons_of_mem _ hy)]

namespace Kernel

variable {s t : Kernel} {new : Slot}

/-- A queue on which only processes are linked does not read the node of a free slot. -/
lemma queue_congr {h : Node} (hh : h ≠ .task new) (hnew : ¬ s.Live new)
    (hq : ∀ u ∈ s.queue h, s.Live u) (hnext : ∀ n ≠ Node.task new, t.links.next n = s.links.next n) :
    t.queue h = s.queue h := by
  have hmem : ∀ y ∈ s.links.members h numNodes, t.links.next y = s.links.next y := by
    intro y hy
    refine hnext y fun heq => hnew (hq new ?_)
    exact List.mem_filterMap.mpr ⟨y, hy, by rw [heq]; rfl⟩
  rw [queue, queue, Links.members, hnext h hh, walk_congr _ hmem]
  rfl

end Kernel

/-! ## What a failed fork leaves -/

/-- `t` differs from `s` in the contents of free slots only. -/
structure ForkUndone (s t : Kernel) : Prop where
  /-- The byte map, the page table and the contents of the frames. -/
  memory : t.mm = s.mm
  /-- The slots of processes, -/
  task : ∀ u, s.Live u → t.task u = s.task u
  /-- and the free ones. -/
  free : ∀ u, ¬ s.Live u → ¬ t.Live u
  /-- The links of the list heads and of the processes, -/
  next : ∀ n, (∀ u, n = .task u → s.Live u) → t.links.next n = s.links.next n
  prev : ∀ n, (∀ u, n = .task u → s.Live u) → t.links.prev n = s.links.prev n
  /-- so that a queue of processes is the same. -/
  queue : ∀ h, (∀ u, h ≠ .task u) → (∀ u ∈ s.queue h, s.Live u) → t.queue h = s.queue h
  counter : t.pid = s.pid
  /-- The files, with every `refs` and `n_refs`. -/
  fs : t.fs = s.fs
  rest : t.cur = s.cur ∧ t.sem = s.sem ∧ t.kbd = s.kbd ∧ t.screen = s.screen ∧
    t.left4current = s.left4current ∧ t.itIsInt = s.itIsInt ∧ t.tics = s.tics

namespace ForkUndone

variable {s : Kernel}

lemma refl (s : Kernel) : ForkUndone s s where
  memory := rfl
  task _ _ := rfl
  free _ h := h
  next _ _ := rfl
  prev _ _ := rfl
  queue _ _ _ := rfl
  counter := rfl
  fs := rfl
  rest := ⟨rfl, rfl, rfl, rfl, rfl, rfl, rfl⟩

/-- The slot that `sys_fork` took is free again. -/
lemma forkFailed {new : Slot} (hnew : ¬ s.Live new) : ForkUndone s (s.forkFailed new s.mm) := by
  have hnext : ∀ n ≠ Node.task new, (s.forkFailed new s.mm).links.next n = s.links.next n :=
    fun n hn => Function.update_of_ne hn _ _
  have hprev : ∀ n ≠ Node.task new, (s.forkFailed new s.mm).links.prev n = s.links.prev n :=
    fun n hn => Function.update_of_ne hn _ _
  have hne : ∀ n, (∀ u, n = .task u → s.Live u) → n ≠ Node.task new :=
    fun n hn heq => hnew (hn new heq)
  refine
    { memory := rfl
      task := fun u hu => ?_
      free := fun u hu => ?_
      next := fun n hn => hnext n (hne n hn)
      prev := fun n hn => hprev n (hne n hn)
      queue := fun h hh hq => Kernel.queue_congr (hh new) hnew hq hnext
      counter := rfl
      fs := rfl
      rest := ⟨rfl, rfl, rfl, rfl, rfl, rfl, rfl⟩ }
  · have hun : u ≠ new := by
      rintro rfl
      exact hnew hu
    exact Function.update_of_ne hun _ _
  · by_cases hun : u = new
    · subst hun
      simp [Kernel.Live, Kernel.forkFailed]
    · simpa [Kernel.Live, Kernel.forkFailed, hun] using hu

end ForkUndone

/-- **A failed fork rolls back.** Whatever the byte map and the task table hold, a call of
`sys_fork` that returns `-EAGAIN` leaves everything but a free slot as it was, and that is its
result exactly when there is no free slot or there are too few of the frames that `alloc_frame`
looks at. -/
theorem failed_fork_rolls_back {s : Kernel} (hlive : s.Live s.cur)
    (hpages : ∀ i, s.current.phPages i ≠ -1) (hcounter : 0 ≤ s.pid) :
    ∃ r t, s.sysFork = .ok (r, t) ∧ (r = -eAgain → ForkUndone s t) ∧
      (r = -eAgain ↔ (∀ u, s.Live u) ∨ s.mm.freeFrames.card < numPagData) := by
  rcases s.sysFork_cases hlive with ⟨hnone, hfork⟩ | ⟨new, hnew, -, hends⟩
  · have hall : ∀ u, s.Live u := by
      intro u
      have := List.find?_eq_none.mp hnone u (List.mem_finRange u)
      simpa [Kernel.Live] using this
    exact ⟨_, _, hfork, fun _ => .refl s, iff_of_true rfl (.inl hall)⟩
  · have hdead : ¬ s.Live new := not_le.mpr (Kernel.srchFreeTask_some hnew)
    rcases hends with ⟨mm, hmm, hfork⟩ | ⟨frames, mm, hmm, ⟨-, hfork⟩ | ⟨hno, -⟩⟩
    · -- a frame was missing
      have hroom : s.mm.freeFrames.card < numPagData := by
        by_contra hroom
        obtain ⟨frames, mm', halloc, -⟩ := allocFrames_of_freeFrames hpages (not_lt.mp hroom)
        rw [halloc] at hmm
        simp at hmm
      rw [allocFrames_none hmm] at hfork
      exact ⟨_, _, hfork, fun _ => .forkFailed hdead, iff_of_true rfl (.inr hroom)⟩
    · -- a child
      have hpid : s.pid ≠ -eAgain := by
        show s.pid ≠ -11
        omega
      refine ⟨_, _, hfork, fun h => absurd h hpid, iff_of_false hpid ?_⟩
      rintro (hall | hroom)
      · exact hdead (hall new)
      · obtain ⟨-, hcard⟩ := allocFrames_length hpages _ hmm
        rw [List.length_finRange] at hcard
        omega
    · obtain ⟨hlen, -⟩ := allocFrames_length hpages _ hmm
      exact absurd (by simpa using hlen) hno

/-- `failed_fork_rolls_back` for the first process, with free slots and no free frame. -/
theorem failed_fork_rolls_back_without_frames :
    ∃ t, Kernel.sysFork { zeroEnv.boot with
        mm := { zeroEnv.boot.mm with physMem := fun _ => .used } } = .ok (-eAgain, t) ∧
      ForkUndone { zeroEnv.boot with
        mm := { zeroEnv.boot.mm with physMem := fun _ => .used } } t := by
  have hlive := zeroEnv.boot_systemOk.sched.cur_live
  have hpages := zeroEnv.boot_framesOk.ne_neg_one hlive
  obtain ⟨r, t, hfork, hundone, hiff⟩ := failed_fork_rolls_back
    (s := { zeroEnv.boot with mm := { zeroEnv.boot.mm with physMem := fun _ => .used } })
    hlive hpages (show 0 ≤ (1 : ℤ) by decide)
  have hnone : freeFrames { zeroEnv.boot.mm with physMem := fun _ => .used } = ∅ := by
    ext f
    simp [freeFrames]
  obtain rfl : r = -eAgain := by
    refine hiff.mpr (.inr ?_)
    show (freeFrames { zeroEnv.boot.mm with physMem := fun _ => .used }).card < numPagData
    rw [hnone]
    decide
  exact ⟨t, hfork, hundone rfl⟩

end ZeOS
