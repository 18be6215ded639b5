import ZeOS.Semaphores

/-!
# Critical sections

What semaphores are for: a piece of code between `sem_wait (n)` and `sem_signal (n)` has at most as
many processes inside as the semaphore was given permits, one for a mutual exclusion, and nobody
waits while there is room.

The history of a run (`Section`) keeps who is inside.  A process comes in when its wait is granted,
at once or by a signal, and goes out when it signals; a process that ends inside takes its permit
with it.  The rules that user code has to keep are those of the section: it waits from outside and
signals from inside.  What one step does to the semaphore is read off the history of
`SemHistory.record` that begins with that step (`semStep`).
-/

namespace ZeOS

open IntrusiveList GuardedRun

/-- Who is inside, and how many have ended inside. -/
structure Section where
  inside : List Slot
  lost : ℕ

/-- The semaphore `n` over one step from `s` to `t`. -/
def semStep (n : SemId) (s : Kernel) (e : Event) (t : Kernel) : SemHistory :=
  SemHistory.record n s e t { issued := s.waitList n, granted := [], signals := 0 }

namespace Section

/-- Nobody has come in yet. -/
def start : Section := { inside := [], lost := 0 }

/-- Who is inside when those that a step lets out are out and those that it lets in are in. -/
def moved (n : SemId) (s : Kernel) (e : Event) (t : Kernel) (inside : List Slot) : List Slot :=
  (if (semStep n s e t).signals = 0 then inside else inside.erase s.cur) ++ (semStep n s e t).granted

/-- The section after one more step. -/
def note (n : SemId) (s : Kernel) (e : Event) (t : Kernel) (x : Section) : Section where
  inside := (moved n s e t x.inside).filter fun u => t.Live u
  lost := x.lost + (moved n s e t x.inside).countP fun u => ¬ t.Live u

/-- The steps while the section is in use: processes wait from outside and signal from inside, and
the semaphore is not destroyed. -/
structure Rules (n : SemId) (x : Kernel × Section) (e : Event) : Prop where
  exits : x.1.ExitsFindTwo e
  wait : ∀ k, e.act = .semWait k → Kernel.semId k = some n → x.1.cur ∉ x.2.inside
  signal : ∀ k, e.act = .semSignal k → Kernel.semId k = some n → x.1.cur ∈ x.2.inside
  kept : ∀ t, x.1.step e = .ok t → (t.sem n).init = 1

/-- A semaphore with `v` permits and its section. -/
structure Bounded (n : SemId) (v : ℕ) (s : Kernel) (x : Section) : Prop where
  nodup : x.inside.Nodup
  live : ∀ u ∈ x.inside, s.Live u
  apart : x.inside.Disjoint (s.waitList n)
  permits : x.inside.length + x.lost + (s.sem n).count = v
  blocked : s.waitList n ≠ [] → (s.sem n).count = 0

end Section

section

variable {n : SemId} {v : ℕ} {s t : Kernel} {e : Event} {Q : Node → List Slot} {x : Section}

/-! ## One step of a semaphore -/

/-- The three kinds of steps: the caller joins those who wait for a grant, a signal, and none. -/
lemma semStep_cases (n : SemId) (s : Kernel) (e : Event) (t : Kernel) :
    (∃ k, e.act = .semWait k ∧ Kernel.semId k = some n ∧ s.cur ≠ 0 ∧
      (semStep n s e t).issued = s.waitList n ++ [s.cur] ∧ (semStep n s e t).signals = 0) ∨
    (∃ k, e.act = .semSignal k ∧ Kernel.semId k = some n ∧
      (semStep n s e t).issued = s.waitList n ∧ (semStep n s e t).signals = 1) ∨
    ((semStep n s e t).issued = s.waitList n ∧ (semStep n s e t).signals = 0) := by
  cases hact : e.act with
  | semWait k =>
    by_cases h : Kernel.semId k = some n ∧ s.cur ≠ 0
    · refine .inl ⟨k, rfl, h.1, h.2, ?_, ?_⟩ <;>
        simp only [semStep, SemHistory.record, hact, if_pos h]
    · refine .inr (.inr ⟨?_, ?_⟩) <;> simp only [semStep, SemHistory.record, hact, if_neg h]
  | semSignal k =>
    by_cases h : Kernel.semId k = some n
    · refine .inr (.inl ⟨k, rfl, h, ?_, ?_⟩) <;>
        simp only [semStep, SemHistory.record, hact, if_pos h]
    · refine .inr (.inr ⟨?_, ?_⟩) <;> simp only [semStep, SemHistory.record, hact, if_neg h]
  | _ => refine .inr (.inr ⟨?_, ?_⟩) <;> simp only [semStep, SemHistory.record, hact]

lemma SystemOk.waitList_nodup (hs : SystemOk s Q) (n : SemId) : (s.waitList n).Nodup := by
  rw [hs.sched.waitList_eq]
  exact hs.sched.pool.nodup (.waitList n)

lemma SystemOk.cur_notMem_waitList (hs : SystemOk s Q) (n : SemId) : s.cur ∉ s.waitList n := by
  intro hm
  rw [hs.sched.waitList_eq] at hm
  exact absurd (hs.sched.pool.eq_of_mem hs.sched.cur_mem hm) (by simp)

/-- Nobody waits for two grants. -/
lemma SystemOk.semStep_nodup (hs : SystemOk s Q) : (semStep n s e t).issued.Nodup := by
  have hnd := hs.waitList_nodup n
  rcases semStep_cases n s e t with ⟨k, -, -, -, h, -⟩ | ⟨k, -, -, h, -⟩ | ⟨h, -⟩
  · rw [h]
    exact List.nodup_append.mpr ⟨hnd, List.nodup_singleton _, by
      intro u hu w hw huw
      rw [List.mem_singleton] at hw
      exact hs.cur_notMem_waitList n (hw ▸ huw ▸ hu)⟩
  · rw [h]
    exact hnd
  · rw [h]
    exact hnd

namespace Section

/-- Nobody who is inside waits for a grant. -/
lemma Bounded.disjoint_issued (h : Bounded n v s x) (hg : Rules n (s, x) e) :
    x.inside.Disjoint (semStep n s e t).issued := by
  rcases semStep_cases n s e t with ⟨k, hact, hk, -, hi, -⟩ | ⟨k, -, -, hi, -⟩ | ⟨hi, -⟩
  · rw [hi, List.disjoint_append_right]
    refine ⟨h.apart, ?_⟩
    rw [List.disjoint_singleton]
    exact hg.wait k hact hk
  · rw [hi]
    exact h.apart
  · rw [hi]
    exact h.apart

/-- What the step does to the permits and to those who wait. -/
lemma Bounded.semStep_holds (h : Bounded n v s x) (hv : v < 2 ^ 32) (hs : SystemOk s Q)
    (hn : (s.sem n).init = 1) (hg : Rules n (s, x) e) (hst : s.step e = .ok t) :
    SemHistory.Holds n (s.sem n).count t (semStep n s e t) := by
  have hbegin : SemHistory.Holds n (s.sem n).count s
      { issued := s.waitList n, granted := [], signals := 0 } := ⟨rfl, h.blocked, rfl⟩
  refine hbegin.step hs hn ⟨hg.exits, fun u hu => ⟨hg.kept u hu, ?_⟩⟩ hst
  have hp := h.permits
  show _ + (semStep n s e u).signals < 2 ^ 32 + (semStep n s e u).granted.length
  rcases semStep_cases n s e u with ⟨k, -, -, -, -, hsig⟩ | ⟨k, hact, hk, -, hsig⟩ | ⟨-, hsig⟩
  · omega
  · -- the caller is inside, so a permit is out
    have hin := List.length_pos_of_mem (hg.signal k hact hk)
    simp only at hin
    omega
  · omega

/-- As many are inside as before, less the one that signals and with those that are let in. -/
lemma length_moved (hg : Rules n (s, x) e) :
    (moved n s e t x.inside).length + (semStep n s e t).signals =
      x.inside.length + (semStep n s e t).granted.length := by
  rw [moved, List.length_append]
  rcases semStep_cases n s e t with ⟨k, -, -, -, -, hsig⟩ | ⟨k, hact, hk, -, hsig⟩ | ⟨-, hsig⟩
  · rw [hsig, if_pos rfl]
    omega
  · have hin : s.cur ∈ x.inside := hg.signal k hact hk
    have hpos := List.length_pos_of_mem hin
    rw [hsig, if_neg (by decide), List.length_erase_of_mem hin]
    omega
  · rw [hsig, if_pos rfl]
    omega

/-- **One step** of processes that keep the rules. -/
lemma Bounded.step (h : Bounded n v s x) (hv : v < 2 ^ 32) (hs : SystemOk s Q)
    (hn : (s.sem n).init = 1) (hg : Rules n (s, x) e) (hst : s.step e = .ok t) :
    Bounded n v t (note n s e t x) := by
  have hholds := h.semStep_holds hv hs hn hg hst
  have hissued := hholds.fifo
  have hnd : ((semStep n s e t).granted ++ t.waitList n).Nodup := hissued ▸ hs.semStep_nodup
  have hdisj : x.inside.Disjoint ((semStep n s e t).granted ++ t.waitList n) :=
    hissued ▸ h.disjoint_issued hg
  rw [List.disjoint_append_right] at hdisj
  set old := if (semStep n s e t).signals = 0 then x.inside else x.inside.erase s.cur with hold
  have hsub : old.Sublist x.inside := by
    rw [hold]
    split_ifs
    · exact List.Sublist.refl _
    · exact List.erase_sublist
  have hmoved : moved n s e t x.inside = old ++ (semStep n s e t).granted := rfl
  have hnodup : (moved n s e t x.inside).Nodup := by
    rw [hmoved]
    exact (h.nodup.sublist hsub).append (List.nodup_append.mp hnd).1
      (List.disjoint_of_subset_left hsub.subset hdisj.1)
  have hapart : (moved n s e t x.inside).Disjoint (t.waitList n) := by
    rw [hmoved, List.disjoint_append_left]
    exact ⟨List.disjoint_of_subset_left hsub.subset hdisj.2, List.disjoint_of_nodup_append hnd⟩
  refine ⟨hnodup.filter _, fun u hu => ?_,
    List.disjoint_of_subset_left (List.filter_subset_self _) hapart, ?_, hholds.blocked⟩
  · simpa using (List.mem_filter.mp hu).2
  · have hlen := length_moved (t := t) hg
    have hp := hholds.permits
    have hp' := h.permits
    have hsplit := List.length_eq_countP_add_countP (fun u => decide (t.Live u))
      (l := moved n s e t x.inside)
    simp only [decide_eq_true_eq] at hsplit
    simp only [note, ← List.countP_eq_length_filter]
    omega

end Section

end

/-! ## Runs -/

open Section in
/-- **At most as many inside as permits.**  From any state of a run from boot, a process takes
semaphore `n` with `v` permits for a section; then any steps follow in which processes wait for it
from outside and signal it from inside, and it is not destroyed; and every exit finds two processes
to run.  In the state reached, those inside are live and wait for nothing, everyone is inside once,
and those inside, those that have ended inside and the free permits are `v` together.  So somebody
waits only while the section is full, and with one permit no two processes are inside. -/
theorem at_most_v_inside (E : Env) {es₀ es : List Event} {s₀ s₁ s : Kernel} {e₀ : Event} {k₀ : ℤ}
    {n : SemId} {v : ℕ} {x : Section} (hboot : ExitRun E.boot es₀ s₀)
    (hact₀ : e₀.act = .semInit k₀ v) (hk₀ : Kernel.semId k₀ = some n)
    (hfree₀ : (s₀.sem n).init ≠ 1) (hv : v < 2 ^ 32) (hst₀ : s₀.step e₀ = .ok s₁)
    (hrun : Run (record Kernel.step (note n)) (Rules n) (s₁, start) es (s, x)) :
    (x.inside.Nodup ∧ ∀ u ∈ x.inside, s.Live u ∧ u ∉ s.waitList n) ∧
    x.inside.length + x.lost + (s.sem n).count = v ∧
    (s.waitList n ≠ [] → x.inside.length + x.lost = v) ∧
    (v = 1 → ∀ u ∈ x.inside, ∀ w ∈ x.inside, u = w) := by
  obtain ⟨Q₀, hs₀⟩ := hboot.systemOk
  obtain ⟨s₁', hst₁, -, hs₁, hsem₁, hw₁, -⟩ := hs₀.step_semInit hact₀ hk₀ hfree₀
  rw [hst₀, Except.ok.injEq] at hst₁
  subst hst₁
  have hinv : ∀ (y : Kernel × Section) (e : Event) (z : Kernel × Section),
      ((∃ Q, SystemOk y.1 Q) ∧ (y.1.sem n).init = 1 ∧ Bounded n v y.1 y.2) → Rules n y e →
      record Kernel.step (note n) y e = .ok z →
      ((∃ Q, SystemOk z.1 Q) ∧ (z.1.sem n).init = 1 ∧ Bounded n v z.1 z.2) := by
    rintro ⟨y, y'⟩ e ⟨z, z'⟩ ⟨⟨Q, hs⟩, hin, hbound⟩ hg hrec
    obtain ⟨hst, hzy⟩ := record_ok_iff.mp hrec
    simp only at hst hzy hs hin hbound
    subst hzy
    exact ⟨hs.step hg.exits hst, hg.kept z hst, hbound.step hv hs hin hg hst⟩
  have hstart : Bounded n v s₁ start := by
    have hw : s₁.waitList n = [] := by rw [hs₁.sched.waitList_eq, hw₁]
    refine ⟨List.nodup_nil, by simp [start], by simp [start, hw], ?_, fun hne => absurd hw hne⟩
    simp only [hsem₁, Nat.mod_eq_of_lt hv, start, List.length_nil, Nat.zero_add]
  have hbound : Bounded n v s x :=
    (hrun.invariant hinv ⟨⟨Q₀, hs₁⟩, by rw [hsem₁], hstart⟩).2.2
  have hp := hbound.permits
  refine ⟨⟨hbound.nodup, fun u hu => ⟨hbound.live u hu, fun hm => hbound.apart hu hm⟩⟩, hp,
    fun hne => ?_, fun hone u hu w hw => ?_⟩
  · have := hbound.blocked hne
    omega
  · have hlen : x.inside.length ≤ 1 := by omega
    cases hx : x.inside with
    | nil =>
      rw [hx] at hu
      cases hu
    | cons a l =>
      rw [hx, List.length_cons] at hlen
      have hl : l = [] := List.eq_nil_of_length_eq_zero (by omega)
      rw [hx, hl, List.mem_singleton] at hu hw
      exact hu.trans hw.symm

/-- A wait while there are permits. -/
lemma SystemOk.semWait_granted {s : Kernel} {Q : Node → List Slot} (hs : SystemOk s Q) {e : Event}
    {k : ℤ} {n : SemId} (hact : e.act = .semWait k) (hk : Kernel.semId k = some n)
    (hn : (s.sem n).init = 1) (hc : (s.sem n).count ≠ 0) (h0 : s.cur ≠ 0) :
    ∃ t, s.dispatch e = .done t ∧ (t.sem n).init = 1 ∧ t.waitList n = s.waitList n ∧
      t.Live s.cur := by
  obtain ⟨t, hd, hin, hcases⟩ := hs.step_semWait hact hk hn h0
  obtain ⟨-, -, hw, hcur⟩ := hcases.resolve_right fun h => hc h.1
  obtain ⟨Q', ht⟩ := hs.step (Kernel.exitsFindTwo_of_done hd) (Kernel.step_of_done hd)
  refine ⟨t, hd, hin, hw, ?_⟩
  rw [← hcur]
  exact ht.sched.cur_live

open Section in
/-- The first child takes semaphore 3 with one permit and comes in. -/
theorem at_most_v_inside_of_child :
    ∃ s₁ s x, Run (record Kernel.step (note 3)) (Rules 3) (s₁, start) [plain (.semWait 3)] (s, x) ∧
      x.inside = [1] ∧
      ((x.inside.Nodup ∧ ∀ u ∈ x.inside, s.Live u ∧ u ∉ s.waitList 3) ∧
      x.inside.length + x.lost + (s.sem 3).count = 1 ∧
      (s.waitList 3 ≠ [] → x.inside.length + x.lost = 1) ∧
      (1 = 1 → ∀ u ∈ x.inside, ∀ w ∈ x.inside, u = w)) := by
  have hk : Kernel.semId 3 = some 3 := by decide
  obtain ⟨s₀, Q, hboot, hs₀, hcur₀, -, -, hsem₀⟩ := childRuns_run zeroEnv
  have hfree : (s₀.sem 3).init ≠ 1 := by
    rw [hsem₀]
    show (0 : ℤ) ≠ 1
    decide
  have hact : (plain (.semInit 3 1)).act = .semInit 3 1 := rfl
  obtain ⟨s₁, hst₁, -, hs₁, hsem₁, hw₁, -⟩ := hs₀.step_semInit hact hk hfree
  have hcur₁ : s₁.cur = 1 := by
    have hhead := hs₁.sched.head
    rwa [hs₀.sched.head, Option.some.injEq, hcur₀, eq_comm] at hhead
  have hwait₁ : s₁.waitList 3 = [] := by rw [hs₁.sched.waitList_eq, hw₁]
  obtain ⟨s, hd, hin, hw, hlive⟩ := hs₁.semWait_granted (e := plain (.semWait 3)) rfl hk
    (by rw [hsem₁]) (by rw [hsem₁]; decide) (by rw [hcur₁]; decide)
  have hrules : Rules 3 (s₁, start) (plain (.semWait 3)) := by
    refine ⟨Kernel.exitsFindTwo_of_done hd, fun _ _ _ => by simp [start], fun k hsig => ?_,
      fun t ht => ?_⟩
    · simp [plain] at hsig
    · rw [Kernel.step_of_done hd, Except.ok.injEq] at ht
      rwa [← ht]
  have hrun : Run (record Kernel.step (note 3)) (Rules 3) (s₁, start) [plain (.semWait 3)]
      (s, note 3 s₁ (plain (.semWait 3)) s start) :=
    .cons hrules (record_ok_iff.mpr ⟨Kernel.step_of_done hd, rfl⟩) (.nil _)
  refine ⟨s₁, s, _, hrun, ?_,
    at_most_v_inside zeroEnv hboot hact hk hfree (by decide) hst₁ hrun⟩
  have hmoved : moved 3 s₁ (plain (.semWait 3)) s start.inside = [1] := by
    simp [moved, semStep, SemHistory.record, plain, hk, hcur₁, hw, hwait₁, start]
  rw [hcur₁] at hlive
  rw [note, hmoved]
  simp [hlive]

end ZeOS
