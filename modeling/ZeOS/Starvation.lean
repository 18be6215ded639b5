import ZeOS.CpuTime

/-!
# Nobody starves

A process on the runqueue runs after a bounded number of ticks, whatever the other processes do:
they may block, wake others, fork, end, change their own quantum or keep the processor as long as
they can.  The bound is the deadline of the process, the time left of the running process and the
quanta of the processes in between.

The argument is a measure.  The runqueue only grows at its end, and its first process is the only one
that leaves it or moves to its end (`Turn.runqueue`); so the processes ahead of a waiting one become
fewer and none is added, and every tick is taken off the deadline (`SystemOk.deadline_step`).
-/

namespace ZeOS

open IntrusiveList GuardedRun Relation

/-! ## The runqueue in a step -/

/-- The calm effects append to the runqueue. -/
lemma Calm.runqueue {act : Action} {x y : Config} (h : Calm act x y) :
    x.2 .runqueue <+: y.2 .runqueue := by
  cases h with
  | @wake s Q a u rest hQ ha hact hkbd =>
    dsimp only
    rw [Pool.moved_apply, if_neg (Ne.symm ha), if_pos rfl]
    exact List.prefix_append ..
  | release => exact List.prefix_append ..
  | @fork s Q new frames mm hact hnew hmm hlen =>
    dsimp only
    rw [Function.update_self]
    exact List.prefix_append ..
  | _ => exact List.prefix_rfl

lemma Calms.runqueue {act : Action} {x y : Config} (h : Calms act x y) :
    x.2 .runqueue <+: y.2 .runqueue := by
  induction h with
  | refl => exact List.prefix_rfl
  | tail _ hc ih => exact ih.trans hc.runqueue

/-- A handover takes the first process away, and may append it. -/
lemma Handover.runqueue {act : Action} {x y : Config} (h : Handover act x y)
    (hs : SchedOk x.1 x.2) : (x.2 .runqueue).tail <+: y.2 .runqueue := by
  cases h with
  | @move s Q h u rest i ha h0 hact hkbd hne hQ =>
    dsimp only
    rw [Pool.moved_apply, if_pos rfl, hs.erase_cur]
    exact List.prefix_append ..
  | exit =>
    dsimp only
    rw [leftQueues, Function.update_self]

/-- In a step the runqueue grows at its end, and its first process may leave it; just then another
process gets the processor. -/
lemma Turn.runqueue {act : Action} {x y : Config} (h : Turn act x y) (hs : SchedOk x.1 x.2) :
    y.1.cur = x.1.cur ∧ x.2 .runqueue <+: y.2 .runqueue ∨
      y.1.cur ≠ x.1.cur ∧ (x.2 .runqueue).tail <+: y.2 .runqueue := by
  rcases h with h | ⟨z, hc, hh⟩
  · exact .inl ⟨h.cur_eq, h.runqueue⟩
  · refine .inr ⟨?_, ?_⟩
    · rw [← hc.cur_eq]
      cases hh with
      | move i ha h0 hact hkbd hne hQ => exact hne
      | @exit s Q u rest h0 hfree hQ =>
        have hu : u ∈ (Q .runqueue).tail := by
          rw [leftQueues, Function.update_self] at hQ
          rw [hQ]
          exact List.mem_cons_self
        exact (hc.schedOk hs).ne_cur_of_mem_tail hu
    · refine List.IsPrefix.trans ?_ (hh.runqueue (hc.schedOk hs))
      obtain ⟨more, hmore⟩ := hc.runqueue
      obtain ⟨rest, hQ⟩ := hs.runqueue_cons
      rw [← hmore, hQ]
      exact List.prefix_append ..

/-! ## The deadline -/

namespace Kernel

variable {s t : Kernel} {u : Slot} {e : Event}

/-- The processes that wait on the runqueue before `u`, without the running one. -/
def ahead (s : Kernel) (u : Slot) : List Slot := s.runqueue.tail.takeWhile (· ≠ u)

/-- The ticks after which `u` runs at the latest. -/
def deadline (s : Kernel) (u : Slot) : ℤ := s.left4current + s.quanta (s.ahead u)

end Kernel

section

open Kernel

variable {s t : Kernel} {u : Slot} {e : Event} {Q : Node → List Slot}

/-- The runqueue around a process that waits for its turn. -/
lemma SystemOk.runqueue_split (hs : SystemOk s Q) (hu : u ∈ s.runqueue) (hne : u ≠ s.cur) :
    ∃ rest, s.runqueue = s.cur :: s.ahead u ++ u :: rest ∧ u ∉ s.ahead u := by
  obtain ⟨tl, hQ⟩ := hs.sched.runqueue_cons
  have hrun : s.runqueue = s.cur :: tl := hs.sched.runqueue_eq.trans hQ
  rw [hrun] at hu
  have hmem : u ∈ tl := (List.mem_cons.mp hu).resolve_left hne
  have hahead : s.ahead u = tl.takeWhile (· ≠ u) := by rw [ahead, hrun, List.tail_cons]
  have hsplit := List.takeWhile_append_dropWhile (p := (· ≠ u)) (l := tl)
  cases hdrop : tl.dropWhile (· ≠ u) with
  | nil =>
    have hall := List.dropWhile_eq_nil_iff.mp hdrop u hmem
    simp at hall
  | cons v rest =>
    have hv := List.head?_dropWhile_not (· ≠ u) tl
    rw [hdrop] at hv hsplit
    obtain rfl : v = u := by simpa using hv
    refine ⟨rest, ?_, ?_⟩
    · rw [hrun, hahead, List.cons_append, hsplit]
    · rw [hahead]
      intro hin
      simpa using List.mem_takeWhile_imp hin

/-- What is before a process is determined by the runqueue. -/
lemma ahead_of_split {v : Slot} {ps rest : List Slot} (h : s.runqueue = v :: ps ++ u :: rest)
    (hu : u ∉ ps) : s.ahead u = ps := by
  rw [ahead, h, List.cons_append, List.tail_cons, List.takeWhile_append_of_pos]
  · simp
  · intro x hx
    simp only [ne_eq, decide_eq_true_eq]
    rintro rfl
    exact hu hx

/-- **A step towards the turn of `u`**: it gets the processor, or those ahead of it are the same or
one less, and a tick is taken off its deadline. -/
lemma SystemOk.deadline_step (hs : SystemOk s Q) (ht : s.TimeOk) (hg : s.ExitsFindTwo e)
    (hst : s.step e = .ok t) (hu : u ∈ s.runqueue) (hne : u ≠ s.cur) :
    t.cur = u ∨ (u ∈ t.runqueue ∧ u ≠ t.cur ∧ t.ahead u <:+ s.ahead u ∧
      t.deadline u + (if isTick e then 1 else 0) ≤ s.deadline u) := by
  obtain ⟨rest, hrun, hnot⟩ := hs.runqueue_split hu hne
  obtain ⟨Q', hturn⟩ := (hs.step_effects e hg).1 t hst
  have hs' := hturn.systemOk hs
  have hacc := hs.step_accounts hg hst
  have hQ : Q .runqueue = s.runqueue := hs.sched.runqueue_eq.symm
  have hQ' : Q' .runqueue = t.runqueue := hs'.sched.runqueue_eq.symm
  -- those ahead keep their quanta: they are not running
  have hnodup : s.runqueue.Nodup := hQ ▸ hs.sched.pool.nodup .runqueue
  have hquantum : ∀ p ∈ s.ahead u, (t.task p).quantum = (s.task p).quantum := by
    intro p hp
    have hin : p ∈ s.runqueue := by
      rw [hrun]
      simp [hp]
    have hlive : s.Live p := (hs.sched.live_iff p).mpr ⟨.runqueue, hQ ▸ hin⟩
    rcases hacc.quantum p hlive with h | ⟨rfl, -⟩
    · exact h
    · rw [hrun] at hnodup
      exact absurd (List.mem_append_left _ hp) (List.nodup_cons.mp hnodup).1
  have hleft := ht.left_pos
  rcases hturn.runqueue hs.sched with ⟨hcur, hpre⟩ | ⟨hcur, hpre⟩
  · -- the same process runs
    simp only [hQ, hQ'] at hpre hcur
    obtain ⟨more, hmore⟩ := hpre
    have hrun' : t.runqueue = s.cur :: s.ahead u ++ u :: (rest ++ more) := by
      rw [← hmore, hrun]
      simp
    have hahead := ahead_of_split hrun' hnot
    refine .inr ⟨by rw [hrun']; simp, hcur ▸ hne, hahead ▸ List.suffix_rfl, ?_⟩
    have hsum : t.quanta (s.ahead u) = s.quanta (s.ahead u) := by
      rw [quanta, quanta, List.map_congr_left hquantum]
    rw [deadline, deadline, hahead, hsum]
    by_cases htick : isTick e
    · rcases hacc.ticked hcur htick with ⟨-, h⟩ | ⟨-, hone, -⟩
      · rw [if_pos htick]
        omega
      · rw [hrun] at hone
        simp at hone
    · rw [if_neg htick, hacc.left hcur htick]
      omega
  · -- the next one runs
    simp only [hQ, hQ', hrun] at hpre hcur
    obtain ⟨more, hmore⟩ := hpre
    obtain ⟨tl, htl⟩ := hs'.sched.runqueue_cons
    change Q' .runqueue = t.cur :: tl at htl
    rw [hQ', ← hmore] at htl
    cases hps : s.ahead u with
    | nil =>
      rw [hps] at htl
      exact .inl (List.cons.inj htl).1.symm
    | cons p ps =>
      rw [hps] at htl hnot hquantum
      have hp : t.cur = p := (List.cons.inj htl).1.symm
      have hrun' : t.runqueue = p :: ps ++ u :: (rest ++ more) := by
        rw [← hmore, hps]
        simp
      have hnot' : u ∉ ps := fun h => hnot (List.mem_cons_of_mem _ h)
      have hahead := ahead_of_split hrun' hnot'
      refine .inr ⟨by rw [hrun']; simp, ?_, ?_, ?_⟩
      · rintro rfl
        exact hnot (hp ▸ List.mem_cons_self)
      · rw [hahead]
        exact List.suffix_cons p ps
      · have hsum : t.quanta ps = s.quanta ps := by
          rw [quanta, quanta, List.map_congr_left fun q hq => hquantum q (List.mem_cons_of_mem _ hq)]
        have hnew : t.left4current = (s.task p).quantum := by
          rw [hacc.handed hcur, current, hp]
          exact hquantum p List.mem_cons_self
        rw [deadline, deadline, hahead, hsum, hnew, hps, quanta_cons]
        split_ifs <;> omega

end

/-- `u` waits for its turn, with nobody before it but some of `ps`. -/
structure Kernel.InLine (s : Kernel) (u : Slot) (ps : List Slot) : Prop where
  ok : ∃ Q, SystemOk s Q
  time : s.TimeOk
  mem : u ∈ s.runqueue
  not_running : u ≠ s.cur
  behind : s.ahead u <:+ ps

namespace Kernel.InLine

open Kernel

variable {s t : Kernel} {u : Slot} {e : Event} {ps : List Slot}

lemma step (h : InLine s u ps) (hg : s.ExitsFindTwo e) (hst : s.step e = .ok t) :
    t.cur = u ∨ InLine t u ps ∧ t.deadline u + (if isTick e then 1 else 0) ≤ s.deadline u := by
  obtain ⟨Q, hs⟩ := h.ok
  obtain ⟨Q', hs'⟩ := hs.step hg hst
  rcases hs.deadline_step h.time hg hst h.mem h.not_running with hu | ⟨hmem, hne, hsuffix, hspend⟩
  · exact .inl hu
  · refine .inr ⟨⟨⟨Q', hs'⟩, ?_, hmem, hne, hsuffix.trans h.behind⟩, hspend⟩
    exact (hs.step_accounts hg hst).timeOk h.time hs.sched.cur_live hs'.sched.cur_live

/-- Before its turn there is time left. -/
lemma deadline_pos (h : InLine s u ps) : 1 ≤ s.deadline u := by
  obtain ⟨Q, hs⟩ := h.ok
  obtain ⟨rest, hrun, -⟩ := hs.runqueue_split h.mem h.not_running
  have hquanta : 0 ≤ s.quanta (s.ahead u) := by
    refine quanta_nonneg fun p hp => h.time.quantum p ((hs.sched.live_iff p).mpr ⟨.runqueue, ?_⟩)
    rw [← hs.sched.runqueue_eq, hrun]
    simp [hp]
  have hleft := h.time.left_pos
  rw [deadline]
  omega

end Kernel.InLine

lemma Kernel.sum_ticks (es : List Event) :
    (es.map fun e => if isTick e then (1 : ℤ) else 0).sum = ticksIn es := by
  induction es with
  | nil => rfl
  | cons e es ih =>
    rw [List.map_cons, List.sum_cons, ih, ticksIn_cons]
    split_ifs <;> push_cast <;> omega

/-- **Nobody starves.**  In runs whose exits find two processes to run, from any state on, a process
on the runqueue gets the processor within its deadline: in every further run, either it has run, or
it still waits on the runqueue, nobody has overtaken it, and its deadline has come nearer by every
tick of the clock. -/
theorem no_starvation (E : Env) {es fs : List Event} {s t : Kernel} {u : Slot}
    (h : ExitRun E.boot es s) (hu : u ∈ s.runqueue) (hrun : ExitRun s fs t) :
    (∃ pre v, pre <+: fs ∧ ExitRun s pre v ∧ v.cur = u) ∨
      (u ∈ t.runqueue ∧ t.ahead u <:+ s.ahead u ∧ 1 ≤ t.deadline u ∧
        t.deadline u + Kernel.ticksIn fs ≤ s.deadline u) := by
  by_cases hcur : s.cur = u
  · exact .inl ⟨[], s, List.nil_prefix, .nil s, hcur⟩
  have hline : s.InLine u (s.ahead u) :=
    ⟨h.systemOk, E.boot_systemOk.timeOk (Kernel.timeOk_boot E) h, hu, Ne.symm hcur, List.suffix_rfl⟩
  have hstep : ∀ (v : Kernel) (e : Event) (w : Kernel), v.InLine u (s.ahead u) →
      v.ExitsFindTwo e → v.step e = .ok w →
      w.cur = u ∨ w.InLine u (s.ahead u) ∧
        w.deadline u + (if Kernel.isTick e then 1 else 0) ≤ v.deadline u :=
    fun v e w hv hg hst => hv.step hg hst
  rcases hrun.goal_or_spend (fun v => v.deadline u) _ hstep hline with hgoal | ⟨hwait, hspend⟩
  · exact .inl hgoal
  · rw [Kernel.sum_ticks] at hspend
    exact .inr ⟨hwait.mem, hwait.behind, hwait.deadline_pos, hspend⟩

/-- `no_starvation` for the first child: it runs within the 60 ticks of its parent. -/
theorem no_starvation_of_child :
    ∃ s, ExitRun zeroEnv.boot [plain .fork] s ∧ s.deadline 1 = 60 ∧ ∀ fs t, ExitRun s fs t →
      (∃ pre v, pre <+: fs ∧ ExitRun s pre v ∧ v.cur = 1) ∨
      (1 ∈ t.runqueue ∧ t.ahead 1 <:+ s.ahead 1 ∧ 1 ≤ t.deadline 1 ∧
        t.deadline 1 + Kernel.ticksIn fs ≤ s.deadline 1) := by
  obtain ⟨s, hrun, hs, hleft, -, -, -, -⟩ := zeroEnv.boot_fork
  have hqueue : s.runqueue = [0, 1] := by
    rw [hs.sched.runqueue_eq, Function.update_self]
  have hmem : (1 : Slot) ∈ s.runqueue := by
    rw [hqueue]
    simp
  refine ⟨s, hrun, ?_, fun fs t ht => no_starvation zeroEnv hrun hmem ht⟩
  have hahead : s.ahead 1 = [] := by
    rw [Kernel.ahead, hqueue]
    rfl
  rw [Kernel.deadline, hahead, Kernel.quanta_nil, hleft]
  rfl

end ZeOS
