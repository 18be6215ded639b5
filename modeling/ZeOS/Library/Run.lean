import Mathlib.Tactic.Lemma
import Mathlib.Data.List.Basic
import Mathlib.Algebra.BigOperators.Group.List.Basic
import Mathlib.Algebra.Ring.Int.Defs

/-!
# Guarded runs of a deterministic partial system

A system is a step function `step : σ → ε → Except ρ σ`: in state `s` the event `e` either
leads to one next state or ends the run with a reason in `ρ`.  A guard `ok : σ → ε → Prop`
restricts the steps a run may take, and is read in the state *before* the step.

`Run step ok s es t` says that the events `es`, taken in order from `s`, all step, all meet
the guard, and end in `t`.  The rules are the ones every invariant proof needs: an inductive
invariant holds at the end of a run (`Run.invariant`), a run splits and joins at any event
(`run_append_iff`), a guard may be weakened (`Run.mono`), and a guard may be shown to be
exactly what a property of all states of a run needs (`Run.forall_prefix_iff`).  A measure that
every step takes the cost of its event off bounds how long a goal can stay away
(`Run.goal_or_spend`).  Two runs of the same events go on side by side in states that a relation
keeps together (`Run.simulate`).

History variables are the same construction on a product: `record` carries a value `γ`
beside the state and updates it from the state before, the event and the state after.  It
never changes which runs exist (`Run.of_record`, `Run.exists_record`), so a theorem about
recorded runs is a theorem about the system's own runs.  Events that leave no trace keep the
history as it is (`Run.record_same`).
-/

namespace GuardedRun

variable {σ ε ρ γ : Type*} {step : σ → ε → Except ρ σ} {ok : σ → ε → Prop}

/-- The events `es` lead from the first state to the second, every one of them meeting the
guard in the state it is taken in. -/
inductive Run (step : σ → ε → Except ρ σ) (ok : σ → ε → Prop) : σ → List ε → σ → Prop
  | nil (s : σ) : Run step ok s [] s
  | cons {s t u : σ} {e : ε} {es : List ε} :
      ok s e → step s e = .ok t → Run step ok t es u → Run step ok s (e :: es) u

/-- **The invariant rule.** A property that every guarded step keeps holds at the end of
every guarded run. -/
lemma Run.invariant {Inv : σ → Prop}
    (hstep : ∀ s e t, Inv s → ok s e → step s e = .ok t → Inv t)
    {s t : σ} {es : List ε} (h : Run step ok s es t) (hs : Inv s) : Inv t := by
  induction h with
  | nil s => exact hs
  | cons hok hst _ ih => exact ih (hstep _ _ _ hs hok hst)

lemma run_nil_iff {s t : σ} : Run step ok s [] t ↔ s = t := by
  constructor
  · intro h
    cases h
    rfl
  · rintro rfl
    exact .nil s

lemma run_cons_iff {s u : σ} {e : ε} {es : List ε} :
    Run step ok s (e :: es) u ↔
      ∃ t, ok s e ∧ step s e = .ok t ∧ Run step ok t es u := by
  constructor
  · intro h
    cases h with
    | cons hok hst hr => exact ⟨_, hok, hst, hr⟩
  · rintro ⟨t, hok, hst, hr⟩
    exact .cons hok hst hr

/-- A run splits at any event. -/
lemma run_append_iff {es fs : List ε} :
    ∀ {s u : σ}, Run step ok s (es ++ fs) u ↔
      ∃ t, Run step ok s es t ∧ Run step ok t fs u := by
  induction es with
  | nil =>
    intro s u
    simp [run_nil_iff]
  | cons e es ih =>
    intro s u
    rw [List.cons_append, run_cons_iff]
    constructor
    · rintro ⟨t, hok, hst, hr⟩
      obtain ⟨v, hv, hu⟩ := ih.mp hr
      exact ⟨v, .cons hok hst hv, hu⟩
    · rintro ⟨v, hv, hu⟩
      obtain ⟨t, hok, hst, hr⟩ := run_cons_iff.mp hv
      exact ⟨t, hok, hst, ih.mpr ⟨v, hr, hu⟩⟩

lemma Run.snoc {s t u : σ} {e : ε} {es : List ε} (h : Run step ok s es t) (hok : ok t e)
    (hst : step t e = .ok u) : Run step ok s (es ++ [e]) u :=
  run_append_iff.mpr ⟨t, h, .cons hok hst (.nil u)⟩

/-- A run under one guard is a run under any weaker one. -/
lemma Run.mono {ok' : σ → ε → Prop} (himp : ∀ s e, ok s e → ok' s e) {s t : σ} {es : List ε}
    (h : Run step ok s es t) : Run step ok' s es t := by
  induction h with
  | nil s => exact .nil s
  | cons hok hst _ ih => exact .cons (himp _ _ hok) hst ih

lemma Run.unguarded {s t : σ} {es : List ε} (h : Run step ok s es t) :
    Run step (fun _ _ => True) s es t := h.mono fun _ _ _ => trivial

/-- **The exact guard.** A stronger guard that keeps an invariant, and without which a step
leads out of a consequence of that invariant, is met by the whole run just when that
consequence holds in every state of the run. -/
lemma Run.forall_prefix_iff {ok' : σ → ε → Prop} {Inv Good : σ → Prop}
    (hgood : ∀ s, Inv s → Good s)
    (hkeep : ∀ s e t, Inv s → ok s e → ok' s e → step s e = .ok t → Inv t)
    (hbreak : ∀ s e t, Inv s → ok s e → ¬ ok' s e → step s e = .ok t → ¬ Good t)
    {s t : σ} {es : List ε} (h : Run step ok s es t) (hs : Inv s) :
    (∀ pre u, pre <+: es → Run step ok s pre u → Good u) ↔
      Run step (fun s e => ok s e ∧ ok' s e) s es t := by
  induction h with
  | nil s =>
    constructor
    · intro _
      exact .nil s
    · intro _ pre u hpre hrun
      rw [List.prefix_nil] at hpre
      subst hpre
      rw [run_nil_iff] at hrun
      exact hrun ▸ hgood s hs
  | @cons s t u e es hok hst hrun ih =>
    constructor
    · intro hall
      have hok' : ok' s e := by
        by_contra hno
        refine hbreak s e t hs hok hno hst (hall [e] t ?_ (.cons hok hst (.nil t)))
        exact List.prefix_append [e] es
      refine .cons ⟨hok, hok'⟩ hst ((ih (hkeep s e t hs hok hok' hst)).mp ?_)
      intro pre w hpre hw
      exact hall (e :: pre) w (List.cons_prefix_cons.mpr ⟨rfl, hpre⟩) (.cons hok hst hw)
    · intro hrun' pre w hpre hw
      obtain ⟨t', ⟨-, hok'⟩, hst', hrest⟩ := run_cons_iff.mp hrun'
      rw [hst, Except.ok.injEq] at hst'
      subst hst'
      cases pre with
      | nil =>
        rw [run_nil_iff] at hw
        exact hw ▸ hgood s hs
      | cons e' pre =>
        obtain ⟨rfl, hpre'⟩ := List.cons_prefix_cons.mp hpre
        obtain ⟨t', -, hst', hw'⟩ := run_cons_iff.mp hw
        rw [hst, Except.ok.injEq] at hst'
        subst hst'
        exact (ih (hkeep s e' t hs hok hok' hst)).mpr hrest pre w hpre' hw'

/-! ## Progress -/

/-- **The measure rule.** When every step either comes to the goal or keeps an invariant and takes
the cost of its event off a measure, a run comes to the goal, or it keeps the invariant and has taken
the cost of all its events off the measure. -/
lemma Run.goal_or_spend {Inv Goal : σ → Prop} (measure : σ → ℤ) (cost : ε → ℤ)
    (hstep : ∀ s e t, Inv s → ok s e → step s e = .ok t →
      Goal t ∨ Inv t ∧ measure t + cost e ≤ measure s)
    {s t : σ} {es : List ε} (h : Run step ok s es t) (hs : Inv s) :
    (∃ pre u, pre <+: es ∧ Run step ok s pre u ∧ Goal u) ∨
      Inv t ∧ measure t + (es.map cost).sum ≤ measure s := by
  induction h with
  | nil s => exact .inr ⟨hs, by simp⟩
  | @cons s t u e es hok hst _ ih =>
    rcases hstep s e t hs hok hst with hgoal | ⟨ht, hspend⟩
    · exact .inl ⟨[e], t, List.prefix_append [e] es, .cons hok hst (.nil t), hgoal⟩
    · rcases ih ht with ⟨pre, w, hpre, hrun, hgoal⟩ | ⟨hu, hspend'⟩
      · exact .inl ⟨e :: pre, w, List.cons_prefix_cons.mpr ⟨rfl, hpre⟩, .cons hok hst hrun, hgoal⟩
      · refine .inr ⟨hu, ?_⟩
        rw [List.map_cons, List.sum_cons]
        omega

/-! ## Two runs -/

/-- **The simulation rule.** When related states meet the guard together and step to related states,
a run from one of them is matched by a run of the same events from the other. -/
lemma Run.simulate {σ' ρ' : Type*} {step' : σ' → ε → Except ρ' σ'} {ok' : σ' → ε → Prop}
    {R : σ → σ' → Prop}
    (hstep : ∀ s s' e t, R s s' → ok s e → step s e = .ok t →
      ok' s' e ∧ ∃ t', step' s' e = .ok t' ∧ R t t')
    {s t : σ} {s' : σ'} {es : List ε} (h : Run step ok s es t) (hs : R s s') :
    ∃ t', Run step' ok' s' es t' ∧ R t t' := by
  induction h generalizing s' with
  | nil s => exact ⟨s', .nil s', hs⟩
  | @cons s t u e es hok hst _ ih =>
    obtain ⟨hok', t', hst', ht⟩ := hstep s s' e t hs hok hst
    obtain ⟨u', hrun, hu⟩ := ih ht
    exact ⟨u', .cons hok' hst' hrun, hu⟩

/-! ## History variables -/

/-- The system with a history value carried beside the state. -/
def record (step : σ → ε → Except ρ σ) (upd : σ → ε → σ → γ → γ) (s : σ × γ) (e : ε) :
    Except ρ (σ × γ) :=
  match step s.1 e with
  | .ok t => .ok (t, upd s.1 e t s.2)
  | .error r => .error r

lemma record_ok_iff {upd : σ → ε → σ → γ → γ} {s t : σ × γ} {e : ε} :
    record step upd s e = .ok t ↔ step s.1 e = .ok t.1 ∧ t.2 = upd s.1 e t.1 s.2 := by
  unfold record
  cases hst : step s.1 e with
  | error r => simp
  | ok u =>
    simp only [Except.ok.injEq]
    constructor
    · rintro rfl
      exact ⟨rfl, rfl⟩
    · rintro ⟨rfl, h⟩
      exact Prod.ext rfl h.symm

/-- Forgetting the history gives a run of the system. -/
lemma Run.of_record {upd : σ → ε → σ → γ → γ} {s t : σ × γ} {es : List ε}
    {ok' : σ × γ → ε → Prop} (himp : ∀ s e, ok' s e → ok s.1 e)
    (h : Run (record step upd) ok' s es t) : Run step ok s.1 es t.1 := by
  induction h with
  | nil s => exact .nil s.1
  | cons hok hst _ ih => exact .cons (himp _ _ hok) (record_ok_iff.mp hst).1 ih

/-- Every run of the system has a history. -/
lemma Run.exists_record (upd : σ → ε → σ → γ → γ) {s t : σ} {es : List ε}
    (h : Run step ok s es t) (g : γ) :
    ∃ g', Run (record step upd) (fun s e => ok s.1 e) (s, g) es (t, g') := by
  induction h generalizing g with
  | nil s => exact ⟨g, .nil _⟩
  | @cons s t u e es hok hst _ ih =>
    obtain ⟨g', hg'⟩ := ih (upd s e t g)
    exact ⟨g', .cons hok (record_ok_iff.mpr ⟨hst, rfl⟩) hg'⟩

lemma Run.snoc_record {upd : σ → ε → σ → γ → γ} {ok' : σ × γ → ε → Prop} {s t : σ × γ} {u : σ}
    {e : ε} {es : List ε} (h : Run (record step upd) ok' s es t) (hok : ok' t e)
    (hst : step t.1 e = .ok u) :
    Run (record step upd) ok' s (es ++ [e]) (u, upd t.1 e u t.2) :=
  h.snoc hok (record_ok_iff.mpr ⟨hst, rfl⟩)

/-- A run of events that leave no trace, with a weaker guard. -/
lemma Run.record_same (ok' : σ → ε → Prop) {upd : σ → ε → σ → γ → γ} {g : γ} {s t : σ} {es : List ε}
    (h : Run step ok s es t) (himp : ∀ s, ∀ e ∈ es, ok s e → ok' s e)
    (hupd : ∀ e ∈ es, ∀ s t, upd s e t g = g) :
    Run (record step upd) (fun s e => ok' s.1 e) (s, g) es (t, g) := by
  induction h with
  | nil s => exact .nil _
  | @cons s t u e es hok hst _ ih =>
    have hsame : upd s e t g = g := hupd e (by simp) s t
    refine .cons (himp s e (by simp) hok) (record_ok_iff.mpr ⟨hst, hsame.symm⟩) (ih ?_ ?_)
    · exact fun s e he => himp s e (by simp [he])
    · exact fun e he => hupd e (by simp [he])

end GuardedRun
