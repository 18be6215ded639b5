import ZeOS.Invariants.Frames
import Mathlib.Algebra.Group.Pi.Lemmas
import Mathlib.Algebra.BigOperators.Group.List.Basic

/-!
# Round robin

What the clock does to the processes of the runqueue, in a state in which they are all live and
have a quantum to run (`InTurn`).  A tick within a quantum only counts; the last tick of a quantum
gives the processor to the next process, or a new quantum to a process that is alone.

`Gains` says what the processes have been credited with between two states, and adds up along a
run.  After as many ticks as the quanta together have, every process has had its turn and the state
of the scheduler is the first one again (`round_robin_accounts`).
-/

namespace ZeOS

open IntrusiveList GuardedRun

namespace Kernel

variable {s t u : Kernel} {e : Event} {p : Slot} {ts : List Slot}

@[simp] lemma showTime_task (s : Kernel) : s.showTime.task = s.task := by
  unfold showTime
  simp only
  split_ifs <;> rfl

@[simp] lemma showTime_links (s : Kernel) : s.showTime.links = s.links := by
  unfold showTime
  simp only
  split_ifs <;> rfl

@[simp] lemma showTime_cur (s : Kernel) : s.showTime.cur = s.cur := by
  unfold showTime
  simp only
  split_ifs <;> rfl

@[simp] lemma showTime_left4current (s : Kernel) : s.showTime.left4current = s.left4current := by
  unfold showTime
  simp only
  split_ifs <;> rfl

/-- A tick at which `schedule` returns. -/
lemma step_clock_of_ret (hact : e.act = .clock)
    (hsch : (s.enter e.regs).tick.schedule 1 = .ret () t) : s.step e = .ok t.showTime := by
  apply step_of_done
  unfold dispatch
  rw [hact]
  show finishInt (s.enter e.regs).clockRoutine = _
  rw [clockRoutine, hsch]
  rfl

/-- A tick at which `schedule` switches. -/
lemma step_clock_of_switched (hact : e.act = .clock)
    (hsch : (s.enter e.regs).tick.schedule 1 = .switched t) : s.step e = .ok t := by
  apply step_of_done
  unfold dispatch
  rw [hact]
  show finishInt (s.enter e.regs).clockRoutine = _
  rw [clockRoutine, hsch]
  rfl

/-! ## What is credited -/

/-- Between two states, every process has gained `tics` ticks and `switches` transitions, and has
kept its quantum. -/
structure Gains (s t : Kernel) (tics switches : Slot → ℤ) : Prop where
  quantum : ∀ p, (t.task p).quantum = (s.task p).quantum
  live : ∀ p, t.Live p ↔ s.Live p
  cpuTics : ∀ p, (t.task p).cpuTics = (s.task p).cpuTics + tics p
  transitions : ∀ p, (t.task p).transitions = (s.task p).transitions + switches p

lemma Gains.of_task (h : t.task = s.task) : Gains s t 0 0 := by
  constructor <;> intro p <;> simp [Live, h]

lemma Gains.refl (s : Kernel) : Gains s s 0 0 := .of_task rfl

lemma Gains.trans {c c' k k' : Slot → ℤ} (h : Gains s t c k) (h' : Gains t u c' k') :
    Gains s u (c + c') (k + k') := by
  constructor
  · exact fun p => (h'.quantum p).trans (h.quantum p)
  · exact fun p => (h'.live p).trans (h.live p)
  · intro p
    rw [h'.cpuTics, h.cpuTics, Pi.add_apply, Int.add_assoc]
  · intro p
    rw [h'.transitions, h.transitions, Pi.add_apply, Int.add_assoc]

lemma Gains.of_eq {c c' k k' : Slot → ℤ} (h : Gains s t c k) (hc : c = c') (hk : k = k') :
    Gains s t c' k' := by
  subst hc hk
  exact h

/-! ## Ticks -/

/-- The runqueue is `ts`, with the running process first; its processes are live and have a
positive quantum, and the time left is at least one tick. -/
structure InTurn (s : Kernel) (ts : List Slot) : Prop where
  ring : Ring s.links .runqueue (ts.map .task)
  head : ts.head? = some s.cur
  live : ∀ p ∈ ts, s.Live p
  quantum : ∀ p ∈ ts, 0 < (s.task p).quantum
  remaining : s.left4current = s.current.remaining
  left_pos : 1 ≤ s.left4current

lemma InTurn.cur_mem (h : InTurn s ts) : s.cur ∈ ts := List.mem_of_head? h.head

/-- A tick of the clock while the first process of `ts` has its turn. -/
def TickInTurn (ts : List Slot) (s : Kernel) (e : Event) : Prop := InTurn s ts ∧ e.act = .clock

lemma act_of_mem_ticks {n : ℕ} : ∀ e ∈ List.replicate n (plain .clock), e.act = .clock := by
  intro e he
  rw [List.eq_of_mem_replicate he]
  rfl

lemma TickInTurn.exitsFindTwo (h : TickInTurn ts s e) : s.ExitsFindTwo e := clock_exitsFindTwo h.2

lemma TickInTurn.cur_eq (h : TickInTurn (p :: ts) s e) : s.cur = p :=
  (Option.some.inj h.1.head).symm

/-- The state of the processes in which a tick calls `schedule`. -/
lemma tick_task (s : Kernel) (regs : SavedRegs) (p : Slot) :
    (s.enter regs).tick.task p =
      if p = s.cur then { s.task p with
        stack := regs
        cpuTics := (s.task p).cpuTics + 1
        remaining := (s.task p).remaining - 1 }
      else s.task p := by
  by_cases hp : p = s.cur
  · subst hp
    simp [enter, tick, updTask]
  · simp [enter, tick, updTask, hp]

/-- The counting of a tick. -/
lemma gains_tick (s : Kernel) (regs : SavedRegs) :
    Gains s (s.enter regs).tick (Pi.single s.cur 1) 0 := by
  constructor <;> intro p <;> by_cases hp : p = s.cur <;> simp [tick_task, Live, hp]

lemma Gains.showTime {c k : Slot → ℤ} (h : Gains s t c k) : Gains s t.showTime c k := by
  obtain ⟨hq, hl, hc, hk⟩ := h
  constructor <;> simpa [Live]

lemma InTurn.showTime (h : InTurn s ts) : InTurn s.showTime ts := by
  obtain ⟨hr, hh, hl, hq, hrem, hpos⟩ := h
  constructor <;> simpa [Live, current]

/-- A new quantum credits nobody. -/
lemma gains_newQuantum (s : Kernel) (q : ℤ) :
    Gains s ({ s with left4current := q }.updTask s.cur fun k => { k with remaining := q }) 0 0 := by
  constructor <;> intro p <;> by_cases hp : p = s.cur <;> simp [updTask, Live, hp]

lemma gains_moveCurrent (s : Kernel) (h : Node) : Gains s (s.moveCurrent h) 0 0 := .of_task rfl

/-- A context switch credits the process that gets the processor with a transition. -/
lemma gains_handTo (s : Kernel) (i : ℤ) (q : Slot) : Gains s (s.handTo i q) 0 (Pi.single q 1) := by
  constructor <;> intro p <;> by_cases hp : p = q <;> simp [handTo_task, Live, hp]

/-- A tick within a quantum. -/
lemma InTurn.tick_within (h : InTurn s ts) (hact : e.act = .clock) (hleft : 1 < s.left4current) :
    ∃ t, s.step e = .ok t ∧ InTurn t ts ∧ t.left4current = s.left4current - 1 ∧
      Gains s t (Pi.single s.cur 1) 0 := by
  have hsch : (s.enter e.regs).tick.schedule 1 = .ret () (s.enter e.regs).tick := by
    have htime : ¬ (s.enter e.regs).tick.left4current ≤ 0 := by
      show ¬ s.left4current - 1 ≤ 0
      omega
    rw [schedule, if_neg htime]
  have hgains := gains_tick s e.regs
  have hturn : InTurn (s.enter e.regs).tick ts := by
    constructor
    · exact h.ring
    · exact h.head
    · exact fun p hp => (hgains.live p).mpr (h.live p hp)
    · intro p hp
      rw [hgains.quantum]
      exact h.quantum p hp
    · show s.left4current - 1 = ((s.enter e.regs).tick.task s.cur).remaining
      rw [tick_task, if_pos rfl, h.remaining]
    · show 1 ≤ s.left4current - 1
      omega
  refine ⟨_, step_clock_of_ret hact hsch, hturn.showTime, ?_, hgains.showTime⟩
  rw [showTime_left4current]
  rfl

/-- The last tick of a quantum, for a process that is alone. -/
lemma InTurn.tick_alone (h : InTurn s [p]) (hact : e.act = .clock) (hleft : s.left4current = 1) :
    ∃ t, s.step e = .ok t ∧ InTurn t [p] ∧ t.left4current = (s.task p).quantum ∧
      Gains s t (Pi.single p 1) 0 := by
  obtain rfl : p = s.cur := by simpa using h.head
  have hgains := gains_tick s e.regs
  have hring : Ring (s.enter e.regs).tick.links .runqueue ([s.cur].map .task) := h.ring
  set v := (s.enter e.regs).tick with hv
  have hsch : v.schedule 1 = .ret () ({ v with left4current := v.current.quantum }.updTask v.cur
      fun k => { k with remaining := v.current.quantum }) := by
    have htime : v.left4current ≤ 0 := by
      show s.left4current - 1 ≤ 0
      omega
    rw [schedule, if_pos htime, if_pos (hring.first_eq_last_iff.mpr (Nat.le_refl 1))]
  have hquantum : v.current.quantum = (s.task s.cur).quantum := hgains.quantum s.cur
  have hall := hgains.trans (gains_newQuantum v v.current.quantum)
  have hturn : InTurn ({ v with left4current := v.current.quantum }.updTask v.cur
      fun k => { k with remaining := v.current.quantum }) [s.cur] := by
    constructor
    · exact h.ring
    · exact h.head
    · exact fun p hp => (hall.live p).mpr (h.live p hp)
    · intro p hp
      rw [hall.quantum]
      exact h.quantum p hp
    · simp [updTask, current]
    · show 1 ≤ v.current.quantum
      rw [hquantum]
      exact h.quantum _ h.cur_mem
  refine ⟨_, step_clock_of_ret hact hsch, hturn.showTime, ?_,
    hall.showTime.of_eq (add_zero _) (add_zero _)⟩
  rw [showTime_left4current]
  exact hquantum

/-- The last tick of a quantum, when another process waits for its turn. -/
lemma InTurn.tick_next {q : Slot} (h : InTurn s (p :: q :: ts)) (hact : e.act = .clock)
    (hleft : s.left4current = 1) :
    ∃ t, s.step e = .ok t ∧ InTurn t (q :: ts ++ [p]) ∧ t.left4current = (s.task q).quantum ∧
      Gains s t (Pi.single p 1) (Pi.single q 1) := by
  obtain rfl : p = s.cur := by simpa using h.head
  have hgains := gains_tick s e.regs
  set v := (s.enter e.regs).tick with hv
  have hring : Ring v.links .runqueue (.task s.cur :: (q :: ts).map .task) := h.ring
  have hmoved : Ring (v.moveCurrent .runqueue).links .runqueue
      ((q :: ts ++ [s.cur]).map .task) := by
    rw [List.map_append]
    exact hring.rotate
  have hsch : v.schedule 1 = .switched ((v.moveCurrent .runqueue).handTo 1 q) := by
    have htime : v.left4current ≤ 0 := by
      show s.left4current - 1 ≤ 0
      omega
    have htwo : ¬ v.links.listFirst .runqueue = v.links.listLast .runqueue := by
      rw [hring.first_eq_last_iff]
      simp
    have hlive : v.current.pid ≠ -1 := by
      have : 0 ≤ v.current.pid := (hgains.live s.cur).mpr (h.live _ h.cur_mem)
      omega
    rw [schedule, if_pos htime, if_neg htwo, if_pos hlive]
    show (v.moveCurrent .runqueue).switchToNext 1 = _
    rw [switchToNext, hmoved.next_head]
    rfl
  have hall := (hgains.trans (gains_moveCurrent v .runqueue)).trans
    (gains_handTo (v.moveCurrent .runqueue) 1 q)
  have hquantum : ∀ p, (((v.moveCurrent .runqueue).handTo 1 q).task p).quantum =
      (s.task p).quantum := hall.quantum
  have hleft' : ((v.moveCurrent .runqueue).handTo 1 q).left4current = (s.task q).quantum := by
    rw [handTo_left4current]
    exact hgains.quantum q
  have hturn : InTurn ((v.moveCurrent .runqueue).handTo 1 q) (q :: ts ++ [s.cur]) := by
    have hmem : ∀ p, p ∈ q :: ts ++ [s.cur] → p ∈ s.cur :: q :: ts := by
      intro p hp
      rcases List.mem_append.mp hp with hp | hp
      · exact List.mem_cons_of_mem _ hp
      · rw [List.mem_singleton.mp hp]
        exact List.mem_cons_self
    constructor
    · exact hmoved
    · rfl
    · exact fun p hp => (hall.live p).mpr (h.live p (hmem p hp))
    · intro p hp
      rw [hquantum]
      exact h.quantum p (hmem p hp)
    · rw [hleft', current, handTo_cur, handTo_task, if_pos rfl]
      exact (hgains.quantum q).symm
    · rw [hleft']
      exact h.quantum q (hmem q (by simp))
  exact ⟨_, step_clock_of_switched hact hsch, hturn, hleft',
    hall.of_eq (by rw [add_zero, add_zero]) (by rw [add_zero, zero_add])⟩

/-- Every tick leaves the processes in turn. -/
lemma InTurn.tick (h : InTurn s ts) (hact : e.act = .clock) (hst : s.step e = .ok t) :
    ∃ ts', InTurn t ts' := by
  have hdet : ∀ {v : Kernel} {vs : List Slot}, s.step e = .ok v → InTurn v vs →
      ∃ ts', InTurn t ts' := by
    intro v vs hv hin
    obtain rfl : v = t := Except.ok.inj (hv.symm.trans hst)
    exact ⟨vs, hin⟩
  have hpos := h.left_pos
  rcases eq_or_lt_of_le hpos with hone | hlt
  · match ts, h with
    | [], h =>
      have := h.head
      cases this
    | [p], h =>
      obtain ⟨v, hv, hin, -⟩ := h.tick_alone hact hone.symm
      exact hdet hv hin
    | p :: q :: ts, h =>
      obtain ⟨v, hv, hin, -⟩ := h.tick_next hact hone.symm
      exact hdet hv hin
  · obtain ⟨v, hv, hin, -⟩ := h.tick_within hact hlt
    exact hdet hv hin

lemma InTurn.run {es : List Event} (h : InTurn s ts) (hes : ∀ e ∈ es, e.act = .clock)
    (hrun : AnyRun s es t) : ∃ ts', InTurn t ts' := by
  induction hrun generalizing ts with
  | nil s => exact ⟨ts, h⟩
  | cons _ hst _ ih =>
    obtain ⟨ts', h'⟩ := h.tick (hes _ List.mem_cons_self) hst
    exact ih h' fun e he => hes e (List.mem_cons_of_mem _ he)

/-! ## Turns -/

/-- Some ticks within a quantum. -/
lemma InTurn.ticks {es : List Event} (h : InTurn s (p :: ts)) (hes : ∀ e ∈ es, e.act = .clock)
    (hlen : (es.length : ℤ) < s.left4current) :
    ∃ t, Run step (TickInTurn (p :: ts)) s es t ∧ InTurn t (p :: ts) ∧
      t.left4current = s.left4current - es.length ∧
      Gains s t (Pi.single p (es.length : ℤ)) 0 := by
  induction es generalizing s with
  | nil => exact ⟨s, .nil s, h, by simp, (Gains.refl s).of_eq (by simp) rfl⟩
  | cons e es ih =>
    rw [List.length_cons] at hlen ⊢
    push_cast at hlen ⊢
    have hcur : s.cur = p := (Option.some.inj h.head).symm
    obtain ⟨v, hv, hin, hleft, hgains⟩ := h.tick_within (hes e List.mem_cons_self) (by omega)
    obtain ⟨t, hrun, hin', hleft', hgains'⟩ := ih hin
      (fun e he => hes e (List.mem_cons_of_mem _ he)) (by omega)
    refine ⟨t, .cons ⟨h, hes e List.mem_cons_self⟩ hv hrun, hin', by omega,
      (hgains.trans hgains').of_eq ?_ (add_zero _)⟩
    rw [hcur, ← Pi.single_add, add_comm]

/-- The ticks of a turn up to its last one. -/
lemma InTurn.toLast {es : List Event} (h : InTurn s (p :: ts)) (hes : ∀ e ∈ es, e.act = .clock)
    (hlen : (es.length : ℤ) = s.left4current) :
    ∃ fs e v, es = fs ++ [e] ∧ e.act = .clock ∧ Run step (TickInTurn (p :: ts)) s fs v ∧
      InTurn v (p :: ts) ∧ v.left4current = 1 ∧
      Gains s v (Pi.single p (es.length - 1 : ℤ)) 0 := by
  have hpos := h.left_pos
  rcases List.eq_nil_or_concat es with rfl | ⟨fs, e, rfl⟩
  · rw [List.length_nil] at hlen
    omega
  · rw [List.concat_eq_append] at hes hlen ⊢
    rw [List.length_append, List.length_singleton] at hlen ⊢
    push_cast at hlen ⊢
    have hlen' : (fs.length : ℤ) < s.left4current := by omega
    obtain ⟨v, hrun, hin, hleft, hgains⟩ :=
      h.ticks (fun e he => hes e (List.mem_append_left _ he)) hlen'
    refine ⟨fs, e, v, rfl, hes e (by simp), hrun, hin, by omega, hgains.of_eq ?_ rfl⟩
    rw [Int.add_sub_cancel]

/-- A turn of a process, with the next one waiting. -/
lemma InTurn.turn {q : Slot} {es : List Event} (h : InTurn s (p :: q :: ts))
    (hes : ∀ e ∈ es, e.act = .clock) (hlen : (es.length : ℤ) = s.left4current) :
    ∃ t, Run step (TickInTurn (p :: q :: ts)) s es t ∧ InTurn t (q :: ts ++ [p]) ∧
      t.left4current = (s.task q).quantum ∧
      Gains s t (Pi.single p (es.length : ℤ)) (Pi.single q 1) := by
  obtain ⟨fs, e, v, hsplit, hact, hrun, hin, hleft, hgains⟩ := h.toLast hes hlen
  obtain ⟨t, hst, hin', hleft', hgains'⟩ := hin.tick_next hact hleft
  refine ⟨t, ?_, hin', hleft'.trans (hgains.quantum q),
    (hgains.trans hgains').of_eq ?_ (zero_add _)⟩
  · rw [hsplit]
    exact hrun.snoc ⟨hin, hact⟩ hst
  · rw [← Pi.single_add, Int.sub_add_cancel]

/-- A turn of a process that is alone. -/
lemma InTurn.turn_alone {es : List Event} (h : InTurn s [p]) (hes : ∀ e ∈ es, e.act = .clock)
    (hlen : (es.length : ℤ) = s.left4current) :
    ∃ t, Run step (TickInTurn [p]) s es t ∧ InTurn t [p] ∧ t.left4current = (s.task p).quantum ∧
      Gains s t (Pi.single p (es.length : ℤ)) 0 := by
  obtain ⟨fs, e, v, hsplit, hact, hrun, hin, hleft, hgains⟩ := h.toLast hes hlen
  obtain ⟨t, hst, hin', hleft', hgains'⟩ := hin.tick_alone hact hleft
  refine ⟨t, ?_, hin', hleft'.trans (hgains.quantum p),
    (hgains.trans hgains').of_eq ?_ (add_zero _)⟩
  · rw [hsplit]
    exact hrun.snoc ⟨hin, hact⟩ hst
  · rw [← Pi.single_add, Int.sub_add_cancel]

/-- The quanta of some processes together. -/
def quanta (s : Kernel) (ps : List Slot) : ℤ := (ps.map fun p => (s.task p).quantum).sum

/-- The quantum of a process, once for each time that it is listed. -/
def quantumIn (s : Kernel) (ps : List Slot) : Slot → ℤ := fun p => ps.count p * (s.task p).quantum

/-- How often a process is listed. -/
def timesIn (ps : List Slot) : Slot → ℤ := fun p => ps.count p

@[simp] lemma quanta_nil (s : Kernel) : s.quanta [] = 0 := rfl

@[simp] lemma quanta_cons (s : Kernel) (p : Slot) (ps : List Slot) :
    s.quanta (p :: ps) = (s.task p).quantum + s.quanta ps := by
  simp [quanta]

lemma quanta_nonneg {ps : List Slot} (h : ∀ p ∈ ps, 0 < (s.task p).quantum) : 0 ≤ s.quanta ps := by
  induction ps with
  | nil => exact le_rfl
  | cons p ps ih =>
    have hp := h p List.mem_cons_self
    have hps := ih fun q hq => h q (List.mem_cons_of_mem _ hq)
    rw [quanta_cons]
    omega

@[simp] lemma quantumIn_nil (s : Kernel) : s.quantumIn [] = 0 := by
  funext p
  simp [quantumIn]

@[simp] lemma timesIn_nil : timesIn [] = 0 := by
  funext p
  simp [timesIn]

lemma quantumIn_cons (s : Kernel) (p : Slot) (ps : List Slot) :
    s.quantumIn (p :: ps) = Pi.single p (s.task p).quantum + s.quantumIn ps := by
  funext x
  by_cases hx : x = p
  · subst hx
    simp [quantumIn, add_mul, add_comm]
  · simp [quantumIn, hx, Ne.symm hx]

lemma timesIn_cons (p : Slot) (ps : List Slot) :
    timesIn (p :: ps) = Pi.single p 1 + timesIn ps := by
  funext x
  by_cases hx : x = p
  · subst hx
    simp [timesIn, add_comm]
  · simp [timesIn, hx, Ne.symm hx]

lemma Gains.quanta_eq {c k : Slot → ℤ} (h : Gains s t c k) (ps : List Slot) :
    t.quanta ps = s.quanta ps := by
  simp only [quanta, h.quantum]

lemma Gains.quantumIn_eq {c k : Slot → ℤ} (h : Gains s t c k) (ps : List Slot) :
    t.quantumIn ps = s.quantumIn ps := by
  funext p
  rw [quantumIn, quantumIn, h.quantum]

/-- The turns of some processes, one after the other, from the first tick of the first. -/
lemma InTurn.turns {us : List Slot} :
    ∀ {s : Kernel} {p q : Slot} {ws : List Slot} {es : List Event}, InTurn s (p :: us ++ q :: ws) →
      s.left4current = (s.task p).quantum → (∀ e ∈ es, e.act = .clock) →
      (es.length : ℤ) = s.quanta (p :: us) →
      ∃ t, AnyRun s es t ∧ InTurn t (q :: ws ++ p :: us) ∧ t.left4current = (s.task q).quantum ∧
        Gains s t (s.quantumIn (p :: us)) (timesIn (us ++ [q])) := by
  induction us with
  | nil =>
    intro s p q ws es h hleft hes hlen
    rw [quanta_cons, quanta_nil, add_zero] at hlen
    obtain ⟨t, hrun, hin, hleft', hgains⟩ := h.turn hes (hlen.trans hleft.symm)
    refine ⟨t, hrun.unguarded, hin, hleft', hgains.of_eq ?_ ?_⟩
    · rw [hlen, quantumIn_cons, quantumIn_nil, add_zero]
    · rw [List.nil_append, timesIn_cons, timesIn_nil, add_zero]
  | cons p' us ih =>
    intro s p q ws es h hleft hes hlen
    have hpos := h.quantum p (by simp)
    have hrest : 0 ≤ s.quanta (p' :: us) :=
      quanta_nonneg fun x hx => h.quantum x (by
        rw [List.cons_append]
        exact List.mem_cons_of_mem _ (List.mem_append_left _ hx))
    rw [quanta_cons] at hlen
    -- the ticks of `p` and those of the others
    obtain ⟨n, hn⟩ : ∃ n : ℕ, (s.task p).quantum = n := ⟨_, (Int.toNat_of_nonneg hpos.le).symm⟩
    have htake : ((es.take n).length : ℤ) = (s.task p).quantum := by
      rw [List.length_take]
      omega
    obtain ⟨v, hrun, hin, hleft₁, hgains₁⟩ :=
      InTurn.turn h (fun e he => hes e (List.mem_of_mem_take he)) (htake.trans hleft.symm)
    have hdrop : ((es.drop n).length : ℤ) = v.quanta (p' :: us) := by
      rw [List.length_drop, hgains₁.quanta_eq]
      omega
    have hin' : InTurn v (p' :: us ++ q :: (ws ++ [p])) := by
      simpa using hin
    obtain ⟨t, hrun₂, hin₂, hleft₂, hgains₂⟩ := ih hin' (hleft₁.trans (hgains₁.quantum p').symm)
      (fun e he => hes e (List.mem_of_mem_drop he)) hdrop
    refine ⟨t, ?_, by simpa using hin₂, hleft₂.trans (hgains₁.quantum q),
      (hgains₁.trans hgains₂).of_eq ?_ ?_⟩
    · rw [← List.take_append_drop n es]
      exact run_append_iff.mpr ⟨v, hrun.unguarded, hrun₂⟩
    · rw [htake, hgains₁.quantumIn_eq, ← quantumIn_cons]
    · rw [List.cons_append, timesIn_cons]

/-- A round: every process of the runqueue has a turn. -/
lemma InTurn.round {es : List Event} (h : InTurn s (p :: ts))
    (hleft : s.left4current = (s.task p).quantum) (hes : ∀ e ∈ es, e.act = .clock)
    (hlen : (es.length : ℤ) = s.quanta (p :: ts)) :
    ∃ t, AnyRun s es t ∧ InTurn t (p :: ts) ∧ t.left4current = s.left4current ∧
      Gains s t (s.quantumIn (p :: ts)) (if ts = [] then 0 else timesIn (p :: ts)) := by
  rcases List.eq_nil_or_concat ts with rfl | ⟨us, q, rfl⟩
  · rw [quanta_cons, quanta_nil, add_zero] at hlen
    obtain ⟨t, hrun, hin, hleft', hgains⟩ := h.turn_alone hes (hlen.trans hleft.symm)
    refine ⟨t, hrun.unguarded, hin, hleft'.trans hleft.symm, hgains.of_eq ?_ (if_pos rfl).symm⟩
    rw [hlen, quantumIn_cons, quantumIn_nil, add_zero]
  · rw [List.concat_eq_append] at h hlen ⊢
    have hq := h.quantum q (by simp)
    have hsum : s.quanta (p :: (us ++ [q])) = s.quanta (p :: us) + (s.task q).quantum := by
      simp [quanta, add_assoc]
    rw [hsum] at hlen
    -- the turns of all but the last process, and its turn
    obtain ⟨n, hn⟩ : ∃ n : ℕ, (s.task q).quantum = n := ⟨_, (Int.toNat_of_nonneg hq.le).symm⟩
    have hothers : 0 ≤ s.quanta (p :: us) := quanta_nonneg fun x hx => h.quantum x (by
      rw [← List.cons_append]
      exact List.mem_append_left _ hx)
    have htake : ((es.take (es.length - n)).length : ℤ) = s.quanta (p :: us) := by
      rw [List.length_take]
      omega
    obtain ⟨v, hrun₁, hin₁, hleft₁, hgains₁⟩ :=
      InTurn.turns h hleft (fun e he => hes e (List.mem_of_mem_take he)) htake
    have hdrop : ((es.drop (es.length - n)).length : ℤ) = (s.task q).quantum := by
      rw [List.length_drop]
      omega
    obtain ⟨t, hrun₂, hin₂, hleft₂, hgains₂⟩ :=
      InTurn.turn hin₁ (fun e he => hes e (List.mem_of_mem_drop he)) (hdrop.trans hleft₁.symm)
    refine ⟨t, ?_, hin₂, ?_, (hgains₁.trans hgains₂).of_eq ?_ ?_⟩
    · rw [← List.take_append_drop (es.length - n) es]
      exact run_append_iff.mpr ⟨v, hrun₁, hrun₂.unguarded⟩
    · rw [hleft₂, hgains₁.quantum, hleft]
    · rw [hdrop, add_comm, ← quantumIn_cons]
      funext x
      have hperm : (q :: p :: us).Perm (p :: (us ++ [q])) :=
        (List.perm_append_singleton q (p :: us)).symm
      rw [quantumIn, quantumIn, hperm.count_eq]
    · rw [if_neg (by simp), add_comm, ← timesIn_cons]

/-- The first process has its turn at boot. -/
lemma inTurn_boot (E : Env) : InTurn E.boot [0] := by
  have hs := E.boot_systemOk.sched
  constructor
  · exact hs.pool.ring .runqueue trivial
  · rfl
  · intro p hp
    rw [List.mem_singleton.mp hp]
    exact hs.cur_live
  · intro p hp
    rw [List.mem_singleton.mp hp]
    show (0 : ℤ) < 60
    decide
  · rfl
  · show (1 : ℤ) ≤ 60
    decide

/-- After the first fork the turns are those of task 0 and of its child. -/
lemma inTurn_fork {E : Env} {t : Kernel} (hst : E.boot.step (plain .fork) = .ok t) :
    InTurn t [0, 1] ∧ t.left4current = 60 ∧ ∀ p ∈ [0, 1], (t.task p).quantum = 60 := by
  obtain ⟨t', hrun, hs, hleft, -, -, -, hquanta⟩ := E.boot_fork
  obtain ⟨v, -, hst', hnil⟩ := run_cons_iff.mp hrun
  obtain rfl := run_nil_iff.mp hnil
  obtain rfl : t = v := Except.ok.inj (hst.symm.trans hst')
  have hQ : Function.update Env.bootQueues .runqueue [0, 1] .runqueue = [0, 1] :=
    Function.update_self ..
  have hcur : t.cur = 0 := by
    have hhead := hs.sched.head
    rw [hQ] at hhead
    exact (Option.some.inj hhead).symm
  refine ⟨⟨?_, ?_, fun p hp => ?_, fun p hp => ?_, ?_, ?_⟩, hleft, fun p hp => (hquanta p hp).1⟩
  · have hring := hs.sched.pool.ring .runqueue trivial
    rwa [hQ] at hring
  · rw [hcur]
    rfl
  · exact (hs.sched.live_iff p).mpr ⟨.runqueue, hQ ▸ hp⟩
  · rw [(hquanta p hp).1]
    decide
  · rw [hleft, current, hcur, (hquanta 0 (by simp)).2]
  · rw [hleft]
    decide

end Kernel

open Kernel in
/-- **Round-robin accounting.**  The runqueue is `ts`, its first process runs and begins its
quantum, and then nothing happens but as many ticks of the clock as the quanta together have: every
process gains its quantum in ticks and, if it is not alone, one transition; the runqueue, the
running process and its time are those of the beginning; and after every tick the time left is what
the running process has remaining, at least one. -/
theorem round_robin_accounts {s : Kernel} {ts : List Slot} {es : List Event}
    (hring : Ring s.links .runqueue (ts.map .task)) (hcur : ts.head? = some s.cur)
    (hlive : ∀ p ∈ ts, s.Live p) (hquantum : ∀ p ∈ ts, 0 < (s.task p).quantum)
    (hremaining : s.left4current = s.current.remaining)
    (hleft : s.left4current = s.current.quantum) (hes : ∀ e ∈ es, e.act = .clock)
    (hlen : (es.length : ℤ) = (ts.map fun p => (s.task p).quantum).sum) :
    ∃ t, AnyRun s es t ∧ s.runqueue = ts ∧ t.runqueue = ts ∧ t.cur = s.cur ∧
      t.left4current = s.left4current ∧
      (∀ p ∈ ts, (t.task p).cpuTics = (s.task p).cpuTics + (s.task p).quantum ∧
        (t.task p).transitions = (s.task p).transitions + if 2 ≤ ts.length then 1 else 0) ∧
      ∀ pre v, pre <+: es → AnyRun s pre v →
        v.left4current = v.current.remaining ∧ 1 ≤ v.left4current := by
  obtain ⟨rest, rfl⟩ : ∃ rest, ts = s.cur :: rest := by
    cases ts with
    | nil => cases hcur
    | cons p rest => exact ⟨rest, by rw [Option.some.inj hcur]⟩
  have hpos : 1 ≤ s.left4current := by
    rw [hleft]
    exact hquantum s.cur List.mem_cons_self
  have hin : s.InTurn (s.cur :: rest) := ⟨hring, hcur, hlive, hquantum, hremaining, hpos⟩
  have hnodup : (s.cur :: rest).Nodup := List.Nodup.of_map _ (List.nodup_cons.mp hring.1).2
  obtain ⟨t, hrun, hin', hleft', hgains⟩ := hin.round hleft hes hlen
  refine ⟨t, hrun, queue_eq_of_ring hring, queue_eq_of_ring hin'.ring,
    (Option.some.inj hin'.head).symm, hleft', fun p hp => ⟨?_, ?_⟩, fun pre v hpre hv => ?_⟩
  · rw [hgains.cpuTics, quantumIn, List.count_eq_one_of_mem hnodup hp]
    simp
  · rw [hgains.transitions]
    cases rest with
    | nil => simp
    | cons q rest =>
      rw [if_neg (by simp), timesIn, List.count_eq_one_of_mem hnodup hp]
      simp
  · obtain ⟨vs, hvs⟩ := hin.run (fun e he => hes e (hpre.subset he)) hv
    exact ⟨hvs.remaining, hvs.left_pos⟩

open Kernel in
/-- `round_robin_accounts` for task 0 and its first child, with 60 ticks for each of them. -/
theorem round_robin_accounts_after_fork :
    ∃ s t, AnyRun zeroEnv.boot [plain .fork] s ∧
      AnyRun s (List.replicate 120 (plain .clock)) t ∧ t.runqueue = [0, 1] ∧ t.cur = s.cur ∧
      ∀ p ∈ [0, 1], (t.task p).cpuTics = (s.task p).cpuTics + 60 ∧
        (t.task p).transitions = (s.task p).transitions + 1 := by
  obtain ⟨s, hrun, -⟩ := zeroEnv.boot_fork
  obtain ⟨v, -, hst, hnil⟩ := run_cons_iff.mp hrun
  obtain rfl := run_nil_iff.mp hnil
  obtain ⟨h, hleft, hquanta⟩ := inTurn_fork hst
  have hfull : v.left4current = v.current.quantum := by
    rw [hleft, current, hquanta v.cur h.cur_mem]
  have hlen : ((List.replicate 120 (plain .clock)).length : ℤ) =
      ([0, 1].map fun p => (v.task p).quantum).sum := by
    rw [List.map_congr_left hquanta, List.length_replicate]
    rfl
  obtain ⟨t, hticks, -, hqueue, hcur, -, hgains, -⟩ :=
    round_robin_accounts h.ring h.head h.live h.quantum h.remaining hfull act_of_mem_ticks hlen
  refine ⟨v, t, .cons trivial hst (.nil v), hticks, hqueue, hcur, fun p hp => ?_⟩
  obtain ⟨hcpu, htrans⟩ := hgains p hp
  rw [hquanta p hp] at hcpu
  exact ⟨hcpu, htrans⟩

end ZeOS
