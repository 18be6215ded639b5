import ZeOS.Invariants.Accounts
import ZeOS.Statistics
import ZeOS.Clock
import Mathlib.Algebra.BigOperators.Fin
import Mathlib.Algebra.Order.Group.Int
import Mathlib.Algebra.BigOperators.Group.Finset.Piecewise

/-!
# The time of the processes

Every tick of the clock is charged to the process that it interrupts, and every change of process to
the one that gets the processor, under any interleaving of calls, interrupts, forks and exits.  The
history of a run (`noteTime`) counts both by pid, from nothing but who runs before and after a step.
What `sys_get_stats` copies out for a process is its history (`get_stats_reports_history`), and the
ticks of all processes that ever were are those of the clock.
-/

namespace ZeOS

open GuardedRun

namespace Kernel

variable {s t : Kernel} {e : Event} {Q : Node → List Slot}

/-! ## What a step charges -/

/-- The effect of a step on the accounts of the processes that are alive before it, and the account
of a process that it creates. -/
structure Accounts (s : Kernel) (e : Event) (t : Kernel) : Prop where
  cpuTics : ∀ u, s.Live u →
    (t.task u).cpuTics = (s.task u).cpuTics + if isTick e ∧ u = s.cur then 1 else 0
  transitions : ∀ u, s.Live u →
    (t.task u).transitions = (s.task u).transitions + if t.cur ≠ s.cur ∧ u = t.cur then 1 else 0
  quantum : ∀ u, s.Live u → (t.task u).quantum = (s.task u).quantum ∨
    u = s.cur ∧ ∃ q, 0 < q ∧ e.act = .nice q ∧ (t.task u).quantum = q
  child : ∀ u, ¬ s.Live u → t.Live u →
    (t.task u).account = (s.current.quantum, 0, s.current.quantum, 0) ∧ t.cur = s.cur ∧ ¬ isTick e
  /-- Within a quantum only the clock takes time. -/
  left : t.cur = s.cur → ¬ isTick e → t.left4current = s.left4current
  ticked : t.cur = s.cur → isTick e →
    1 < s.left4current ∧ t.left4current = s.left4current - 1 ∨
      s.left4current ≤ 1 ∧ s.runqueue = [s.cur] ∧ t.left4current = s.current.quantum
  handed : t.cur ≠ s.cur → t.left4current = t.current.quantum
  remaining : s.left4current = s.current.remaining → t.left4current = t.current.remaining

lemma isTick_eq_false (h : e.act ≠ .clock) : isTick e = false := by
  rw [Bool.eq_false_iff]
  exact fun ht => h (isTick_iff.mp ht)

/-- What the entry code and the clock have noted. -/
lemma entered_account (s : Kernel) (e : Event) (u : Slot) :
    ((s.entered e).task u).account =
      if isTick e ∧ u = s.cur then
        ((s.task u).quantum, (s.task u).cpuTics + 1, (s.task u).remaining - 1, (s.task u).transitions)
      else (s.task u).account := by
  by_cases hact : e.act = .clock
  · have htick : s.entered e = (s.enter e.regs).tick := by simp only [entered, hact]
    rw [htick, tick_task]
    by_cases hu : u = s.cur <;> simp [hu, isTick_iff.mpr hact, Task.account]
  · rw [isTick_eq_false hact]
    have henter : ((s.enter e.regs).task u).account = (s.task u).account := by
      by_cases hu : u = s.cur
      · subst hu
        simp [enter, Task.account]
      · simp [enter, updTask_task_ne _ _ hu]
    unfold entered
    split
    · exact absurd ‹_› hact
    · simp
    · simp
    · simpa using henter

lemma entered_left4current (s : Kernel) (e : Event) :
    (s.entered e).left4current = s.left4current - if isTick e then 1 else 0 := by
  by_cases hact : e.act = .clock
  · have htick : s.entered e = (s.enter e.regs).tick := by simp only [entered, hact]
    rw [htick, if_pos (isTick_iff.mpr hact)]
    rfl
  · rw [isTick_eq_false hact]
    unfold entered
    split
    · exact absurd ‹_› hact
    all_goals simp [enter, updTask]

/-- The running process goes on, and nothing is counted but by the clock. -/
lemma accounts_of_stays (hlive : ∀ u, t.Live u → s.Live u)
    (haccount : ∀ u, s.Live u → (t.task u).account = ((s.entered e).task u).account)
    (hcur : t.cur = s.cur) (hs : s.Live s.cur) (hleft : t.left4current = (s.entered e).left4current)
    (hclock : isTick e → 1 < s.left4current) : Accounts s e t := by
  have hacc : ∀ u, s.Live u → _ := fun u hu => (haccount u hu).trans (s.entered_account e u)
  rw [s.entered_left4current] at hleft
  constructor
  · intro u hu
    have h := hacc u hu
    split_ifs with hc
    · rw [if_pos hc] at h
      exact congrArg (fun a => a.2.1) h
    · rw [if_neg hc] at h
      rw [add_zero]
      exact congrArg (fun a => a.2.1) h
  · intro u hu
    have h := congrArg (fun a => a.2.2.2) (hacc u hu)
    rw [if_neg (by simp [hcur]), add_zero]
    split_ifs at h <;> exact h
  · intro u hu
    have h := congrArg (fun a => a.1) (hacc u hu)
    split_ifs at h <;> exact .inl h
  · exact fun u hu hu' => absurd (hlive u hu') hu
  · intro _ ht
    rw [hleft, if_neg ht, sub_zero]
  · intro _ ht
    rw [if_pos ht] at hleft
    exact .inl ⟨hclock ht, hleft⟩
  · exact fun hne => absurd hcur hne
  · intro hrem
    have h := congrArg (fun a => a.2.2.1) (hacc s.cur hs)
    rw [current, hcur, hleft, hrem]
    by_cases ht : isTick e
    · rw [if_pos ⟨ht, rfl⟩] at h
      rw [if_pos ht]
      exact h.symm
    · rw [if_neg (fun hc => ht hc.1)] at h
      rw [if_neg ht, sub_zero]
      exact h.symm

/-- Another process gets the processor. -/
lemma accounts_of_handTo {v w : Kernel} {i : ℤ} {p : Slot} (hne : p ≠ s.cur)
    (hlive : ∀ u, (w.handTo i p).Live u → s.Live u)
    (haccount : ∀ u, (v.task u).account = ((s.entered e).task u).account)
    (hw : ∀ u, (w.task u).account = (v.task u).account) :
    Accounts s e (w.handTo i p) := by
  have hacc : ∀ u, (w.task u).account = _ :=
    fun u => ((hw u).trans (haccount u)).trans (s.entered_account e u)
  have hcur : (w.handTo i p).cur = p := rfl
  have htask := w.handTo_task i p
  constructor
  · intro u hu
    have h := congrArg (fun a => a.2.1) (hacc u)
    have hsame : ((w.handTo i p).task u).cpuTics = (w.task u).cpuTics := by
      rw [htask]
      split_ifs <;> rfl
    rw [hsame]
    split_ifs at h ⊢
    · exact h
    · rw [add_zero]
      exact h
  · intro u hu
    have h := congrArg (fun a => a.2.2.2) (hacc u)
    have hsame : (w.task u).transitions = (s.task u).transitions := by
      split_ifs at h <;> exact h
    rw [htask, hcur]
    by_cases hup : u = p
    · rw [if_pos hup, if_pos ⟨hne, hup⟩, ← hsame]
    · rw [if_neg hup, if_neg (by simp [hup]), add_zero, hsame]
  · intro u hu
    have h := congrArg (fun a => a.1) (hacc u)
    have hsame : ((w.handTo i p).task u).quantum = (w.task u).quantum := by
      rw [htask]
      split_ifs <;> rfl
    rw [hsame]
    split_ifs at h <;> exact .inl h
  · exact fun u hu hu' => absurd (hlive u hu') hu
  · exact fun h => absurd h hne
  · exact fun h => absurd h hne
  · intro _
    rw [current, hcur, htask, if_pos rfl]
    exact handTo_left4current ..
  · intro _
    rw [current, hcur, htask, if_pos rfl]
    exact handTo_left4current ..

lemma setEax_task_account (s : Kernel) (r : ℤ) (u : Slot) :
    ((s.setEax r).task u).account = (s.task u).account := by
  by_cases hu : u = s.cur
  · subst hu
    simp [setEax, Task.account]
  · simp [setEax, updTask_task_ne _ _ hu]

lemma enter_task_account (s : Kernel) (regs : SavedRegs) (u : Slot) :
    ((s.enter regs).task u).account = (s.task u).account := by
  by_cases hu : u = s.cur
  · subst hu
    simp [enter, Task.account]
  · simp [enter, updTask_task_ne _ _ hu]

/-- The process that is alone has a new quantum. -/
lemma accounts_of_renewed (hact : e.act = .clock) (hleft : s.left4current ≤ 1)
    (hone : s.runqueue = [s.cur]) : Accounts s e (s.entered e).renewed.showTime := by
  have htick := isTick_iff.mpr hact
  have hent : s.entered e = (s.enter e.regs).tick := by simp only [entered, hact]
  have htask : ∀ u, (s.entered e).renewed.showTime.task u = if u = s.cur then
      { s.task u with
        stack := e.regs
        cpuTics := (s.task u).cpuTics + 1
        remaining := (s.task u).quantum } else s.task u := by
    intro u
    have hcurrent : (s.entered e).current.quantum = s.current.quantum := by
      rw [hent]
      show ((s.enter e.regs).tick.task s.cur).quantum = _
      rw [tick_task, if_pos rfl]
    rw [showTime_task, renewed, updTask_task, s.entered_cur, hcurrent, hent]
    by_cases hu : u = s.cur
    · subst hu
      simp [tick_task, current]
    · simp [hu, tick_task]
  have hlive : ∀ u, (s.entered e).renewed.showTime.Live u → s.Live u := by
    intro u hu
    rw [Live, htask] at hu
    split_ifs at hu <;> exact hu
  have hcur : (s.entered e).renewed.showTime.cur = s.cur := by
    rw [showTime_cur]
    exact s.entered_cur e
  have hleft' : (s.entered e).renewed.showTime.left4current = s.current.quantum := by
    rw [showTime_left4current, hent]
    show ((s.enter e.regs).tick.task s.cur).quantum = _
    rw [tick_task, if_pos rfl]
  constructor
  · intro u _
    rw [htask]
    split_ifs with hu hc hc
    · rfl
    · exact absurd ⟨htick, hu⟩ hc
    · exact absurd hc.2 hu
    · rw [add_zero]
  · intro u _
    have hsame : ((s.entered e).renewed.showTime.task u).transitions = (s.task u).transitions := by
      rw [htask]
      split_ifs <;> rfl
    rw [hsame, if_neg (fun h => h.1 hcur), add_zero]
  · intro u _
    rw [htask]
    split_ifs <;> exact .inl rfl
  · exact fun u hu hu' => absurd (hlive u hu') hu
  · exact fun _ h => absurd htick h
  · exact fun _ _ => .inr ⟨hleft, hone, hleft'⟩
  · exact fun h => absurd hcur h
  · intro _
    rw [hleft']
    show _ = ((s.entered e).renewed.showTime.task (s.entered e).renewed.showTime.cur).remaining
    rw [hcur, htask, if_pos rfl]

/-- `sys_nice` changes the quantum of its caller. -/
lemma accounts_of_nice {q : ℤ} (hact : e.act = .nice q) :
    Accounts s e (((s.enter e.regs).sysNice q).2.setEax ((s.enter e.regs).sysNice q).1) := by
  have htick : isTick e = false := isTick_eq_false (by simp [hact])
  set t := ((s.enter e.regs).sysNice q).2.setEax ((s.enter e.regs).sysNice q).1 with ht
  have haccount : ∀ u, (t.task u).account =
      ((if u = s.cur ∧ 0 < q then q else (s.task u).quantum), (s.task u).cpuTics,
        (s.task u).remaining, (s.task u).transitions) := by
    intro u
    rw [ht, setEax_task_account, sysNice]
    have henter := s.enter_task_account e.regs u
    by_cases hq : q > 0
    · rw [if_pos hq]
      by_cases hu : u = s.cur
      · subst hu
        simp [enter, updTask, Task.account, hq]
      · rw [if_neg (fun h => hu h.1)]
        have hne : u ≠ (s.enter e.regs).cur := hu
        simp only [updTask_task_ne _ _ hne]
        exact henter
    · rw [if_neg hq, if_neg (fun h => hq h.2)]
      exact henter
  have hcur : t.cur = s.cur := by
    rw [ht, sysNice]
    split_ifs <;> rfl
  have hleft : t.left4current = s.left4current := by
    rw [ht, sysNice]
    split_ifs <;> rfl
  have hpid : ∀ u, (t.task u).pid = (s.task u).pid := by
    intro u
    rw [ht, sysNice]
    split_ifs <;> by_cases hu : u = s.cur <;> simp [setEax, enter, updTask, hu]
  constructor
  · intro u _
    rw [if_neg (fun h => by simp [htick] at h), add_zero]
    exact congrArg (fun a => a.2.1) (haccount u)
  · intro u _
    rw [if_neg (fun h => h.1 hcur), add_zero]
    exact congrArg (fun a => a.2.2.2) (haccount u)
  · intro u _
    have h := congrArg (fun a => a.1) (haccount u)
    dsimp only [Task.account] at h
    split_ifs at h with hu
    · exact .inr ⟨hu.1, q, hu.2, hact, h⟩
    · exact .inl h
  · intro u hu hu'
    rw [Live, hpid] at hu'
    exact absurd hu' hu
  · exact fun _ _ => hleft
  · exact fun _ h => by simp [htick] at h
  · exact fun h => absurd hcur h
  · intro hrem
    rw [hleft, hrem]
    show _ = (t.task t.cur).remaining
    rw [hcur]
    exact (congrArg (fun a => a.2.2.1) (haccount s.cur)).symm

/-- A child starts with the quantum of its parent and with nothing counted. -/
lemma accounts_of_forks {new : Slot} {frames : Fin numPagData → ℤ} {mm : Memory}
    (hact : e.act = .fork) (hnew : ¬ s.Live new) (hcur : s.Live s.cur) :
    Accounts s e (((s.enter e.regs).forked new frames mm).setEax s.pid) := by
  have htick : isTick e = false := isTick_eq_false (by simp [hact])
  have hne : s.cur ≠ new := fun h => hnew (h ▸ hcur)
  set t := ((s.enter e.regs).forked new frames mm).setEax s.pid with ht
  have haccount : ∀ u, (t.task u).account =
      if u = new then (s.current.quantum, 0, s.current.quantum, 0) else (s.task u).account := by
    intro u
    rw [ht, setEax_task_account, forked]
    by_cases hu : u = new
    · subst hu
      simp [child, Task.account, enter, current]
    · simp only [Function.update_of_ne hu, if_neg hu]
      exact s.enter_task_account e.regs u
  have hlive : ∀ u, u ≠ new → t.Live u → s.Live u := by
    intro u hu hl
    have hpid : (t.task u).pid = (s.task u).pid := by
      by_cases huc : u = s.cur
      · subst huc
        simp [ht, setEax, forked, enter, updTask, hu]
      · simp [ht, setEax, forked, enter, updTask, hu, huc]
    rwa [Live, hpid] at hl
  have hother : ∀ u, s.Live u → (t.task u).account = (s.task u).account := by
    intro u hu
    rw [haccount, if_neg]
    exact fun h => hnew (h ▸ hu)
  constructor
  · intro u hu
    rw [if_neg (fun h => by simp [htick] at h), add_zero]
    exact congrArg (fun a => a.2.1) (hother u hu)
  · intro u hu
    rw [if_neg (fun h => h.1 rfl), add_zero]
    exact congrArg (fun a => a.2.2.2) (hother u hu)
  · exact fun u hu => .inl (congrArg (fun a => a.1) (hother u hu))
  · intro u hu hu'
    refine ⟨?_, rfl, by simp [htick]⟩
    rw [haccount, if_pos]
    by_contra h
    exact hu (hlive u h hu')
  · exact fun _ _ => rfl
  · exact fun _ h => by simp [htick] at h
  · exact fun h => absurd rfl h
  · intro hrem
    exact hrem.trans (congrArg (fun a => a.2.2.1) (hother s.cur hcur)).symm

end Kernel

open Kernel in
/-- Every step charges what it takes. -/
lemma StepServes.accounts {s t : Kernel} {e : Event} (h : StepServes s e t) (hcur : s.Live s.cur)
    (hlive : e.act ≠ .fork → ∀ u, t.Live u → s.Live u) : Accounts s e t := by
  cases h with
  | stays hfork hnice hclock h hans hexit hfault =>
    refine accounts_of_stays (hlive hfork) (fun u _ => h.account u) (h.cur.trans (s.entered_cur e))
      hcur h.left fun ht => absurd (isTick_iff.mp ht) hclock
  | ticks hact hleft ht =>
    have h := served_showTime (R := NoResult) (s.entered e)
    refine accounts_of_stays (hlive (by simp [hact])) (fun u _ => ?_) ?_ hcur ?_ fun _ => hleft
    · rw [ht]
      exact h.account u
    · rw [ht]
      exact h.cur.trans (s.entered_cur e)
    · rw [ht]
      exact h.left
  | renews hact hleft hone ht => exact ht ▸ accounts_of_renewed hact hleft hone
  | remains x hact ht =>
    have hent : s.entered e = s.enter e.regs := by simp only [entered, hact]
    refine accounts_of_stays (hlive (by simp [hact])) (fun u _ => ?_) ?_ hcur ?_ fun hc => ?_
    · rw [ht, hent, setEax_task_account]
    · rw [ht]
      rfl
    · rw [ht, hent]
      rfl
    · simp [isTick_iff, hact] at hc
  | nice q hact ht => exact ht ▸ accounts_of_nice hact
  | forkFails hact ht =>
    have hent : s.entered e = s.enter e.regs := by simp only [entered, hact]
    have hclock : isTick e → 1 < s.left4current := fun hc => by simp [isTick_iff, hact] at hc
    rcases ht with rfl | ⟨new, mm, hnew, rfl⟩
    · refine accounts_of_stays (fun u hu => ?_) (fun u _ => ?_) rfl hcur ?_ hclock
      · rwa [Live, (sameRecords_setEax _ _).pid, (s.sameRecords_enter e.regs).pid] at hu
      · rw [hent, setEax_task_account]
      · rw [hent]
        rfl
    · refine accounts_of_stays (fun u hu => ?_) (fun u hu => ?_) rfl hcur ?_ hclock
      · rw [Live, (sameRecords_setEax _ _).pid, forkFailed] at hu
        by_cases hun : u = new
        · simp [hun] at hu
        · simp only [Function.update_of_ne hun] at hu
          rwa [(s.sameRecords_enter e.regs).pid] at hu
      · have hun : u ≠ new := fun h => hnew (h ▸ hu)
        rw [hent, setEax_task_account, forkFailed]
        simp only [Function.update_of_ne hun]
      · rw [hent]
        rfl
  | forks new frames mm hact hnew ht => exact ht ▸ accounts_of_forks hact hnew hcur
  | hands hfork hnice hexit huser h =>
    obtain ⟨v, i, u, k, hv, hne, ht, -⟩ := h
    rw [s.entered_cur] at hne
    rw [ht]
    exact accounts_of_handTo hne (fun u hu => hlive hfork u (ht ▸ hu)) hv.account fun u => rfl
  | ends v u hfork hnice h hne h0 ht hwait =>
    rw [ht]
    refine accounts_of_handTo hne (fun u hu => hlive hfork u (ht ▸ hu)) h.account fun x => ?_
    by_cases hx : x = v.cur
    · subst hx
      simp [leave_eq, Task.account]
    · simp [leave_eq, hx]

namespace Kernel

variable {s t : Kernel} {e : Event}

/-- Every process has a quantum, and the running one has time left. -/
structure TimeOk (s : Kernel) : Prop where
  quantum : ∀ u, s.Live u → 0 < (s.task u).quantum
  remaining : s.left4current = s.current.remaining
  left_pos : 1 ≤ s.left4current

lemma timeOk_boot (E : Env) : TimeOk E.boot := by
  have h := inTurn_boot E
  refine ⟨fun u hu => ?_, h.remaining, h.left_pos⟩
  have hu0 : u = 0 := by
    by_contra hne
    rw [Live, E.boot_task_pid, if_neg hne] at hu
    omega
  exact h.quantum u (by simp [hu0])

lemma Accounts.timeOk (h : Accounts s e t) (hs : TimeOk s) (hcur : s.Live s.cur)
    (ht : t.Live t.cur) : TimeOk t := by
  have hquantum : ∀ u, t.Live u → 0 < (t.task u).quantum := by
    intro u hu
    by_cases hl : s.Live u
    · rcases h.quantum u hl with hq | ⟨-, q, hq, -, hq'⟩
      · rw [hq]
        exact hs.quantum u hl
      · rwa [hq']
    · have hq : (t.task u).quantum = s.current.quantum :=
        congrArg (fun a => a.1) (h.child u hl hu).1
      rw [hq]
      exact hs.quantum s.cur hcur
  refine ⟨hquantum, h.remaining hs.remaining, ?_⟩
  by_cases hc : t.cur = s.cur
  · by_cases htick : isTick e
    · rcases h.ticked hc htick with ⟨hlt, hleft⟩ | ⟨-, -, hleft⟩
      · omega
      · rw [hleft]
        exact hs.quantum s.cur hcur
    · rw [h.left hc htick]
      exact hs.left_pos
  · rw [h.handed hc]
    exact hquantum t.cur ht

end Kernel

/-- One step, from a state in which user code runs. -/
lemma SystemOk.step_accounts {s t : Kernel} {e : Event} {Q : Node → List Slot} (hs : SystemOk s Q)
    (hg : s.ExitsFindTwo e) (hst : s.step e = .ok t) : s.Accounts e t := by
  obtain ⟨Q', hturn⟩ := (hs.step_effects e hg).1 t hst
  refine (hs.step_serves hg hst).accounts hs.sched.cur_live fun hfork u hu => ?_
  by_contra hl
  exact hfork (hturn.live hu hl)

/-- The processes of the runqueue have their turns. -/
lemma SystemOk.inTurn {s : Kernel} {Q : Node → List Slot} (hs : SystemOk s Q) (h : s.TimeOk) :
    s.InTurn s.runqueue := by
  rw [hs.sched.runqueue_eq]
  have hlive : ∀ p ∈ Q .runqueue, s.Live p := fun p hp => (hs.sched.live_iff p).mpr ⟨.runqueue, hp⟩
  exact ⟨hs.sched.pool.ring .runqueue trivial, hs.sched.head, hlive,
    fun p hp => h.quantum p (hlive p hp), h.remaining, h.left_pos⟩

lemma SystemOk.timeOk {s t : Kernel} {es : List Event} {Q : Node → List Slot} (hs : SystemOk s Q)
    (h : s.TimeOk) (hrun : ExitRun s es t) : t.TimeOk := by
  induction hrun generalizing Q with
  | nil s => exact h
  | cons hg hst _ ih =>
    obtain ⟨Q', hs'⟩ := hs.step hg hst
    exact ih hs' ((hs.step_accounts hg hst).timeOk h hs.sched.cur_live hs'.sched.cur_live)

/-! ## The history -/

/-- What a process has had of the processor: ticks, and turns. -/
structure CpuTime where
  ticks : ℤ
  turns : ℤ

open Kernel in
/-- `struct stats` of a history, as bytes. -/
def CpuTime.bytes (h : CpuTime) (remaining : ℤ) : List Byte :=
  wordBytes h.ticks ++ wordBytes h.turns ++ wordBytes remaining

open Kernel in
/-- The history of the processes, by pid: a tick is charged to the process that it interrupts, and
whoever gets the processor has one more turn. -/
def noteTime (s : Kernel) (e : Event) (t : Kernel) (g : ℤ → CpuTime) : ℤ → CpuTime := fun p =>
  { ticks := (g p).ticks + if isTick e ∧ p = s.current.pid then 1 else 0
    turns := (g p).turns + if t.cur ≠ s.cur ∧ p = t.current.pid then 1 else 0 }

/-- At boot the first process has its first turn. -/
def startTime : ℤ → CpuTime := fun p => { ticks := 0, turns := if p = 0 then 1 else 0 }

/-- The accounts of the live processes are their history; a pid that is still to be given has none;
and the ticks of all pids are `n`. -/
structure TimeNoted (s : Kernel) (g : ℤ → CpuTime) (n : ℕ) : Prop where
  cpuTics : ∀ u, s.Live u → (s.task u).cpuTics = (g (s.task u).pid).ticks
  transitions : ∀ u, s.Live u → (s.task u).transitions = (g (s.task u).pid).turns
  fresh : ∀ p, s.pid ≤ p → (g p).ticks = 0 ∧ (g p).turns = 0
  total : ∑ p ∈ Finset.range s.pid.toNat, (g p).ticks = n

namespace TimeNoted

open Kernel

variable {s t : Kernel} {e : Event} {Q : Node → List Slot} {g : ℤ → CpuTime} {n : ℕ}

lemma boot (E : Env) : TimeNoted E.boot startTime 0 := by
  have hlive : ∀ u, E.boot.Live u → u = 0 := by
    intro u hu
    by_contra hne
    rw [Live, E.boot_task_pid, if_neg hne] at hu
    omega
  refine ⟨fun u hu => ?_, fun u hu => ?_, fun p hp => ⟨rfl, ?_⟩, ?_⟩
  · rw [hlive u hu]
    rfl
  · rw [hlive u hu]
    rfl
  · have hpos : (1 : ℤ) ≤ p := hp
    exact if_neg (by omega)
  · simp [startTime]

/-- One step. -/
lemma step (h : TimeNoted s g n) (hs : SystemOk s Q) (hp : PidsOk s) (hg : s.ExitsFindTwo e)
    (hst : s.step e = .ok t) :
    TimeNoted t (noteTime s e t g) (n + if isTick e then 1 else 0) := by
  obtain ⟨Q', hs'⟩ := hs.step hg hst
  have hacc := hs.step_accounts hg hst
  have hp' := hp.change (step_pidChange hst)
  have hcur : s.Live s.cur := hs.sched.cur_live
  -- a live process keeps its pid
  have hpid : ∀ u, t.Live u → s.Live u → (t.task u).pid = (s.task u).pid := by
    intro u hu hl
    rcases step_pidChange hst with ⟨-, hpids⟩ | ⟨new, hnew, -, -, hpids⟩
    · rcases hpids u with h | h
      · exact h
      · rw [Live, h] at hu
        omega
    · exact hpids u fun h => hnew (h ▸ hl)
  have hsame : ∀ u v, s.Live u → s.Live v → ((s.task u).pid = (s.task v).pid ↔ u = v) :=
    fun u v hu hv => ⟨hp.distinct u v hu hv, fun h => by rw [h]⟩
  have hsame' : ∀ u v, t.Live u → t.Live v → ((t.task u).pid = (t.task v).pid ↔ u = v) :=
    fun u v hu hv => ⟨hp'.distinct u v hu hv, fun h => by rw [h]⟩
  -- a new one has the next pid
  have hchild : ∀ u, t.Live u → ¬ s.Live u → (t.task u).pid = s.pid := by
    intro u hu hl
    rcases step_pidChange hst with ⟨-, hpids⟩ | ⟨new, -, -, hpid, hpids⟩
    · rcases hpids u with h | h
      · exact absurd (by rwa [Live, h] at hu) hl
      · rw [Live, h] at hu
        omega
    · by_cases hun : u = new
      · rw [hun, hpid]
      · exact absurd (by rwa [Live, hpids u hun] at hu) hl
  have hcounter : s.pid ≤ t.pid := by
    rcases step_pidChange hst with ⟨h, -⟩ | ⟨-, -, h, -⟩ <;> omega
  have h0 : 0 ≤ s.pid := hs.sched.counter.le
  have hbelow := hp.below s.cur hcur
  have hbelow' := hp'.below t.cur hs'.sched.cur_live
  refine ⟨fun u hu => ?_, fun u hu => ?_, fun p hpt => ⟨?_, ?_⟩, ?_⟩
  · by_cases hl : s.Live u
    · rw [hacc.cpuTics u hl, h.cpuTics u hl, hpid u hu hl]
      simp only [noteTime, hsame u s.cur hl hcur]
    · rw [show (t.task u).cpuTics = 0 from congrArg (fun a => a.2.1) (hacc.child u hl hu).1,
        hchild u hu hl]
      simp only [noteTime, (h.fresh s.pid le_rfl).1]
      rw [if_neg (fun hc => (hacc.child u hl hu).2.2 hc.1), add_zero]
  · by_cases hl : s.Live u
    · rw [hacc.transitions u hl, h.transitions u hl, ← hpid u hu hl]
      simp only [noteTime, hsame' u t.cur hu hs'.sched.cur_live]
    · rw [show (t.task u).transitions = 0 from congrArg (fun a => a.2.2.2) (hacc.child u hl hu).1,
        hchild u hu hl]
      simp only [noteTime, (h.fresh s.pid le_rfl).2]
      rw [if_neg (fun hc => hc.1 (hacc.child u hl hu).2.1), add_zero]
  · simp only [noteTime, (h.fresh p (hcounter.trans hpt)).1]
    rw [if_neg, add_zero]
    rintro ⟨-, rfl⟩
    exact absurd hbelow (not_lt.mpr (hcounter.trans hpt))
  · simp only [noteTime, (h.fresh p (hcounter.trans hpt)).2]
    rw [if_neg, add_zero]
    rintro ⟨-, rfl⟩
    exact absurd hbelow' (not_lt.mpr hpt)
  · have hold : ∑ p ∈ Finset.range s.pid.toNat, (noteTime s e t g p).ticks =
        ((n + if isTick e then 1 else 0 : ℕ) : ℤ) := by
      obtain ⟨k, hk⟩ : ∃ k : ℕ, s.current.pid = k := ⟨_, (Int.toNat_of_nonneg hcur).symm⟩
      have hmem : k ∈ Finset.range s.pid.toNat := by
        rw [Finset.mem_range]
        have : (k : ℤ) < s.pid := hk ▸ hbelow
        omega
      simp only [noteTime, Finset.sum_add_distrib, h.total, hk, Nat.cast_inj]
      by_cases htick : isTick e
      · simp [htick, hmem]
      · simp [htick]
    rcases step_pidChange hst with ⟨hsamePid, -⟩ | ⟨new, hnew, hnext, hpidn, -⟩
    · rw [hsamePid, hold]
    · have hlive : t.Live new := by
        rw [Live, hpidn]
        exact h0
      rw [hnext, show (s.pid + 1).toNat = s.pid.toNat + 1 by omega, Finset.sum_range_succ, hold,
        Int.toNat_of_nonneg h0]
      have htick := (hacc.child new hnew hlive).2.2
      simp [noteTime, (h.fresh s.pid le_rfl).1, htick]

lemma run {es : List Event} {g' : ℤ → CpuTime}
    (hrun : Run (record Kernel.step noteTime) (fun s e => s.1.ExitsFindTwo e) (s, g) es (t, g'))
    (h : TimeNoted s g n) (hs : SystemOk s Q) (hp : PidsOk s) :
    TimeNoted t g' (n + ticksIn es) := by
  induction es generalizing s g n Q with
  | nil =>
    rw [run_nil_iff, Prod.mk.injEq] at hrun
    obtain ⟨rfl, rfl⟩ := hrun
    exact h
  | cons e es ih =>
    obtain ⟨⟨v, k⟩, hg, hst, hrest⟩ := run_cons_iff.mp hrun
    obtain ⟨hst', hk⟩ := record_ok_iff.mp hst
    simp only at hst' hk
    subst hk
    obtain ⟨Q', hs'⟩ := hs.step hg hst'
    have hnext := ih hrest (h.step hs hp hg hst') hs' (hp.change (step_pidChange hst'))
    rw [ticksIn_cons, Nat.add_comm (ticksIn es), ← Nat.add_assoc]
    exact hnext

end TimeNoted

open Kernel in
/-- **The statistics are the history.**  In every run from boot the ticks and turns that the kernel
has counted for a live process are those of its history, whatever processes came and went in
between, and `sys_get_stats` copies them out; all ticks of the clock are charged, each to one
process; and every process has a positive quantum, and the running one at least one tick left, which
is what it has remaining. -/
theorem get_stats_reports_history (E : Env) {es : List Event} {s : Kernel} {g : ℤ → CpuTime}
    (hrun : Run (record Kernel.step noteTime) (fun s e => s.1.ExitsFindTwo e) (E.boot, startTime) es
      (s, g)) :
    (∀ (u : Slot) (regs : SavedRegs) (st : ℕ) (beyond : Task), s.Live u →
      s.mm.accessOk 0 st 16 = true → (∀ i < 12, s.mm.present (st + i) = true) →
      (s.enter regs).sysGetStats (s.task u).pid st beyond =
        .ret 0 { s.enter regs with
          mm := Memory.storeAll st ((g (s.task u).pid).bytes (s.task u).remaining) s.mm }) ∧
    ∑ p ∈ Finset.range s.pid.toNat, (g p).ticks = ticksIn es ∧
    (∀ u, s.Live u → 0 < (s.task u).quantum) ∧
    s.left4current = s.current.remaining ∧ 1 ≤ s.left4current := by
  have hexit : ExitRun E.boot es s :=
    Run.of_record (s := (E.boot, startTime)) (t := (s, g)) (fun _ _ hg => hg) hrun
  have hnoted := TimeNoted.run hrun (.boot E) E.boot_systemOk (PidsOk.boot E)
  rw [Nat.zero_add] at hnoted
  obtain ⟨hquantum, hremaining, hleft⟩ := E.boot_systemOk.timeOk (timeOk_boot E) hexit
  have hpids := (PidsOk.boot E).run hexit.unguarded
  refine ⟨fun u regs st beyond hu hok hpresent => ?_, hnoted.total, hquantum, hremaining, hleft⟩
  have henter := (s.sameRecords_enter regs).toSamePids
  obtain ⟨v, hv, htask⟩ := statsTask_of_pid (s := s.enter regs) (henter.pid u) beyond
  have hvu : v = u := by
    rw [henter.pid] at hv
    refine hpids.distinct v u ?_ hu hv
    rwa [Live, hv]
  rw [hvu] at htask
  rw [sysGetStats_of_pid (s := s.enter regs) hu hok hpresent (by rw [htask, henter.pid]), htask]
  have haccount := s.enter_task_account regs u
  simp only [Task.account, Prod.mk.injEq] at haccount
  rw [statsBytes, CpuTime.bytes, haccount.2.1, haccount.2.2.1, haccount.2.2.2, hnoted.cpuTics u hu,
    hnoted.transitions u hu]
  rfl

open Kernel in
/-- `get_stats_reports_history` for a run of ticks. -/
theorem get_stats_reports_history_of_ticks :
    ∃ s g, Run (record Kernel.step noteTime) (fun s e => s.1.ExitsFindTwo e)
        (zeroEnv.boot, startTime) (List.replicate 59 (plain .clock)) (s, g) ∧
      ∑ p ∈ Finset.range s.pid.toNat, (g p).ticks = 59 ∧ s.left4current = s.current.remaining := by
  have hlt : ((59 : ℕ) : ℤ) < zeroEnv.boot.left4current := by
    show (59 : ℤ) < 60
    decide
  obtain ⟨s, hrun, -, -⟩ := Kernel.ticks hlt
  obtain ⟨g, hg⟩ := Run.exists_record noteTime hrun startTime
  obtain ⟨-, htotal, -, hremaining, -⟩ := get_stats_reports_history zeroEnv hg
  refine ⟨s, g, hg, ?_, hremaining⟩
  rw [htotal, ticksIn, List.countP_replicate]
  rfl

end ZeOS
