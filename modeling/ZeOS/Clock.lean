import ZeOS.RoundRobin
import ZeOS.Invariants.Counters

/-!
# The time on the screen

`clock_routine` counts a tick, calls `schedule`, and only then looks whether a second is over: it
prints minutes and seconds, and starts the count again after an hour.  When `schedule` gives the
processor to another process, `task_switch` does not return, and the rest of the routine is left
out for this tick.

So the clock keeps time as long as no context switch falls on the tick that ends a second
(`clock_keeps_time`).  With a quantum of 7 for one of two processes, it does on the 127th
(`second_is_not_shown`).
-/

namespace ZeOS

open IntrusiveList GuardedRun Screen

/-! ## Digits -/

/-- The character of a decimal digit. -/
def digit (n : ℤ) : Byte := (n.toNat + 48).toUInt8

/-- The minutes and the seconds of a count of ticks, as two digits each. -/
def clockText (tics : ℤ) : List Byte :=
  let seconds := tics / 18
  [digit (seconds / 60 / 10), digit (seconds / 60 % 10), 58,
    digit (seconds % 60 / 10), digit (seconds % 60 % 10)]

lemma itoaDigits_of_lt_ten {n : ℕ} (h : 0 < n) (h10 : n < 10) : itoaDigits n = 1 := by
  have hdiv : n / 10 = 0 := Nat.div_eq_of_lt h10
  have hzero : itoaDigits 0 = 0 := by
    rw [itoaDigits, if_pos rfl]
  rw [itoaDigits, if_neg (by omega), hdiv, hzero]

/-- `itoa` writes one character for a number below ten; zero it does not write at all, so there
has to be a zero already. -/
lemma itoaAt_digit {d : ℤ} {pos : ℕ} {buffer : ℕ → Byte} (h0 : 0 ≤ d) (h10 : d < 10)
    (hzero : buffer pos = 48) : itoaAt d pos buffer = Function.update buffer pos (digit d) := by
  obtain ⟨n, rfl⟩ := Int.eq_ofNat_of_zero_le h0
  have hn : n < 10 := by omega
  funext i
  unfold itoaAt itoa digit
  rw [Int.toNat_natCast]
  rcases Nat.eq_zero_or_pos n with rfl | hpos
  · have hdigits : itoaDigits 0 = 0 := by
      rw [itoaDigits, if_pos rfl]
    rw [hdigits, itoaLoop]
    by_cases hi : i = pos
    · subst hi
      simpa using hzero
    · rw [Function.update_of_ne hi]
      split_ifs with hle
      · rw [Nat.add_sub_cancel' hle]
      · rfl
  · rw [itoaDigits_of_lt_ten hpos hn, itoaLoop, itoaLoop, Nat.mod_eq_of_lt hn]
    by_cases hi : i = pos
    · subst hi
      simp
    · rw [Function.update_of_ne hi]
      split_ifs with hle
      · rw [Function.update_of_ne (by omega), Nat.add_sub_cancel' hle]
      · rfl

/-- What `clock_routine` prints for minutes and seconds of at most two digits. -/
lemma timeText_eq {m s : ℤ} (hm : 0 ≤ m ∧ m < 100) (hs : 0 ≤ s ∧ s < 100) :
    timeText m s = [digit (m / 10), digit (m % 10), 58, digit (s / 10), digit (s % 10)] := by
  unfold timeText
  simp only
  rw [itoaAt_digit (d := m / 10) (by omega) (by omega) rfl,
    itoaAt_digit (d := m % 10) (by omega) (by omega) rfl,
    itoaAt_digit (d := s / 10) (by omega) (by omega) rfl,
    itoaAt_digit (d := s % 10) (by omega) (by omega) rfl]
  rfl

/-- Within the hour. -/
lemma timeText_of_tics {tics : ℤ} (h : 0 ≤ tics) (hhour : tics < 64800) :
    timeText (tics / 18 / 60) (tics / 18 % 60) = clockText tics := by
  rw [timeText_eq (by omega) (by omega)]
  rfl

/-! ## The text on the screen -/

/-- The cells of row 8 from column 72 on show the minutes and seconds of `tics`. -/
def Kernel.ShowsTime (s : Kernel) : Prop :=
  (List.range 5).map (fun i => s.screen.video (videoAddr (72 + i) 8)) =
    (clockText s.tics).map fun c => c.toNat ||| 0x0200

namespace Screen

variable {sc : Screen} {x y : ℕ}

/-- Columns to the left of a text keep what they show. -/
lemma printkXy_video_of_lt {x' : ℕ} (text : List Byte) (h : x' < x) :
    (sc.printkXy x y text).video (videoAddr x' y) = sc.video (videoAddr x' y) := by
  induction text generalizing sc x with
  | nil => rfl
  | cons c cs ih =>
    rw [printkXy, ih (Nat.lt_succ_of_lt h), printcXy]
    have hne : videoAddr x' y ≠ videoAddr x y := by
      unfold videoAddr
      omega
    exact Function.update_of_ne hne _ _

/-- `printk_xy` shows every character in its own column. -/
lemma printkXy_video (text : List Byte) :
    (List.range text.length).map (fun i => (sc.printkXy x y text).video (videoAddr (x + i) y)) =
      text.map fun c => c.toNat ||| 0x0200 := by
  induction text generalizing sc x with
  | nil => rfl
  | cons c cs ih =>
    rw [List.length_cons, List.range_succ_eq_map, List.map_cons, List.map_map, List.map_cons]
    refine congrArg₂ List.cons ?_ ?_
    · show (sc.printkXy x y (c :: cs)).video (videoAddr x y) = _
      rw [printkXy, printkXy_video_of_lt cs (Nat.lt_add_one x), printcXy]
      exact Function.update_self _ _ _
    · have hrest : (List.range cs.length).map (fun i =>
          (sc.printkXy x y (c :: cs)).video (videoAddr (x + 1 + i) y)) =
            cs.map fun c => c.toNat ||| 0x0200 := ih
      rw [← hrest]
      refine List.map_congr_left fun i _ => ?_
      show (sc.printkXy x y (c :: cs)).video (videoAddr (x + (i + 1)) y) = _
      rw [printkXy, Nat.add_right_comm x 1 i, Nat.add_assoc]

end Screen

/-! ## Keeping time -/

namespace Kernel

variable {s t : Kernel} {e : Event} {es : List Event}

/-- Not a tick that ends a second and at which `schedule` switches. -/
def KeepsTime (s : Kernel) (e : Event) : Prop :=
  e.act = .clock → (s.tics + 1) % 18 = 0 →
    1 < s.left4current ∨ s.links.listFirst .runqueue = s.links.listLast .runqueue

/-- A clock interrupt. -/
def isTick (e : Event) : Bool :=
  match e.act with
  | .clock => true
  | _ => false

/-- The number of ticks among some events. -/
def ticksIn (es : List Event) : ℕ := es.countP isTick

lemma isTick_iff : isTick e ↔ e.act = .clock := by
  unfold isTick
  split <;> simp_all

lemma showTime_of_tics (h : s.tics % 18 ≠ 0) : s.showTime = s := if_neg h

/-- At the end of a second within the hour. -/
lemma showTime_of_second (h0 : 0 ≤ s.tics) (hhour : s.tics < 64800) (h : s.tics % 18 = 0) :
    s.showTime.tics = s.tics ∧ s.showTime.ShowsTime := by
  have htext := timeText_of_tics h0 hhour
  have hshow : s.showTime =
      { s with screen := s.screen.printkXy 72 8 (clockText s.tics) } := by
    rw [showTime, if_pos h]
    simp only
    rw [if_neg (by omega), htext]
  rw [hshow]
  exact ⟨rfl, printkXy_video (clockText s.tics)⟩

/-- At the end of the hour. -/
lemma showTime_of_hour (h : s.tics = 64800) : s.showTime.tics = 0 ∧ s.showTime.ShowsTime := by
  have htext : timeText 0 0 = clockText 0 := @timeText_of_tics 0 (by decide) (by decide)
  have hshow : s.showTime = { s with
      tics := 0, screen := s.screen.printkXy 72 8 (clockText 0) } := by
    rw [showTime, h]
    simp [htext]
  rw [hshow]
  exact ⟨rfl, printkXy_video (clockText 0)⟩

/-- While the quantum is not over, and for a process that is alone, `schedule` returns. -/
lemma schedule_returns (fromInt : ℤ) (h : 0 < s.left4current ∨
    s.links.listFirst .runqueue = s.links.listLast .runqueue) :
    ∃ v, s.schedule fromInt = .ret () v ∧ v.tics = s.tics ∧ v.screen = s.screen := by
  by_cases hleft : s.left4current ≤ 0
  · have hone := h.resolve_left (not_lt.mpr hleft)
    refine ⟨{ s with left4current := s.current.quantum }.updTask s.cur
      fun k => { k with remaining := s.current.quantum }, ?_, rfl, rfl⟩
    rw [schedule, if_pos hleft, if_pos hone]
  · exact ⟨s, by rw [schedule, if_neg hleft], rfl, rfl⟩

/-- Otherwise it does not return, and neither the count nor the screen changes. -/
lemma schedule_leaves (fromInt : ℤ) (hleft : s.left4current ≤ 0)
    (htwo : s.links.listFirst .runqueue ≠ s.links.listLast .runqueue) :
    (∃ r, s.schedule fromInt = .stop r) ∨
      ∃ v, s.schedule fromInt = .switched v ∧ v.tics = s.tics ∧ v.screen = s.screen := by
  have hswitch : ∀ s' : Kernel, s'.tics = s.tics → s'.screen = s.screen →
      (∃ r, (s'.switchToNext fromInt : Outcome Kernel Unit) = .stop r) ∨
        ∃ v, (s'.switchToNext fromInt : Outcome Kernel Unit) = .switched v ∧
          v.tics = s.tics ∧ v.screen = s.screen := by
    intro s' htics hscreen
    unfold switchToNext
    split
    · exact .inr ⟨_, rfl, htics, hscreen⟩
    · exact .inl ⟨_, rfl⟩
  rw [schedule, if_pos hleft, if_neg htwo]
  split_ifs
  · exact hswitch _ rfl rfl
  · exact hswitch _ rfl rfl

/-- A tick at which the rest of `clock_routine` runs. -/
lemma step_clock_keeps (hact : e.act = .clock) (hst : s.step e = .ok t)
    (h : 1 < s.left4current ∨ s.links.listFirst .runqueue = s.links.listLast .runqueue) :
    ∃ v : Kernel, v.tics = s.tics + 1 ∧ v.screen = s.screen ∧ t = v.showTime := by
  have hleft : 0 < (s.enter e.regs).tick.left4current ∨
      (s.enter e.regs).tick.links.listFirst .runqueue =
        (s.enter e.regs).tick.links.listLast .runqueue := by
    refine h.imp_left fun h => ?_
    show 0 < s.left4current - 1
    omega
  obtain ⟨v, hsch, htics, hscreen⟩ := schedule_returns 1 hleft
  have heq := (step_clock_of_ret hact hsch).symm.trans hst
  exact ⟨v, htics, hscreen, (Except.ok.inj heq).symm⟩

/-- A tick at which it does not. -/
lemma step_clock_misses (hact : e.act = .clock) (hst : s.step e = .ok t)
    (hleft : s.left4current ≤ 1)
    (htwo : s.links.listFirst .runqueue ≠ s.links.listLast .runqueue) :
    t.tics = s.tics + 1 ∧ t.screen = s.screen := by
  have hleft' : (s.enter e.regs).tick.left4current ≤ 0 := by
    show s.left4current - 1 ≤ 0
    omega
  rcases schedule_leaves 1 hleft' htwo with ⟨r, hsch⟩ | ⟨v, hsch, htics, hscreen⟩
  · have hdisp : s.dispatch e = .stop r := by
      rw [dispatch, hact]
      show finishInt (s.enter e.regs).clockRoutine = _
      rw [clockRoutine, hsch]
      rfl
    rw [step, hdisp] at hst
    cases hst
  · have heq := (step_clock_of_switched hact hsch).symm.trans hst
    obtain rfl := Except.ok.inj heq
    exact ⟨htics, hscreen⟩

/-- **A tick of a clock that keeps time**: it counts, and from the last tick of the hour it goes
to zero; at the end of a second the screen shows the time. -/
lemma step_tick (hact : e.act = .clock) (hst : s.step e = .ok t) (hkeeps : s.KeepsTime e)
    (h0 : 0 ≤ s.tics + 1) (hhour : s.tics < 64800) :
    t.tics = (s.tics + 1) % 64800 ∧ (t.tics % 18 = 0 → t.ShowsTime) := by
  by_cases h : 1 < s.left4current ∨ s.links.listFirst .runqueue = s.links.listLast .runqueue
  · obtain ⟨v, htics, -, rfl⟩ := step_clock_keeps hact hst h
    by_cases hsecond : v.tics % 18 = 0
    · rcases lt_or_eq_of_le (Int.lt_iff_add_one_le.mp hhour) with hlt | heq
      · have hshown := showTime_of_second (by omega) (by omega) hsecond
        exact ⟨by rw [hshown.1]; omega, fun _ => hshown.2⟩
      · have hshown := showTime_of_hour (htics.trans heq)
        exact ⟨by rw [hshown.1]; omega, fun _ => hshown.2⟩
    · rw [showTime_of_tics hsecond]
      exact ⟨by omega, fun h => absurd h hsecond⟩
  · rw [not_or, not_lt] at h
    obtain ⟨htics, -⟩ := step_clock_misses hact hst h.1 h.2
    have hsecond : ¬ t.tics % 18 = 0 := by
      intro hs
      rw [htics] at hs
      rcases hkeeps hact hs with hlt | hone
      · exact absurd hlt (not_lt.mpr h.1)
      · exact h.2 hone
    exact ⟨by omega, fun hs => absurd hs hsecond⟩

lemma ticksIn_cons (e : Event) (es : List Event) :
    ticksIn (e :: es) = ticksIn es + if isTick e then 1 else 0 := List.countP_cons

/-- The count after some steps of a clock that keeps time. -/
lemma tics_of_run (hrun : Run step KeepsTime s es t) (h0 : -1 ≤ s.tics) (hhour : s.tics < 64800) :
    t.tics = if ticksIn es = 0 then s.tics else (s.tics + ticksIn es) % 64800 := by
  induction hrun with
  | nil s => exact (if_pos rfl).symm
  | @cons s t u e es hkeeps hst _ ih =>
    rw [ticksIn_cons]
    by_cases htick : isTick e
    · obtain ⟨htics, -⟩ := step_tick (isTick_iff.mp htick) hst hkeeps (by omega) hhour
      rw [ih (by omega) (by omega), if_pos htick, if_neg (Nat.succ_ne_zero _)]
      split_ifs with hnone
      · rw [htics, hnone]
        rfl
      · rw [htics]
        push_cast
        omega
    · have htics := step_tics (fun h => htick (isTick_iff.mpr h)) hst
      rw [ih (by omega) (by omega), if_neg htick, htics, Nat.add_zero]

/-- A process that is alone never keeps the clock from its work. -/
lemma InTurn.keepsTime {p : Slot} (h : InTurn s [p]) (hes : ∀ e ∈ es, e.act = .clock) :
    ∃ t, Run step KeepsTime s es t := by
  induction es generalizing s with
  | nil => exact ⟨s, .nil s⟩
  | cons e es ih =>
    have hact := hes e List.mem_cons_self
    have hkeeps : s.KeepsTime e := fun _ _ => .inr (h.ring.first_eq_last_iff.mpr (Nat.le_refl 1))
    obtain ⟨v, hst, hin⟩ : ∃ v, s.step e = .ok v ∧ InTurn v [p] := by
      rcases eq_or_lt_of_le h.left_pos with hone | hlt
      · obtain ⟨v, hst, hin, -⟩ := h.tick_alone hact hone.symm
        exact ⟨v, hst, hin⟩
      · obtain ⟨v, hst, hin, -⟩ := h.tick_within hact hlt
        exact ⟨v, hst, hin⟩
    obtain ⟨t, hrun⟩ := ih hin fun e he => hes e (List.mem_cons_of_mem _ he)
    exact ⟨t, .cons hkeeps hst hrun⟩

end Kernel

open Kernel in
/-- **The clock keeps time.**  In a run that begins before the first tick and in which no context
switch falls on a tick that ends a second, `tics` is one less than the number of ticks, modulo an
hour, and after every tick with which a second is over the screen shows minutes and seconds. -/
theorem clock_keeps_time {s t : Kernel} {es : List Event} (hboot : s.tics = -1)
    (hrun : Run step KeepsTime s es t) :
    (1 ≤ ticksIn es → t.tics = ((ticksIn es : ℤ) - 1) % 64800) ∧
      ∀ pre e, es = pre ++ [e] → e.act = .clock → t.tics % 18 = 0 → t.ShowsTime := by
  constructor
  · intro hticks
    rw [tics_of_run hrun (by omega) (by omega), if_neg (by omega), hboot, Int.add_comm,
      Int.sub_eq_add_neg]
  · rintro pre e rfl hact hsecond
    obtain ⟨v, hrun', hlast⟩ := run_append_iff.mp hrun
    obtain ⟨t', hkeeps, hst, hnil⟩ := run_cons_iff.mp hlast
    obtain rfl := run_nil_iff.mp hnil
    have htics := tics_of_run hrun' (by omega) (by omega)
    have hbound : -1 ≤ v.tics ∧ v.tics < 64800 := by
      split_ifs at htics <;> omega
    exact (step_tick hact hst hkeeps (by omega) hbound.2).2 hsecond

open Kernel in
/-- `clock_keeps_time` for the first second after boot. -/
theorem clock_keeps_time_first_second :
    ∃ t, Run step KeepsTime zeroEnv.boot (List.replicate 19 (plain .clock)) t ∧
      t.tics = 18 ∧ t.ShowsTime := by
  obtain ⟨t, hrun⟩ := (inTurn_boot zeroEnv).keepsTime (act_of_mem_ticks (n := 19))
  obtain ⟨htics, hshows⟩ := clock_keeps_time rfl hrun
  have h18 : t.tics = 18 := htics (by decide)
  refine ⟨t, hrun, h18, hshows (List.replicate 18 (plain .clock)) (plain .clock) rfl rfl ?_⟩
  rw [h18]
  decide

/-! ## A second that is not shown -/

namespace Kernel

variable {s t : Kernel} {e : Event} {es : List Event}

/-- While fewer than seven seconds have passed, the last digit on the screen is below seven. -/
def BelowSeven (s : Kernel) : Prop := s.screen.video (videoAddr 76 8) < '7'.toNat ||| 0x0200

lemma ShowsTime.belowSeven (h : s.ShowsTime) (h0 : 0 ≤ s.tics) (hlt : s.tics < 126) :
    s.BelowSeven := by
  have hcell : s.screen.video (videoAddr 76 8) =
      (digit (s.tics / 18 % 60 % 10)).toNat ||| 0x0200 := congrArg (fun l => l.getD 4 0) h
  have hdigits : ∀ d < 7, (digit (d : ℕ)).toNat ||| 0x0200 < '7'.toNat ||| 0x0200 := by decide
  obtain ⟨d, hd⟩ := Int.eq_ofNat_of_zero_le (show 0 ≤ s.tics / 18 % 60 % 10 by omega)
  rw [BelowSeven, hcell, hd]
  exact hdigits d (by omega)

lemma belowSeven_tick (hact : e.act = .clock) (hst : s.step e = .ok t) (h0 : -1 ≤ s.tics)
    (hlt : s.tics + 1 < 126) (h : s.BelowSeven) : t.tics = s.tics + 1 ∧ t.BelowSeven := by
  by_cases hkeeps : 1 < s.left4current ∨
      s.links.listFirst .runqueue = s.links.listLast .runqueue
  · obtain ⟨v, htics, hscreen, rfl⟩ := step_clock_keeps hact hst hkeeps
    by_cases hsecond : v.tics % 18 = 0
    · have hshown := showTime_of_second (by omega) (by omega) hsecond
      exact ⟨hshown.1.trans htics, hshown.2.belowSeven (by omega) (by omega)⟩
    · rw [showTime_of_tics hsecond, BelowSeven, hscreen]
      exact ⟨htics, h⟩
  · rw [not_or, not_lt] at hkeeps
    obtain ⟨htics, hscreen⟩ := step_clock_misses hact hst hkeeps.1 hkeeps.2
    rw [BelowSeven, hscreen]
    exact ⟨htics, h⟩

lemma belowSeven_ticks (hes : ∀ e ∈ es, e.act = .clock) (hrun : AnyRun s es t) (h0 : -1 ≤ s.tics)
    (hlt : s.tics + es.length < 126) (h : s.BelowSeven) :
    t.tics = s.tics + es.length ∧ t.BelowSeven := by
  induction hrun with
  | nil s => exact ⟨by simp, h⟩
  | cons _ hst _ ih =>
    rw [List.length_cons] at hlt ⊢
    push_cast at hlt ⊢
    obtain ⟨htics, hbelow⟩ := belowSeven_tick (hes _ List.mem_cons_self) hst h0 (by omega) h
    obtain ⟨htics', hbelow'⟩ := ih (fun e he => hes e (List.mem_cons_of_mem _ he)) (by omega)
      (by omega) hbelow
    exact ⟨by omega, hbelow'⟩

/-- Two processes in turn, of which the first has set its quantum to 7. -/
lemma boot_fork_nice (E : Env) :
    ∃ t, AnyRun E.boot [plain .fork, plain (.nice 7)] t ∧ InTurn t [0, 1] ∧ t.left4current = 60 ∧
      (t.task 0).quantum = 7 ∧ (t.task 1).quantum = 60 ∧ t.tics = -1 ∧
      t.screen = E.boot.screen := by
  obtain ⟨s, hrun, -, -, -, -, hscreen, -⟩ := E.boot_fork
  have hst : E.boot.step (plain .fork) = .ok s := by
    obtain ⟨s', -, hst, hnil⟩ := run_cons_iff.mp hrun
    exact hst.trans (congrArg Except.ok (run_nil_iff.mp hnil))
  have htics : s.tics = -1 := step_tics (fun h => by cases h) hst
  obtain ⟨hin, hleft, hquanta⟩ := inTurn_fork hst
  have hcur : s.cur = 0 := (Option.some.inj hin.head).symm
  -- the system call changes nothing but the quantum and the registers of task 0
  set t := (((s.enter fun _ => 0).sysNice 7).2).setEax ((s.enter fun _ => 0).sysNice 7).1 with ht
  have hst' : s.step (plain (.nice 7)) = .ok t := rfl
  have htask : ∀ p, (t.task p).quantum = (if p = 0 then 7 else (s.task p).quantum) ∧
      (t.task p).remaining = (s.task p).remaining ∧ (t.task p).pid = (s.task p).pid := by
    intro p
    by_cases hp : p = 0
    · subst hp
      simp [ht, sysNice, setEax, enter, updTask, hcur]
    · simp [ht, sysNice, setEax, enter, updTask, hcur, hp]
  have hcur' : t.cur = 0 := hcur
  have hleft' : t.left4current = 60 := hleft
  refine ⟨t, .cons trivial hst (.cons trivial hst' (.nil t)), ?_, hleft', ?_, ?_, htics, hscreen⟩
  · refine ⟨hin.ring, hin.head, fun p hp => ?_, fun p hp => ?_, ?_, by rw [hleft']; decide⟩
    · rw [Live, (htask p).2.2]
      exact hin.live p hp
    · rw [(htask p).1, hquanta p hp]
      split_ifs <;> decide
    · rw [current, hcur', (htask 0).2.1, ← hcur, ← current, ← hin.remaining, hleft', hleft]
  · exact (htask 0).1
  · exact (htask 1).1.trans (hquanta 1 (by simp))

end Kernel

open Kernel in
/-- The 127th tick ends the seventh second and the quantum of a process with quantum 7, while
another process waits for the processor; the screen still shows an earlier time. -/
theorem second_is_not_shown :
    ∃ t, AnyRun zeroEnv.boot
        ([plain .fork, plain (.nice 7)] ++ List.replicate 127 (plain .clock)) t ∧
      t.tics = 126 ∧ ¬ t.ShowsTime := by
  obtain ⟨s, hrun, hin, hleft, hquantum₀, hquantum₁, htics, hscreen⟩ := boot_fork_nice zeroEnv
  -- a turn of task 0, a turn of its child, and seven ticks for task 0
  obtain ⟨s₁, hrun₁, hin₁, hleft₁, hgains₁⟩ := hin.turn (act_of_mem_ticks (n := 60)) hleft.symm
  obtain ⟨s₂, hrun₂, hin₂, hleft₂, hgains₂⟩ := hin₁.turn (act_of_mem_ticks (n := 60))
    (hleft₁.trans hquantum₁).symm
  have hleft₂' : s₂.left4current = 7 := by
    rw [hleft₂, hgains₁.quantum, hquantum₀]
  obtain ⟨s₃, hrun₃, hin₃, hleft₃, -⟩ := hin₂.ticks (act_of_mem_ticks (n := 6))
    (by rw [hleft₂']; decide)
  have hone : s₃.left4current = 1 := by
    rw [hleft₃, hleft₂']
    rfl
  obtain ⟨t, hst, -⟩ := hin₃.tick_next (e := plain .clock) rfl hone
  have hticks : AnyRun s (List.replicate 126 (plain .clock)) s₃ := by
    rw [List.replicate_add 60 66, List.replicate_add 60 6]
    exact run_append_iff.mpr ⟨s₁, hrun₁.unguarded, run_append_iff.mpr ⟨s₂, hrun₂.unguarded,
      hrun₃.unguarded⟩⟩
  have hblank : s.BelowSeven := by
    have hzero : zeroEnv.screen.video (videoAddr 76 8) = 0 := by decide +kernel
    rw [BelowSeven, hscreen, show zeroEnv.boot.screen = zeroEnv.screen from rfl, hzero]
    decide
  obtain ⟨htics₃, hbelow⟩ := belowSeven_ticks act_of_mem_ticks hticks (by omega)
    (by rw [htics, List.length_replicate]; decide) hblank
  have htwo : s₃.links.listFirst .runqueue ≠ s₃.links.listLast .runqueue := by
    rw [Ne, hin₃.ring.first_eq_last_iff]
    decide
  obtain ⟨htics', hscreen'⟩ := step_clock_misses rfl hst hone.le htwo
  have htics₁ : t.tics = 126 := by
    rw [htics', htics₃, htics, List.length_replicate]
    rfl
  refine ⟨t, ?_, htics₁, fun hshows => ?_⟩
  · rw [List.replicate_add 126 1]
    exact run_append_iff.mpr ⟨s, hrun, hticks.snoc trivial hst⟩
  · have hcell : t.screen.video (videoAddr 76 8) =
        (digit (t.tics / 18 % 60 % 10)).toNat ||| 0x0200 := congrArg (fun l => l.getD 4 0) hshows
    rw [htics₁, hscreen'] at hcell
    rw [BelowSeven, hcell] at hbelow
    exact absurd hbelow (by decide)

end ZeOS
