import ZeOS.Monitor.Steps
import Mathlib.Algebra.BigOperators.Fin
import Mathlib.Data.Set.Card
import Mathlib.Tactic.Ring

/-!
# The counters of the monitor

A wrapper counts a call before it is made and its outcome after it, so that the two differ by the
calls that are being made.  The counters of `syscall_info_table`, which nothing resets, always do
(`aggregates_agree`), and the record of a process agrees with itself.  Those of a process differ as
they should just as long as no command resets the record of a process that is inside a wrapper
(`calls_accounted_iff`): such a call is forgotten, and its outcome is counted.
-/

namespace SyscallsMon

open GuardedRun

variable {N : SyscallNumbers} {m t : Monitor} {e : Event} {pid : ℤ} {p : Proc}

/-! ## Calls of a process -/

lemma MyThread.update_castSucc (x : MyThread) (k j : CallId) (u : Update) :
    (x.update k u).stats j.castSucc =
      if j = k then (x.stats k.castSucc).update u else x.stats j.castSucc := by
  have hlast : j.castSucc ≠ Fin.last nCalls := (Fin.castSucc_lt_last j).ne
  simp only [update, Function.update_of_ne hlast]
  by_cases h : j = k
  · rw [if_pos h, h, Function.update_self]
  · rw [if_neg h, Function.update_of_ne fun hc => h (Fin.castSucc_injective _ hc)]

lemma MyThread.update_last (x : MyThread) (k : CallId) (u : Update) :
    (x.update k u).stats (Fin.last nCalls) = (x.stats (Fin.last nCalls)).update u := by
  have hlast : Fin.last nCalls ≠ k.castSucc := (Fin.castSucc_lt_last k).ne'
  simp only [update, Function.update_self, Function.update_of_ne hlast]

namespace Proc

/-- Every call is counted as returned, or is the one that the process is inside of. -/
def Balanced (p : Proc) : Prop :=
  ∀ k : CallId, (p.record.stats k.castSucc).nCalls =
    (p.record.stats k.castSucc).nCallsOk + (p.record.stats k.castSucc).nCallsErr +
      if p.Inside k then 1 else 0

lemma balanced_resetStats (h : ∀ k, ¬ p.Inside k) : (p.resetStats pid).Balanced := by
  intro k
  rw [if_neg (mt (inside_congr (resetStats_inCall pid p)).mp (h k))]
  rfl

lemma not_balanced_resetStats {k : CallId} (h : p.Inside k) : ¬ (p.resetStats pid).Balanced := by
  intro hb
  have hk := hb k
  rw [if_pos ((inside_congr (resetStats_inCall pid p)).mpr h)] at hk
  change (0 : BitVec 32) = 0 + 0 + 1 at hk
  exact absurd hk (by decide)

/-- The record is of the process while it is inside a wrapper, and is balanced once it is reset. -/
def Accounted (pid : ℤ) (p : Proc) : Prop :=
  (∀ k, p.Inside k → p.record.pid = pid) ∧ (p.since ≠ none → p.Balanced)

lemma Accounted.checkStats (h : Accounted pid p) : Accounted pid (p.checkStats pid) := by
  by_cases hpid : p.record.pid = pid
  · rwa [checkStats_of_eq hpid]
  · rw [checkStats_of_ne hpid]
    exact ⟨fun _ _ => rfl, fun _ => balanced_resetStats fun k hk => hpid (h.1 k hk)⟩

/-- A record that moves from outside to inside a wrapper, or back, stays balanced if the counters
move with it. -/
lemma Balanced.update {q : Proc} {k : CallId} {u : Update} (h : p.Balanced)
    (hq : q.record = p.record.update k u) (hne : ∀ j, j ≠ k → (q.Inside j ↔ p.Inside j))
    (hk : ((p.record.stats k.castSucc).update u).nCalls =
      ((p.record.stats k.castSucc).update u).nCallsOk +
        ((p.record.stats k.castSucc).update u).nCallsErr + if q.Inside k then 1 else 0) :
    q.Balanced := by
  intro j
  rw [hq, MyThread.update_castSucc]
  by_cases hj : j = k
  · rw [if_pos hj, hj]
    exact hk
  · rw [if_neg hj, h j]
    simp only [hne j hj]

lemma since_of_update {k : CallId} {u : Update} (h : (p.update k u).since ≠ none) :
    p.since ≠ none := by
  intro hn
  exact h (by rw [update, hn]; rfl)

lemma Accounted.before {w : Wrapper} {start : BitVec 64} (hin : p.inCall = none)
    (h : Accounted pid p) :
    Accounted pid { (p.checkStats pid).update w.index .call with
      inCall := some (.wrapper w start) } := by
  refine ⟨fun _ _ => checkStats_pid pid p, fun hs => ?_⟩
  have hnot : ∀ j, ¬ (p.checkStats pid).Inside j := fun j =>
    not_inside_of_none ((checkStats_inCall pid p).trans hin)
  have hb : (p.checkStats pid).Balanced := h.checkStats.2 (since_of_update hs)
  refine hb.update (k := w.index) (u := .call) rfl (fun j hj => ?_) ?_
  · rw [inside_wrapper_iff rfl]
    exact iff_of_false (Ne.symm hj) (hnot j)
  · have hk := hb w.index
    rw [if_neg (hnot w.index), add_zero] at hk
    rw [if_pos ((inside_wrapper_iff rfl).mpr rfl)]
    exact congrArg (· + 1) hk

lemma Accounted.after {w : Wrapper} {start cycles : BitVec 64} {b : Bool}
    (hin : p.inCall = some (.wrapper w start)) (h : Accounted pid p) :
    Accounted pid { p.update w.index (.ret b cycles) with inCall := none } := by
  refine ⟨fun k hk => absurd hk (not_inside_of_none rfl), fun hs => ?_⟩
  have hb : p.Balanced := h.2 (since_of_update hs)
  refine hb.update (k := w.index) (u := .ret b cycles) rfl (fun j hj => ?_) ?_
  · rw [inside_wrapper_iff hin]
    exact iff_of_false (not_inside_of_none rfl) (Ne.symm hj)
  · have hk := hb w.index
    rw [if_pos ((inside_wrapper_iff hin).mpr rfl)] at hk
    rw [if_neg (not_inside_of_none rfl), add_zero]
    cases b with
    | true =>
      change (p.record.stats w.index.castSucc).nCalls = _
      rw [hk]
      exact add_right_comm ..
    | false =>
      change (p.record.stats w.index.castSucc).nCalls = _
      rw [hk]
      exact add_assoc ..

end Proc

namespace Monitor

/-- The calls of every process with a record that was reset for it are accounted for. -/
def CallsAccounted (m : Monitor) : Prop :=
  ∀ pid p, m.proc pid = some p → p.since ≠ none → p.Balanced

/-- Every record is accounted for. -/
def RecordsAccounted (m : Monitor) : Prop := ∀ pid p, m.proc pid = some p → p.Accounted pid

/-- A command that resets the record of a process finds it outside the wrappers. -/
def ResetsOutside (m : Monitor) (e : Event) : Prop :=
  ∀ pid p, m.Resets e pid → m.proc pid = some p → ∀ k, ¬ p.Inside k

lemma RecordsAccounted.step (hm : m.RecordsAccounted) (hout : m.ResetsOutside e)
    (h : m.step N e = .ok t) : t.RecordsAccounted := by
  refine step_forall_proc ?_ ?_ ?_ ?_ ?_ ?_ ?_ hm h
  · exact fun pid record => ⟨fun k hk => absurd hk (Proc.not_inside_of_none rfl),
      fun hs => absurd rfl hs⟩
  · exact fun pid p w start hin hp => hp.before hin
  · exact fun pid p w start b c hin hp => hp.after hin
  · intro pid p k hin hp
    refine ⟨fun j hj => absurd hj (Proc.not_inside_of_original rfl), fun hs j => ?_⟩
    have hj := hp.2 hs j
    rw [if_neg (Proc.not_inside_of_none hin)] at hj
    rw [if_neg (Proc.not_inside_of_original rfl)]
    exact hj
  · intro pid p k hin hp
    refine ⟨fun j hj => absurd hj (Proc.not_inside_of_none rfl), fun hs j => ?_⟩
    have hj := hp.2 hs j
    rw [if_neg (Proc.not_inside_of_original hin)] at hj
    rw [if_neg (Proc.not_inside_of_none rfl)]
    exact hj
  · exact fun pid p hp => hp.checkStats
  · exact fun pid p hr hp _ =>
      ⟨fun k _ => rfl, fun _ => Proc.balanced_resetStats (hout pid p hr hp)⟩

/-- What a command that resets a record leaves. -/
lemma step_of_resets (h : m.step N e = .ok t) (hr : m.Resets e pid) (hp : m.proc pid = some p) :
    t.proc pid = some (p.resetStats pid) := by
  unfold Resets at hr
  split at hr
  · obtain ⟨hpid, r, hread, rfl⟩ := hr
    obtain ⟨r', x, hread', -, hc⟩ := ioctl_step h
    rw [hread, Option.some.injEq] at hread'
    subst hread'
    change (m.resetValues r.procMonitored).map _ = _ at hc
    rw [resetValues, if_neg (not_lt.mpr hpid), findTaskByPid, hp] at hc
    cases hc
    exact setProc_self ..
  · obtain ⟨r, x, -, -, hc⟩ := ioctl_step h
    change Except.ok (0, m.completeReset) = _ at hc
    cases hc
    change (m.proc pid).map _ = _
    rw [hp, Option.map_some]
  · exact hr.elim

lemma recordsAccounted_init {M : Machine} {m₀ : Monitor}
    (h : M.insmod.syscallsMonInit N = .ok m₀) : m₀.RecordsAccounted := by
  intro pid p hp
  obtain ⟨hin, hs⟩ := syscallsMonInit_proc h hp
  refine ⟨fun k hk => absurd hk (hin k), fun hne k => ?_⟩
  obtain hn | ⟨-, hrec⟩ := hs
  · exact absurd hn hne
  · rw [if_neg (hin k), hrec]
    rfl

end Monitor

/-- **Calls are accounted for.**  In every run of the machine, the calls of every process with a
record that was reset for it are accounted for in every state, just when every command that resets
a record finds its process outside the wrappers. -/
theorem calls_accounted_iff (N : SyscallNumbers) (M : Machine) (m₀ t : Monitor) (es : List Event)
    (hload : M.insmod.syscallsMonInit N = .ok m₀)
    (hrun : Run (Monitor.step N) (fun _ _ => True) m₀ es t) :
    (∀ pre u, pre <+: es → Run (Monitor.step N) (fun _ _ => True) m₀ pre u → u.CallsAccounted) ↔
      Run (Monitor.step N) Monitor.ResetsOutside m₀ es t := by
  have hgood : ∀ m : Monitor, m.RecordsAccounted → m.CallsAccounted :=
    fun m hm pid p hp hs => (hm pid p hp).2 hs
  have hbreak : ∀ (m : Monitor) (e : Event) (t : Monitor), m.RecordsAccounted → True →
      ¬ m.ResetsOutside e → m.step N e = .ok t → ¬ t.CallsAccounted := by
    intro m e t _ _ hout hst hacc
    unfold Monitor.ResetsOutside at hout
    push Not at hout
    obtain ⟨pid, p, hr, hp, k, hk⟩ := hout
    have ht := Monitor.step_of_resets hst hr hp
    exact Proc.not_balanced_resetStats hk (hacc pid _ ht (Option.some_ne_none []))
  have hiff := hrun.forall_prefix_iff hgood
    (fun m e t hm _ hout hst => Monitor.RecordsAccounted.step hm hout hst) hbreak
    (Monitor.recordsAccounted_init hload)
  simpa only [true_and] using hiff

theorem calls_accounted_iff_one_write :
    ∃ m₀ t, twoProcs.insmod.syscallsMonInit i386 = .ok m₀ ∧
      ((∀ pre u, pre <+: [Event.call 1 callMyWrite 0] →
          Run (Monitor.step i386) (fun _ _ => True) m₀ pre u → u.CallsAccounted) ↔
        Run (Monitor.step i386) Monitor.ResetsOutside m₀ [.call 1 callMyWrite 0] t) :=
  ⟨_, _, rfl, calls_accounted_iff i386 twoProcs _ _ _ rfl (.cons trivial rfl (.nil _))⟩

/-- Process 2 opens the device and resets process 1 while that is inside `write`. -/
theorem write_unaccounted_after_reset :
    ∃ m₀ t, twoProcs.insmod.syscallsMonInit i386 = .ok m₀ ∧
      Run (Monitor.step i386) (fun _ _ => True) m₀
        [.driverInit, .call 2 callOpen 0, .openDev 2 0, .ret 2 3 0, .call 1 callMyWrite 0,
          .ioctl 0 1, .ioctl 2 0] t ∧
      ¬ t.CallsAccounted := by
  refine ⟨_, _, rfl, .cons trivial rfl (.cons trivial rfl (.cons trivial rfl (.cons trivial rfl
    (.cons trivial rfl (.cons trivial rfl (.cons trivial rfl (.nil _))))))), ?_⟩
  intro h
  have hbad := h 1 _ rfl (by decide) callMyWrite
  revert hbad
  decide

/-! ## All the calls together -/

/-- The last element of a record is the sum of the others. -/
def MyThread.Summed (x : MyThread) : Prop :=
  (x.stats (Fin.last nCalls)).nCalls = ∑ k : CallId, (x.stats k.castSucc).nCalls ∧
  (x.stats (Fin.last nCalls)).nCallsOk = ∑ k : CallId, (x.stats k.castSucc).nCallsOk ∧
  (x.stats (Fin.last nCalls)).nCallsErr = ∑ k : CallId, (x.stats k.castSucc).nCallsErr ∧
  (x.stats (Fin.last nCalls)).total = ∑ k : CallId, (x.stats k.castSucc).total

/-- A field that every update raises by what the update says stays summed. -/
lemma MyThread.sum_update {α : Type} [AddCommGroup α] (g : TInfo → α) (d : Update → α)
    (hg : ∀ y u, g (y.update u) = g y + d u) {x : MyThread}
    (h : g (x.stats (Fin.last nCalls)) = ∑ k : CallId, g (x.stats k.castSucc)) (k : CallId)
    (u : Update) :
    g ((x.update k u).stats (Fin.last nCalls)) =
      ∑ j : CallId, g ((x.update k u).stats j.castSucc) := by
  have hsum : ∀ j : CallId, g ((x.update k u).stats j.castSucc) =
      g (x.stats j.castSucc) + if j = k then d u else 0 := by
    intro j
    rw [update_castSucc]
    by_cases hj : j = k
    · rw [if_pos hj, if_pos hj, hg, hj]
    · rw [if_neg hj, if_neg hj, add_zero]
  rw [update_last, hg, h, Finset.sum_congr rfl fun j _ => hsum j, Finset.sum_add_distrib,
    Finset.sum_ite_eq' Finset.univ k, if_pos (Finset.mem_univ k)]

lemma MyThread.Summed.update {x : MyThread} (h : x.Summed) (k : CallId) (u : Update) :
    (x.update k u).Summed := by
  obtain ⟨hn, hok, herr, htot⟩ := h
  refine ⟨sum_update TInfo.nCalls (fun | .call => 1 | .ret _ _ => 0) ?_ hn k u,
    sum_update TInfo.nCallsOk (fun | .ret true _ => 1 | _ => 0) ?_ hok k u,
    sum_update TInfo.nCallsErr (fun | .ret false _ => 1 | _ => 0) ?_ herr k u,
    sum_update TInfo.total (fun | .call => 0 | .ret _ c => c) ?_ htot k u⟩ <;>
  · intro y u
    rcases u with _ | ⟨_ | _, c⟩ <;> simp [TInfo.update]

lemma MyThread.summed_reset (pid : ℤ) : (MyThread.reset pid).Summed := by
  refine ⟨?_, ?_, ?_, ?_⟩ <;> exact (Finset.sum_eq_zero fun k _ => rfl).symm

/-! ## Calls of all processes -/

namespace Monitor

/-- The processes that are inside the wrapper of a call. -/
def insideOf (m : Monitor) (k : CallId) : Set ℤ := {pid | ∃ p, m.proc pid = some p ∧ p.Inside k}

/-- The counters of the calls are ahead of those of the results by the processes that are inside
the wrapper. -/
def InfoBalanced (m : Monitor) : Prop :=
  ∀ k, (m.insideOf k).Finite ∧
    (m.syscallInfoTable k).nCalls - (m.syscallInfoTable k).nCallsOk -
      (m.syscallInfoTable k).nCallsErr = BitVec.ofNat 32 (m.insideOf k).ncard

lemma ProcEffect.inside_iff {x y : Option Proc} (h : ProcEffect m e pid x y) (k : CallId) :
    (∃ q, y = some q ∧ q.Inside k) ↔ ∃ p, x = some p ∧ p.Inside k := by
  have hboth : ∀ p q : Proc, (q.Inside k ↔ p.Inside k) →
      ((∃ r, some q = some r ∧ r.Inside k) ↔ ∃ r, some p = some r ∧ r.Inside k) := by
    intro p q hpq
    simpa using hpq
  cases h with
  | same => exact Iff.rfl
  | created record _ =>
    refine iff_of_false ?_ (by simp)
    rintro ⟨q, hq, hk⟩
    cases hq
    exact Proc.not_inside_of_none rfl hk
  | ended p hin =>
    refine iff_of_false (by simp) ?_
    rintro ⟨q, hq, hk⟩
    cases hq
    exact Proc.not_inside_of_none hin hk
  | entered p j hin =>
    exact hboth _ _ (iff_of_false (Proc.not_inside_of_original rfl) (Proc.not_inside_of_none hin))
  | left p j hin =>
    exact hboth _ _ (iff_of_false (Proc.not_inside_of_none rfl) (Proc.not_inside_of_original hin))
  | checked p => exact hboth _ _ (Proc.inside_congr (Proc.checkStats_inCall pid p))
  | reset p _ => exact hboth _ _ (Proc.inside_congr (Proc.resetStats_inCall pid p))

/-- A process that comes to another place changes the sets of processes only by itself. -/
lemma mem_insideOf_setProc {q : Proc} {k : CallId} {pid' : ℤ} :
    pid' ∈ (m.setProc pid q).insideOf k ↔
      (pid' = pid ∧ q.Inside k) ∨ (pid' ≠ pid ∧ pid' ∈ m.insideOf k) := by
  unfold insideOf
  by_cases h : pid' = pid
  · subst h
    simp
  · simp [setProc_of_ne m q h, h]

lemma insideOf_before (w : Wrapper) (start : BitVec 64) (hp : m.proc pid = some p)
    (hin : p.inCall = none) (k : CallId) :
    pid ∉ m.insideOf k ∧ (m.beforeCall pid p w start).insideOf k =
      if w.index = k then insert pid (m.insideOf k) else m.insideOf k := by
  have hnot : pid ∉ m.insideOf k := by
    rintro ⟨q, hq, hk⟩
    rw [hp, Option.some.injEq] at hq
    exact Proc.not_inside_of_none (hq ▸ hin) hk
  refine ⟨hnot, Set.ext fun pid' => ?_⟩
  rw [beforeCall, mem_insideOf_setProc, Proc.inside_wrapper_iff rfl]
  by_cases hw : w.index = k
  · rw [if_pos hw, Set.mem_insert_iff]
    change (pid' = pid ∧ _) ∨ (_ ∧ pid' ∈ m.insideOf k) ↔ _
    tauto
  · rw [if_neg hw]
    change (pid' = pid ∧ _) ∨ (_ ∧ pid' ∈ m.insideOf k) ↔ _
    by_cases h : pid' = pid
    · subst h
      tauto
    · tauto

lemma insideOf_after {w : Wrapper} {start : BitVec 64} (result : ℤ) («end» : BitVec 64)
    (hp : m.proc pid = some p) (hin : p.inCall = some (.wrapper w start)) (k : CallId) :
    (m.afterCall pid p w start result «end»).insideOf k = m.insideOf k \ {pid} ∧
      (pid ∈ m.insideOf k ↔ w.index = k) := by
  constructor
  · refine Set.ext fun pid' => ?_
    rw [afterCall, mem_insideOf_setProc, Set.mem_sdiff, Set.mem_singleton_iff]
    have hnot := Proc.not_inside_of_none (k := k)
      (p := { p.update w.index (.ret (decide (result ≥ 0)) («end» - start)) with inCall := none }) rfl
    change (pid' = pid ∧ _) ∨ (_ ∧ pid' ∈ m.insideOf k) ↔ _
    tauto
  · rw [← Proc.inside_wrapper_iff hin]
    constructor
    · rintro ⟨q, hq, hk⟩
      rw [hp, Option.some.injEq] at hq
      exact hq ▸ hk
    · exact fun hk => ⟨p, hp, hk⟩

lemma InfoBalanced.before {w : Wrapper} {start : BitVec 64} (h : m.InfoBalanced)
    (hp : m.proc pid = some p) (hin : p.inCall = none) :
    (m.beforeCall pid p w start).InfoBalanced := by
  intro k
  obtain ⟨hnot, hset⟩ := insideOf_before w start hp hin k
  obtain ⟨hfin, hk⟩ := h k
  rw [hset]
  by_cases hw : w.index = k
  · subst hw
    rw [if_pos rfl]
    refine ⟨hfin.insert pid, ?_⟩
    have hinfo : (m.beforeCall pid p w start).syscallInfoTable w.index =
        (m.syscallInfoTable w.index).update .call := Function.update_self ..
    rw [Set.ncard_insert_of_notMem hnot hfin, BitVec.ofNat_add, ← hk, hinfo,
      show BitVec.ofNat 32 1 = 1 from rfl]
    simp only [TInfo.update]
    ring
  · rw [if_neg hw]
    have hinfo : (m.beforeCall pid p w start).syscallInfoTable k = m.syscallInfoTable k :=
      Function.update_of_ne (Ne.symm hw) ..
    rw [hinfo]
    exact ⟨hfin, hk⟩

lemma InfoBalanced.after {w : Wrapper} {start «end» : BitVec 64} {result : ℤ}
    (h : m.InfoBalanced) (hp : m.proc pid = some p) (hin : p.inCall = some (.wrapper w start)) :
    (m.afterCall pid p w start result «end»).InfoBalanced := by
  intro k
  obtain ⟨hset, hmem⟩ := insideOf_after result «end» hp hin k
  obtain ⟨hfin, hk⟩ := h k
  rw [hset]
  refine ⟨hfin.sdiff, ?_⟩
  by_cases hw : w.index = k
  · have hcard := Set.ncard_sdiff_singleton_add_one (hmem.mpr hw) hfin
    subst hw
    have hinfo : (m.afterCall pid p w start result «end»).syscallInfoTable w.index =
        (m.syscallInfoTable w.index).update (.ret (decide (result ≥ 0)) («end» - start)) :=
      Function.update_self ..
    rw [← hcard, BitVec.ofNat_add] at hk
    rw [hinfo, ← add_right_cancel_iff (a := BitVec.ofNat 32 1), ← hk,
      show BitVec.ofNat 32 1 = 1 from rfl]
    cases decide (result ≥ 0) with
    | true =>
      simp only [TInfo.update]
      ring
    | false =>
      simp only [TInfo.update]
      ring
  · have hinfo : (m.afterCall pid p w start result «end»).syscallInfoTable k =
        m.syscallInfoTable k := Function.update_of_ne (Ne.symm hw) ..
    rw [hinfo, Set.sdiff_singleton_eq_self (mt hmem.mp hw)]
    exact hk

lemma InfoBalanced.step (hm : m.InfoBalanced) (h : m.step N e = .ok t) : t.InfoBalanced := by
  cases step_effect h with
  | before pid p w start hp hin ht => exact ht ▸ hm.before hp hin
  | after pid p w start result «end» hp hin ht => exact ht ▸ hm.after hp hin
  | other hinfo hall =>
    intro k
    have hset : t.insideOf k = m.insideOf k := Set.ext fun pid => (hall pid).inside_iff k
    rw [hset, hinfo]
    exact hm k

/-- Every record that was reset for its process is summed. -/
def RecordsSummed (m : Monitor) : Prop :=
  ∀ pid p, m.proc pid = some p → p.since ≠ none → p.record.Summed

lemma RecordsSummed.step (hm : m.RecordsSummed) (h : m.step N e = .ok t) : t.RecordsSummed := by
  have hcheck : ∀ (pid : ℤ) (p : Proc), (p.since ≠ none → p.record.Summed) →
      (p.checkStats pid).since ≠ none → (p.checkStats pid).record.Summed := by
    intro pid p hp hs
    by_cases hpid : p.record.pid = pid
    · rw [Proc.checkStats_of_eq hpid] at hs ⊢
      exact hp hs
    · rw [Proc.checkStats_of_ne hpid]
      exact MyThread.summed_reset pid
  refine step_forall_proc (I := fun _ p => p.since ≠ none → p.record.Summed)
    ?_ ?_ ?_ ?_ ?_ hcheck ?_ hm h
  · exact fun _ _ hs => absurd rfl hs
  · exact fun pid p w _ _ hp hs => (hcheck pid p hp (Proc.since_of_update hs)).update w.index .call
  · exact fun _ _ w _ _ _ _ hp hs => (hp (Proc.since_of_update hs)).update w.index _
  · exact fun _ _ _ _ hp => hp
  · exact fun _ _ _ _ hp => hp
  · exact fun pid _ _ _ _ _ => MyThread.summed_reset pid

lemma recordsSummed_init {M : Machine} {m₀ : Monitor} (h : M.insmod.syscallsMonInit N = .ok m₀) :
    m₀.RecordsSummed := by
  intro pid p hp hs
  obtain hn | ⟨-, hrec⟩ := (syscallsMonInit_proc h hp).2
  · exact absurd hn hs
  · rw [hrec]
    exact MyThread.summed_reset pid

lemma infoBalanced_init {M : Machine} {m₀ : Monitor} (h : M.insmod.syscallsMonInit N = .ok m₀) :
    m₀.InfoBalanced := by
  intro k
  have hset : m₀.insideOf k = ∅ := by
    refine Set.eq_empty_of_forall_notMem fun pid => ?_
    rintro ⟨p, hp, hk⟩
    exact (syscallsMonInit_proc h hp).1 k hk
  have hinfo : m₀.syscallInfoTable k = noCalls := by
    obtain ⟨a, p, -, rfl⟩ := syscallsMonInit_ok h
    rfl
  rw [hset, hinfo, Set.ncard_empty]
  exact ⟨Set.finite_empty, rfl⟩

/-- No command of the reader changes the counters of the calls. -/
lemma command_info {r : Reader} {arg1 : ℕ} {c : ℤ} {x : ℤ × Monitor}
    (h : m.command N r arg1 c = .ok x) : x.2.syscallInfoTable = m.syscallInfoTable := by
  unfold command at h
  split at h
  · obtain rfl := Except.ok.inj h
    unfold changeProcess
    split
    · rfl
    · split <;> rfl
  · obtain rfl := Except.ok.inj h
    exact (changeSyscall_proc m r c).2
  · cases hv : m.resetValues r.procMonitored with
    | error => rw [hv] at h; cases h
    | ok y =>
      rw [hv] at h
      cases h
      obtain ⟨-, hy⟩ | ⟨p, -, -, hy⟩ := resetValues_ok hv
      · rw [hy]
      · rw [hy]
        rfl
  · cases h
    rfl
  · split at h
    · cases h
      rfl
    · obtain rfl := Except.ok.inj h
      exact (activateSyscallMon_keeps N m c).2.1
  · split at h
    · cases h
      rfl
    · obtain rfl := Except.ok.inj h
      exact (deactivateSyscallMon_keeps N m c).2.1
  · cases h
    rfl

end Monitor

/-- **Aggregates agree with details.**  In every state of every run of the machine: the last element
of a record that was reset for its process is the sum of the others; the counters of the calls are
ahead of those of the results by the number of processes inside the wrapper; and no command of the
reader, resets included, changes these. -/
theorem aggregates_agree (N : SyscallNumbers) (M : Machine) (m₀ m : Monitor) (es : List Event)
    (hload : M.insmod.syscallsMonInit N = .ok m₀)
    (hrun : Run (Monitor.step N) (fun _ _ => True) m₀ es m) :
    (∀ pid p, m.proc pid = some p → p.since ≠ none → p.record.Summed) ∧
      (∀ k, (m.insideOf k).Finite ∧
        (m.syscallInfoTable k).nCalls - (m.syscallInfoTable k).nCallsOk -
          (m.syscallInfoTable k).nCallsErr = BitVec.ofNat 32 (m.insideOf k).ncard) ∧
      ∀ arg1 arg2 t, m.step N (.ioctl arg1 arg2) = .ok t →
        t.syscallInfoTable = m.syscallInfoTable := by
  refine ⟨?_, ?_, ?_⟩
  · exact hrun.invariant (fun _ _ _ hm _ hst => Monitor.RecordsSummed.step hm hst)
      (Monitor.recordsSummed_init hload)
  · exact hrun.invariant (fun _ _ _ hm _ hst => Monitor.InfoBalanced.step hm hst)
      (Monitor.infoBalanced_init hload)
  · intro arg1 arg2 t hst
    obtain ⟨r, x, -, -, hc⟩ := Monitor.ioctl_step hst
    exact Monitor.command_info hc

theorem aggregates_agree_one_write :
    ∃ m₀ m, twoProcs.insmod.syscallsMonInit i386 = .ok m₀ ∧
      Run (Monitor.step i386) (fun _ _ => True) m₀ [.call 1 callMyWrite 0] m ∧
      (m.insideOf callMyWrite).Finite ∧
      (m.syscallInfoTable callMyWrite).nCalls - (m.syscallInfoTable callMyWrite).nCallsOk -
        (m.syscallInfoTable callMyWrite).nCallsErr =
          BitVec.ofNat 32 (m.insideOf callMyWrite).ncard := by
  refine ⟨_, _, rfl, .cons trivial rfl (.nil _), ?_⟩
  have h := aggregates_agree i386 twoProcs _ _ [.call 1 callMyWrite 0] rfl
    (.cons trivial rfl (.nil _))
  exact h.2.1 callMyWrite

end SyscallsMon
