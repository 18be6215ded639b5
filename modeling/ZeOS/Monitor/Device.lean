import ZeOS.Monitor.Validity
import ZeOS.Monitor.CallTable

/-!
# What the device answers

`readstats_ioctl_dev` and `readstats_read_dev` look up a process by a pid that was remembered
earlier, and the process may be gone by then.

Every command tells a process that is gone from one that is there, but `RESET_VALUES`.  Its helper
`reset_values` compares the task with `< 0`, which no pointer is, and would dereference a null
pointer; and what `reset_values` returns is dropped (`commands_answer_iff`).

A read returns the result of `copy_to_user`, which is the number of the bytes that were not copied,
where the comment before it promises the number of the bytes that were read (`read_contract_iff`).
-/

namespace SyscallsMon

open GuardedRun

variable {N : SyscallNumbers} {m t : Monitor} {r : Reader} {pid c : ℤ} {p : Proc} {arg1 arg2 : ℕ}

namespace Monitor

/-! ## Commands -/

/-- The process that a command is about, if it is about one. -/
def target (r : Reader) (argument2 : ℤ) : ℕ → Option ℤ
  | 0 => some argument2
  | 2 => some r.procMonitored
  | _ => none

/-- The change that a command asks for has been made. -/
def ChangeMade (N : SyscallNumbers) (m : Monitor) (r : Reader) (argument2 : ℤ) (t : Monitor) :
    ℕ → Prop
  | 0 => ∃ r', t.reader = some r' ∧ r'.procMonitored = argument2
  | 1 => ∃ r', t.reader = some r' ∧ r'.syscMonitored = argument2
  | 2 => ∃ p, t.proc r.procMonitored = some p ∧ p.record = .reset r.procMonitored
  | 3 => ∀ pid p, t.proc pid = some p → p.record = .reset pid
  | 4 => ∀ k : CallId, argument2 < 0 ∨ argument2 = k →
      t.sysCallTable (N.localToSysIndex k) = m.sysCallTableLocal k
  | 5 => ∀ k : CallId, argument2 < 0 ∨ argument2 = k →
      t.sysCallTable (N.localToSysIndex k) = m.sysCallTableOriginal k
  | _ => False

/-- How a command should end: with a result; a negative one and no process changed if the process
that it is about does not exist; and 0 only if the change was made. -/
def Answers (N : SyscallNumbers) (m : Monitor) (r : Reader) (arg1 : ℕ) (argument2 : ℤ)
    (result : Except Stop (ℤ × Monitor)) : Prop :=
  ∃ x t, result = .ok (x, t) ∧
    (∀ pid, target r argument2 arg1 = some pid → m.findTaskByPid pid = none →
      x < 0 ∧ t.proc = m.proc) ∧
    (x = 0 → ChangeMade N m r argument2 t arg1)

/-- A refused command. -/
lemma Answers.refused {x : ℤ} (hx : x < 0) (ht : t.proc = m.proc) :
    Answers N m r arg1 c (.ok (x, t)) :=
  ⟨x, t, rfl, fun _ _ _ => ⟨hx, ht⟩, fun h => absurd h hx.ne⟩

/-- A command that made the change, about a process that exists if it is about one. -/
lemma Answers.made (hfound : ∀ pid, target r c arg1 = some pid → m.findTaskByPid pid ≠ none)
    (hmade : ChangeMade N m r c t arg1) : Answers N m r arg1 c (.ok (0, t)) :=
  ⟨0, t, rfl, fun pid hpid hnone => absurd hnone (hfound pid hpid), fun _ => hmade⟩

lemma target_of_ne (h0 : arg1 ≠ 0) (h2 : arg1 ≠ 2) (r : Reader) (c : ℤ) :
    target r c arg1 = none := by
  unfold target
  split
  · exact absurd rfl h0
  · exact absurd rfl h2
  · rfl

lemma Answers.made_of_ne (h0 : arg1 ≠ 0) (h2 : arg1 ≠ 2) (hmade : ChangeMade N m r c t arg1) :
    Answers N m r arg1 c (.ok (0, t)) := by
  refine .made (fun pid hpid => ?_) hmade
  rw [target_of_ne h0 h2] at hpid
  cases hpid

lemma changeProcess_answers (N : SyscallNumbers) (m : Monitor) (r : Reader) (c : ℤ) :
    Answers N m r 0 c (.ok (m.changeProcess r c)) := by
  by_cases hneg : c < 0
  · rw [changeProcess, if_pos hneg]
    exact .refused (by decide) rfl
  · rw [changeProcess, if_neg hneg]
    cases hp : m.findTaskByPid c with
    | none => exact .refused (by decide) rfl
    | some p =>
      refine .made (fun pid hpid => ?_) ⟨_, rfl, rfl⟩
      obtain rfl : c = pid := Option.some.inj hpid
      rw [hp]
      exact Option.some_ne_none p

lemma changeSyscall_answers (N : SyscallNumbers) (m : Monitor) (r : Reader) (c : ℤ) :
    Answers N m r 1 c (.ok (m.changeSyscall r c)) := by
  by_cases hc : c < 0 ∨ c ≥ nCalls
  · rw [changeSyscall, if_pos hc]
    exact .refused (by decide) rfl
  · rw [changeSyscall, if_neg hc]
    exact .made_of_ne (by decide) (by decide) ⟨_, rfl, rfl⟩

lemma completeReset_answers (N : SyscallNumbers) (m : Monitor) (r : Reader) (c : ℤ) :
    Answers N m r 3 c (.ok (0, m.completeReset)) := by
  refine .made_of_ne (by decide) (by decide) fun pid p hp => ?_
  obtain ⟨q, -, rfl⟩ := Option.map_eq_some_iff.mp hp
  rfl

/-- An accepted argument of `ENABLE_SYS_CALL` and `DISABLE_SYS_CALL`: the entries of the calls that
it is about are written with `v`. -/
lemma forCalls_entry {f : Monitor → CallId → Monitor} {v : CallId → Entry} (hc : ¬ c ≥ nCalls)
    (hf : ∀ ks : List CallId, (ks.foldl f m).sysCallTable =
      ks.foldl (fun T k => Function.update T (N.localToSysIndex k) (v k)) m.sysCallTable)
    {k : CallId} (hk : c < 0 ∨ c = k) :
    (forCalls f m c).2.sysCallTable (N.localToSysIndex k) = v k := by
  obtain ⟨ks, hks, hmem⟩ := forCalls_eq f m (not_le.mp hc)
  rw [hks, hf ks]
  exact (foldl_update_entries v m.sysCallTable ks).1 k ((hmem k).mpr hk)

lemma activate_answers (N : SyscallNumbers) (m : Monitor) (r : Reader) (c : ℤ) :
    Answers N m r 4 c
      (if c ≥ nCalls then .ok (-eInval, m) else .ok (0, (activateSyscallMon N m c).2)) := by
  by_cases hc : c ≥ nCalls
  · rw [if_pos hc]
    exact .refused (by decide) rfl
  · rw [if_neg hc]
    exact .made_of_ne (by decide) (by decide)
      fun k hk => forCalls_entry hc (fun ks => (foldl_setMon ks m).1) hk

lemma deactivate_answers (N : SyscallNumbers) (m : Monitor) (r : Reader) (c : ℤ) :
    Answers N m r 5 c
      (if c ≥ nCalls then .ok (-eInval, m) else .ok (0, (deactivateSyscallMon N m c).2)) := by
  by_cases hc : c ≥ nCalls
  · rw [if_pos hc]
    exact .refused (by decide) rfl
  · rw [if_neg hc]
    exact .made_of_ne (by decide) (by decide)
      fun k hk => forCalls_entry hc (fun ks => (foldl_unsetMon ks m).1) hk

/-- `RESET_VALUES` is the command that needs its process to be there. -/
lemma resetValues_answers_iff (N : SyscallNumbers) (m : Monitor) (r : Reader) (c : ℤ)
    (hneg : ∀ pid, pid < 0 → m.findTaskByPid pid = none) :
    Answers N m r 2 c ((m.resetValues r.procMonitored).map fun x => (0, x.2)) ↔
      m.findTaskByPid r.procMonitored ≠ none := by
  by_cases hpid : r.procMonitored < 0
  · -- the error is dropped, and 0 returned
    rw [resetValues, if_pos hpid]
    refine iff_of_false ?_ (not_not.mpr (hneg _ hpid))
    rintro ⟨x, t, hx, hgone, -⟩
    obtain ⟨rfl, -⟩ : 0 = x ∧ m = t := by simpa [Except.map] using hx
    exact absurd (hgone _ rfl (hneg _ hpid)).1 (lt_irrefl 0)
  · rw [resetValues, if_neg hpid]
    cases hp : m.findTaskByPid r.procMonitored with
    | none =>
      refine iff_of_false ?_ (not_not.mpr rfl)
      rintro ⟨x, t, hx, -⟩
      cases hx
    | some p =>
      refine iff_of_true (.made (fun pid h => ?_) ⟨_, Function.update_self .., rfl⟩)
        (Option.some_ne_none p)
      obtain rfl : r.procMonitored = pid := Option.some.inj h
      rw [hp]
      exact Option.some_ne_none p

lemma command_answers_iff (N : SyscallNumbers) (m : Monitor) (r : Reader) (arg1 : ℕ) (c : ℤ)
    (hneg : ∀ pid, pid < 0 → m.findTaskByPid pid = none) :
    Answers N m r arg1 c (m.command N r arg1 c) ↔
      (arg1 = 2 → m.findTaskByPid r.procMonitored ≠ none) := by
  have hrest : ∀ {a : ℕ} {result : Except Stop (ℤ × Monitor)}, a ≠ 2 → Answers N m r a c result →
      (Answers N m r a c result ↔ (a = 2 → m.findTaskByPid r.procMonitored ≠ none)) :=
    fun h2 h => iff_of_true h fun h' => absurd h' h2
  match arg1 with
  | 0 => exact hrest (by decide) (m.changeProcess_answers N r c)
  | 1 => exact hrest (by decide) (m.changeSyscall_answers N r c)
  | 2 => exact (m.resetValues_answers_iff N r c hneg).trans ⟨fun h _ => h, fun h => h rfl⟩
  | 3 => exact hrest (by decide) (m.completeReset_answers N r c)
  | 4 => exact hrest (by decide) (m.activate_answers N r c)
  | 5 => exact hrest (by decide) (m.deactivate_answers N r c)
  | n + 6 => exact hrest (by omega) (.refused (by decide) rfl)

end Monitor

/-- **Commands and dead processes.**  Whatever the processes, the variables of the reader and the
arguments of `ioctl`: the command does not dereference a task that was not found, fails without a
change to any process when its process does not exist, and returns 0 only for a change that was
made, just when it is not a `RESET_VALUES` for a process that does not exist. -/
theorem commands_answer_iff (N : SyscallNumbers) (m : Monitor) (r : Reader) (arg1 arg2 : ℕ)
    (hneg : ∀ pid, pid < 0 → m.findTaskByPid pid = none) :
    Monitor.Answers N m r arg1 (Monitor.signedInt arg2) (m.readstatsIoctlDev N r arg1 arg2) ↔
      (arg1 = 2 → m.findTaskByPid r.procMonitored ≠ none) :=
  m.command_answers_iff N r arg1 (Monitor.signedInt arg2) hneg

lemma twoProcs_pid_neg (hpid : pid < 0) : twoProcs.insmod.findTaskByPid pid = none := by
  have hne : ¬ (pid = 1 ∨ pid = 2) := by omega
  have hproc : twoProcs.proc pid = none := if_neg hne
  exact Option.map_eq_none_iff.mpr hproc

/-- `commands_answer_iff` for `CHANGE_PROCESS` to a process that does not exist. -/
theorem commands_answer_iff_change_process :
    Monitor.Answers i386 twoProcs.insmod ⟨1, 2, 2, 0⟩ 0 (Monitor.signedInt 3)
        (twoProcs.insmod.readstatsIoctlDev i386 ⟨1, 2, 2, 0⟩ 0 3) ↔
      (0 = 2 → twoProcs.insmod.findTaskByPid 2 ≠ none) :=
  commands_answer_iff i386 twoProcs.insmod ⟨1, 2, 2, 0⟩ 0 3 fun _ => twoProcs_pid_neg

/-- Process 1 is monitored and ends, and its statistics are reset. -/
theorem reset_of_dead_process_oops :
    ∃ m₀ t r, twoProcs.insmod.syscallsMonInit i386 = .ok m₀ ∧
      Run (Monitor.step i386) (fun _ _ => True) m₀
        [.driverInit, .call 2 callOpen 0, .openDev 2 0, .ret 2 3 0, .ioctl 0 1, .exit 1] t ∧
      t.reader = some r ∧ t.readstatsIoctlDev i386 r 2 0 = .error .oops ∧
      ¬ Monitor.Answers i386 t r 2 (Monitor.signedInt 0) (t.readstatsIoctlDev i386 r 2 0) := by
  refine ⟨_, _, _, rfl, .cons trivial rfl (.cons trivial rfl (.cons trivial rfl (.cons trivial rfl
    (.cons trivial rfl (.cons trivial rfl (.nil _)))))), rfl, rfl, ?_⟩
  rintro ⟨x, t, hx, -⟩
  cases hx

/-! ## Reads -/

/-- `sizeof(struct t_info)`. -/
abbrev tInfoSize : ℕ := 20

/-- What a read promises: a negative error if the process does not exist or some bytes were not
copied, and otherwise as many leading bytes of the statistics as were asked for, and their
number. -/
structure Monitor.ReadContract (m : Monitor) (r : Reader) (call : Fin (nCalls + 1))
    (s uncopied : ℕ) : Prop where
  error : m.findTaskByPid r.procMonitored = none ∨ 0 < uncopied →
    (m.readstatsReadDev r s uncopied).1 < 0
  read : ∀ p, m.findTaskByPid r.procMonitored = some p → uncopied = 0 →
    m.readstatsReadDev r s uncopied =
      (↑(min s tInfoSize), (p.record.stats call).bytes.take (min s tInfoSize))

lemma Monitor.getStats_none (call : Fin (nCalls + 1)) (h : m.findTaskByPid pid = none) :
    ∃ e, e < 0 ∧ m.getStats pid call = .error e := by
  have hcall : ¬ ((call : ℤ) < 0 ∨ (call : ℤ) > nCalls) := by omega
  rw [getStats, dif_neg hcall]
  by_cases hpid : pid < 0
  · exact ⟨_, by decide, if_pos hpid⟩
  · rw [if_neg hpid, h]
    exact ⟨_, by decide, rfl⟩

lemma Monitor.getStats_some (call : Fin (nCalls + 1)) (hpid : 0 ≤ pid)
    (h : m.findTaskByPid pid = some p) :
    m.getStats pid call = .ok (p.record.stats call) := by
  have hcall : ¬ ((call : ℤ) < 0 ∨ (call : ℤ) > nCalls) := by omega
  rw [getStats, dif_neg hcall, if_neg (not_lt.mpr hpid), h]
  rfl

/-- **The read contract.**  Whatever the size asked for, the process, its call and the number of
bytes that `copy_to_user` does not copy: the read keeps its contract just when the process does not
exist or no byte is asked for. -/
theorem read_contract_iff (m : Monitor) (r : Reader) (call : Fin (nCalls + 1)) (s uncopied : ℕ)
    (hneg : ∀ pid, pid < 0 → m.findTaskByPid pid = none) (hcall : r.syscMonitored = call)
    (hun : uncopied ≤ min s tInfoSize) :
    m.ReadContract r call s uncopied ↔ m.findTaskByPid r.procMonitored = none ∨ s = 0 := by
  cases hp : m.findTaskByPid r.procMonitored with
  | none =>
    obtain ⟨e, he, hget⟩ := m.getStats_none call hp
    refine iff_of_true ⟨fun _ => ?_, fun p h => ?_⟩ (.inl rfl)
    · rw [Monitor.readstatsReadDev, hcall, hget]
      exact he
    · rw [hp] at h
      cases h
  | some p =>
    have hpid : 0 ≤ r.procMonitored := by
      by_contra hlt
      rw [hneg _ (not_le.mp hlt)] at hp
      cases hp
    have hread : m.readstatsReadDev r s uncopied =
        (↑uncopied, (p.record.stats call).bytes.take (min s tInfoSize - uncopied)) := by
      rw [Monitor.readstatsReadDev, hcall, m.getStats_some call hpid hp]
      have hmin : (if s < tInfoSize then s else tInfoSize) = min s tInfoSize := by
        split <;> omega
      simp only [Monitor.TInfo.bytes_length]
      rw [hmin]
    rw [or_iff_right (Option.some_ne_none p)]
    constructor
    · rintro ⟨herror, hok⟩
      rcases Nat.eq_zero_or_pos uncopied with rfl | hpos
      · -- 0 is returned for what was read
        have hresult := congrArg Prod.fst (hread.symm.trans (hok p hp rfl))
        have hzero : 0 = min s tInfoSize := Int.ofNat.inj hresult
        exact (Nat.min_eq_zero_iff.mp hzero.symm).resolve_right (by decide)
      · have := herror (.inr hpos)
        rw [hread] at this
        exact absurd this (not_lt.mpr (Int.natCast_nonneg uncopied))
    · rintro rfl
      obtain rfl : uncopied = 0 := Nat.le_zero.mp (hun.trans (min_le_left _ _))
      refine ⟨fun h => ?_, fun q hq _ => ?_⟩
      · rcases h with h | h
        · rw [hp] at h
          cases h
        · exact absurd h (lt_irrefl 0)
      · rw [hread]
        rfl

/-- A read of 20 bytes keeps its contract for a process that does not exist, and breaks it for one
that does. -/
theorem read_contract_iff_of_all :
    twoProcs.insmod.ReadContract ⟨1, 2, 3, 0⟩ 0 20 0 ∧
      ¬ twoProcs.insmod.ReadContract ⟨1, 2, 2, 0⟩ 0 20 0 := by
  constructor
  · exact (read_contract_iff twoProcs.insmod ⟨1, 2, 3, 0⟩ 0 20 0 (fun _ => twoProcs_pid_neg) rfl
      (by decide)).mpr (.inl rfl)
  · intro h
    exact absurd ((read_contract_iff twoProcs.insmod ⟨1, 2, 2, 0⟩ 0 20 0 (fun _ => twoProcs_pid_neg)
      rfl (by decide)).mp h) (by decide)

/-- A read of a whole `struct t_info`, all of it copied, returns 0. -/
theorem read_of_all_returns_zero :
    ∃ m₀ t r, twoProcs.insmod.syscallsMonInit i386 = .ok m₀ ∧
      Run (Monitor.step i386) (fun _ _ => True) m₀
        [.driverInit, .call 2 callOpen 0, .openDev 2 0, .ret 2 3 0] t ∧
      t.reader = some r ∧ (t.readstatsReadDev r 20 0).1 = 0 ∧
      ¬ t.ReadContract r 0 20 0 := by
  refine ⟨_, _, _, rfl, .cons trivial rfl (.cons trivial rfl (.cons trivial rfl (.cons trivial rfl
    (.nil _)))), rfl, rfl, ?_⟩
  intro h
  have hresult := congrArg Prod.fst (h.read _ rfl rfl)
  revert hresult
  decide

end SyscallsMon
