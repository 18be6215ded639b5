import ZeOS.Monitor.Steps
import Mathlib.Tactic.FinCases

/-!
# The system call table

While the monitor is loaded an entry of the five is the saved original or the wrapper, by the last
command that was about it, and every other entry is as it was.  The saved entries are the kernel's
own, so that `syscalls_mon_exit` puts the whole table back (`call_table_restored`).
-/

namespace SyscallsMon

open GuardedRun

variable {N : SyscallNumbers} {M : Machine} {m t : Monitor} {e : Event} {on : CallId → Bool}

/-! ## Commands about the table -/

/-- What a command says about a call: an accepted `ENABLE_SYS_CALL` that it should be monitored, an
accepted `DISABLE_SYS_CALL` that it should not be.  A negative argument is about every call. -/
def commandSetting (k : CallId) (arg1 : ℕ) (argument2 : ℤ) : Option Bool :=
  if argument2 < 0 ∨ argument2 = k.val then
    if arg1 = 4 then some true else if arg1 = 5 then some false else none
  else none

/-- What an event says about a call. -/
def Event.setting (k : CallId) : Event → Option Bool
  | .ioctl arg1 arg2 => commandSetting k arg1 (Monitor.signedInt arg2)
  | _ => none

/-- Whether a call is to be monitored after some events: what the last one that says something
about it says, and yes if there is none. -/
def lastSetting (es : List Event) (k : CallId) : Bool :=
  (es.reverse.findSome? (Event.setting k)).getD true

lemma lastSetting_eq_foldl {α β : Type} (f : α → Option β) (es : List α) (b : β) :
    (es.reverse.findSome? f).getD b = es.foldl (fun b e => (f e).getD b) b := by
  induction es generalizing b with
  | nil => rfl
  | cons e es ih =>
    rw [List.reverse_cons, List.findSome?_append, List.foldl_cons, ← ih]
    cases hfs : es.reverse.findSome? f with
    | some x => rfl
    | none =>
      rw [List.findSome?_singleton]
      rfl

/-! ## The table -/

/-- The table holds the wrappers of the calls that are monitored and is otherwise the one of the
kernel; the two tables of the module hold the kernel's entries and the wrappers. -/
structure TableIs (N : SyscallNumbers) (M : Machine) (m : Monitor) (on : CallId → Bool) : Prop where
  entry : ∀ k, m.sysCallTable (N.localToSysIndex k) =
    if on k then .wrapper ⟨k⟩ else .kernel (M.sysCallTable (N.localToSysIndex k))
  other : ∀ n, (∀ k, n ≠ N.localToSysIndex k) → m.sysCallTable n = .kernel (M.sysCallTable n)
  original : ∀ k, m.sysCallTableOriginal k = .kernel (M.sysCallTable (N.localToSysIndex k))
  wrapper : ∀ k, m.sysCallTableLocal k = .wrapper ⟨k⟩

lemma SyscallNumbers.localToSysIndex_injective (N : SyscallNumbers) :
    Function.Injective N.localToSysIndex :=
  List.nodup_ofFn.mp (by simpa [List.ofFn_succ, localToSysIndex] using N.distinct)

/-- The loop over the calls writes the five entries and no other. -/
lemma foldl_update_entries (v : CallId → Entry) (T : ℕ → Entry) (ks : List CallId) :
    (∀ k ∈ ks, ks.foldl (fun T k => Function.update T (N.localToSysIndex k) (v k)) T
      (N.localToSysIndex k) = v k) ∧
    ∀ n, (∀ k ∈ ks, n ≠ N.localToSysIndex k) →
      ks.foldl (fun T k => Function.update T (N.localToSysIndex k) (v k)) T n = T n := by
  induction ks generalizing T with
  | nil => exact ⟨fun k hk => absurd hk (List.not_mem_nil), fun n _ => rfl⟩
  | cons j ks ih =>
    obtain ⟨hin, hout⟩ := ih (Function.update T (N.localToSysIndex j) (v j))
    constructor
    · intro k hk
      rw [List.foldl_cons]
      by_cases hmem : k ∈ ks
      · exact hin k hmem
      · obtain rfl : k = j := (List.mem_cons.mp hk).resolve_right hmem
        rw [hout _ fun i hi h => hmem (by rw [N.localToSysIndex_injective h]; exact hi),
          Function.update_self]
    · intro n hn
      rw [List.foldl_cons, hout n fun k hk => hn k (List.mem_cons_of_mem j hk),
        Function.update_of_ne (hn j List.mem_cons_self)]

/-- The entries of some of the five calls are written. -/
lemma TableIs.write (h : TableIs N M m on) (ks : List CallId) (v : CallId → Entry)
    (on' : CallId → Bool)
    (hv : ∀ k ∈ ks, v k =
      if on' k then .wrapper ⟨k⟩ else .kernel (M.sysCallTable (N.localToSysIndex k)))
    (hon : ∀ k, k ∉ ks → on' k = on k)
    (ht : t.sysCallTable =
      ks.foldl (fun T k => Function.update T (N.localToSysIndex k) (v k)) m.sysCallTable)
    (ho : t.sysCallTableOriginal = m.sysCallTableOriginal)
    (hl : t.sysCallTableLocal = m.sysCallTableLocal) : TableIs N M t on' := by
  obtain ⟨hin, hout⟩ := foldl_update_entries (N := N) v m.sysCallTable ks
  constructor
  · intro k
    by_cases hk : k ∈ ks
    · rw [ht, hin k hk, hv k hk]
    · rw [ht, hout _ fun j hj hc => hk (by rw [N.localToSysIndex_injective hc]; exact hj), hon k hk]
      exact h.entry k
  · intro n hn
    rw [ht, hout n fun k _ => hn k]
    exact h.other n hn
  · rw [ho]
    exact h.original
  · rw [hl]
    exact h.wrapper

namespace Monitor

lemma foldl_setMon (ks : List CallId) (m : Monitor) :
    (ks.foldl (fun m k => m.setMonOnSyscall N k) m).sysCallTable =
      ks.foldl (fun T k => Function.update T (N.localToSysIndex k) (m.sysCallTableLocal k))
        m.sysCallTable ∧
    (ks.foldl (fun m k => m.setMonOnSyscall N k) m).sysCallTableOriginal = m.sysCallTableOriginal ∧
    (ks.foldl (fun m k => m.setMonOnSyscall N k) m).sysCallTableLocal = m.sysCallTableLocal := by
  induction ks generalizing m with
  | nil => exact ⟨rfl, rfl, rfl⟩
  | cons k ks ih => exact ih (m.setMonOnSyscall N k)

lemma foldl_unsetMon (ks : List CallId) (m : Monitor) :
    (ks.foldl (fun m k => m.unsetMonOnSyscall N k) m).sysCallTable =
      ks.foldl (fun T k => Function.update T (N.localToSysIndex k) (m.sysCallTableOriginal k))
        m.sysCallTable ∧
    (ks.foldl (fun m k => m.unsetMonOnSyscall N k) m).sysCallTableOriginal =
      m.sysCallTableOriginal ∧
    (ks.foldl (fun m k => m.unsetMonOnSyscall N k) m).sysCallTableLocal = m.sysCallTableLocal := by
  induction ks generalizing m with
  | nil => exact ⟨rfl, rfl, rfl⟩
  | cons k ks ih => exact ih (m.unsetMonOnSyscall N k)

/-- An accepted argument is about a list of calls. -/
lemma forCalls_eq (f : Monitor → CallId → Monitor) (m : Monitor) {c : ℤ} (hc : c < nCalls) :
    ∃ ks : List CallId, (forCalls f m c).2 = ks.foldl f m ∧
      ∀ k : CallId, k ∈ ks ↔ c < 0 ∨ c = k.val := by
  unfold forCalls
  rw [dif_neg (not_le.mpr hc)]
  by_cases hneg : c < 0
  · rw [dif_neg (by omega)]
    exact ⟨_, rfl, fun k => iff_of_true (List.mem_finRange k) (.inl hneg)⟩
  · have hlt : c.toNat < nCalls := (Int.toNat_lt (not_lt.mp hneg)).mpr hc
    rw [dif_pos (by omega)]
    refine ⟨[⟨c.toNat, hlt⟩], rfl, fun k => ?_⟩
    rw [List.mem_singleton, Fin.ext_iff]
    change k.val = c.toNat ↔ _
    omega

end Monitor

lemma TableIs.activate (h : TableIs N M m on) {c : ℤ} (hc : c < nCalls) :
    TableIs N M (Monitor.activateSyscallMon N m c).2
      fun k => (commandSetting k 4 c).getD (on k) := by
  obtain ⟨ks, hks, hmem⟩ := Monitor.forCalls_eq (fun m k => m.setMonOnSyscall N k) m hc
  obtain ⟨ht, ho, hl⟩ := Monitor.foldl_setMon (N := N) ks m
  rw [Monitor.activateSyscallMon, hks]
  refine h.write ks m.sysCallTableLocal _ (fun k hk => ?_) (fun k hk => ?_) ht ho hl
  · rw [commandSetting, if_pos ((hmem k).mp hk)]
    exact h.wrapper k
  · rw [commandSetting, if_neg (mt (hmem k).mpr hk), Option.getD_none]

lemma TableIs.deactivate (h : TableIs N M m on) {c : ℤ} (hc : c < nCalls) :
    TableIs N M (Monitor.deactivateSyscallMon N m c).2
      fun k => (commandSetting k 5 c).getD (on k) := by
  obtain ⟨ks, hks, hmem⟩ := Monitor.forCalls_eq (fun m k => m.unsetMonOnSyscall N k) m hc
  obtain ⟨ht, ho, hl⟩ := Monitor.foldl_unsetMon (N := N) ks m
  rw [Monitor.deactivateSyscallMon, hks]
  refine h.write ks m.sysCallTableOriginal _ (fun k hk => ?_) (fun k hk => ?_) ht ho hl
  · rw [commandSetting, if_pos ((hmem k).mp hk)]
    exact h.original k
  · rw [commandSetting, if_neg (mt (hmem k).mpr hk), Option.getD_none]

/-- An argument that is not accepted is about no call. -/
lemma commandSetting_of_le {c : ℤ} (hc : nCalls ≤ c) (k : CallId) (arg1 : ℕ) :
    commandSetting k arg1 c = none := by
  have hk : (k.val : ℤ) < nCalls := by exact_mod_cast k.isLt
  exact if_neg (by omega)

/-- The other commands are about no call. -/
lemma commandSetting_of_ne {arg1 : ℕ} (h4 : arg1 ≠ 4) (h5 : arg1 ≠ 5) (k : CallId) (c : ℤ) :
    commandSetting k arg1 c = none := by
  rw [commandSetting, if_neg h4, if_neg h5, ite_self]

/-- A monitor with the same tables. -/
lemma TableIs.congr (h : TableIs N M m on) (ht : t.sysCallTable = m.sysCallTable)
    (ho : t.sysCallTableOriginal = m.sysCallTableOriginal)
    (hl : t.sysCallTableLocal = m.sysCallTableLocal) : TableIs N M t on :=
  h.write [] (fun _ => .kernel 0) on (fun _ hk => absurd hk List.not_mem_nil) (fun _ _ => rfl)
    ht ho hl

/-! ## Runs -/

/-- A command does to the table what it says. -/
lemma TableIs.command {r : Reader} {arg1 : ℕ} {c : ℤ} {x : ℤ × Monitor} (h : TableIs N M m on)
    (hx : m.command N r arg1 c = .ok x) :
    TableIs N M x.2 fun k => (commandSetting k arg1 c).getD (on k) := by
  have hnone : (∀ k, commandSetting k arg1 c = none) →
      (fun k => (commandSetting k arg1 c).getD (on k)) = on := by
    intro hk
    funext k
    rw [hk k, Option.getD_none]
  unfold Monitor.command at hx
  split at hx
  · obtain rfl := Except.ok.inj hx
    rw [hnone (commandSetting_of_ne (by decide) (by decide) · c)]
    refine h.congr ?_ ?_ ?_ <;>
    · unfold Monitor.changeProcess
      split
      · rfl
      · split <;> rfl
  · obtain rfl := Except.ok.inj hx
    rw [hnone (commandSetting_of_ne (by decide) (by decide) · c)]
    refine h.congr ?_ ?_ ?_ <;>
    · unfold Monitor.changeSyscall
      split <;> rfl
  · rw [hnone (commandSetting_of_ne (by decide) (by decide) · c)]
    cases hv : m.resetValues r.procMonitored with
    | error => rw [hv] at hx; cases hx
    | ok y =>
      rw [hv] at hx
      cases hx
      obtain ⟨-, hy⟩ | ⟨p, -, -, hy⟩ := Monitor.resetValues_ok hv
      · exact h.congr (by rw [hy]) (by rw [hy]) (by rw [hy])
      · exact h.congr (by rw [hy]; rfl) (by rw [hy]; rfl) (by rw [hy]; rfl)
  · obtain rfl := Except.ok.inj hx
    rw [hnone (commandSetting_of_ne (by decide) (by decide) · c)]
    exact h.congr rfl rfl rfl
  · split at hx
    · rename_i hc
      obtain rfl := Except.ok.inj hx
      rw [hnone (commandSetting_of_le hc · 4)]
      exact h
    · rename_i hc
      obtain rfl := Except.ok.inj hx
      exact h.activate (not_le.mp hc)
  · split at hx
    · rename_i hc
      obtain rfl := Except.ok.inj hx
      rw [hnone (commandSetting_of_le hc · 5)]
      exact h
    · rename_i hc
      obtain rfl := Except.ok.inj hx
      exact h.deactivate (not_le.mp hc)
  · rename_i h4 h5
    obtain rfl := Except.ok.inj hx
    rw [hnone (commandSetting_of_ne h4 h5 · c)]
    exact h

/-- Every event does to the table what it says. -/
lemma TableIs.step (h : TableIs N M m on) (hst : m.step N e = .ok t) :
    TableIs N M t fun k => (e.setting k).getD (on k) := by
  cases e with
  | create pid record =>
    obtain ⟨-, rfl⟩ := Monitor.create_effect hst
    exact h.congr rfl rfl rfl
  | exit pid =>
    obtain ⟨p, -, -, rfl⟩ := Monitor.exit_effect hst
    exact h.congr rfl rfl rfl
  | call pid k start =>
    obtain ⟨p, -, -, rfl | ⟨w, -, rfl⟩⟩ := Monitor.call_effect hst
    · exact h.congr rfl rfl rfl
    · exact h.congr rfl rfl rfl
  | ret pid result «end» =>
    obtain ⟨p, -, ⟨k, -, rfl⟩ | ⟨w, start, -, rfl⟩⟩ := Monitor.ret_effect hst
    · exact h.congr rfl rfl rfl
    · exact h.congr rfl rfl rfl
  | openDev pid uid =>
    obtain ⟨r, p, -, -, -, rfl⟩ := Monitor.openDev_effect hst
    refine h.congr ?_ ?_ ?_ <;>
    · unfold Monitor.readstatsOpenDev
      split
      · rfl
      · split <;> rfl
  | releaseDev =>
    obtain ⟨r, -, -, hf⟩ := Monitor.withDevice_ok hst
    cases hf
    refine h.congr ?_ ?_ ?_ <;>
    · unfold Monitor.readstatsReleaseDev
      split <;> rfl
  | readDev s uncopied =>
    obtain ⟨r, -, -, hf⟩ := Monitor.withDevice_ok hst
    cases hf
    exact h
  | ioctl arg1 arg2 =>
    obtain ⟨r, x, -, -, hc⟩ := Monitor.ioctl_step hst
    exact h.command hc
  | driverInit =>
    simp only [Monitor.step] at hst
    split at hst
    · cases hst
      exact h.congr rfl rfl rfl
    · cases hst
  | driverExit =>
    simp only [Monitor.step] at hst
    split at hst
    · split at hst
      · cases hst
        exact h.congr rfl rfl rfl
      · cases hst
    · cases hst

lemma tableIs_init {m₀ : Monitor} (h : M.insmod.syscallsMonInit N = .ok m₀) :
    TableIs N M m₀ fun _ => true := by
  obtain ⟨a, p, -, rfl⟩ := Monitor.syscallsMonInit_ok h
  have hlocal : ∀ k, (M.insmod.initTables N).sysCallTableLocal k = .wrapper ⟨k⟩ := by
    intro k
    fin_cases k <;> rfl
  have horig : ∀ k, (M.insmod.initTables N).sysCallTableOriginal k =
      .kernel (M.sysCallTable (N.localToSysIndex k)) := by
    intro k
    fin_cases k <;> rfl
  -- the writes of `syscalls_mon_init` are those of the loop over the calls
  have htable : (M.insmod.initTables N).sysCallTable = (List.finRange nCalls).foldl
      (fun T k => Function.update T (N.localToSysIndex k)
        ((M.insmod.initTables N).sysCallTableLocal k)) M.insmod.sysCallTable := rfl
  obtain ⟨hin, hout⟩ := foldl_update_entries (N := N)
    (M.insmod.initTables N).sysCallTableLocal M.insmod.sysCallTable (List.finRange nCalls)
  constructor
  · intro k
    rw [if_pos rfl, ← hlocal k]
    exact (congrFun htable _).trans (hin k (List.mem_finRange k))
  · intro n hn
    exact (congrFun htable n).trans (hout n fun k _ => hn k)
  · exact horig
  · exact hlocal

/-- `syscalls_mon_exit` puts the table back. -/
lemma TableIs.exit (h : TableIs N M m on) :
    (m.syscallsMonExit N).sysCallTable = fun n => .kernel (M.sysCallTable n) := by
  have htable : (m.syscallsMonExit N).sysCallTable = (List.finRange nCalls).foldl
      (fun T k => Function.update T (N.localToSysIndex k) (m.sysCallTableOriginal k))
      m.sysCallTable := rfl
  obtain ⟨hin, hout⟩ := foldl_update_entries (N := N) m.sysCallTableOriginal m.sysCallTable
    (List.finRange nCalls)
  funext n
  rw [htable]
  by_cases hn : ∃ k, n = N.localToSysIndex k
  · obtain ⟨k, rfl⟩ := hn
    rw [hin k (List.mem_finRange k), h.original]
  · rw [hout n fun k _ hk => hn ⟨k, hk⟩]
    exact h.other n fun k hk => hn ⟨k, hk⟩

lemma TableIs.run {m₀ : Monitor} {es : List Event}
    (hrun : Run (Monitor.step N) (fun _ _ => True) m₀ es m) (h : TableIs N M m₀ on) :
    TableIs N M m fun k => es.foldl (fun b e => (e.setting k).getD b) (on k) := by
  induction hrun generalizing on with
  | nil => exact h
  | cons _ hst _ ih => exact ih (h.step hst)

/-- **The system call table is restored.**  In every state of every run of the machine: an entry of
the five is the wrapper or the saved original, by the last accepted command that was about it; the
saved originals are the kernel's own entries, and never a wrapper; no other entry is changed; a
rejected command changes nothing; and `syscalls_mon_exit` leaves the table that the monitor found. -/
theorem call_table_restored (N : SyscallNumbers) (M : Machine) (m₀ m : Monitor) (es : List Event)
    (hload : M.insmod.syscallsMonInit N = .ok m₀)
    (hrun : Run (Monitor.step N) (fun _ _ => True) m₀ es m) :
    (∀ k, m.sysCallTable (N.localToSysIndex k) =
        if lastSetting es k then .wrapper ⟨k⟩ else m.sysCallTableOriginal k) ∧
      (∀ k, m.sysCallTableOriginal k = .kernel (M.sysCallTable (N.localToSysIndex k))) ∧
      (∀ n, (∀ k, n ≠ N.localToSysIndex k) → m.sysCallTable n = .kernel (M.sysCallTable n)) ∧
      (∀ r arg1 arg2 x t, arg1 = 4 ∨ arg1 = 5 →
        m.readstatsIoctlDev N r arg1 arg2 = .ok (x, t) → x < 0 → t = m) ∧
      (m.syscallsMonExit N).sysCallTable = fun n => .kernel (M.sysCallTable n) := by
  have h := TableIs.run hrun (tableIs_init hload)
  refine ⟨fun k => ?_, h.original, h.other, ?_, h.exit⟩
  · rw [h.entry k, h.original k, lastSetting, lastSetting_eq_foldl]
  · rintro r arg1 arg2 x t harg hx hneg
    change m.command N r arg1 (Monitor.signedInt arg2) = .ok (x, t) at hx
    generalize Monitor.signedInt arg2 = c at hx
    obtain rfl | rfl := harg
    · simp only [Monitor.command] at hx
      split at hx
      · exact (congrArg Prod.snd (Except.ok.inj hx)).symm
      · obtain rfl : (0 : ℤ) = x := congrArg Prod.fst (Except.ok.inj hx)
        exact absurd hneg (lt_irrefl 0)
    · simp only [Monitor.command] at hx
      split at hx
      · exact (congrArg Prod.snd (Except.ok.inj hx)).symm
      · obtain rfl : (0 : ℤ) = x := congrArg Prod.fst (Except.ok.inj hx)
        exact absurd hneg (lt_irrefl 0)

theorem call_table_restored_after_disable :
    ∃ m₀ m, twoProcs.insmod.syscallsMonInit i386 = .ok m₀ ∧
      Run (Monitor.step i386) (fun _ _ => True) m₀
        [.driverInit, .call 2 callOpen 0, .openDev 2 0, .ioctl 5 2] m ∧
      m.sysCallTable 4 = .kernel 4 ∧ m.sysCallTable 5 = .wrapper sysOpenLocal ∧
      (m.syscallsMonExit i386).sysCallTable = fun n => .kernel n := by
  refine ⟨_, _, rfl, .cons trivial rfl (.cons trivial rfl (.cons trivial rfl
    (.cons trivial rfl (.nil _)))), ?_⟩
  have h := call_table_restored i386 twoProcs _ _
    [.driverInit, .call 2 callOpen 0, .openDev 2 0, .ioctl 5 2] rfl
    (.cons trivial rfl (.cons trivial rfl (.cons trivial rfl (.cons trivial rfl (.nil _)))))
  exact ⟨h.1 callMyWrite, h.1 callOpen, h.2.2.2.2⟩

end SyscallsMon
