import ZeOS.Invariants.Boot
import ZeOS.Invariants.Counters

/-!
# What reaches the accounts and the saved registers

What the scheduler counts for a process is its account, and what the processor finds when it comes
back to a process is the top of its stack.  Between two states in which user code runs, an account
is touched by the clock, by `sys_nice`, by `sys_fork` for the child and by a change of process; the
saved registers of a process are touched by its own entry to the kernel and, only in the place of
`%eax`, by the results that the semaphores give to the processes that wait for them.

`Served` says this of the code that runs for one process, and composes.  A whole step is then
described by `Accounts`.
-/

namespace ZeOS

open IntrusiveList GuardedRun

/-! ## Results -/

/-- The error codes of each system call. -/
def Action.errors : Action → List ℤ
  | .write .. => [eBadf, eFbig, eInval, eFault, eNospc]
  | .read .. => [eBadf, eFbig, eInval, eFault, eNosys, ePerm]
  | .open .. => [eFault, eNametoolong, eNfile, eMfile, eInval, eNoent, eExist, eAcces]
  | .close _ => [eBadf]
  | .dup _ => [eBadf, eMfile]
  | .unlink .. => [eFault, eNametoolong, eNoent, eBusy]
  | .fork => [eAgain]
  | .semInit .. => [eInval, eBusy]
  | .semWait _ | .semDestroy _ => [ePerm, eInval]
  | .semSignal _ | .nice _ => [eInval]
  | .getStats .. => [eInval, eFault, eSrch]
  | .niSyscall => [eNosys]
  | .getpid | .exit _ | .clock | .key .. | .store .. | .pageFault => []

/-- What a system call returns: a number that is not negative, or the negative of one of its error
codes. -/
def Action.Returns (act : Action) (r : ℤ) : Prop := 0 ≤ r ∨ -r ∈ act.errors

/-- The system calls that return, except `sys_nice` and `sys_fork`, which change an account. -/
def PlainCall : Action → Prop
  | .nice _ | .fork | .exit _ | .clock | .key .. | .store .. | .pageFault => False
  | _ => True

/-- The result of such a call. -/
def CallResult (act : Action) (r : ℤ) : Prop := PlainCall act ∧ act.Returns r

/-- Code that gives the running process no result. -/
def NoResult (_ : ℤ) : Prop := False

lemma not_noResult : ¬ ∃ r, NoResult r := by
  rintro ⟨_, hr⟩
  exact hr

/-- What a process gets that waits for a semaphore: 0 from a signal, -1 from the end of the
semaphore. -/
def WakeResult (r : ℤ) : Prop := r = 0 ∨ r = -1

lemma Action.returns_of_nonneg {act : Action} {r : ℤ} (h : 0 ≤ r) : act.Returns r := .inl h

lemma Action.returns_neg {act : Action} {c : ℤ} (h : c ∈ act.errors) : act.Returns (-c) :=
  .inr (by rwa [neg_neg])

lemma WakeResult.returns {k r : ℤ} (h : WakeResult r) : (Action.semWait k).Returns r := by
  rcases h with rfl | rfl
  · exact Action.returns_of_nonneg le_rfl
  · exact Action.returns_neg (by simp [Action.errors])

lemma callResult_of_nonneg {act : Action} {r : ℤ} (hp : PlainCall act) (h : 0 ≤ r) :
    CallResult act r := ⟨hp, .inl h⟩

lemma callResult_neg {act : Action} {c : ℤ} (hp : PlainCall act) (h : c ∈ act.errors) :
    CallResult act (-c) := ⟨hp, Action.returns_neg h⟩

lemma callResult_eq_noResult {act : Action} (h : ¬ PlainCall act) : CallResult act = NoResult := by
  funext r
  exact eq_false fun hr => h hr.1

/-! ## Accounts -/

/-- What is counted for a process: its quantum, the ticks that it has had, what remains of its
quantum, and how often it was given the processor. -/
def Task.account (k : Task) : ℤ × ℤ × ℤ × ℤ := (k.quantum, k.cpuTics, k.remaining, k.transitions)

namespace Kernel

/-- The saved registers of `u` are the same, but for a result as in `R`. -/
def Answered (R : ℤ → Prop) (s t : Kernel) (u : Slot) : Prop :=
  ∃ r, R r ∧ (t.task u).stack = Function.update (s.task u).stack eaxIndex r

/-- `u` waits for a semaphore. -/
def WaitsForSem (s : Kernel) (u : Slot) : Prop := ∃ n, u ∈ s.waitList n

/-- The saved registers of `u` are the same, and a wait for a semaphore goes on. -/
def Undisturbed (s t : Kernel) (u : Slot) : Prop :=
  (t.task u).stack = (s.task u).stack ∧ (s.WaitsForSem u → t.WaitsForSem u)

lemma Undisturbed.refl (s : Kernel) (u : Slot) : Undisturbed s s u := ⟨rfl, id⟩

lemma Undisturbed.trans {s t v : Kernel} {u : Slot} (h : Undisturbed s t u)
    (h' : Undisturbed t v u) : Undisturbed s v u :=
  ⟨h'.1.trans h.1, fun hu => h'.2 (h.2 hu)⟩

lemma Undisturbed.answered {R : ℤ → Prop} {s t v : Kernel} {u : Slot} (h : Undisturbed s t u)
    (h' : Answered R t v u) : Answered R s v u := by
  obtain ⟨r, hr, hv⟩ := h'
  exact ⟨r, hr, by rw [hv, h.1]⟩

lemma Answered.undisturbed {R : ℤ → Prop} {s t v : Kernel} {u : Slot} (h : Answered R s t u)
    (h' : Undisturbed t v u) : Answered R s v u := by
  obtain ⟨r, hr, ht⟩ := h
  exact ⟨r, hr, h'.1.trans ht⟩

/-- The last answer stands. -/
lemma Answered.trans {R R' : ℤ → Prop} {s t v : Kernel} {u : Slot} (h : Answered R s t u)
    (h' : Answered R' t v u) : Answered R' s v u := by
  obtain ⟨r, -, ht⟩ := h
  obtain ⟨r', hr', hv⟩ := h'
  exact ⟨r', hr', by rw [hv, ht, Function.update_idem]⟩

/-- What code that runs for the process `s.cur` does: nobody's account changes, and in the saved
registers only results, of processes that wait for a semaphore and, as in `R`, of the running
process. -/
structure Served (R : ℤ → Prop) (s t : Kernel) : Prop where
  cur : t.cur = s.cur
  left : t.left4current = s.left4current
  account : ∀ u, (t.task u).account = (s.task u).account
  waits : ∀ u, t.WaitsForSem u → s.WaitsForSem u
  saved : ∀ u, Undisturbed s t u ∨ u = s.cur ∧ Answered R s t u ∨
    s.WaitsForSem u ∧ Answered WakeResult s t u

namespace Served

variable {R : ℤ → Prop} {s t v : Kernel}

lemma refl (s : Kernel) : Served R s s :=
  ⟨rfl, rfl, fun _ => rfl, fun _ => id, fun u => .inl (.refl s u)⟩

lemma trans (h : Served R s t) (h' : Served R t v) : Served R s v := by
  refine ⟨h'.cur.trans h.cur, h'.left.trans h.left, fun u => (h'.account u).trans (h.account u),
    fun u hu => h.waits u (h'.waits u hu), fun u => ?_⟩
  rcases h'.saved u with hk' | ⟨hu, ha'⟩ | ⟨hw, ha'⟩
  · rcases h.saved u with hk | ⟨hu, ha⟩ | ⟨hw, ha⟩
    · exact .inl (hk.trans hk')
    · exact .inr (.inl ⟨hu, ha.undisturbed hk'⟩)
    · exact .inr (.inr ⟨hw, ha.undisturbed hk'⟩)
  · refine .inr (.inl ⟨hu.trans h.cur, ?_⟩)
    rcases h.saved u with hk | ⟨-, ha⟩ | ⟨-, ha⟩
    · exact hk.answered ha'
    · exact ha.trans ha'
    · exact ha.trans ha'
  · refine .inr (.inr ⟨h.waits u hw, ?_⟩)
    rcases h.saved u with hk | ⟨-, ha⟩ | ⟨-, ha⟩
    · exact hk.answered ha'
    · exact ha.trans ha'
    · exact ha.trans ha'

/-- Code that leaves the wait lists, the running process and the time alone, and every account and
stack. -/
lemma other (hwait : ∀ n, t.waitList n = s.waitList n) (hcur : t.cur = s.cur)
    (hleft : t.left4current = s.left4current)
    (htask : ∀ u, (t.task u).account = (s.task u).account ∧ (t.task u).stack = (s.task u).stack) :
    Served R s t := by
  have hiff : ∀ u, t.WaitsForSem u ↔ s.WaitsForSem u := fun u => by
    simp only [WaitsForSem, hwait]
  exact ⟨hcur, hleft, fun u => (htask u).1, fun u => (hiff u).mp,
    fun u => .inl ⟨(htask u).2, (hiff u).mpr⟩⟩

/-- One task changes, in other fields. -/
lemma change {u : Slot} {k : Task} (hlinks : t.links = s.links) (hcur : t.cur = s.cur)
    (hleft : t.left4current = s.left4current) (htask : t.task = Function.update s.task u k)
    (hk : (k.account, k.stack) = ((s.task u).account, (s.task u).stack)) : Served R s t := by
  rw [Prod.mk.injEq] at hk
  refine other (fun n => by simp only [waitList, queue, hlinks]) hcur hleft fun w => ?_
  rw [htask, Function.update_apply]
  split_ifs with hw
  · rw [hw]
    exact hk
  · exact ⟨rfl, rfl⟩

/-- An answer after the code is an answer to the whole. -/
lemma answered (h : Served R s t) {u : Slot} (ha : Answered R t v u) : Answered R s v u := by
  rcases h.saved u with hk | ⟨-, ha'⟩ | ⟨-, ha'⟩
  · exact hk.answered ha
  · exact ha'.trans ha
  · exact ha'.trans ha

/-- No task changes. -/
lemma of_task (hlinks : t.links = s.links) (hcur : t.cur = s.cur)
    (hleft : t.left4current = s.left4current) (htask : t.task = s.task) : Served R s t := by
  refine change (u := s.cur) hlinks hcur hleft ?_ rfl
  rw [Function.update_eq_self, htask]

end Served

/-- The result of a system call. -/
lemma served_setEax {R : ℤ → Prop} (s : Kernel) {r : ℤ} (hr : R r) :
    Served R s (s.setEax r) ∧ Answered R s (s.setEax r) s.cur := by
  have hans : Answered R s (s.setEax r) s.cur := ⟨r, hr, by simp [setEax]⟩
  refine ⟨⟨rfl, rfl, fun u => ?_, fun u hu => hu, fun u => ?_⟩, hans⟩
  · by_cases hu : u = s.cur
    · subst hu
      simp [setEax, Task.account]
    · simp [setEax, updTask_task_ne _ _ hu]
  · by_cases hu : u = s.cur
    · exact .inr (.inl ⟨hu, hu ▸ hans⟩)
    · exact .inl ⟨by simp [setEax, updTask_task_ne _ _ hu], id⟩

end Kernel

/-! ## The semaphores -/

section

open Kernel

variable {R : ℤ → Prop} {s t : Kernel} {Q : Node → List Slot}

lemma SchedOk.waitsForSem_iff (hs : SchedOk s Q) (u : Slot) :
    s.WaitsForSem u ↔ ∃ n, u ∈ Q (.waitList n) := by
  simp only [WaitsForSem, hs.waitList_eq]

/-- The running process does not wait. -/
lemma SchedOk.not_waitsForSem (hs : SchedOk s Q) : ¬ s.WaitsForSem s.cur := by
  rw [hs.waitsForSem_iff]
  rintro ⟨n, hn⟩
  have := hs.pool.eq_of_mem hn hs.cur_mem
  cases this

/-- Some processes that wait for semaphores are woken with one result, and go on to the runqueue. -/
lemma served_of_woken {Q' : Node → List Slot} (us : List Slot) {r : ℤ} (hs : SchedOk s Q)
    (ht : SchedOk t Q') (hr : WakeResult r) (hus : ∀ u ∈ us, ∃ n, u ∈ Q (.waitList n))
    (hcur : t.cur = s.cur) (hleft : t.left4current = s.left4current)
    (haccount : ∀ u, (t.task u).account = (s.task u).account)
    (hstack : ∀ u, (t.task u).stack =
      if u ∈ us then Function.update (s.task u).stack eaxIndex r else (s.task u).stack)
    (hQ : ∀ u n, u ∈ Q' (.waitList n) → u ∈ Q (.waitList n))
    (hQ' : ∀ u n, u ∉ us → u ∈ Q (.waitList n) → u ∈ Q' (.waitList n)) : Served R s t := by
  refine ⟨hcur, hleft, haccount, fun u => ?_, fun u => ?_⟩
  · rw [hs.waitsForSem_iff, ht.waitsForSem_iff]
    rintro ⟨n, hn⟩
    exact ⟨n, hQ u n hn⟩
  · by_cases hu : u ∈ us
    · exact .inr (.inr ⟨(hs.waitsForSem_iff u).mpr (hus u hu), r, hr, by rw [hstack, if_pos hu]⟩)
    · refine .inl ⟨by rw [hstack, if_neg hu], ?_⟩
      rw [hs.waitsForSem_iff, ht.waitsForSem_iff]
      rintro ⟨n, hn⟩
      exact ⟨n, hQ' u n hu hn⟩

/-- A signal wakes the first process that waits. -/
lemma SchedOk.served_woken (hs : SchedOk s Q) {n : SemId} {u : Slot} {rest : List Slot}
    (hQ : Q (.waitList n) = u :: rest)
    (hok : SchedOk (s.woken u 0) (Pool.moved Q u (.waitList n) .runqueue)) :
    Served R s (s.woken u 0) := by
  have hu : u ∈ Q (.waitList n) := by
    rw [hQ]
    exact List.mem_cons_self
  refine served_of_woken [u] hs hok (.inl rfl) ?_ rfl rfl ?_ ?_ ?_ ?_
  · intro v hv
    rw [List.mem_singleton.mp hv]
    exact ⟨n, hu⟩
  · intro v
    by_cases hv : v = u
    · subst hv
      simp [woken, updTask, Task.account]
    · simp [woken, updTask, hv]
  · intro v
    by_cases hv : v = u
    · subst hv
      simp [woken, updTask]
    · simp [woken, updTask, hv]
  · intro v m hv
    simp only [Pool.moved_apply, reduceCtorEq, if_false, List.append_nil] at hv
    split_ifs at hv
    · exact List.mem_of_mem_erase hv
    · exact hv
  · intro v m hv hm
    simp only [Pool.moved_apply, reduceCtorEq, if_false, List.append_nil]
    split_ifs
    · exact (List.mem_erase_of_ne (by simpa using hv)).mpr hm
    · exact hm

/-- Destroying semaphores wakes the processes that wait for them. -/
lemma Released.served {ns : List SemId} (hs : SchedOk s Q) (ht : SchedOk t (releasedQueues Q ns))
    (hrel : Released s t ns (waitersOf Q ns)) : Served R s t := by
  refine served_of_woken (waitersOf Q ns) hs ht (.inr rfl) ?_ hrel.cur ?_ ?_ ?_ ?_ ?_
  · intro u hu
    obtain ⟨n, -, hn⟩ := List.mem_flatMap.mp hu
    exact ⟨n, hn⟩
  · rw [hrel.same]
  · intro u
    rw [hrel.task]
    rfl
  · intro u
    rw [hrel.task]
  · intro u n hn
    simp only [releasedQueues] at hn
    split_ifs at hn with hm
    · simp at hn
    · exact hn
  · intro u n hu hn
    have hm : n ∉ ns := fun hm => hu (List.mem_flatMap.mpr ⟨n, hm, hn⟩)
    simpa only [releasedQueues, if_neg hm] using hn

end

/-! ## How a piece of code serves -/

section

open Kernel

/-- A change of process: the running one goes to the end of a list, in a system call with its result
already or to wait for a semaphore, and another one gets the processor. -/
def HandsOn (R : ℤ → Prop) (s t : Kernel) : Prop :=
  ∃ v i u h, Served R s v ∧ u ≠ s.cur ∧ t = (v.moveCurrent h).handTo i u ∧
    (∀ x, x ≠ s.cur → (t.WaitsForSem x ↔ v.WaitsForSem x)) ∧
    ((∃ r, R r) → Answered R s v s.cur ∨ t.WaitsForSem s.cur)

/-- Kernel code for the process `s.cur`: a return, with a value as in `P`, and a fault leave it the
processor. -/
def Outcome.Serves {α : Type} (R : ℤ → Prop) (P : α → Prop) (s : Kernel) : Outcome Kernel α → Prop
  | .ret a t => P a ∧ Served R s t
  | .fault t => Served R s t
  | .switched t => HandsOn R s t
  | .stop _ => True

/-- The same for a whole entry, up to a call of `sys_exit`; a system call that is over has a
result. -/
def Phase.Serves (R : ℤ → Prop) (s : Kernel) : Phase → Prop
  | .done t => Served R s t ∧ ((∃ r, R r) → Answered R s t s.cur) ∨ HandsOn R s t
  | .exits _ t => Served R s t
  | .stop _ => True

variable {R : ℤ → Prop} {s t v : Kernel} {Q : Node → List Slot}

lemma HandsOn.head (h : HandsOn R t v) (hs : Served R s t) : HandsOn R s v := by
  obtain ⟨w, i, u, k, hw, hne, hv, hwait, hans⟩ := h
  rw [hs.cur] at hne hwait hans
  refine ⟨w, i, u, k, hs.trans hw, hne, hv, hwait, fun hc => ?_⟩
  rcases hans hc with ha | ha
  · exact .inl (hs.answered ha)
  · exact .inr ha

lemma Outcome.Serves.head {α : Type} {P : α → Prop} {o : Outcome Kernel α} (h : o.Serves R P t)
    (hs : Served R s t) : o.Serves R P s := by
  cases o with
  | ret a v => exact ⟨h.1, hs.trans h.2⟩
  | fault v => exact Served.trans hs h
  | switched v => exact HandsOn.head h hs
  | stop r => trivial

lemma served_printFault (s : Kernel) : Served R s s.printFault := .of_task rfl rfl rfl rfl

lemma serves_pageFaultRoutine (h : Served R s t) (cause : ExitCause) :
    (t.pageFaultRoutine cause).Serves R s := by
  unfold pageFaultRoutine
  split_ifs
  · exact h.trans (served_printFault t)
  · trivial

/-- The end of a system call. -/
lemma serves_finish {o : Outcome Kernel ℤ} (h : o.Serves R R s) : (finish o).Serves R s := by
  cases o with
  | ret r t =>
    obtain ⟨hr, hs⟩ := h
    obtain ⟨hset, hans⟩ := served_setEax t hr
    exact .inl ⟨hs.trans hset, fun _ => hs.answered (hs.cur ▸ hans)⟩
  | fault t => exact serves_pageFaultRoutine h _
  | switched t => exact .inr h
  | stop r => trivial

lemma serves_finishExcept {o : Except Stop (ℤ × Kernel)}
    (h : ∀ r t, o = .ok (r, t) → R r ∧ Served R s t) : (finishExcept o).Serves R s := by
  match o with
  | .ok (r, t) => exact serves_finish (o := .ret r t) (h r t rfl)
  | .error r => trivial

/-- The end of an interrupt. -/
lemma serves_finishInt {o : Outcome Kernel Unit} (h : o.Serves NoResult (fun _ => True) s) :
    (finishInt o).Serves NoResult s := by
  cases o with
  | ret r t => exact .inl ⟨h.2, fun hr => absurd hr not_noResult⟩
  | fault t => exact serves_pageFaultRoutine h _
  | switched t => exact .inr h
  | stop r => trivial

/-- Blocking and time sharing: the running process goes to the end of a list. -/
lemma SchedOk.handsOn (hs : SchedOk v Q) {h : Node} {u : Slot} {i : ℤ} (hv : Served R s v)
    (ht : SchedOk ((v.moveCurrent h).handTo i u) (Pool.moved Q v.cur .runqueue h)) (hne : u ≠ v.cur)
    (hans : (∃ r, R r) → Answered R s v s.cur ∨ ∃ n, h = .waitList n) :
    HandsOn R s ((v.moveCurrent h).handTo i u) := by
  refine ⟨v, i, u, h, hv, hv.cur ▸ hne, rfl, fun x hx => ?_, fun hc => ?_⟩
  · rw [ht.waitsForSem_iff, hs.waitsForSem_iff]
    have hx' : x ≠ v.cur := hv.cur ▸ hx
    simp only [Pool.moved_apply, reduceCtorEq, if_false, List.mem_append]
    refine exists_congr fun n => or_iff_left ?_
    split_ifs <;> simp [hx']
  · rcases hans hc with ha | ⟨n, rfl⟩
    · exact .inl ha
    · refine .inr ((ht.waitsForSem_iff _).mpr ⟨n, ?_⟩)
      simp [Pool.moved_apply, hv.cur]

/-! ### Semaphores -/

lemma SchedOk.sysSemInit_serves (hs : SchedOk s Q) (k : ℤ) (value : ℕ) :
    CallResult (.semInit k value) (s.sysSemInit k value).1 ∧ Served R s (s.sysSemInit k value).2 := by
  cases hk : semId k with
  | none =>
    rw [Kernel.sysSemInit, hk]
    exact ⟨callResult_neg trivial (by simp [Action.errors]), .refl s⟩
  | some n =>
    by_cases hn : (s.sem n).init = 1
    · rw [Kernel.sysSemInit, hk]
      simp only [hn, if_true]
      exact ⟨callResult_neg trivial (by simp [Action.errors]), .refl s⟩
    · obtain ⟨t, ht, hok, hsame, -, htask⟩ := hs.sysSemInit hk hn value
      rw [ht]
      refine ⟨callResult_of_nonneg trivial le_rfl, .other ?_ ?_ ?_ fun u => ?_⟩
      · intro m
        rw [hok.waitList_eq, hs.waitList_eq]
      · rw [hsame]
      · rw [hsame]
      · rw [htask]
        split_ifs <;> exact ⟨rfl, rfl⟩

lemma SchedOk.sysSemWait_serves (hs : SchedOk s Q) (k : ℤ) :
    (s.sysSemWait k).Serves (CallResult (.semWait k)) (CallResult (.semWait k)) s := by
  by_cases h0 : s.cur = 0
  · rw [Kernel.sysSemWait, if_pos (hs.current_pid_eq_zero_iff.mpr h0)]
    exact ⟨callResult_neg trivial (by simp [Action.errors]), .refl s⟩
  have hpid : ¬ s.current.pid = 0 := fun hp => h0 (hs.current_pid_eq_zero_iff.mp hp)
  cases hk : semId k with
  | none =>
    rw [Kernel.sysSemWait, if_neg hpid, hk]
    exact ⟨callResult_neg trivial (by simp [Action.errors]), .refl s⟩
  | some n =>
    by_cases hn : (s.sem n).init = 1
    · rcases hs.sysSemWait hk hn h0 with ⟨-, t, ht, -, rfl⟩ | ⟨-, u, rest, hQ, ht, hok⟩
      · rw [ht]
        exact ⟨callResult_of_nonneg trivial le_rfl, .of_task rfl rfl rfl rfl⟩
      · rw [ht]
        exact hs.handsOn (.refl s) hok (hs.ne_cur_of_moved (by simp) hQ) fun _ => .inr ⟨n, rfl⟩
    · rw [Kernel.sysSemWait, if_neg hpid, hk]
      simp only [ne_eq, hn, not_false_eq_true, if_true]
      exact ⟨callResult_neg trivial (by simp [Action.errors]), .refl s⟩

lemma SchedOk.sysSemSignal_serves (hs : SchedOk s Q) {k r : ℤ} (h : s.sysSemSignal k = .ok (r, t)) :
    CallResult (.semSignal k) r ∧ Served R s t := by
  cases hk : semId k with
  | none =>
    simp only [Kernel.sysSemSignal, hk, Except.ok.injEq, Prod.mk.injEq] at h
    obtain ⟨rfl, rfl⟩ := h
    exact ⟨callResult_neg trivial (by simp [Action.errors]), .refl s⟩
  | some n =>
    by_cases hn : (s.sem n).init = 1
    · rcases hs.sysSemSignal hk hn with ⟨-, w, hw, -, rfl⟩ | ⟨u, rest, hQ, hw, hok, -⟩
      · simp only [hw, Except.ok.injEq, Prod.mk.injEq] at h
        obtain ⟨rfl, rfl⟩ := h
        exact ⟨callResult_of_nonneg trivial le_rfl, .of_task rfl rfl rfl rfl⟩
      · simp only [hw, Except.ok.injEq, Prod.mk.injEq] at h
        obtain ⟨rfl, rfl⟩ := h
        exact ⟨callResult_of_nonneg trivial le_rfl, hs.served_woken hQ hok⟩
    · simp only [Kernel.sysSemSignal, hk, ne_eq, hn, not_false_eq_true, if_true, Except.ok.injEq,
        Prod.mk.injEq] at h
      obtain ⟨rfl, rfl⟩ := h
      exact ⟨callResult_neg trivial (by simp [Action.errors]), .refl s⟩

lemma SchedOk.sysSemDestroy_serves (hs : SchedOk s Q) {k r : ℤ}
    (h : s.sysSemDestroy k = .ok (r, t)) : CallResult (.semDestroy k) r ∧ Served R s t := by
  cases hk : semId k with
  | none =>
    simp only [Kernel.sysSemDestroy, hk, Except.ok.injEq, Prod.mk.injEq] at h
    obtain ⟨rfl, rfl⟩ := h
    exact ⟨callResult_neg trivial (by simp [Action.errors]), .refl s⟩
  | some n =>
    by_cases hn : (s.sem n).init = 1
    · by_cases hown : s.current.ownedSems n = 1
      · obtain ⟨w, hw, hok, hrel⟩ := hs.sysSemDestroy hk hn hown
        simp only [hw, Except.ok.injEq, Prod.mk.injEq] at h
        obtain ⟨rfl, rfl⟩ := h
        have hrel' : Released s w [n] (waitersOf Q [n]) := by simpa [waitersOf] using hrel
        exact ⟨callResult_of_nonneg trivial le_rfl, hrel'.served hs hok⟩
      · simp only [Kernel.sysSemDestroy, hk, ne_eq, hn, not_true_eq_false, hown, not_false_eq_true, if_true,
          if_false, Except.ok.injEq, Prod.mk.injEq] at h
        obtain ⟨rfl, rfl⟩ := h
        exact ⟨callResult_neg trivial (by simp [Action.errors]), .refl s⟩
    · simp only [Kernel.sysSemDestroy, hk, ne_eq, hn, not_false_eq_true, if_true, Except.ok.injEq,
        Prod.mk.injEq] at h
      obtain ⟨rfl, rfl⟩ := h
      exact ⟨callResult_neg trivial (by simp [Action.errors]), .refl s⟩

/-! ### The keyboard -/

lemma serves_copyFromCircBuffer (s : Kernel) (b : Slot) (size : ℤ) :
    (s.copyFromCircBuffer b size).Serves R (fun _ => True) s := by
  rcases s.copyFromCircBuffer_cases b size with ⟨-, h⟩ | ⟨-, mm, ⟨-, h⟩ | ⟨-, h⟩⟩ <;> rw [h]
  · trivial
  · exact ⟨trivial, .of_task rfl rfl rfl rfl⟩
  · exact Served.change rfl rfl rfl rfl rfl

/-- A read from the keyboard; the size of the read is its result. -/
lemma SchedOk.sysReadKeyboard_serves (hs : SchedOk s Q) {fd size : ℤ} {buffer : ℕ} (hsize : 0 ≤ size) :
    (s.sysReadKeyboard size).Serves (CallResult (.read fd buffer size)) (CallResult (.read fd buffer size)) s := by
  have hpend : Served (CallResult (.read fd buffer size)) s (s.setPending size) := .change rfl rfl rfl rfl rfl
  have hok := hs.congr (s.quiet_setPending size).sched
  rw [Kernel.sysReadKeyboard]
  split_ifs with hnow hpid
  · have hcopy := serves_copyFromCircBuffer (R := CallResult (.read fd buffer size)) (s.setPending size) (s.setPending size).cur size
    have hends := (s.setPending size).sameSched_copyFromCircBuffer (s.setPending size).cur size
    cases ho : (s.setPending size).copyFromCircBuffer (s.setPending size).cur size with
    | ret r t =>
      rw [ho] at hcopy
      exact ⟨callResult_of_nonneg trivial hsize, hpend.trans (hcopy.2.trans (.of_task rfl rfl rfl rfl))⟩
    | switched t =>
      rw [ho] at hends
      exact hends.elim
    | fault t =>
      rw [ho] at hcopy
      exact Served.trans hpend hcopy
    | stop r => trivial
  · have hok' := hok.congr ((s.setPending size).quiet_noteRead size).sched
    have h0 : ((s.setPending size).noteRead size).cur ≠ 0 :=
      fun hc => hpid (hok.current_pid_eq_zero_iff.mpr hc)
    obtain ⟨u, rest, hQ, hsw, hok''⟩ := hok'.block (h := .keyboardQueue) (α := ℤ) trivial h0
    rw [waitForChars_eq, hsw]
    -- the size of the read is in the place of the result before the process waits
    have hnote : Served (CallResult (.read fd buffer size)) (s.setPending size) ((s.setPending size).noteRead size) ∧
        Answered (CallResult (.read fd buffer size)) (s.setPending size)
          ((s.setPending size).noteRead size) s.cur := by
      have hset := served_setEax (R := CallResult (.read fd buffer size)) (s.setPending size)
        (callResult_of_nonneg trivial hsize)
      have hrest : Served (CallResult (.read fd buffer size)) ((s.setPending size).setEax size) ((s.setPending size).noteRead size) :=
        .other (fun n => rfl) rfl rfl fun u => by
          by_cases hu : u = s.cur
          · subst hu
            simp [noteRead, setEax, setPending, updTask, Task.account]
          · simp [noteRead, setEax, setPending, updTask, hu]
      refine ⟨hset.1.trans hrest, hset.2.undisturbed ⟨?_, id⟩⟩
      simp [noteRead, setEax, setPending, updTask]
    refine hok'.handsOn (hpend.trans hnote.1) hok'' (hok'.ne_cur_of_moved (by simp) hQ) fun _ => ?_
    exact .inl (hpend.answered hnote.2)
  · exact ⟨callResult_neg trivial (by simp [Action.errors]), hpend⟩

lemma SchedOk.serveReader_serves (hs : SchedOk s Q) {b : Slot} {rest : List Slot}
    (hQ : Q .keyboardQueue = b :: rest) :
    (s.serveReader b).Serves R (fun _ => True) s := by
  have hb : b ∈ Q .keyboardQueue := by
    rw [hQ]
    exact List.mem_cons_self
  have hpend : Served R s (s.updTask b fun k => { k with pendingChars := k.pendingChars - 1 }) :=
    .change rfl rfl rfl rfl rfl
  have hok : SchedOk (s.updTask b fun k => { k with pendingChars := k.pendingChars - 1 }) Q :=
    hs.congr (.updTask s b _ rfl rfl rfl)
  rw [Kernel.serveReader]
  set v := s.updTask b fun k => { k with pendingChars := k.pendingChars - 1 } with hv
  split_ifs
  · have hcopy := serves_copyFromCircBuffer (R := R) v b (v.task b).size
    have hends := v.sameSched_copyFromCircBuffer b (v.task b).size
    cases ho : v.copyFromCircBuffer b (v.task b).size with
    | ret r t =>
      rw [ho] at hcopy hends
      have hokt := (hok.congr hends).congr t.quiet_emptyCircBuffer.sched
      have hwoken := hokt.wake hb (by simp)
      refine ⟨trivial, hpend.trans (hcopy.2.trans (.other (fun n => ?_) rfl rfl fun u => ⟨rfl, rfl⟩))⟩
      have hwait := hwoken.waitList_eq n
      rw [Pool.moved_apply, if_neg (by simp), if_neg (by simp), List.append_nil] at hwait
      exact hwait.trans (hokt.waitList_eq n).symm
    | switched t =>
      rw [ho] at hends
      exact hends.elim
    | fault t =>
      rw [ho] at hcopy
      exact Served.trans hpend hcopy
    | stop r => trivial
  · have hcopy := serves_copyFromCircBuffer (R := R) v b circularSize
    have hends := v.sameSched_copyFromCircBuffer b circularSize
    cases ho : v.copyFromCircBuffer b circularSize with
    | ret r t =>
      rw [ho] at hcopy
      refine ⟨trivial, hpend.trans (hcopy.2.trans (.trans (t := t.advanceReader b) ?_ ?_))⟩
      · exact .change rfl rfl rfl rfl rfl
      · exact .of_task rfl rfl rfl rfl
    | switched t =>
      rw [ho] at hends
      exact hends.elim
    | fault t =>
      rw [ho] at hcopy
      exact Served.trans hpend hcopy
    | stop r => trivial
  · exact ⟨trivial, hpend⟩

/-- A key answers nobody: a blocked reader has its result since it blocked. -/
lemma SchedOk.keyboardRoutine_serves (hs : SchedOk s Q) (scan beyond : Byte) :
    (s.keyboardRoutine scan beyond).Serves R (fun _ => True) s := by
  rcases hs.keyboardRoutine_cases scan beyond with ⟨-, h⟩ | ⟨-, ⟨-, h⟩ | ⟨b, rest, hQ, h⟩⟩ <;> rw [h]
  · exact ⟨trivial, .refl s⟩
  · exact ⟨trivial, .of_task rfl rfl rfl rfl⟩
  · have hput : Served R s (s.putChar (charOf scan beyond)) := .of_task rfl rfl rfl rfl
    exact ((hs.congr (s.quiet_putChar _).sched).serveReader_serves hQ).head hput

/-! ### Files -/

lemma serves_withFiles (s : Kernel) (fs : FileSystem) (fds : FileSystem.Descriptors) :
    Served R s (s.withFiles fs fds) := .change rfl rfl rfl rfl rfl

lemma serves_lift {σ : Type} {f : σ → Kernel} {o : Outcome σ ℤ}
    (hret : ∀ r t, o = .ret r t → R r) (hsw : ∀ t, o ≠ .switched t)
    (hf : ∀ t, Served R s (f t)) : (o.lift f).Serves R R s := by
  cases o with
  | ret r t => exact ⟨hret r t rfl, hf t⟩
  | switched t => exact absurd rfl (hsw t)
  | fault t => exact hf t
  | stop r => trivial

end

namespace Screen

lemma writeBlocks_result (m : Memory) (buffer size : ℕ) (n : ℕ) :
    ∀ {i : ℕ} {sc sc' : Screen} {r : ℤ}, writeBlocks m buffer size n i sc = .ret r sc' → 0 ≤ r := by
  induction n with
  | zero =>
    intro i sc sc' r h
    unfold writeBlocks at h
    simp only at h
    split_ifs at h
    · split at h
      · simp at h
      · rw [← (Outcome.ret.inj h).1]
        exact_mod_cast Nat.zero_le (i * maxWriteBlock + size % maxWriteBlock)
    · rw [← (Outcome.ret.inj h).1]
      exact_mod_cast Nat.zero_le (i * maxWriteBlock)
  | succ n ih =>
    intro i sc sc' r h
    unfold writeBlocks at h
    split at h
    · simp at h
    · exact ih h

end Screen

namespace FileSystem

lemma writeLoop_result (m : Memory) (v : FdtId) (f : FileId) (buffer : ℕ) (n : ℕ) :
    ∀ {i : ℕ} {a b r fd size : ℤ} {fs fs' : FileSystem},
      writeLoop m v f buffer n i a b fs = .ret r fs' → (Action.write fd buffer size).Returns r := by
  induction n with
  | zero =>
    intro i a b r fd size fs fs' h
    simp only [writeLoop, Outcome.ret.injEq] at h
    exact Action.returns_of_nonneg (by omega)
  | succ n ih =>
    intro i a b r fd size fs fs' h
    rw [writeLoop] at h
    split at h
    · simp at h
    · simp only [Outcome.ret.injEq] at h
      rw [← h.1]
      exact Action.returns_neg (by simp [Action.errors])
    · simp only at h
      split_ifs at h
      exact ih h

lemma readLoop_result (v : FdtId) (f : FileId) (buffer size : ℕ) (n : ℕ) :
    ∀ {i : ℕ} {a b r : ℤ} {st st' : FileSystem × Memory},
      readLoop v f buffer size n i a b st = .ret r st' → 0 ≤ r := by
  induction n with
  | zero =>
    intro i a b r st st' h
    simp only [readLoop, Outcome.ret.injEq] at h
    omega
  | succ n ih =>
    intro i a b r st st' h
    unfold readLoop at h
    simp only at h
    split_ifs at h
    all_goals first
      | exact ih h
      | simp only [Outcome.ret.injEq] at h
        omega

lemma sysReadFile_ne_switched {fs : FileSystem} {m : Memory} {v : FdtId} {f : FileId}
    {buffer size : ℕ} {st : FileSystem × Memory} : fs.sysReadFile m v f buffer size ≠ .switched st := by
  intro h
  have hends := samePages_readLoop v f buffer size size 0
    (fs.fat^[((fs.fdt v).offset / blockSize).toNat] (fs.dir f).firstBlock)
    ((fs.fdt v).offset % blockSize) (fs, m)
  unfold sysReadFile at h
  rw [h] at hends
  exact hends

lemma openEntry_result (fs : FileSystem) (fds : Descriptors) (v : FdtId) (fd : Fd) (file : FileId)
    (mode : ℤ) {addr : ℕ} {path : List Byte} {flags : ℤ} :
    (Action.open addr path flags).Returns (fs.openEntry fds v fd file mode).1 := by
  unfold openEntry
  split_ifs
  · exact Action.returns_neg (by simp [Action.errors])
  · exact Action.returns_of_nonneg (Int.natCast_nonneg _)

lemma sysOpen_result {fs fs' : FileSystem} {fds fds' : Descriptors} {addr : ℕ} {path : List Byte}
    {flags r : ℤ} (h : fs.sysOpen fds path flags = .ok (r, fs', fds')) :
    (Action.open addr path flags).Returns r := by
  have hneg : ∀ {c : ℤ} {a : FileSystem} {b : Descriptors}, c ∈ (Action.open addr path flags).errors →
      (.ok (-c, a, b) : Except Stop _) = .ok (r, fs', fds') → (Action.open addr path flags).Returns r := by
    intro c a b hc heq
    simp only [Except.ok.injEq, Prod.mk.injEq] at heq
    exact heq.1 ▸ Action.returns_neg hc
  have hentry : ∀ {a : FileSystem} {v : FdtId} {fd : Fd} {file : FileId} {mode : ℤ},
      (.ok (a.openEntry fds v fd file mode) : Except Stop _) = .ok (r, fs', fds') →
        (Action.open addr path flags).Returns r := by
    intro a v fd file mode heq
    simp only [Except.ok.injEq] at heq
    have hres : (Action.open addr path flags).Returns (a.openEntry fds v fd file mode).1 :=
      a.openEntry_result fds v fd file mode
    rwa [heq] at hres
  unfold sysOpen at h
  split at h
  · exact hneg (by simp [Action.errors]) h
  · split at h
    · exact hneg (by simp [Action.errors]) h
    · split at h
      · exact hneg (by simp [Action.errors]) h
      · split at h
        · exact hneg (by simp [Action.errors]) h
        · split at h
          · split at h
            · exact hneg (by simp [Action.errors]) h
            · split at h
              · simp at h
              · simp at h
              · exact hentry h
          · split at h
            · exact hneg (by simp [Action.errors]) h
            · exact hentry h

lemma sysClose_result {fs fs' : FileSystem} {fds fds' : Descriptors} {fd r : ℤ}
    (h : fs.sysClose fds fd = .ok (r, fs', fds')) : (Action.close fd).Returns r := by
  unfold sysClose at h
  split_ifs at h
  · simp only at h
    split at h
    · simp only [Except.ok.injEq, Prod.mk.injEq] at h
      exact h.1 ▸ Action.returns_neg (by simp [Action.errors])
    · split at h
      · simp at h
      · simp only [Except.ok.injEq, Prod.mk.injEq] at h
        exact h.1 ▸ Action.returns_of_nonneg le_rfl
  · simp only [Except.ok.injEq, Prod.mk.injEq] at h
    exact h.1 ▸ Action.returns_neg (by simp [Action.errors])

lemma sysDup_result (fs : FileSystem) (fds : Descriptors) (fd : ℤ) :
    (Action.dup fd).Returns (fs.sysDup fds fd).1 := by
  unfold sysDup
  split_ifs
  · split
    · exact Action.returns_neg (by simp [Action.errors])
    · split
      · exact Action.returns_neg (by simp [Action.errors])
      · exact Action.returns_of_nonneg (Int.natCast_nonneg _)
  · exact Action.returns_neg (by simp [Action.errors])

lemma sysUnlink_result {fs fs' : FileSystem} {addr : ℕ} {path : List Byte} {r : ℤ}
    (h : fs.sysUnlink path = .ok (r, fs')) : (Action.unlink addr path).Returns r := by
  unfold sysUnlink at h
  split at h
  · simp only [Except.ok.injEq, Prod.mk.injEq] at h
    exact h.1 ▸ Action.returns_neg (by simp [Action.errors])
  · split at h
    · simp only [Except.ok.injEq, Prod.mk.injEq] at h
      exact h.1 ▸ Action.returns_neg (by simp [Action.errors])
    · split at h
      · simp only at h
        split at h
        · simp at h
        · simp only [Except.ok.injEq, Prod.mk.injEq] at h
          exact h.1 ▸ Action.returns_of_nonneg le_rfl
      · simp only [Except.ok.injEq, Prod.mk.injEq] at h
        exact h.1 ▸ Action.returns_neg (by simp [Action.errors])

end FileSystem

section

open Kernel

variable {R : ℤ → Prop} {s t v : Kernel} {Q : Node → List Slot}

lemma serves_sysWrite (s : Kernel) (fd : ℤ) (buffer : ℕ) (size : ℤ) :
    (s.sysWrite fd buffer size).Serves (CallResult (.write fd buffer size)) (CallResult (.write fd buffer size)) s := by
  have hneg : ∀ {r : ℤ}, r ∈ (Action.write fd buffer size).errors → (Outcome.ret (-r) s).Serves (CallResult (.write fd buffer size)) (CallResult (.write fd buffer size)) s :=
    fun hr => ⟨callResult_neg trivial hr, .refl s⟩
  unfold sysWrite
  split
  · exact hneg (by simp [Action.errors])
  · split_ifs
    all_goals try exact hneg (by simp [Action.errors])
    split
    · trivial
    · split
      · exact hneg (by simp [Action.errors])
      · refine serves_lift (fun r t h => ?_) (fun t h => ?_) fun sc => .of_task rfl rfl rfl rfl
        · exact callResult_of_nonneg trivial (Screen.writeBlocks_result _ _ _ _ h)
        · have hends := Screen.writeBlocks_ends s.mm buffer size.toNat
            (size.toNat / Screen.maxWriteBlock) 0 s.screen
          rw [Screen.sysWriteConsole] at h
          rw [h] at hends
          exact hends
      · refine serves_lift (fun r t h => ?_) (fun t h => ?_) fun fs => .of_task rfl rfl rfl rfl
        · unfold FileSystem.sysWriteFile at h
          split at h
          · simp at h
          · exact ⟨trivial, FileSystem.writeLoop_result _ _ _ _ _ h⟩
        · have hends := s.fs.sysWriteFile_ends s.mm ‹_› ‹_› buffer size.toNat
          rw [h] at hends
          exact hends

lemma SchedOk.sysRead_serves (hs : SchedOk s Q) (fd : ℤ) (buffer : ℕ) (size : ℤ) :
    (s.sysRead fd buffer size).Serves (CallResult (.read fd buffer size)) (CallResult (.read fd buffer size)) s := by
  have hneg : ∀ {r : ℤ}, r ∈ (Action.read fd buffer size).errors → (Outcome.ret (-r) s).Serves (CallResult (.read fd buffer size)) (CallResult (.read fd buffer size)) s :=
    fun hr => ⟨callResult_neg trivial hr, .refl s⟩
  have hnote : Served (CallResult (.read fd buffer size)) s (s.updTask s.cur fun k => { k with size := size, buffer := buffer }) :=
    .change rfl rfl rfl rfl rfl
  unfold sysRead
  split
  · exact hneg (by simp [Action.errors])
  · split_ifs with h1 h2 h3 h4
    all_goals try exact hneg (by simp [Action.errors])
    simp only
    split
    · trivial
    · split
      · exact ⟨callResult_neg trivial (by simp [Action.errors]), hnote⟩
      · have hok := hs.congr (.updTask s s.cur (fun k => { k with size := size, buffer := buffer })
          rfl rfl rfl)
        exact (hok.sysReadKeyboard_serves (by omega)).head hnote
      · refine serves_lift (fun r t h => ?_) (fun t h => ?_) fun st =>
          hnote.trans (.of_task rfl rfl rfl rfl)
        · exact callResult_of_nonneg trivial (FileSystem.readLoop_result _ _ _ _ _ h)
        · exact FileSystem.sysReadFile_ne_switched h

lemma serves_sysGetStats (s : Kernel) (spid : ℤ) (st : ℕ) (beyond : Task) :
    (s.sysGetStats spid st beyond).Serves (CallResult (.getStats spid st beyond)) (CallResult (.getStats spid st beyond)) s := by
  have hneg : ∀ {r : ℤ}, r ∈ (Action.getStats spid st beyond).errors → (Outcome.ret (-r) s).Serves (CallResult (.getStats spid st beyond)) (CallResult (.getStats spid st beyond)) s :=
    fun hr => ⟨callResult_neg trivial hr, .refl s⟩
  unfold sysGetStats
  split_ifs
  all_goals try exact hneg (by simp [Action.errors])
  rcases s.mm.copyToUser_ret_or_fault st (statsBytes (s.statsTask spid beyond)) with ⟨mm, h⟩ | ⟨mm, h⟩
  · rw [h]
    exact ⟨callResult_of_nonneg trivial le_rfl, .of_task rfl rfl rfl rfl⟩
  · rw [h]
    exact Served.of_task rfl rfl rfl rfl

lemma serves_sysOpen (s : Kernel) (addr : ℕ) (path : List Byte) (flags : ℤ) :
    (s.sysOpen addr path flags).Serves (CallResult (.open addr path flags))
      (CallResult (.open addr path flags)) s := by
  rcases s.sysOpen_cases addr path flags with ⟨-, h⟩ | ⟨-, -, h⟩ | ⟨-, ⟨r, -, h⟩ | ⟨r, fs, fds, ho, h⟩⟩
  · rw [h]
    exact ⟨callResult_neg trivial (by simp [Action.errors]), .refl s⟩
  · rw [h]
    exact Served.refl s
  · rw [h]
    trivial
  · rw [h]
    exact ⟨⟨trivial, FileSystem.sysOpen_result ho⟩, serves_withFiles ..⟩

lemma serves_sysUnlink (s : Kernel) (addr : ℕ) (path : List Byte) :
    (s.sysUnlink addr path).Serves (CallResult (.unlink addr path)) (CallResult (.unlink addr path))
      s := by
  rcases s.sysUnlink_cases addr path with ⟨-, h⟩ | ⟨-, -, h⟩ | ⟨-, ⟨r, -, h⟩ | ⟨r, fs, hu, h⟩⟩
  · rw [h]
    exact ⟨callResult_neg trivial (by simp [Action.errors]), .refl s⟩
  · rw [h]
    exact Served.refl s
  · rw [h]
    trivial
  · rw [h]
    exact ⟨⟨trivial, FileSystem.sysUnlink_result hu⟩, .of_task rfl rfl rfl rfl⟩

/-! ## The whole step -/

lemma SchedOk.dispatch_serves (hs : SchedOk s Q) {e : Event} (hact : PlainCall e.act) :
    (s.dispatch e).Serves (CallResult e.act) (s.enter e.regs) := by
  have hok := hs.congr (s.quiet_enter e.regs).sched
  have hpid : 0 ≤ s.current.pid := hs.cur_live
  unfold dispatch
  cases h : e.act with
  | write fd buffer size => exact serves_finish (serves_sysWrite ..)
  | read fd buffer size => exact serves_finish (hok.sysRead_serves ..)
  | «open» addr path flags => exact serves_finish (serves_sysOpen ..)
  | close fd =>
    refine serves_finishExcept fun r t ht => ?_
    unfold sysClose at ht
    split at ht
    · simp at ht
    · next hclose =>
      simp only [Except.ok.injEq, Prod.mk.injEq] at ht
      exact ⟨ht.1 ▸ ⟨trivial, FileSystem.sysClose_result hclose⟩, ht.2 ▸ serves_withFiles ..⟩
  | dup fd =>
    refine serves_finishExcept fun r t ht => ?_
    simp only [sysDup, Except.ok.injEq, Prod.mk.injEq] at ht
    exact ⟨ht.1 ▸ ⟨trivial, FileSystem.sysDup_result ..⟩, ht.2 ▸ serves_withFiles ..⟩
  | unlink addr path => exact serves_finish (serves_sysUnlink ..)
  | getpid =>
    refine serves_finishExcept fun r t ht => ?_
    simp only [Except.ok.injEq, Prod.mk.injEq] at ht
    exact ⟨ht.1 ▸ callResult_of_nonneg trivial hpid, ht.2 ▸ .refl _⟩
  | semInit k value =>
    refine serves_finishExcept fun r t ht => ?_
    have hserves := hok.sysSemInit_serves (R := CallResult (.semInit k value)) k value
    simp only [Except.ok.injEq] at ht
    rwa [ht] at hserves
  | semWait k => exact serves_finish (hok.sysSemWait_serves k)
  | semSignal k => exact serves_finishExcept fun r t ht => hok.sysSemSignal_serves ht
  | semDestroy k => exact serves_finishExcept fun r t ht => hok.sysSemDestroy_serves ht
  | getStats spid st beyond => exact serves_finish (serves_sysGetStats ..)
  | niSyscall =>
    refine serves_finishExcept fun r t ht => ?_
    simp only [Except.ok.injEq, Prod.mk.injEq] at ht
    exact ⟨ht.1 ▸ callResult_neg trivial (by simp [Action.errors]), ht.2 ▸ .refl _⟩
  | _ =>
    rw [h] at hact
    exact hact.elim

/-- The state after what the entry code, and for a tick the clock, has noted. -/
def Kernel.entered (s : Kernel) (e : Event) : Kernel :=
  match e.act with
  | .clock => (s.enter e.regs).tick
  | .store .. | .pageFault => s
  | _ => s.enter e.regs

lemma Kernel.entered_cur (s : Kernel) (e : Event) : (s.entered e).cur = s.cur := by
  unfold entered
  split <;> rfl

/-- A new quantum for a process that is alone. -/
def Kernel.renewed (s : Kernel) : Kernel :=
  { s with left4current := s.current.quantum }.updTask s.cur fun k =>
    { k with remaining := s.current.quantum }

lemma served_showTime (s : Kernel) : Served R s s.showTime := by
  unfold showTime
  simp only
  split_ifs <;> exact .of_task rfl rfl rfl rfl

/-- A tick: it only counts, or it renews the quantum of a process that is alone, or the time of the
running process is over. -/
lemma SchedOk.clock_serves (hs : SchedOk s Q) {e : Event} (hact : e.act = .clock) :
    (1 < s.left4current ∧ s.dispatch e = .done (s.entered e).showTime) ∨
    (s.left4current ≤ 1 ∧ s.runqueue = [s.cur] ∧
      s.dispatch e = .done (s.entered e).renewed.showTime) ∨
    (s.left4current ≤ 1 ∧ ∃ t, s.dispatch e = .done t ∧ HandsOn NoResult (s.entered e) t) := by
  have htick : s.entered e = (s.enter e.regs).tick := by simp only [entered, hact]
  have hleft_eq : (s.entered e).left4current = s.left4current - 1 := by
    rw [htick]
    rfl
  have hok : SchedOk (s.entered e) Q :=
    htick ▸ (hs.congr (s.quiet_enter e.regs).sched).congr (s.enter e.regs).quiet_tick.sched
  have hring := (hok.pool.ring .runqueue trivial).first_eq_last_iff
  rw [List.length_map] at hring
  have hdis : s.dispatch e = finishInt (s.enter e.regs).clockRoutine := by rw [dispatch, hact]
  rw [hdis, clockRoutine, ← htick]
  rcases schedule_cases hok 1 with ⟨t, ht, -, hno⟩ | ⟨hleft, -, u, rest, htail, hsw, hok'⟩
  · by_cases hleft : (s.entered e).left4current ≤ 0
    · have hlen : (Q .runqueue).length ≤ 1 := by
        by_contra hlt
        exact hno ⟨hleft, by omega⟩
      obtain ⟨rest, hQ⟩ := hs.runqueue_cons
      have hnil : rest = [] := by
        rw [hQ, List.length_cons] at hlen
        exact List.length_eq_zero_iff.mp (by omega)
      refine .inr (.inl ⟨by omega, ?_, ?_⟩)
      · rw [hs.runqueue_eq, hQ, hnil]
      · rw [schedule, if_pos hleft, if_pos (hring.mpr hlen)]
        rfl
    · refine .inl ⟨by omega, ?_⟩
      rw [schedule, if_neg hleft]
      rfl
  · refine .inr (.inr ⟨by omega, _, ?_, hok.handsOn (.refl _) hok' ?_ fun hr => absurd hr not_noResult⟩)
    · rw [hsw]
      rfl
    · exact hok.ne_cur_of_mem_tail (by simp [htail])

/-- Every other entry but `sys_fork` and `sys_nice`. -/
lemma SchedOk.dispatch_serves_rest (hs : SchedOk s Q) {e : Event} (hfork : e.act ≠ .fork)
    (hnice : ∀ q, e.act ≠ .nice q) (hclock : e.act ≠ .clock) :
    (s.dispatch e).Serves (CallResult e.act) (s.entered e) := by
  by_cases hplain : PlainCall e.act
  · have hent : s.entered e = s.enter e.regs := by
      unfold entered
      cases h : e.act <;> first | rfl | (rw [h] at hplain; exact hplain.elim)
    have hserves := hs.dispatch_serves hplain
    rw [hent]
    exact hserves
  · rw [callResult_eq_noResult hplain]
    unfold entered dispatch
    cases h : e.act with
    | key scan beyond =>
      refine serves_finishInt ?_
      exact (hs.congr (s.quiet_enter e.regs).sched).keyboardRoutine_serves scan beyond
    | exit eax => exact Served.refl _
    | store addr b =>
      simp only
      split_ifs
      · exact .inl ⟨.of_task rfl rfl rfl rfl, fun hr => absurd hr not_noResult⟩
      · exact serves_pageFaultRoutine (.refl s) _
    | pageFault => exact serves_pageFaultRoutine (.refl s) _
    | fork => exact absurd h hfork
    | nice q => exact absurd h (hnice q)
    | clock => exact absurd h hclock
    | _ =>
      rw [h] at hplain
      exact absurd trivial hplain

/-- What a step does to the accounts and the saved registers. -/
inductive StepServes (s : Kernel) (e : Event) (t : Kernel) : Prop
  /-- The same process goes on; a system call is over. -/
  | stays (hfork : e.act ≠ .fork) (hnice : ∀ q, e.act ≠ .nice q) (hclock : e.act ≠ .clock)
      (h : Served (CallResult e.act) (s.entered e) t)
      (hans : PlainCall e.act → Answered (CallResult e.act) (s.entered e) t s.cur)
      (hexit : ∀ x, e.act ≠ .exit x) (hfault : e.act ≠ .pageFault)
  /-- A tick within the quantum. -/
  | ticks (hact : e.act = .clock) (hleft : 1 < s.left4current) (ht : t = (s.entered e).showTime)
  /-- The running process is alone and has a new quantum. -/
  | renews (hact : e.act = .clock) (hleft : s.left4current ≤ 1) (hone : s.runqueue = [s.cur])
      (ht : t = (s.entered e).renewed.showTime)
  /-- Task 0 calls `sys_exit`. -/
  | remains (x : ℤ) (hact : e.act = .exit x) (ht : t = (s.enter e.regs).setEax x)
  | nice (q : ℤ) (hact : e.act = .nice q)
      (ht : t = ((s.enter e.regs).sysNice q).2.setEax ((s.enter e.regs).sysNice q).1)
  /-- A fork with no child. -/
  | forkFails (hact : e.act = .fork) (ht : t = (s.enter e.regs).setEax (-eAgain) ∨
      ∃ new mm, ¬ s.Live new ∧ t = ((s.enter e.regs).forkFailed new mm).setEax (-eAgain))
  | forks (new : Slot) (frames : Fin numPagData → ℤ) (mm : Memory) (hact : e.act = .fork)
      (hnew : ¬ s.Live new) (ht : t = ((s.enter e.regs).forked new frames mm).setEax s.pid)
  /-- The running process goes to the end of a list and another one gets the processor. -/
  | hands (hfork : e.act ≠ .fork) (hnice : ∀ q, e.act ≠ .nice q) (hexit : ∀ x, e.act ≠ .exit x)
      (huser : e.act ≠ .pageFault ∧ ∀ a b, e.act ≠ .store a b)
      (h : HandsOn (CallResult e.act) (s.entered e) t)
  /-- The running process ends. -/
  | ends (v : Kernel) (u : Slot) (hfork : e.act ≠ .fork) (hnice : ∀ q, e.act ≠ .nice q)
      (h : Served (CallResult e.act) (s.entered e) v) (hne : u ≠ s.cur) (h0 : s.cur ≠ 0)
      (ht : t = v.leave.handTo 0 u) (hwait : ∀ x, t.WaitsForSem x ↔ v.WaitsForSem x)

/-- Task 0 comes to `sys_exit` only by the call: a page fault of task 0 hangs. -/
lemma dispatch_eq_exits {cause : ExitCause} {e : Event} (h : s.dispatch e = .exits cause t) :
    (∃ x, e.act = .exit x ∧ cause = .syscall x ∧ t = s.enter e.regs) ∨ t.current.pid ≠ 0 := by
  have hfault : ∀ {u : Kernel} {k : ExitCause}, u.pageFaultRoutine k = .exits cause t →
      t.current.pid ≠ 0 := by
    intro u k hu
    obtain ⟨hpid, rfl⟩ := pageFaultRoutine_eq_exits hu
    exact hpid
  unfold dispatch at h
  split at h
  case h_9 x hact =>
    simp only [Phase.exits.injEq] at h
    exact .inl ⟨x, hact, h.1.symm, h.2.symm⟩
  case h_19 a b hact =>
    split_ifs at h
    exact .inr (hfault h)
  case h_20 => exact .inr (hfault h)
  case h_17 | h_18 =>
    obtain ⟨u, -, hu⟩ := finishInt_eq_exits h
    exact .inr (hfault hu)
  all_goals first
    | exact absurd h (finishExcept_ne_exits _)
    | exact .inr (hfault (finish_eq_exits h).choose_spec.2)

/-- A store of user code leaves the processor with the same process or faults. -/
lemma dispatch_store_cur {e : Event} {a : ℕ} {b : Byte} (hact : e.act = .store a b)
    (h : s.dispatch e = .done t) : t.cur = s.cur := by
  rw [dispatch, hact] at h
  simp only at h
  split_ifs at h
  · rw [← Phase.done.inj h]
  · exact absurd h pageFaultRoutine_ne_done

/-- A step between two states in which user code runs. -/
theorem SystemOk.step_serves (hs : SystemOk s Q) {e : Event} (hg : s.ExitsFindTwo e)
    (hst : s.step e = .ok t) : StepServes s e t := by
  by_cases hfork : e.act = .fork
  · rcases step_fork_cases hs.sched.cur_live hfork hst with ht | ⟨new, hnew, -, ⟨mm, -, ht⟩ |
      ⟨frames, mm, -, -, ht⟩⟩
    · exact .forkFails hfork (.inl ht)
    · exact .forkFails hfork (.inr ⟨new, mm, hnew, ht⟩)
    · exact .forks new _ mm hfork hnew ht
  by_cases hnice : ∃ q, e.act = .nice q
  · obtain ⟨q, hact⟩ := hnice
    rw [Kernel.step, dispatch, hact] at hst
    exact .nice q hact (Except.ok.inj hst).symm
  have hnice' : ∀ q, e.act ≠ .nice q := fun q hq => hnice ⟨q, hq⟩
  by_cases hclock : e.act = .clock
  · rcases hs.sched.clock_serves hclock with ⟨hleft, hd⟩ | ⟨hleft, hone, hd⟩ | ⟨hleft, v, hd, h⟩
    · rw [Kernel.step, hd] at hst
      exact .ticks hclock hleft (Except.ok.inj hst).symm
    · rw [Kernel.step, hd] at hst
      exact .renews hclock hleft hone (Except.ok.inj hst).symm
    · rw [Kernel.step, hd] at hst
      obtain rfl := Except.ok.inj hst
      refine .hands hfork hnice' (by simp [hclock]) (by simp [hclock]) ?_
      rwa [callResult_eq_noResult (by simp [hclock, PlainCall])]
  · have hserves := hs.sched.dispatch_serves_rest hfork hnice' hclock
    have heff := hs.sched.dispatch_effects e
    unfold Kernel.step at hst
    cases hp : s.dispatch e with
    | done v =>
      rw [hp] at hserves hst
      obtain rfl : v = t := Except.ok.inj hst
      have hexit : ∀ x, e.act ≠ .exit x := fun x hx => by simp [dispatch, hx] at hp
      have hfault : e.act ≠ .pageFault := fun hf => by
        rw [dispatch, hf] at hp
        exact pageFaultRoutine_ne_done hp
      rcases hserves with ⟨h, hans⟩ | h
      · rw [s.entered_cur] at hans
        exact .stays hfork hnice' hclock h (fun hp => hans ⟨0, callResult_of_nonneg hp le_rfl⟩) hexit hfault
      · refine .hands hfork hnice' hexit ⟨hfault, fun a b hab => ?_⟩ h
        obtain ⟨w, i, u, k, -, hne, hv, -⟩ := h
        have hcur := dispatch_store_cur hab hp
        rw [hv, handTo_cur] at hcur
        exact hne (hcur.trans (s.entered_cur e).symm)
    | stop r => simp [hp] at hst
    | exits cause s₁ =>
      rw [hp] at hserves heff hst
      obtain ⟨Q₁, hc⟩ := heff
      have hs₁ := hc.systemOk hs
      have hcur : s₁.cur = s.cur := (Served.cur hserves).trans (s.entered_cur e)
      simp only at hst
      by_cases h0 : s₁.cur = 0
      · have hpid : s₁.current.pid = 0 := hs₁.sched.current_pid_eq_zero_iff.mpr h0
        rw [sysExit, if_neg (by simpa using hpid)] at hst
        rcases dispatch_eq_exits hp with ⟨x, hact, rfl, rfl⟩ | hno
        · exact .remains x hact (Except.ok.inj hst).symm
        · exact absurd hpid hno
      · have hpid : s₁.current.pid ≠ 0 := fun hp => h0 (hs₁.sched.current_pid_eq_zero_iff.mp hp)
        obtain ⟨v, Q', ht, hQ', hrel, -, hok, -, hleave, ⟨-, u, rest, hQu, hsw, hh⟩ | ⟨hlen, -⟩⟩ :=
          hs₁.sysExit_cases h0
        · rw [hsw] at hst
          obtain rfl := Except.ok.inj hst
          have hv : Served (CallResult e.act) s₁ v := Released.served hs₁.sched (hQ' ▸ hok.sched) hrel
          have hsched := (hh e.act).schedOk hok.sched
          refine .ends v u hfork hnice' (Served.trans hserves hv) ?_ (hcur ▸ h0) rfl fun x => ?_
          · have hu : u ∈ (Q' .runqueue).tail := by
              rw [leftQueues, Function.update_self] at hQu
              rw [hQu]
              exact List.mem_cons_self
            rw [← hcur, ← hrel.cur]
            exact hok.sched.ne_cur_of_mem_tail hu
          · rw [hsched.waitsForSem_iff, hok.sched.waitsForSem_iff]
            simp only [leftQueues, ne_eq, reduceCtorEq, not_false_eq_true, Function.update_of_ne]
        · have := hg cause s₁ v hp hpid ht
          omega

end

end ZeOS
