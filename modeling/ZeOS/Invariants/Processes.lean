import ZeOS.Invariants.Queues

/-!
# Semaphores, process creation and process end on the queues

One specification for each routine that changes which lists the processes are on: what it
returns, the lists afterwards, and everything it leaves alone.  `Released` describes the
destruction of a set of semaphores, by their owner or by its end: the processes that waited on
them are appended to the runqueue, in order, with the result -1.
-/

namespace ZeOS

open IntrusiveList

namespace Kernel

lemma semId_val (n : SemId) : semId (n.val : ℤ) = some n := by
  have h : (0 : ℤ) ≤ n.val ∧ (n.val : ℤ) < semMaxValue := by
    have := n.isLt
    constructor <;> omega
  rw [semId, dif_pos h]
  simp

/-! ## Waking processes -/

/-- A process is back on the runqueue, with a result in its saved `%eax`. -/
def woken (s : Kernel) (u : Slot) (result : ℤ) : Kernel :=
  { s with links := (s.links.listDel (.task u)).listAddTail (.task u) .runqueue }.updTask u
    fun k => { k with stack := Function.update k.stack eaxIndex result }

lemma wakeFirst_eq {s : Kernel} {n : SemId} {u : Slot}
    (h : s.links.next (.waitList n) = some (.task u)) (result : ℤ) :
    s.wakeFirst n result = .ok (s.woken u result) := by
  rw [wakeFirst, h]
  rfl

end Kernel

/-- Only the saved results of the listed processes and the links differ. -/
structure OnlyWakes (s t : Kernel) (us : List Slot) (result : ℤ) : Prop where
  same : t = { s with links := t.links, task := t.task }
  task : ∀ u, t.task u =
    if u ∈ us then { s.task u with stack := Function.update (s.task u).stack eaxIndex result }
    else s.task u

namespace OnlyWakes

variable {s t : Kernel} {us : List Slot} {r : ℤ}

lemma sem (h : OnlyWakes s t us r) : t.sem = s.sem := by rw [h.same]

lemma cur (h : OnlyWakes s t us r) : t.cur = s.cur := by rw [h.same]

lemma counter (h : OnlyWakes s t us r) : t.pid = s.pid := by rw [h.same]

end OnlyWakes

/-- The lists when the whole wait list of a semaphore has been woken. -/
def allWoken (Q : Node → List Slot) (n : SemId) : Node → List Slot := fun h =>
  if h = .runqueue then Q .runqueue ++ Q (.waitList n) else if h = .waitList n then [] else Q h

namespace SchedOk

variable {s t : Kernel} {Q : Node → List Slot}

/-- The first process of a non-empty wait list is woken. -/
lemma wakeFirst (hs : SchedOk s Q) {n : SemId} {u : Slot} {rest : List Slot}
    (hQ : Q (.waitList n) = u :: rest) (r : ℤ) :
    s.wakeFirst n r = .ok (s.woken u r) ∧
      SchedOk (s.woken u r) (Pool.moved Q u (.waitList n) .runqueue) ∧
      OnlyWakes s (s.woken u r) [u] r := by
  have hu : u ∈ Q (.waitList n) := by
    rw [hQ]
    exact List.mem_cons_self ..
  have hr := hs.pool.ring _ (hs.pool.act_of_mem hu)
  rw [hQ, List.map_cons] at hr
  refine ⟨Kernel.wakeFirst_eq hr.next_head r, ?_, rfl, ?_⟩
  · exact (hs.wake hu (by simp)).congr (.updTask _ u _ rfl rfl rfl)
  · intro v
    rw [Kernel.woken, Kernel.updTask_task]
    by_cases hv : v = u
    · subst hv
      simp
    · simp [hv]

lemma not_listEmpty (hs : SchedOk s Q) {h : Node} (ha : s.Active h) (hQ : Q h ≠ []) :
    ¬ s.links.listEmpty h = true := by
  rw [(hs.pool.ring h ha).listEmpty_iff]
  simpa using hQ

/-- The loop of `sys_sem_destroy` wakes the whole wait list, in order. -/
lemma wakeAll (n : SemId) (us : List Slot) :
    ∀ {fuel : ℕ} {s : Kernel} {Q : Node → List Slot}, SchedOk s Q → (s.sem n).init = 1 →
      Q (.waitList n) = us → us.length < fuel →
      ∃ t, Kernel.wakeAll n fuel s = .ok t ∧ SchedOk t (allWoken Q n) ∧ OnlyWakes s t us (-1) := by
  induction us with
  | nil =>
    intro fuel s Q hs hn hQ hf
    obtain ⟨k, rfl⟩ : ∃ k, fuel = k + 1 := ⟨fuel - 1, by omega⟩
    have hemp : s.links.listEmpty (.waitList n) = true := by
      rw [(hs.pool.ring (.waitList n) hn).listEmpty_iff, hQ]
      rfl
    refine ⟨s, by rw [Kernel.wakeAll, if_pos hemp], ?_, rfl, fun u => by simp⟩
    have heq : allWoken Q n = Q := by
      funext h
      unfold allWoken
      by_cases h1 : h = .runqueue
      · simp [h1, hQ]
      · by_cases h2 : h = .waitList n
        · simp [h2, hQ]
        · simp [h1, h2]
    rw [heq]
    exact hs
  | cons u us ih =>
    intro fuel s Q hs hn hQ hf
    obtain ⟨k, rfl⟩ : ∃ k, fuel = k + 1 := ⟨fuel - 1, by omega⟩
    obtain ⟨hw, hok, honly⟩ := hs.wakeFirst hQ (-1)
    have hu : u ∉ us := by
      have hnd := hs.pool.nodup (.waitList n)
      rw [hQ] at hnd
      exact (List.nodup_cons.mp hnd).1
    have hQ' : Pool.moved Q u (.waitList n) .runqueue (.waitList n) = us := by
      rw [Pool.moved_apply, if_pos rfl, hQ]
      simp
    obtain ⟨t, ht, htok, htw⟩ := ih hok (by rw [honly.sem]; exact hn) hQ' (by simpa using hf)
    refine ⟨t, ?_, ?_, ?_, ?_⟩
    · rw [Kernel.wakeAll, if_neg (hs.not_listEmpty (h := .waitList n) hn (by simp [hQ])), hw]
      exact ht
    · have heq : allWoken (Pool.moved Q u (.waitList n) .runqueue) n = allWoken Q n := by
        funext h
        unfold allWoken
        rw [hQ']
        by_cases h1 : h = .runqueue
        · simp [h1, Pool.moved_apply, hQ]
        · by_cases h2 : h = .waitList n
          · simp [h2]
          · simp [h1, h2, Pool.moved_apply]
      rw [← heq]
      exact htok
    · rw [htw.same, honly.same]
    · intro v
      rw [htw.task v, honly.task v]
      by_cases hvu : v = u
      · subst hvu
        simp [hu]
      · simp [hvu]

end SchedOk

/-! ## Destroying semaphores -/

/-- The semaphores `ns`, owned by the running process, have been destroyed, and the processes
`us` that waited on them have been woken. -/
structure Released (s t : Kernel) (ns : List SemId) (us : List Slot) : Prop where
  same : t = { s with links := t.links, task := t.task, sem := t.sem }
  sem : ∀ n, t.sem n = if n ∈ ns then { s.sem n with init := 0 } else s.sem n
  task : ∀ u, t.task u = { s.task u with
    stack := if u ∈ us then Function.update (s.task u).stack eaxIndex (-1) else (s.task u).stack
    ownedSems := fun n => if u = s.cur ∧ n ∈ ns then -1 else (s.task u).ownedSems n }

/-- The processes on the wait lists of the semaphores `ns`, one list after another. -/
def waitersOf (Q : Node → List Slot) (ns : List SemId) : List Slot :=
  ns.flatMap fun n => Q (.waitList n)

/-- The lists after the semaphores `ns` have been destroyed. -/
def releasedQueues (Q : Node → List Slot) (ns : List SemId) : Node → List Slot
  | .task t => Q (.task t)
  | .runqueue => Q .runqueue ++ waitersOf Q ns
  | .keyboardQueue => Q .keyboardQueue
  | .waitList n => if n ∈ ns then [] else Q (.waitList n)

/-- The semaphores in a list that the running process owns. -/
def Kernel.ownedAmong (s : Kernel) (ns : List SemId) : List SemId :=
  ns.filter fun n => s.current.ownedSems n = 1

lemma releasedQueues_nil (Q : Node → List Slot) : releasedQueues Q [] = Q := by
  funext h
  cases h <;> simp [releasedQueues, waitersOf]

lemma waitersOf_releasedQueues {Q : Node → List Slot} {n : SemId} {ns : List SemId}
    (hn : n ∉ ns) : waitersOf (releasedQueues Q [n]) ns = waitersOf Q ns := by
  apply List.flatMap_congr
  intro m hm
  have hmn : m ≠ n := fun hmn => hn (hmn ▸ hm)
  simp [releasedQueues, hmn]

lemma releasedQueues_cons {Q : Node → List Slot} {n : SemId} {ns : List SemId} (hn : n ∉ ns) :
    releasedQueues (releasedQueues Q [n]) ns = releasedQueues Q (n :: ns) := by
  funext h
  cases h with
  | runqueue =>
    have hw := waitersOf_releasedQueues (Q := Q) hn
    rw [releasedQueues, hw]
    simp [releasedQueues, waitersOf]
  | waitList m =>
    by_cases hm : m = n <;> simp [releasedQueues, hm]
  | task t => rfl
  | keyboardQueue => rfl

namespace Released

variable {s t u : Kernel} {ns ms : List SemId} {us vs : List Slot}

lemma nil (s : Kernel) : Released s s [] [] :=
  ⟨rfl, fun n => by simp, fun u => by simp⟩

lemma cur (h : Released s t ns us) : t.cur = s.cur := by rw [h.same]

lemma counter (h : Released s t ns us) : t.pid = s.pid := by rw [h.same]

lemma mm (h : Released s t ns us) : t.mm = s.mm := by rw [h.same]

lemma task_pid (h : Released s t ns us) (v : Slot) : (t.task v).pid = (s.task v).pid := by
  rw [h.task v]

lemma task_phPages (h : Released s t ns us) (v : Slot) :
    (t.task v).phPages = (s.task v).phPages := by
  rw [h.task v]

lemma trans (h : Released s t ns us) (h' : Released t u ms vs) :
    Released s u (ns ++ ms) (us ++ vs) := by
  refine ⟨?_, ?_, ?_⟩
  · rw [h'.same, h.same]
  · intro n
    rw [h'.sem n, h.sem n]
    by_cases hn : n ∈ ns <;> by_cases hm : n ∈ ms <;> simp [hn, hm]
  · intro v
    have hstack : (if v ∈ vs then Function.update (t.task v).stack eaxIndex (-1)
        else (t.task v).stack) =
        if v ∈ us ++ vs then Function.update (s.task v).stack eaxIndex (-1)
        else (s.task v).stack := by
      rw [h.task v]
      by_cases hu : v ∈ us <;> by_cases hv : v ∈ vs <;> simp [hu, hv]
    have howned : (fun n => if v = t.cur ∧ n ∈ ms then -1 else (t.task v).ownedSems n) =
        fun n => if v = s.cur ∧ n ∈ ns ++ ms then -1 else (s.task v).ownedSems n := by
      funext n
      rw [h.task v, h.cur]
      by_cases hv : v = s.cur <;> by_cases hn : n ∈ ns <;> by_cases hm : n ∈ ms <;>
        simp [hv, hn, hm]
    rw [h'.task v, hstack, howned, h.task v]

end Released

namespace SchedOk

variable {s t : Kernel} {Q : Node → List Slot}

/-- A semaphore that the running process owns is destroyed. -/
lemma sysSemDestroy (hs : SchedOk s Q) {k : ℤ} {n : SemId} (hk : Kernel.semId k = some n)
    (hn : (s.sem n).init = 1) (hown : s.current.ownedSems n = 1) :
    ∃ t, s.sysSemDestroy k = .ok (0, t) ∧ SchedOk t (releasedQueues Q [n]) ∧
      Released s t [n] (Q (.waitList n)) := by
  have hlen : (Q (.waitList n)).length < numNodes := by
    have h := (hs.pool.nodup (.waitList n)).length_le_card
    rw [Fintype.card_fin] at h
    exact lt_of_le_of_lt h (by decide)
  obtain ⟨t, ht, hok, hw⟩ := SchedOk.wakeAll n _ hs hn rfl hlen
  have hcur : s.cur ∉ Q (.waitList n) := fun hm =>
    absurd (hs.pool.eq_of_mem hs.cur_mem hm) (by simp)
  have hQ : allWoken Q n = releasedQueues Q [n] := by
    funext h
    cases h <;> simp [allWoken, releasedQueues, waitersOf]
  refine ⟨(t.updSem n fun m => { m with init := 0 }).updTask t.cur fun k =>
      { k with ownedSems := Function.update k.ownedSems n (-1) }, ?_, ?_, ?_, ?_, ?_⟩
  · rw [Kernel.sysSemDestroy, hk]
    simp only
    rw [if_neg (by simp [hn]), if_neg (by simp [hown]), ht]
    rfl
  · rw [← hQ]
    have hemp : allWoken Q n (.waitList n) = [] := by simp [allWoken]
    refine ⟨hok.toLinked.of_pool ?_ (fun v => Iff.rfl) hok.zero_mem ?_ rfl, hok.head⟩
    · refine (hok.pool.retire hemp).congr_act ?_
      intro h
      cases h with
      | waitList m =>
        by_cases hm : m = n
        · subst hm
          simp [Kernel.Active, Kernel.updSem]
        · simp [Kernel.Active, Kernel.updSem, hm]
      | _ => simp [Kernel.Active]
    · intro v
      by_cases hv : v = t.cur <;> simp [Kernel.updTask_task, Kernel.updSem, hv]
  · rw [hw.same]
    rfl
  · intro m
    simp only [Kernel.updTask_sem, Kernel.updSem, hw.sem, Function.update_apply, List.mem_singleton]
    split_ifs with hm
    · rw [hm]
    · rfl
  · intro v
    rw [Kernel.updTask_task, hw.cur]
    by_cases hv : v = s.cur
    · subst hv
      simp only [if_true, Kernel.updSem, hw.task, if_neg hcur]
      congr 1
      funext m
      by_cases hm : m = n <;> simp [hm]
    · simp only [if_neg hv, Kernel.updSem, hw.task]
      by_cases hvQ : v ∈ Q (.waitList n) <;> simp [hv, hvQ]

/-- The loop of `sys_exit` destroys every semaphore in the list that the process owns. -/
lemma destroyOwned (ns : List SemId) :
    ∀ {s : Kernel} {Q : Node → List Slot}, SchedOk s Q → ns.Nodup →
      (∀ n ∈ ns, s.current.ownedSems n = 1 → (s.sem n).init = 1) →
      ∃ t, Kernel.destroyOwned ns s = .ok t ∧
        SchedOk t (releasedQueues Q (s.ownedAmong ns)) ∧
        Released s t (s.ownedAmong ns) (waitersOf Q (s.ownedAmong ns)) := by
  induction ns with
  | nil =>
    intro s Q hs _ _
    refine ⟨s, rfl, ?_, .nil s⟩
    rw [Kernel.ownedAmong, List.filter_nil, releasedQueues_nil]
    exact hs
  | cons n ns ih =>
    intro s Q hs hnd hinit
    obtain ⟨hn, hnd⟩ := List.nodup_cons.mp hnd
    rw [Kernel.destroyOwned, List.foldlM_cons, Kernel.destroyIfOwned]
    by_cases hown : s.current.ownedSems n = 1
    · have hin := hinit n (List.mem_cons_self ..) hown
      obtain ⟨t, ht, hok, hrel⟩ := hs.sysSemDestroy (Kernel.semId_val n) hin hown
      have hcur : ∀ m ∈ ns, t.current.ownedSems m = s.current.ownedSems m := by
        intro m hm
        have hmn : m ≠ n := fun hmn => hn (hmn ▸ hm)
        rw [Kernel.current, hrel.task, hrel.cur]
        simp [hmn]
      have hfilter : t.ownedAmong ns = s.ownedAmong ns :=
        List.filter_congr (fun m hm => by rw [hcur m hm])
      have hinit' : ∀ m ∈ ns, t.current.ownedSems m = 1 → (t.sem m).init = 1 := by
        intro m hm hmown
        have hmn : m ≠ n := fun hmn => hn (hmn ▸ hm)
        rw [hrel.sem m, if_neg (by simpa using hmn)]
        exact hinit m (List.mem_cons_of_mem _ hm) ((hcur m hm).symm.trans hmown)
      obtain ⟨u, hu, huok, hurel⟩ := ih hok hnd hinit'
      have hn' : n ∉ s.ownedAmong ns := fun hm => hn (List.mem_of_mem_filter hm)
      have hcons : s.ownedAmong (n :: ns) = n :: s.ownedAmong ns :=
        List.filter_cons_of_pos (by simpa using hown)
      rw [hfilter, releasedQueues_cons hn'] at huok
      rw [hfilter, waitersOf_releasedQueues hn'] at hurel
      rw [if_pos hown, ht, hcons]
      exact ⟨u, hu, huok, hrel.trans hurel⟩
    · have hcons : s.ownedAmong (n :: ns) = s.ownedAmong ns :=
        List.filter_cons_of_neg (by simpa using hown)
      rw [if_neg hown, hcons]
      exact ih hs hnd (fun m hm => hinit m (List.mem_cons_of_mem _ hm))

end SchedOk

/-! ## Semaphore operations -/

namespace SchedOk

variable {s t : Kernel} {Q : Node → List Slot}

/-- Blocking the running process, which is not task 0, hands the processor to the next one. -/
lemma block (hs : SchedOk s Q) {h : Node} (ha : s.Active h) (h0 : s.cur ≠ 0) {α : Type} :
    ∃ u rest, Pool.moved Q s.cur .runqueue h .runqueue = u :: rest ∧
      ((s.moveCurrent h).switchToNext 0 : Outcome Kernel α) =
        .switched ((s.moveCurrent h).handTo 0 u) ∧
      SchedOk ((s.moveCurrent h).handTo 0 u)
        (Pool.moved Q s.cur .runqueue h) :=
  (hs.toLinked.move hs.cur_mem ha (fun hc => absurd hc h0)).switchToNext 0

lemma ne_cur_of_moved (hs : SchedOk s Q) {h : Node} (hh : h ≠ .runqueue) {u : Slot}
    {rest : List Slot} (hQ : Pool.moved Q s.cur .runqueue h .runqueue = u :: rest) : u ≠ s.cur := by
  rw [Pool.moved_apply, if_pos rfl, if_neg (Ne.symm hh), List.append_nil, hs.erase_cur] at hQ
  exact hs.ne_cur_of_mem_tail (by simp [hQ])

/-- A semaphore that is not in use is taken into use by the running process. -/
lemma sysSemInit (hs : SchedOk s Q) {k : ℤ} {n : SemId} (hk : Kernel.semId k = some n)
    (hn : (s.sem n).init ≠ 1) (v : ℕ) :
    ∃ t, s.sysSemInit k v = (0, t) ∧ SchedOk t Q ∧
      t = { s with links := t.links, task := t.task, sem := t.sem } ∧
      t.sem = Function.update s.sem n { count := v % 2 ^ 32, init := 1 } ∧
      ∀ u, t.task u = if u = s.cur then
        { s.task u with ownedSems := Function.update (s.task u).ownedSems n 1 } else s.task u := by
  refine ⟨_, by rw [Kernel.sysSemInit, hk]; simp only; rw [if_neg hn], ?_, rfl, rfl, ?_⟩
  · refine ⟨hs.toLinked.of_pool ?_ (fun v => Iff.rfl) hs.zero_mem ?_ rfl, hs.head⟩
    · refine (hs.pool.initListHead (k := .waitList n) hn (by simp)).congr_act ?_
      intro h
      cases h with
      | waitList m =>
        by_cases hm : m = n
        · subst hm
          simp [Kernel.Active, Kernel.updSem]
        · simp [Kernel.Active, Kernel.updSem, hm]
      | _ => simp [Kernel.Active]
    · intro u
      by_cases hu : u = s.cur <;> simp [Kernel.updTask_task, Kernel.updSem, hu]
  · intro u
    by_cases hu : u = s.cur <;> simp [Kernel.updTask_task, Kernel.updSem, hu]

/-- A change of the counter of a semaphore. -/
lemma updSem (hs : SchedOk s Q) (n : SemId) (f : Semaphore → Semaphore)
    (hf : ∀ m, (f m).init = m.init) : SchedOk (s.updSem n f) Q := by
  refine ⟨hs.toLinked.of_pool ?_ (fun v => Iff.rfl) hs.zero_mem (fun v => rfl) rfl, hs.head⟩
  refine hs.pool.congr_act ?_
  intro h
  cases h with
  | waitList m => by_cases hm : m = n <;> simp [Kernel.Active, Kernel.updSem, hm, hf]
  | _ => simp [Kernel.Active]

/-- `sys_sem_wait` of a process other than task 0 on a semaphore in use. -/
lemma sysSemWait (hs : SchedOk s Q) {k : ℤ} {n : SemId} (hk : Kernel.semId k = some n)
    (hn : (s.sem n).init = 1) (h0 : s.cur ≠ 0) :
    ((s.sem n).count ≠ 0 ∧ ∃ t, s.sysSemWait k = .ret 0 t ∧ SchedOk t Q ∧
      t = s.updSem n fun m => { m with count := m.count - 1 }) ∨
    ((s.sem n).count = 0 ∧ ∃ u rest, Pool.moved Q s.cur .runqueue (.waitList n) .runqueue = u :: rest ∧
      s.sysSemWait k = .switched ((s.moveCurrent (.waitList n)).handTo 0 u) ∧
      SchedOk ((s.moveCurrent (.waitList n)).handTo 0 u)
        (Pool.moved Q s.cur .runqueue (.waitList n))) := by
  have hpid : ¬ s.current.pid = 0 := fun hp => h0 (hs.current_pid_eq_zero_iff.mp hp)
  rw [Kernel.sysSemWait, if_neg hpid, hk]
  simp only
  rw [if_neg (by simp [hn])]
  by_cases hc : (s.sem n).count = 0
  · rw [if_pos hc]
    exact .inr ⟨hc, hs.block (h := .waitList n) hn h0⟩
  · rw [if_neg hc]
    exact .inl ⟨hc, _, rfl, hs.updSem n _ (fun m => rfl), rfl⟩

/-- `sys_sem_signal` on a semaphore in use. -/
lemma sysSemSignal (hs : SchedOk s Q) {k : ℤ} {n : SemId} (hk : Kernel.semId k = some n)
    (hn : (s.sem n).init = 1) :
    (Q (.waitList n) = [] ∧ ∃ t, s.sysSemSignal k = .ok (0, t) ∧ SchedOk t Q ∧
      t = s.updSem n fun m => { m with count := (m.count + 1) % 2 ^ 32 }) ∨
    (∃ u rest, Q (.waitList n) = u :: rest ∧ s.sysSemSignal k = .ok (0, s.woken u 0) ∧
      SchedOk (s.woken u 0) (Pool.moved Q u (.waitList n) .runqueue) ∧
      OnlyWakes s (s.woken u 0) [u] 0) := by
  have hemp := (hs.pool.ring (.waitList n) hn).listEmpty_iff
  rw [List.map_eq_nil_iff] at hemp
  rw [Kernel.sysSemSignal, hk]
  simp only
  rw [if_neg (by simp [hn])]
  cases hQ : Q (.waitList n) with
  | nil =>
    rw [if_pos (hemp.mpr hQ)]
    exact .inl ⟨rfl, _, rfl, hs.updSem n _ (fun m => rfl), rfl⟩
  | cons u rest =>
    obtain ⟨hw, hok, honly⟩ := hs.wakeFirst hQ 0
    rw [if_neg (fun h => by rw [hemp.mp h] at hQ; simp at hQ), hw]
    exact .inr ⟨u, rest, rfl, rfl, hok, honly⟩

end SchedOk

/-! ## The end of a process -/

namespace Kernel

/-- The slot of the running process is free: its frames, its node and its pid. -/
lemma leave_eq (s : Kernel) :
    s.leave = { s with
      task := Function.update s.task s.cur { s.current with pid := -1 }
      links := s.links.listDel (.task s.cur)
      mm := (List.finRange numPagData).foldl (fun m i => m.freeFrame (s.current.phPages i)) s.mm
      left4current := 0 } := by
  simp [leave, updTask, current]

lemma leave_table (s : Kernel) : s.leave.mm.pagusrTable = s.mm.pagusrTable := by
  rw [leave_eq]
  change ((List.finRange numPagData).foldl (fun m i => m.freeFrame (s.current.phPages i))
    s.mm).pagusrTable = _
  generalize s.mm = m
  generalize List.finRange numPagData = l
  induction l generalizing m with
  | nil => rfl
  | cons i l ih =>
    rw [List.foldl_cons, ih]
    rfl

end Kernel

/-- The lists when the running process has been unlinked. -/
def leftQueues (Q : Node → List Slot) : Node → List Slot :=
  Function.update Q .runqueue (Q .runqueue).tail

namespace SchedOk

variable {s t : Kernel} {Q : Node → List Slot}

/-- After the unlinking the processes are those on the lists, but none of them runs. -/
lemma leave (hs : SchedOk s Q) (h0 : s.cur ≠ 0) : Linked s.leave (leftQueues Q) := by
  have hne : s.current.pid ≠ 0 := fun hp => h0 (hs.current_pid_eq_zero_iff.mp hp)
  have hpool := hs.pool.listDel hs.cur_mem
  have hmem := hs.pool.not_mem_erase hs.cur_mem
  rw [hs.erase_cur] at hpool hmem
  rw [Kernel.leave_eq]
  refine ⟨hpool, ?_, ?_, ?_, hs.counter⟩
  · intro v
    by_cases hv : v = s.cur
    · subst hv
      have hno : ¬ ∃ h, s.cur ∈ leftQueues Q h := fun ⟨h, hm⟩ => hmem h hm
      simp [Kernel.Live, hno]
    · simp only [Kernel.Live, Function.update_of_ne hv]
      rw [show (0 ≤ (s.task v).pid) = s.Live v from rfl, hs.live_iff v]
      have hiff : ∀ h, v ∈ leftQueues Q h ↔ v ∈ Q h := by
        intro h
        unfold leftQueues
        by_cases hh : h = .runqueue
        · subst hh
          rw [Function.update_self, ← hs.erase_cur, List.mem_erase_of_ne hv]
        · rw [Function.update_of_ne hh]
      simp only [hiff]
  · rw [leftQueues, Function.update_self, ← hs.erase_cur, List.mem_erase_of_ne (Ne.symm h0)]
    exact hs.zero_mem
  · intro v
    by_cases hv : v = s.cur
    · subst hv
      simp [h0]
    · simp only [Function.update_of_ne hv]
      exact hs.pid_zero v

/-- The semaphores that the running process owns are in use. -/
def OwnedInUse (s : Kernel) : Prop := ∀ n, s.current.ownedSems n = 1 → (s.sem n).init = 1

/-- `sys_exit` of a process other than task 0, up to the call of `schedule`: the semaphores it
owns are destroyed and it is on no list. -/
lemma exitPoint (hs : SchedOk s Q) (hin : OwnedInUse s) (h0 : s.cur ≠ 0) :
    ∃ t, Kernel.destroyOwned (List.finRange semMaxValue) s = .ok t ∧
      s.sysExit = t.leave.schedule 0 ∧
      Released s t (s.ownedAmong (List.finRange semMaxValue))
        (waitersOf Q (s.ownedAmong (List.finRange semMaxValue))) ∧
      SchedOk t (releasedQueues Q (s.ownedAmong (List.finRange semMaxValue))) ∧
      Linked t.leave (leftQueues (releasedQueues Q (s.ownedAmong (List.finRange semMaxValue)))) := by
  have hne : s.current.pid ≠ 0 := fun hp => h0 (hs.current_pid_eq_zero_iff.mp hp)
  obtain ⟨t, ht, hok, hrel⟩ := SchedOk.destroyOwned (List.finRange semMaxValue) hs
    (List.nodup_finRange _) (fun n _ => hin n)
  refine ⟨t, ht, ?_, hrel, hok, hok.leave (by rw [hrel.cur]; exact h0)⟩
  rw [Kernel.sysExit, if_pos hne, ht]

end SchedOk

/-! ## A new process -/

namespace Kernel

/-- The task structure of a new child of the running process. -/
def child (s : Kernel) (frames : Fin numPagData → ℤ) : Task :=
  { s.current with
    phPages := frames
    stack := Function.update s.current.stack eaxIndex 0
    pid := s.pid
    cpuTics := 0
    transitions := 0
    remaining := s.current.quantum
    ownedSems := fun _ => -1 }

/-- The kernel after a successful `sys_fork` into slot `new`, whose frames were taken from
memory leaving `mm`. -/
def forked (s : Kernel) (new : Slot) (frames : Fin numPagData → ℤ) (mm : Memory) : Kernel :=
  { s with
    task := Function.update s.task new (s.child frames)
    links := (s.links.copyNode (.task s.cur) (.task new)).listAddTail (.task new) .runqueue
    pid := s.pid + 1
    mm := mm.copyDataPages frames
    fs := s.fs.forkRefs s.current.fileDescriptors }

/-- The kernel after a `sys_fork` that found no frames. -/
def forkFailed (s : Kernel) (new : Slot) (mm : Memory) : Kernel :=
  { s with
    task := Function.update s.task new { s.current with pid := -1 }
    links := s.links.copyNode (.task s.cur) (.task new)
    mm := mm }

lemma srchFreeTask_some {s : Kernel} {new : Slot} (h : s.srchFreeTask = some new) :
    (s.task new).pid < 0 := by
  have := List.find?_some h
  simpa using this

/-- The four ends of `sys_fork`. -/
lemma sysFork_cases (s : Kernel) (hlive : s.Live s.cur) :
    (s.srchFreeTask = none ∧ s.sysFork = .ok (-eAgain, s)) ∨
    ∃ new, s.srchFreeTask = some new ∧ s.cur ≠ new ∧
      ((∃ mm, s.mm.allocFrames s.current.phPages (List.finRange numPagData) [] = (none, mm) ∧
        s.sysFork = .ok (-eAgain, s.forkFailed new mm)) ∨
      (∃ frames mm,
        s.mm.allocFrames s.current.phPages (List.finRange numPagData) [] = (some frames, mm) ∧
        ((frames.length = numPagData ∧
            s.sysFork = .ok (s.pid, s.forked new (fun j => frames.getD j.val 0) mm)) ∨
          (frames.length ≠ numPagData ∧ s.sysFork = .error .uninitialised)))) := by
  cases hnew : s.srchFreeTask with
  | none => exact .inl ⟨rfl, by rw [sysFork, hnew]⟩
  | some new =>
    have hdead := srchFreeTask_some hnew
    have hne : s.cur ≠ new := by
      rintro rfl
      rw [Live] at hlive
      omega
    refine .inr ⟨new, rfl, hne, ?_⟩
    have hmm : (s.copyTask new).mm = s.mm := rfl
    rw [sysFork, hnew]
    simp only [hmm]
    cases halloc : s.mm.allocFrames s.current.phPages (List.finRange numPagData) [] with
    | mk o mm =>
      cases o with
      | none =>
        refine .inl ⟨mm, rfl, ?_⟩
        simp [forkFailed, copyTask, updTask]
      | some frames =>
        refine .inr ⟨frames, mm, rfl, ?_⟩
        by_cases hlen : frames.length = numPagData
        · refine .inl ⟨hlen, ?_⟩
          simp only [if_pos hlen]
          simp [forked, child, copyTask, initChild, updTask, current, hne]
        · exact .inr ⟨hlen, by simp only [if_neg hlen]⟩

end Kernel

namespace SchedOk

variable {s t : Kernel} {Q : Node → List Slot}

lemma not_mem_of_dead (hs : SchedOk s Q) {u : Slot} (hu : (s.task u).pid < 0) (h : Node) :
    u ∉ Q h := by
  intro hm
  have hl := (hs.live_iff u).mpr ⟨h, hm⟩
  rw [Kernel.Live] at hl
  omega

/-- The copied node of a slot that is on no list changes no list. -/
lemma forkFailed (hs : SchedOk s Q) {new : Slot} (hnew : (s.task new).pid < 0) (mm : Memory) :
    SchedOk (s.forkFailed new mm) Q := by
  have hne : ∀ u, s.Live u → u ≠ new := by
    rintro u hu rfl
    rw [Kernel.Live] at hu
    omega
  have hz : (0 : Slot) ≠ new := hne 0 ((hs.live_iff 0).mpr ⟨_, hs.zero_mem⟩)
  refine ⟨⟨hs.pool.copyNode (hs.not_mem_of_dead hnew), ?_, hs.zero_mem, ?_, hs.counter⟩, hs.head⟩
  · intro v
    rw [← hs.live_iff v]
    by_cases hv : v = new
    · subst hv
      simp [Kernel.Live, Kernel.forkFailed, hnew]
    · simp [Kernel.Live, Kernel.forkFailed, hv]
  · intro v
    by_cases hv : v = new
    · subst hv
      simp [Kernel.forkFailed, Ne.symm hz]
    · simp only [Kernel.forkFailed, Function.update_of_ne hv]
      exact hs.pid_zero v

/-- A child is appended to the runqueue. -/
lemma forked (hs : SchedOk s Q) {new : Slot} (hnew : (s.task new).pid < 0)
    (frames : Fin numPagData → ℤ) (mm : Memory) :
    SchedOk (s.forked new frames mm)
      (Function.update Q .runqueue (Q .runqueue ++ [new])) := by
  have hne : ∀ u, s.Live u → u ≠ new := by
    rintro u hu rfl
    rw [Kernel.Live] at hu
    omega
  have hz : (0 : Slot) ≠ new := hne 0 ((hs.live_iff 0).mpr ⟨_, hs.zero_mem⟩)
  have hcounter := hs.counter
  have hpool := (hs.pool.copyNode (x := .task s.cur) (hs.not_mem_of_dead hnew)).listAddTail
    (a := .runqueue) trivial (hs.not_mem_of_dead hnew)
  refine ⟨⟨hpool, ?_, ?_, ?_, ?_⟩, ?_⟩
  · intro v
    by_cases hv : v = new
    · subst hv
      have hlive : (s.forked v frames mm).Live v := by
        simp [Kernel.Live, Kernel.forked, Kernel.child, hcounter.le]
      exact ⟨fun _ => ⟨.runqueue, by simp⟩, fun _ => hlive⟩
    · have hmem : ∀ h, v ∈ Function.update Q .runqueue (Q .runqueue ++ [new]) h ↔ v ∈ Q h := by
        intro h
        by_cases hh : h = .runqueue
        · subst hh
          simp [hv]
        · rw [Function.update_of_ne hh]
      simp only [hmem]
      rw [← hs.live_iff v]
      simp [Kernel.Live, Kernel.forked, hv]
  · simp [hs.zero_mem]
  · intro v
    by_cases hv : v = new
    · subst hv
      simp [Kernel.forked, Kernel.child, Ne.symm hz, hcounter.ne']
    · simp only [Kernel.forked, Function.update_of_ne hv]
      exact hs.pid_zero v
  · have : s.pid + 1 > 0 := by omega
    exact this
  · obtain ⟨rest, hQ⟩ := hs.runqueue_cons
    rw [Function.update_self, hQ]
    rfl

end SchedOk

end ZeOS
