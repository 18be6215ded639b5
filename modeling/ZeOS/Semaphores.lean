import ZeOS.EndedProcess

/-!
# Semaphores

Two results about whole runs.  A semaphore is in use exactly while one live process owns it,
and the step in which its owner destroys it or ends puts everyone who waited on it back on the
runqueue.  Between its initialisation and its destruction a semaphore conserves its permits and
serves the waiting processes in the order in which they came: this is stated with a history of
the waits, the grants and the signals, carried along the run.  Both hold in runs in which each
`sys_exit` finds two processes to run.  In other runs the head of a wait list can point to a process
that waits on another semaphore, and a signal there lets it go (`semaphore_order_lost_after_exit`).
-/

namespace ZeOS

open IntrusiveList GuardedRun

/-! ## Ownership -/

/-- Between `s` and `t` semaphore `n` has been given up. -/
structure SemReleased (s t : Kernel) (n : SemId) : Prop where
  empty : t.waitList n = []
  /-- The processes that waited resume with the result -1. -/
  result : ∀ u ∈ s.waitList n, (t.task u).stack eaxIndex = -1
  /-- The identifier can be taken into use again. -/
  available : ∀ v, (t.sysSemInit n.val v).1 = 0

lemma Owned.init_iff {s : Kernel} (ho : Owned s) (n : SemId) :
    (s.sem n).init = 1 ↔ ∃! u, s.Live u ∧ (s.task u).ownedSems n = 1 := by
  constructor
  · exact ho.owner n
  · rintro ⟨u, ⟨hu, hun⟩, -⟩
    exact ho.inUse u n hu hun

lemma sysSemInit_available {t : Kernel} {n : SemId} (h : (t.sem n).init ≠ 1) (v : ℕ) :
    (t.sysSemInit n.val v).1 = 0 := by
  rw [Kernel.sysSemInit, Kernel.semId_val]
  simp only [if_neg h]

/-- The semaphores `ns` are released in any state with the lists and the results of one in
which they have just been destroyed. -/
lemma Released.semReleased {s t t' : Kernel} {Q Q' : Node → List Slot} {ns : List SemId}
    (hs : SchedOk s Q) (hrel : Released s t ns (waitersOf Q ns)) {n : SemId} (hn : n ∈ ns)
    (ht' : SchedOk t' Q') (hQ' : Q' (.waitList n) = []) (hsem : t'.sem = t.sem)
    (hstack : ∀ u ∈ Q (.waitList n), (t'.task u).stack = (t.task u).stack) :
    SemReleased s t' n := by
  constructor
  · rw [ht'.waitList_eq, hQ']
  · intro u hu
    rw [hs.waitList_eq] at hu
    have hmem : u ∈ waitersOf Q ns := List.mem_flatMap.mpr ⟨n, hn, hu⟩
    rw [hstack u hu, hrel.task u]
    simp [hmem]
  · apply sysSemInit_available
    rw [hsem, hrel.sem n, if_pos hn]
    simp

lemma SystemOk.step_semDestroy {s : Kernel} {Q : Node → List Slot} (hs : SystemOk s Q) {e : Event}
    {k : ℤ} {n : SemId} (hact : e.act = .semDestroy k) (hk : Kernel.semId k = some n)
    (hn : (s.sem n).init = 1) (hown : s.current.ownedSems n = 1) :
    ∃ t, s.step e = .ok t ∧ SemReleased s t n ∧ t.runqueue = s.runqueue ++ s.waitList n := by
  have hq := s.quiet_enter e.regs
  have hok := hs.sched.congr hq.sched
  have hown' : (s.enter e.regs).current.ownedSems n = 1 := by
    rw [Kernel.current, hq.sched.owned, hq.sched.cur]
    exact hown
  obtain ⟨t, ht, htok, hrel⟩ := hok.sysSemDestroy hk (by rw [hq.sched.sem]; exact hn) hown'
  have hset := t.quiet_setEax 0
  have hset' := htok.congr hset.sched
  have hdisp : s.dispatch e = .done (t.setEax 0) := by
    rw [Kernel.dispatch, hact]
    simp only
    rw [ht]
    rfl
  have hrel' : Released (s.enter e.regs) t [n] (waitersOf Q [n]) := by
    simpa [waitersOf] using hrel
  refine ⟨_, Kernel.step_of_done hdisp, ?_, ?_⟩
  · -- only the caller, which waits on nothing, gets a result of its own
    have hsr := hrel'.semReleased hok (List.mem_singleton_self n) hset'
      (by simp [releasedQueues]) hset.sched.sem (by
        intro u hu
        have hne : u ≠ t.cur := by
          rintro rfl
          rw [hrel.cur] at hu
          exact absurd (hok.pool.eq_of_mem hok.cur_mem hu) (by simp)
        rw [Kernel.setEax, Kernel.updTask_task_ne _ _ hne])
    exact ⟨hsr.empty, hsr.result, hsr.available⟩
  · rw [hset'.runqueue_eq, hs.sched.runqueue_eq, hs.sched.waitList_eq]
    simp [releasedQueues, waitersOf]

lemma SystemOk.step_exit {s s₁ : Kernel} {Q : Node → List Slot} (hs : SystemOk s Q) {e : Event}
    {cause : ExitCause} (hexit : s.dispatch e = .exits cause s₁) (h0 : s₁.cur ≠ 0)
    (hg : s.ExitsFindTwo e) :
    ∃ t, s.step e = .ok t ∧ t.runqueue = s₁.othersToRun ∧
      ∀ n, s₁.current.ownedSems n = 1 → SemReleased s₁ t n := by
  have heff := hs.sched.dispatch_effects e
  rw [hexit] at heff
  obtain ⟨Q₁, hcalms⟩ := heff
  have hs₁ := hcalms.systemOk hs
  have hpid : s₁.current.pid ≠ 0 := fun hp => h0 (hs₁.sched.current_pid_eq_zero_iff.mp hp)
  obtain ⟨t, Q', ht, rfl, hrel, hcalm, hok, -, hleave, hcases⟩ := hs₁.sysExit_cases h0
  have htwo := hg cause s₁ t hexit hpid ht
  obtain ⟨-, u, rest, hQ, hsw, hh⟩ := hcases.resolve_right (fun h => by omega)
  have hturn : Turn .clock (s₁, Q₁) (t.leave.handTo 0 u, _) :=
    .inr ⟨_, .single (hcalm .clock), hh .clock⟩
  have hok' := (hturn.systemOk hs₁).sched
  refine ⟨t.leave.handTo 0 u, ?_, ?_, ?_⟩
  · rw [Kernel.step, hexit]
    simp only
    rw [hsw, Kernel.afterExit]
  · rw [hok'.runqueue_eq]
    exact hs₁.leftQueues_runqueue
  · intro n hn
    have hmem : n ∈ s₁.ownedAmong (List.finRange semMaxValue) := by
      simp [Kernel.ownedAmong, hn]
    refine hrel.semReleased hs₁.sched hmem hok' ?_ ?_ ?_
    · simp [leftQueues, releasedQueues, hmem]
    · simp [Kernel.leave_eq]
    · intro v hv
      have hne : v ≠ t.cur := by
        rintro rfl
        rw [hrel.cur] at hv
        exact absurd (hs₁.sched.pool.eq_of_mem hs₁.sched.cur_mem hv) (by simp)
      rw [Kernel.handTo_task]
      split_ifs <;> simp [Kernel.leave_eq, hne]

/-- **Semaphore ownership.**  In every state of a run from boot in which each `sys_exit` finds
two processes to run, a semaphore is in use exactly when one live process owns it; and the step
in which the owner destroys it, or ends, releases it and appends the processes that waited to
the runqueue in waiting order. -/
theorem semaphore_ownership (E : Env) {es : List Event} {s : Kernel} (h : ExitRun E.boot es s) :
    (∀ n, (s.sem n).init = 1 ↔ ∃! u, s.Live u ∧ (s.task u).ownedSems n = 1) ∧
    (∀ e k n, e.act = .semDestroy k → Kernel.semId k = some n → (s.sem n).init = 1 →
      s.current.ownedSems n = 1 →
      ∃ t, s.step e = .ok t ∧ SemReleased s t n ∧ t.runqueue = s.runqueue ++ s.waitList n) ∧
    (∀ e cause s₁, s.dispatch e = .exits cause s₁ → s₁.cur ≠ 0 → s.ExitsFindTwo e →
      ∃ t, s.step e = .ok t ∧ t.runqueue = s₁.othersToRun ∧
        ∀ n, s₁.current.ownedSems n = 1 → SemReleased s₁ t n) := by
  obtain ⟨Q, hs⟩ := h.systemOk
  refine ⟨hs.owned.init_iff, ?_, ?_⟩
  · intro e k n hact hk hn hown
    exact hs.step_semDestroy hact hk hn hown
  · intro e cause s₁ hexit h0 hg
    exact hs.step_exit hexit h0 hg

/-- Taking a semaphore that is not in use. -/
lemma SystemOk.step_semInit {s : Kernel} {Q : Node → List Slot} (hs : SystemOk s Q) {e : Event}
    {k : ℤ} {v : ℕ} {n : SemId} (hact : e.act = .semInit k v) (hk : Kernel.semId k = some n)
    (hn : (s.sem n).init ≠ 1) :
    ∃ t, s.step e = .ok t ∧ s.ExitsFindTwo e ∧ SystemOk t Q ∧
      t.sem n = { count := v % 2 ^ 32, init := 1 } ∧ Q (.waitList n) = [] ∧
      (t.task s.cur).ownedSems n = 1 := by
  have hq := s.quiet_enter e.regs
  have hok := hs.sched.congr hq.sched
  obtain ⟨t, ht, htok, hsame, hsem, htask⟩ :=
    hok.sysSemInit hk (by rw [hq.sched.sem]; exact hn) v
  have hdisp : s.dispatch e = .done (t.setEax 0) := by
    rw [Kernel.dispatch, hact]
    simp only
    rw [ht]
    rfl
  have hset := (t.quiet_setEax 0).sched
  have hg := Kernel.exitsFindTwo_of_done hdisp
  have hst := Kernel.step_of_done hdisp
  have howned : Owned t :=
    (hs.owned.ofSameSched hq.sched).init hok.cur_live (by rw [hq.sched.sem]; exact hn) hsem htask
  refine ⟨_, hst, hg, ⟨htok.congr hset, howned.ofSameSched hset⟩, ?_, ?_, ?_⟩
  · rw [hset.sem, hsem, Function.update_self]
  · exact hs.sched.pool.inactive _ hn
  · rw [hset.owned, htask]
    simp [Kernel.enter]

/-- Task 0 takes semaphore 3 right after boot and is its owner. -/
theorem semaphore_ownership_after_init :
    ∃ s, ExitRun zeroEnv.boot [plain (.semInit 3 1)] s ∧ (s.sem 3).init = 1 ∧
      ((∀ n, (s.sem n).init = 1 ↔ ∃! u, s.Live u ∧ (s.task u).ownedSems n = 1) ∧
      (∀ e k n, e.act = .semDestroy k → Kernel.semId k = some n → (s.sem n).init = 1 →
        s.current.ownedSems n = 1 →
        ∃ t, s.step e = .ok t ∧ SemReleased s t n ∧ t.runqueue = s.runqueue ++ s.waitList n) ∧
      (∀ e cause s₁, s.dispatch e = .exits cause s₁ → s₁.cur ≠ 0 → s.ExitsFindTwo e →
        ∃ t, s.step e = .ok t ∧ t.runqueue = s₁.othersToRun ∧
          ∀ n, s₁.current.ownedSems n = 1 → SemReleased s₁ t n)) := by
  have hk : Kernel.semId 3 = some 3 := by decide
  have hn : (zeroEnv.boot.sem 3).init ≠ 1 := by
    show (0 : ℤ) ≠ 1
    decide
  obtain ⟨s, hst, hg, -, hsem, -⟩ :=
    zeroEnv.boot_systemOk.step_semInit (e := plain (.semInit 3 1)) rfl hk hn
  have hrun : ExitRun zeroEnv.boot [plain (.semInit 3 1)] s := .cons hg hst (.nil s)
  exact ⟨s, hrun, by rw [hsem], semaphore_ownership zeroEnv hrun⟩

/-! ## Conservation of permits and order of service -/

/-- What has happened to a semaphore since its initialisation. -/
structure SemHistory where
  /-- The processes that have called `sys_sem_wait`, in order. -/
  issued : List Slot
  /-- The processes whose wait has been granted, in order. -/
  granted : List Slot
  signals : ℕ

/-- Nothing has happened yet. -/
def SemHistory.start : SemHistory := { issued := [], granted := [], signals := 0 }

/-- The history after one more step from `s` to `t`.  A wait that does not leave the caller on
the wait list is granted; a signal grants the waits of the processes that leave it. -/
def SemHistory.record (n : SemId) (s : Kernel) (e : Event) (t : Kernel) (h : SemHistory) :
    SemHistory :=
  match e.act with
  | .semWait k =>
    if Kernel.semId k = some n ∧ s.cur ≠ 0 then
      { h with
        issued := h.issued ++ [s.cur]
        granted := if s.cur ∈ t.waitList n then h.granted else h.granted ++ [s.cur] }
    else h
  | .semSignal k =>
    if Kernel.semId k = some n then
      { h with
        granted := h.granted ++ (s.waitList n).filter (fun u => u ∉ t.waitList n)
        signals := h.signals + 1 }
    else h
  | _ => h

/-- The steps between the initialisation of a semaphore with `v` permits and its destruction:
the number of free permits stays below `2 ^ 32`. -/
def SemHistory.Kept (n : SemId) (v : ℕ) (x : Kernel × SemHistory) (e : Event) : Prop :=
  ∀ t, x.1.step e = .ok t → (t.sem n).init = 1 ∧
    v + (x.2.record n x.1 e t).signals < 2 ^ 32 + (x.2.record n x.1 e t).granted.length

lemma SemHistory.kept_of_step {n : SemId} {v : ℕ} {s t : Kernel} {h h' : SemHistory} {e : Event}
    (hst : s.step e = .ok t) (hrec : h.record n s e t = h') (hin : (t.sem n).init = 1)
    (hfree : v + h'.signals < 2 ^ 32 + h'.granted.length) : SemHistory.Kept n v (s, h) e := by
  intro t' ht'
  obtain rfl : t = t' := Except.ok.inj (hst.symm.trans ht')
  subst hrec
  exact ⟨hin, hfree⟩

/-- Those among them whose `sys_exit`, if they come to one, finds two processes to run. -/
def SemHistory.Ok (n : SemId) (v : ℕ) (x : Kernel × SemHistory) (e : Event) : Prop :=
  x.1.ExitsFindTwo e ∧ SemHistory.Kept n v x e

/-- The relation between a semaphore and its history. -/
structure SemHistory.Holds (n : SemId) (v : ℕ) (s : Kernel) (h : SemHistory) : Prop where
  permits : v + h.signals = (s.sem n).count + h.granted.length
  blocked : s.waitList n ≠ [] → (s.sem n).count = 0
  fifo : h.issued = h.granted ++ s.waitList n

/-- An action that is no operation on semaphore `n`, apart from its destruction. -/
def Spares (n : SemId) (act : Action) : Prop :=
  ∀ k, Kernel.semId k = some n →
    act ≠ .semWait k ∧ act ≠ .semSignal k ∧ ∀ v, act ≠ .semInit k v

/-- Calm effects of such an action leave a semaphore and its wait list alone, unless they take
it out of use. -/
lemma Calm.spares {act : Action} {x y : Config} (h : Calm act x y) {n : SemId}
    (hact : Spares n act) (hn : (y.1.sem n).init = 1) :
    y.1.sem n = x.1.sem n ∧ y.2 (.waitList n) = x.2 (.waitList n) := by
  cases h with
  | quiet h => exact ⟨by rw [h.sched.sem], rfl⟩
  | @wake s Q a u rest hQ ha hwake hkbd =>
    refine ⟨rfl, ?_⟩
    have hne : Node.waitList n ≠ a := by
      rintro rfl
      obtain ⟨k, hk, hkn⟩ := hwake n rfl
      exact (hact k hkn).2.1 hk
    simp [Pool.moved_apply, hne]
  | @count s Q k m c hk hcount =>
    have hne : n ≠ m := by
      rintro rfl
      rcases hcount with h | h
      · exact (hact k hk).1 h
      · exact (hact k hk).2.1 h
    exact ⟨by simp [Kernel.updSem, hne], rfl⟩
  | @init s t Q k m v hk hinit hm hsame hsem htask hok =>
    have hne : n ≠ m := by
      rintro rfl
      exact (hact k hk).2.2 v hinit
    exact ⟨by simp only [hsem, Function.update_of_ne hne], rfl⟩
  | @release s t Q ns hown hrel hok =>
    have hns : n ∉ ns := by
      intro hmem
      simp only [hrel.sem n, if_pos hmem] at hn
      omega
    exact ⟨by simp only [hrel.sem n, if_neg hns], by simp [releasedQueues, hns]⟩
  | deliver hon hb hwho h =>
    have hsame := Kernel.sameSched_delivered (.inl h)
    exact ⟨congrFun hsame.sem n, rfl⟩
  | deliverFault hon hb hwho h =>
    have hsame := Kernel.sameSched_delivered (.inr h)
    exact ⟨congrFun hsame.sem n, rfl⟩
  | fork => exact ⟨rfl, by simp⟩
  | forkFailed => exact ⟨rfl, rfl⟩

lemma Handover.spares {act : Action} {x y : Config} (h : Handover act x y) {n : SemId}
    (hact : Spares n act) :
    y.1.sem n = x.1.sem n ∧ y.2 (.waitList n) = x.2 (.waitList n) := by
  cases h with
  | @move s Q h u rest i ha h0 hwait hkbd hne hQ =>
    have hne : Node.waitList n ≠ h := by
      rintro rfl
      obtain ⟨k, hk, hkn⟩ := hwait n rfl
      exact (hact k hkn).1 hk
    exact ⟨rfl, by simp [Pool.moved_apply, hne]⟩
  | exit => exact ⟨by simp [Kernel.leave_eq], by simp [leftQueues]⟩

lemma Turn.spares {act : Action} {x y : Config} (h : Turn act x y) {n : SemId}
    (hact : Spares n act) (hn : (y.1.sem n).init = 1) :
    y.1.sem n = x.1.sem n ∧ y.2 (.waitList n) = x.2 (.waitList n) := by
  have hcalms : ∀ {z : Config}, Calms act x z → (z.1.sem n).init = 1 →
      z.1.sem n = x.1.sem n ∧ z.2 (.waitList n) = x.2 (.waitList n) := by
    intro z hz
    induction hz with
    | refl => exact fun _ => ⟨rfl, rfl⟩
    | tail _ hc ih =>
      intro hin
      obtain ⟨h1, h2⟩ := hc.spares hact hin
      obtain ⟨h3, h4⟩ := ih (by rw [← h1]; exact hin)
      exact ⟨h1.trans h3, h2.trans h4⟩
  rcases h with h | ⟨z, hc, hh⟩
  · exact hcalms h hn
  · obtain ⟨h1, h2⟩ := hh.spares hact
    obtain ⟨h3, h4⟩ := hcalms hc (by rw [← h1]; exact hn)
    exact ⟨h1.trans h3, h2.trans h4⟩

/-- A wait of a process other than task 0: with a permit it is granted at once, without one the
process goes to the end of the wait list. -/
lemma SystemOk.step_semWait {s : Kernel} {Q : Node → List Slot} (hs : SystemOk s Q) {e : Event}
    {k : ℤ} {n : SemId} (hact : e.act = .semWait k) (hk : Kernel.semId k = some n)
    (hn : (s.sem n).init = 1) (h0 : s.cur ≠ 0) :
    ∃ t, s.dispatch e = .done t ∧ (t.sem n).init = 1 ∧
    (((s.sem n).count ≠ 0 ∧ (t.sem n).count = (s.sem n).count - 1 ∧
      t.waitList n = s.waitList n ∧ t.cur = s.cur) ∨
    ((s.sem n).count = 0 ∧ (t.sem n).count = 0 ∧ t.waitList n = s.waitList n ++ [s.cur] ∧
      t.runqueue = s.runqueue.erase s.cur)) := by
  have hq := s.quiet_enter e.regs
  have hok := hs.sched.congr hq.sched
  have hdisp : s.dispatch e = Kernel.finish ((s.enter e.regs).sysSemWait k) := by
    rw [Kernel.dispatch, hact]
  have hn' : ((s.enter e.regs).sem n).init = 1 := by
    rw [hq.sched.sem]
    exact hn
  rcases hok.sysSemWait hk hn' h0 with ⟨hc, t', ht', htok, rfl⟩ | ⟨hc, u, rest, hQ, ht', htok⟩
  · have hset := ((s.enter e.regs).updSem n fun m => { m with count := m.count - 1 }).quiet_setEax 0
    rw [ht'] at hdisp
    refine ⟨_, hdisp, ?_, .inl ⟨hc, ?_, ?_, rfl⟩⟩
    · rw [hset.sched.sem]
      simp [Kernel.updSem, hn']
    · rw [hset.sched.sem]
      simp [Kernel.updSem, Kernel.enter]
    · rw [(htok.congr hset.sched).waitList_eq, hs.sched.waitList_eq]
  · rw [ht'] at hdisp
    refine ⟨_, hdisp, hn, .inr ⟨hc, hc, ?_, ?_⟩⟩
    · rw [htok.waitList_eq, hs.sched.waitList_eq, Pool.moved_apply, if_neg (by simp), if_pos rfl]
      rfl
    · rw [htok.runqueue_eq, hs.sched.runqueue_eq, Pool.moved_apply, if_pos rfl, if_neg (by simp),
        List.append_nil]
      rfl

/-- A signal: without waiting processes it adds a permit; otherwise it moves the oldest one to
the end of the runqueue, with the result 0, and the permits stay. -/
lemma SystemOk.step_semSignal {s : Kernel} {Q : Node → List Slot} (hs : SystemOk s Q) {e : Event}
    {k : ℤ} {n : SemId} (hact : e.act = .semSignal k) (hk : Kernel.semId k = some n)
    (hn : (s.sem n).init = 1) :
    ∃ t, s.step e = .ok t ∧ s.ExitsFindTwo e ∧
    ((s.waitList n = [] ∧ t.sem n = { count := ((s.sem n).count + 1) % 2 ^ 32, init := 1 } ∧
      t.waitList n = []) ∨
    (∃ u rest, s.waitList n = u :: rest ∧ t.waitList n = rest ∧ t.sem n = s.sem n ∧
      t.runqueue = s.runqueue ++ [u] ∧ (t.task u).stack eaxIndex = 0)) := by
  have hq := s.quiet_enter e.regs
  have hok := hs.sched.congr hq.sched
  have hdisp : s.dispatch e = Kernel.finishExcept ((s.enter e.regs).sysSemSignal k) := by
    rw [Kernel.dispatch, hact]
  have hn' : ((s.enter e.regs).sem n).init = 1 := by
    rw [hq.sched.sem]
    exact hn
  rcases hok.sysSemSignal hk hn' with ⟨hQ, t, ht, htok, rfl⟩ | ⟨u, rest, hQ, ht, htok, honly⟩
  · have hset := ((s.enter e.regs).updSem n fun m =>
      { m with count := (m.count + 1) % 2 ^ 32 }).quiet_setEax 0
    rw [ht] at hdisp
    refine ⟨_, Kernel.step_of_done hdisp, Kernel.exitsFindTwo_of_done hdisp, .inl ⟨?_, ?_, ?_⟩⟩
    · rw [hs.sched.waitList_eq, hQ]
    · rw [hset.sched.sem]
      simp [Kernel.updSem, Kernel.enter, hn]
    · rw [(htok.congr hset.sched).waitList_eq, hQ]
  · have hset := ((s.enter e.regs).woken u 0).quiet_setEax 0
    have hsetok := htok.congr hset.sched
    have hu : u ∈ Q (.waitList n) := by
      rw [hQ]
      exact List.mem_cons_self ..
    have hne : u ≠ ((s.enter e.regs).woken u 0).cur := by
      rintro hcur
      have hm : u ∈ Q .runqueue := by
        rw [hcur]
        exact hok.cur_mem
      exact absurd (hok.pool.eq_of_mem hm hu) (by simp)
    rw [ht] at hdisp
    refine ⟨_, Kernel.step_of_done hdisp, Kernel.exitsFindTwo_of_done hdisp,
      .inr ⟨u, rest, ?_, ?_, ?_, ?_, ?_⟩⟩
    · rw [hs.sched.waitList_eq, hQ]
    · rw [hsetok.waitList_eq, Pool.moved_apply, if_pos rfl, if_neg (by simp), hQ]
      simp
    · rw [hset.sched.sem, honly.sem, hq.sched.sem]
    · rw [hsetok.runqueue_eq, hs.sched.runqueue_eq, Pool.moved_apply, if_neg (by simp), if_pos rfl]
    · rw [Kernel.setEax, Kernel.updTask_task_ne _ _ hne, honly.task u]
      simp

namespace SemHistory

variable {n : SemId} {v : ℕ} {s t : Kernel} {h : SemHistory} {e : Event} {Q : Node → List Slot}

/-- The relation only reads the semaphore and its wait list. -/
lemma Holds.congr (hh : Holds n v s h) (hsem : t.sem n = s.sem n)
    (hw : t.waitList n = s.waitList n) : Holds n v t h :=
  ⟨by rw [hsem]; exact hh.permits, by rw [hsem, hw]; exact hh.blocked, by rw [hw]; exact hh.fifo⟩

/-- A call that is refused. -/
lemma Holds.refused (hh : Holds n v s h) (hs : SystemOk s Q) (hq : Quiet s t) : Holds n v t h := by
  refine hh.congr (by rw [hq.sched.sem]) ?_
  rw [(hs.sched.congr hq.sched).waitList_eq, hs.sched.waitList_eq]

/-- A wait of a process other than task 0. -/
lemma Holds.wait (hh : Holds n v s h) (hs : SystemOk s Q) (hn : (s.sem n).init = 1) {k : ℤ}
    (hact : e.act = .semWait k) (hk : Kernel.semId k = some n) (h0 : s.cur ≠ 0)
    (hst : s.step e = .ok t) : Holds n v t (h.record n s e t) := by
  have hrec : h.record n s e t = { h with
      issued := h.issued ++ [s.cur]
      granted := if s.cur ∈ t.waitList n then h.granted else h.granted ++ [s.cur] } := by
    simp only [SemHistory.record, hact, hk, true_and, ne_eq, h0, not_false_eq_true, if_true]
  have hcur : s.cur ∉ s.waitList n := by
    intro hm
    rw [hs.sched.waitList_eq] at hm
    exact absurd (hs.sched.pool.eq_of_mem hs.sched.cur_mem hm) (by simp)
  have hp := hh.permits
  have hf := hh.fifo
  rw [hrec]
  obtain ⟨t', hd, -, hcases⟩ := hs.step_semWait hact hk hn h0
  obtain rfl : t = t' := Except.ok.inj (hst.symm.trans (Kernel.step_of_done hd))
  rcases hcases with ⟨hc, hc', hw, -⟩ | ⟨hc, hc', hw, -⟩
  · -- a free permit means that nobody waits
    have hempty : s.waitList n = [] := by
      by_contra hne
      exact hc (hh.blocked hne)
    rw [hw, if_neg hcur]
    rw [hempty, List.append_nil] at hf
    refine ⟨?_, ?_, ?_⟩
    · simp only [List.length_append, List.length_singleton, hc']
      omega
    · intro hne
      rw [hw] at hne
      exact absurd hempty hne
    · simp only [hw, hempty, List.append_nil, hf]
  · have hmem : s.cur ∈ t.waitList n := by simp [hw]
    rw [if_pos hmem]
    refine ⟨?_, fun _ => hc', ?_⟩
    · simp only [hc']
      omega
    · simp only [hw, hf, List.append_assoc]

/-- A signal, while the free permits stay below `2 ^ 32`. -/
lemma Holds.signal (hh : Holds n v s h) (hs : SystemOk s Q) (hn : (s.sem n).init = 1) {k : ℤ}
    (hact : e.act = .semSignal k) (hk : Kernel.semId k = some n) (hst : s.step e = .ok t)
    (hfree : v + (h.record n s e t).signals < 2 ^ 32 + (h.record n s e t).granted.length) :
    Holds n v t (h.record n s e t) := by
  have hrec : h.record n s e t = { h with
      granted := h.granted ++ (s.waitList n).filter (fun u => u ∉ t.waitList n)
      signals := h.signals + 1 } := by
    simp only [SemHistory.record, hact, hk, if_true]
  have hp := hh.permits
  have hf := hh.fifo
  rw [hrec] at hfree ⊢
  obtain ⟨t', ht', -, hcases⟩ := hs.step_semSignal hact hk hn
  rw [hst, Except.ok.injEq] at ht'
  subst ht'
  rcases hcases with ⟨hw, hc, hw'⟩ | ⟨u, rest, hw, hw', hc, -, -⟩
  · simp only [hw, List.filter_nil, List.append_nil] at hfree ⊢
    have hlt : (s.sem n).count + 1 < 2 ^ 32 := by omega
    refine ⟨?_, fun hne => absurd hw' hne, ?_⟩
    · simp only [hc, Nat.mod_eq_of_lt hlt]
      omega
    · rw [hw'] at *
      rw [hw] at hf
      exact hf
  · have hnd : (u :: rest).Nodup := by
      have h := hs.sched.pool.nodup (.waitList n)
      rw [← hs.sched.waitList_eq, hw] at h
      exact h
    have hfilter : (s.waitList n).filter (fun w => w ∉ t.waitList n) = [u] := by
      rw [hw, hw', List.filter_cons_of_pos (by simpa using (List.nodup_cons.mp hnd).1),
        List.filter_eq_nil_iff.mpr]
      intro w hwm
      simpa using hwm
    simp only [hfilter]
    refine ⟨?_, ?_, ?_⟩
    · simp only [hc, List.length_append, List.length_singleton]
      omega
    · intro _
      rw [hc]
      exact hh.blocked (by simp [hw])
    · rw [hw] at hf
      simp [hf, hw']

/-- An action that is no operation on the semaphore. -/
lemma Holds.spared (hh : Holds n v s h) (hs : SystemOk s Q) (hg : s.ExitsFindTwo e)
    (hact : Spares n e.act) (hst : s.step e = .ok t) (hin : (t.sem n).init = 1) :
    Holds n v t h := by
  obtain ⟨Q', hturn⟩ := (hs.step_effects e hg).1 t hst
  obtain ⟨h1, h2⟩ := hturn.spares hact hin
  refine hh.congr h1 ?_
  rw [(hturn.systemOk hs).sched.waitList_eq, hs.sched.waitList_eq]
  exact h2

/-- One step keeps the relation between a semaphore and its history. -/
lemma Holds.step (hh : Holds n v s h) (hs : SystemOk s Q) (hn : (s.sem n).init = 1)
    (hok : SemHistory.Ok n v (s, h) e) (hst : s.step e = .ok t) :
    Holds n v t (h.record n s e t) := by
  obtain ⟨hg, hafter⟩ := hok
  obtain ⟨hin, hfree⟩ := hafter t hst
  have hspared : Spares n e.act → Holds n v t h := fun hact => hh.spared hs hg hact hst hin
  have hrefused : ∀ r, s.dispatch e = .done ((s.enter e.regs).setEax r) → Holds n v t h := by
    intro r hd
    have ht := Kernel.step_of_done hd
    rw [hst, Except.ok.injEq] at ht
    subst ht
    exact hh.refused hs ((s.quiet_enter e.regs).trans (Kernel.quiet_setEax _ r))
  cases hact : e.act with
  | semWait k =>
    by_cases hk : Kernel.semId k = some n
    · by_cases h0 : s.cur = 0
      · -- task 0 is refused
        have hpid : (s.enter e.regs).current.pid = 0 :=
          (hs.sched.congr (s.quiet_enter e.regs).sched).current_pid_eq_zero_iff.mpr h0
        rw [SemHistory.record, hact]
        simp only [hk, h0, true_and, ne_eq, not_true_eq_false, if_false]
        refine hrefused (-ePerm) ?_
        rw [Kernel.dispatch, hact]
        simp only
        rw [Kernel.sysSemWait, if_pos hpid]
        rfl
      · exact hh.wait hs hn hact hk h0 hst
    · rw [SemHistory.record, hact]
      simp only [hk, false_and, if_false]
      refine hspared ?_
      intro k' hk'
      rw [hact]
      refine ⟨?_, by simp, by simp⟩
      rintro heq
      rw [Action.semWait.injEq] at heq
      exact hk (heq ▸ hk')
  | semSignal k =>
    by_cases hk : Kernel.semId k = some n
    · exact hh.signal hs hn hact hk hst hfree
    · rw [SemHistory.record, hact]
      simp only [hk, if_false]
      refine hspared ?_
      intro k' hk'
      rw [hact]
      refine ⟨by simp, ?_, by simp⟩
      rintro heq
      rw [Action.semSignal.injEq] at heq
      exact hk (heq ▸ hk')
  | semInit k w =>
    rw [SemHistory.record, hact]
    by_cases hk : Kernel.semId k = some n
    · -- the semaphore is in use, so the call is refused
      refine hrefused (-eBusy) ?_
      have hn' : ((s.enter e.regs).sem n).init = 1 := hn
      rw [Kernel.dispatch, hact]
      simp only
      rw [Kernel.sysSemInit, hk]
      simp only
      rw [if_pos hn']
      rfl
    · refine hspared ?_
      intro k' hk'
      rw [hact]
      refine ⟨by simp, by simp, ?_⟩
      rintro w' heq
      rw [Action.semInit.injEq] at heq
      exact hk (heq.1 ▸ hk')
  | _ =>
    rw [SemHistory.record, hact]
    refine hspared ?_
    intro k hk
    rw [hact]
    simp

end SemHistory

/-- **Semaphore conservation and order.**  From any state of a run from boot, a process takes
semaphore `n` with `v` permits; then any steps follow in which the semaphore is not destroyed
and the free permits stay below `2 ^ 32`; and every exit, before and after, finds two processes to
run.  In the state reached, permits are conserved, a process waits only when there is no permit, the
waiting processes are exactly the waits that have not been granted, in the order in which they were
issued, and the next signal moves the oldest of them to the end of the runqueue, with result 0, and
leaves the counter alone. -/
theorem semaphore_conservation_and_order (E : Env) {es₀ es : List Event} {s₀ s₁ s : Kernel}
    {e₀ : Event} {k₀ : ℤ} {n : SemId} {v : ℕ} {h : SemHistory} (hboot : ExitRun E.boot es₀ s₀)
    (hact₀ : e₀.act = .semInit k₀ v) (hk₀ : Kernel.semId k₀ = some n)
    (hfree₀ : (s₀.sem n).init ≠ 1) (hv : v < 2 ^ 32) (hst₀ : s₀.step e₀ = .ok s₁)
    (hrun : Run (record Kernel.step (SemHistory.record n)) (SemHistory.Ok n v)
      (s₁, SemHistory.start) es (s, h)) :
    v + h.signals = (s.sem n).count + h.granted.length ∧
    (s.waitList n ≠ [] → (s.sem n).count = 0) ∧
    h.issued = h.granted ++ s.waitList n ∧
    ∀ e k, e.act = .semSignal k → Kernel.semId k = some n → ∀ u rest, s.waitList n = u :: rest →
      ∃ t, s.step e = .ok t ∧ t.waitList n = rest ∧ t.runqueue = s.runqueue ++ [u] ∧
        (t.task u).stack eaxIndex = 0 ∧ (t.sem n).count = (s.sem n).count := by
  obtain ⟨Q₀, hs₀⟩ := hboot.systemOk
  obtain ⟨s₁', hst₁, -, hs₁, hsem₁, hw₁, -⟩ := hs₀.step_semInit hact₀ hk₀ hfree₀
  rw [hst₀, Except.ok.injEq] at hst₁
  subst hst₁
  have hinv : ∀ (x : Kernel × SemHistory) e y,
      ((∃ Q, SystemOk x.1 Q) ∧ (x.1.sem n).init = 1 ∧ SemHistory.Holds n v x.1 x.2) →
      SemHistory.Ok n v x e → record Kernel.step (SemHistory.record n) x e = .ok y →
      ((∃ Q, SystemOk y.1 Q) ∧ (y.1.sem n).init = 1 ∧ SemHistory.Holds n v y.1 y.2) := by
    rintro ⟨x, hx⟩ e ⟨y, hy⟩ ⟨⟨Q, hs⟩, hin, hh⟩ hok hrec
    obtain ⟨hst, hyx⟩ := record_ok_iff.mp hrec
    simp only at hst hyx hs hin hh
    subst hyx
    exact ⟨hs.step hok.1 hst, (hok.2 y hst).1, hh.step hs hin hok hst⟩
  have hstart : SemHistory.Holds n v s₁ SemHistory.start := by
    have hw : s₁.waitList n = [] := by rw [hs₁.sched.waitList_eq, hw₁]
    refine ⟨?_, fun hne => absurd hw hne, ?_⟩
    · simp only [hsem₁, Nat.mod_eq_of_lt hv, SemHistory.start, List.length_nil]
    · simp [SemHistory.start, hw]
  obtain ⟨⟨Q, hs⟩, hin, hh⟩ := hrun.invariant hinv ⟨⟨Q₀, hs₁⟩, by rw [hsem₁], hstart⟩
  refine ⟨hh.permits, hh.blocked, hh.fifo, ?_⟩
  intro e k hact hk u rest hw
  obtain ⟨t, ht, -, ⟨hw', -⟩ | ⟨u', rest', hw', hwt, hc, hrq, hres⟩⟩ :=
    hs.step_semSignal hact hk hin
  · rw [hw] at hw'
    simp at hw'
  · rw [hw, List.cons.injEq] at hw'
    obtain ⟨rfl, rfl⟩ := hw'
    exact ⟨t, ht, hwt, hrq, hres, by rw [hc]⟩

/-- The child of task 0 takes semaphore 3 with one permit and waits twice: the first wait is
granted, and the second one blocks it. -/
theorem semaphore_conservation_after_waits :
    ∃ s₀ s₁ s h, ExitRun zeroEnv.boot childRuns s₀ ∧ s₀.step (plain (.semInit 3 1)) = .ok s₁ ∧
      Run (record Kernel.step (SemHistory.record 3)) (SemHistory.Ok 3 1)
        (s₁, SemHistory.start) [plain (.semWait 3), plain (.semWait 3)] (s, h) ∧
      h.issued = [1, 1] ∧ h.granted = [1] ∧
      (1 + h.signals = (s.sem 3).count + h.granted.length ∧
      (s.waitList 3 ≠ [] → (s.sem 3).count = 0) ∧
      h.issued = h.granted ++ s.waitList 3 ∧
      ∀ e k, e.act = .semSignal k → Kernel.semId k = some 3 → ∀ u rest, s.waitList 3 = u :: rest →
        ∃ t, s.step e = .ok t ∧ t.waitList 3 = rest ∧ t.runqueue = s.runqueue ++ [u] ∧
          (t.task u).stack eaxIndex = 0 ∧ (t.sem 3).count = (s.sem 3).count) := by
  have hk : Kernel.semId 3 = some 3 := by decide
  obtain ⟨s₀, Q, hboot, hs₀, hcur₀, -, -, hsem₀⟩ := childRuns_run zeroEnv
  have hn : (s₀.sem 3).init ≠ 1 := by
    rw [hsem₀]
    show (0 : ℤ) ≠ 1
    decide
  obtain ⟨s₁, hst₁, -, hs₁, hsem₁, hw₁, -⟩ :=
    hs₀.step_semInit (e := plain (.semInit 3 1)) rfl hk hn
  have hcur₁ : s₁.cur = 1 := by
    have hhead := hs₁.sched.head
    rwa [hs₀.sched.head, Option.some.injEq, hcur₀, eq_comm] at hhead
  have hwait₁ : s₁.waitList 3 = [] := by rw [hs₁.sched.waitList_eq, hw₁]
  -- the first wait takes the permit
  obtain ⟨s₂, hd₂, hin₂, hcase₂⟩ := hs₁.step_semWait (e := plain (.semWait 3)) rfl hk
    (by rw [hsem₁]) (by rw [hcur₁]; decide)
  obtain ⟨-, hc₂, hw₂, hcur₂⟩ := hcase₂.resolve_right fun h => by simp [hsem₁] at h
  obtain ⟨Q₂, hs₂⟩ := hs₁.step (Kernel.exitsFindTwo_of_done hd₂) (Kernel.step_of_done hd₂)
  -- the second one finds none
  obtain ⟨s, hd, hin, hcase⟩ := hs₂.step_semWait (e := plain (.semWait 3)) rfl hk hin₂
    (by rw [hcur₂, hcur₁]; decide)
  obtain ⟨-, -, hw, -⟩ := hcase.resolve_left fun h => h.1 (by rw [hc₂, hsem₁]; rfl)
  rw [hw₂, hwait₁, hcur₂, hcur₁, List.nil_append] at hw
  have hrec₂ : SemHistory.start.record 3 s₁ (plain (.semWait 3)) s₂ =
      { issued := [1], granted := [1], signals := 0 } := by
    simp [SemHistory.record, plain, hk, hcur₁, hw₂, hwait₁, SemHistory.start]
  have hrec : SemHistory.record 3 s₂ (plain (.semWait 3)) s
      { issued := [1], granted := [1], signals := 0 } =
      { issued := [1, 1], granted := [1], signals := 0 } := by
    simp [SemHistory.record, plain, hk, hcur₂, hcur₁, hw]
  have hok₁ : SemHistory.Ok 3 1 (s₁, SemHistory.start) (plain (.semWait 3)) :=
    ⟨Kernel.exitsFindTwo_of_done hd₂,
      SemHistory.kept_of_step (Kernel.step_of_done hd₂) hrec₂ hin₂ (by decide)⟩
  have hok₂ : SemHistory.Ok 3 1 (s₂, { issued := [1], granted := [1], signals := 0 })
      (plain (.semWait 3)) :=
    ⟨Kernel.exitsFindTwo_of_done hd,
      SemHistory.kept_of_step (Kernel.step_of_done hd) hrec hin (by decide)⟩
  have hrun : Run (record Kernel.step (SemHistory.record 3)) (SemHistory.Ok 3 1)
      (s₁, SemHistory.start) [plain (.semWait 3), plain (.semWait 3)]
      (s, { issued := [1, 1], granted := [1], signals := 0 }) :=
    .cons hok₁ (record_ok_iff.mpr ⟨Kernel.step_of_done hd₂, hrec₂.symm⟩)
      (.cons hok₂ (record_ok_iff.mpr ⟨Kernel.step_of_done hd, hrec.symm⟩) (.nil _))
  have hact : (plain (.semInit 3 1)).act = .semInit 3 1 := rfl
  exact ⟨s₀, s₁, s, _, hboot, hst₁, hrun, rfl, rfl,
    semaphore_conservation_and_order zeroEnv hboot hact hk hn (by decide) hst₁ hrun⟩

/-- After a process has ended and kept the processor, waits can end without a signal.  A new child is
in its slot, and wait list 0 still leads to its node.  The child takes semaphore 1 without permits
and waits on it; then task 0 signals semaphore 0, and the wait list of semaphore 1 is empty, though
nobody has signalled it. -/
theorem semaphore_order_lost_after_exit :
    ∃ s₀ s₁ s h, AnyRun zeroEnv.boot slotReused s₀ ∧ s₀.Live 0 ∧ s₀.Live 1 ∧
      (s₀.sem 1).init ≠ 1 ∧ s₀.step (plain (.semInit 1 0)) = .ok s₁ ∧
      Run (record Kernel.step (SemHistory.record 1)) (SemHistory.Kept 1 0)
        (s₁, SemHistory.start) [plain (.semWait 1), plain (.semSignal 0)] (s, h) ∧
      h.issued = [1] ∧ h.granted = [] ∧ s.waitList 1 = [] ∧
      ¬ h.issued = h.granted ++ s.waitList 1 := by
  have hk : Kernel.semId 1 = some 1 := by decide
  obtain ⟨s₀, hrun₀, hcur₀, htask₀, htask₁, hsem₀, hrq₀, hhead₀⟩ := slotReused_run
  have hn₀ : (s₀.sem 1).init ≠ 1 := by
    rw [hsem₀, Function.update_of_ne (by decide)]
    show (0 : ℤ) ≠ 1
    decide
  obtain ⟨s₁, hst₁, hcur₁, -, -, hpid₁, hsem₁, hlinks₁⟩ :=
    Kernel.step_semInit_takes (s := s₀) (e := plain (.semInit 1 0)) rfl hk hn₀
  rw [hcur₀] at hcur₁
  have hrq₁ : Ring s₁.links .runqueue [.task 1, .task 0] := by
    rw [hlinks₁]
    exact hrq₀.initListHead_frame (by decide)
  have hwait₁ : Ring s₁.links (.waitList 1) [] := by
    rw [hlinks₁]
    exact ring_initListHead _ _
  have hhead₁ : s₁.links.next (.waitList 0) = some (.task 1) := by
    rw [hlinks₁, Links.next_initListHead, if_neg (by decide), hhead₀]
  -- the child blocks on semaphore 1
  have hdel : Ring (s₁.links.listDel (.task 1)) .runqueue ([] ++ [.task 0]) := Ring.listDel hrq₁
  have hwaitdel : Ring (s₁.links.listDel (.task 1)) (.waitList 1) [] :=
    hrq₁.listDel_frame (by decide) hwait₁ (by simp)
  set L := (s₁.links.listDel (.task 1)).listAddTail (.task 1) (.waitList 1) with hL
  have hrq₂ : Ring L .runqueue [.task 0] := hwaitdel.listAddTail_frame hdel (by decide) (by simp)
  have hwait₂ : Ring L (.waitList 1) [.task 1] := hwaitdel.listAddTail (by decide)
  have hhead₂ : L.next (.waitList 0) = some (.task 1) := by
    rw [hL, hwaitdel.next_listAddTail_of_notMem (by decide) (by decide),
      hrq₁.next_listDel_of_notMem (by decide) (by decide), hhead₁]
  have hd₂ := Kernel.dispatch_semWait_blocks (s := s₁) (e := plain (.semWait 1)) (v := 0) rfl hk
    (by rw [Kernel.current, hcur₁, (hpid₁ 1).1]; exact htask₁.ne')
    (by rw [hsem₁, Function.update_self]; rfl) (by rw [hcur₁]; exact hrq₂.next_head)
  set s₂ := ((s₁.enter fun _ => 0).moveCurrent (.waitList 1)).handTo 0 0 with hs₂
  have hq₁ := s₁.quiet_enter fun _ => 0
  have hlinks₂ : s₂.links = L := by
    rw [hs₂, Kernel.handTo_links, Kernel.moveCurrent, hq₁.sched.links, hq₁.sched.cur, hcur₁]
  have hsem₂ : s₂.sem = s₁.sem := hq₁.sched.sem
  -- task 0 signals semaphore 0, whose wait list leads to the child
  have hd₃ := Kernel.dispatch_semSignal_wakes (s := s₂) (e := plain (.semSignal 0)) (v := 1) rfl
    Kernel.semId_zero
    (by rw [hsem₂, hsem₁, Function.update_of_ne (by decide), hsem₀, Function.update_self])
    (by rw [hlinks₂, hhead₂])
  set s := ((s₂.enter fun _ => 0).woken 1 0).setEax 0 with hs
  have hlinks : s.links = (L.listDel (.task 1)).listAddTail (.task 1) .runqueue := by
    rw [← hlinks₂]
    rfl
  have hsem : s.sem = s₁.sem := hsem₂
  have hempty : s.waitList 1 = [] := by
    have hrq₃ : Ring (L.listDel (.task 1)) .runqueue [.task 0] :=
      hwait₂.listDel_frame (by decide) hrq₂ (by simp)
    have hwait₂' : Ring L (.waitList 1) ([] ++ [.task 1]) := hwait₂
    have hwait₃ : Ring (L.listDel (.task 1)) (.waitList 1) ([] ++ []) := hwait₂'.listDel
    refine queue_eq_of_ring ?_
    rw [hlinks]
    exact hrq₃.listAddTail_frame hwait₃ (by decide) (by simp)
  have hwaits : s₂.waitList 1 = [1] := by
    refine queue_eq_of_ring ?_
    rw [hlinks₂]
    exact hwait₂
  have hin : (s₁.sem 1).init = 1 := by rw [hsem₁, Function.update_self]
  have hrec₂ : SemHistory.start.record 1 s₁ (plain (.semWait 1)) s₂ =
      { issued := [1], granted := [], signals := 0 } := by
    simp [SemHistory.record, plain, hk, hcur₁, hwaits, SemHistory.start]
  have hrec : SemHistory.record 1 s₂ (plain (.semSignal 0)) s
      { issued := [1], granted := [], signals := 0 } =
      { issued := [1], granted := [], signals := 0 } := by
    simp [SemHistory.record, plain, Kernel.semId_zero]
  have hst₂ : s₁.step (plain (.semWait 1)) = .ok s₂ := Kernel.step_of_done hd₂
  have hst : s₂.step (plain (.semSignal 0)) = .ok s := Kernel.step_of_done hd₃
  have hrun : Run (record Kernel.step (SemHistory.record 1)) (SemHistory.Kept 1 0)
      (s₁, SemHistory.start) [plain (.semWait 1), plain (.semSignal 0)]
      (s, { issued := [1], granted := [], signals := 0 }) :=
    .cons (SemHistory.kept_of_step hst₂ hrec₂ (by rw [hsem₂, hin]) (by decide))
      (record_ok_iff.mpr ⟨hst₂, hrec₂.symm⟩)
      (.cons (SemHistory.kept_of_step hst hrec (by rw [hsem, hin]) (by decide))
        (record_ok_iff.mpr ⟨hst, hrec.symm⟩) (.nil _))
  refine ⟨s₀, s₁, s, _, hrun₀, ?_, htask₁.le, hn₀, hst₁, hrun, rfl, rfl, hempty, ?_⟩
  · rw [Kernel.Live, htask₀]
  · rw [hempty]
    decide

end ZeOS
