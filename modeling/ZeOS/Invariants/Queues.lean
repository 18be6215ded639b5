import ZeOS.Invariants.Frame
import ZeOS.Library.ListPool

/-!
# The queue invariant and the operations that move processes

`Linked s Q` says that the links of `s` carry the lists `Q` and that the processes with a
non-negative pid are exactly those on some list; `SchedOk` adds that the running process is
the first of the runqueue, which fails only between the unlinking of the running process and
the context switch.

Every operation of the kernel that moves a process is an instance of one rule
(`Linked.move`): take it off the list it is on and append it to another.  Blocking moves the
running process from the runqueue, waking moves the first process of a queue to it, and a
clock tick moves the running process to its own tail.  `sys_fork` and `sys_exit` are the two
operations that change which slots are on a list.
-/

namespace ZeOS

open IntrusiveList

namespace Kernel

/-- The list heads that are in use. -/
def Active (s : Kernel) : Node → Prop
  | .task _ => False
  | .runqueue => True
  | .keyboardQueue => True
  | .waitList n => (s.sem n).init = 1

/-- The running process goes to the end of the list of a head. -/
def moveCurrent (s : Kernel) (h : Node) : Kernel :=
  { s with links := (s.links.listDel (.task s.cur)).listAddTail (.task s.cur) h }

/-- The context switch of `schedule` and of the blocking calls. -/
def handTo (s : Kernel) (i : ℤ) (u : Slot) : Kernel := { s with itIsInt := i }.taskSwitch u

@[simp] lemma handTo_links (s : Kernel) (i : ℤ) (u : Slot) : (s.handTo i u).links = s.links := rfl

@[simp] lemma handTo_sem (s : Kernel) (i : ℤ) (u : Slot) : (s.handTo i u).sem = s.sem := rfl

@[simp] lemma handTo_cur (s : Kernel) (i : ℤ) (u : Slot) : (s.handTo i u).cur = u := rfl

lemma handTo_task (s : Kernel) (i : ℤ) (u v : Slot) :
    (s.handTo i u).task v =
      if v = u then { s.task v with
        transitions := (s.task v).transitions + 1, remaining := (s.task v).quantum }
      else s.task v := taskSwitch_task _ u v

lemma handTo_left4current (s : Kernel) (i : ℤ) (q : Slot) :
    (s.handTo i q).left4current = (s.task q).quantum := by
  simp [handTo, taskSwitch, updTask]

@[simp] lemma handTo_task_pid (s : Kernel) (i : ℤ) (u v : Slot) :
    ((s.handTo i u).task v).pid = (s.task v).pid := taskSwitch_task_pid _ u v

@[simp] lemma handTo_task_ownedSems (s : Kernel) (i : ℤ) (u v : Slot) :
    ((s.handTo i u).task v).ownedSems = (s.task v).ownedSems := taskSwitch_task_ownedSems _ u v

@[simp] lemma handTo_task_phPages (s : Kernel) (i : ℤ) (u v : Slot) :
    ((s.handTo i u).task v).phPages = (s.task v).phPages := taskSwitch_task_phPages _ u v

end Kernel

/-- The links carry the lists `Q`, and the live processes are those on them. -/
structure Linked (s : Kernel) (Q : Node → List Slot) : Prop where
  pool : Pool Node.task s.links s.Active Q
  live_iff : ∀ t, s.Live t ↔ ∃ h, t ∈ Q h
  /-- Task 0 is always on the runqueue. -/
  zero_mem : 0 ∈ Q .runqueue
  pid_zero : ∀ t, (s.task t).pid = 0 ↔ t = 0
  counter : 0 < s.pid

/-- The queue invariant of the states in which user code runs. -/
structure SchedOk (s : Kernel) (Q : Node → List Slot) : Prop extends Linked s Q where
  head : (Q .runqueue).head? = some s.cur

/-! ## Reading the lists back -/

lemma node_task_injective : Function.Injective Node.task := fun _ _ h => Node.task.inj h

lemma filterMap_listHeadToTaskStruct (ts : List Slot) :
    (ts.map Node.task).filterMap listHeadToTaskStruct = ts := by
  rw [List.filterMap_map]
  exact List.filterMap_some

/-- A well-formed list of tasks is what `queue` computes. -/
lemma queue_eq_of_ring {s : Kernel} {h : Node} {ts : List Slot}
    (hr : Ring s.links h (ts.map Node.task)) : s.queue h = ts := by
  have hnd : ts.Nodup := List.Nodup.of_map _ (List.nodup_cons.mp hr.1).2
  have hlen : ts.length ≤ nrTasks := by
    simpa using hnd.length_le_card
  rw [Kernel.queue, hr.members_eq, filterMap_listHeadToTaskStruct]
  rw [List.length_map]
  exact lt_of_le_of_lt hlen (by decide)

namespace Linked

variable {s t : Kernel} {Q : Node → List Slot}

/-- The list of a head is what `queue` computes, also when the head is out of use. -/
lemma queue_eq (hs : Linked s Q) {h : Node} (hh : ∀ t, Node.task t ≠ h) : s.queue h = Q h := by
  by_cases ha : s.Active h
  · exact queue_eq_of_ring (hs.pool.ring h ha)
  · rw [hs.pool.inactive h ha, Kernel.queue, Links.members]
    rcases hs.pool.idle h ha hh with hn | hn
    · rw [hn]
      rfl
    · rw [hn, show numNodes = (nrTasks + 1 + semMaxValue) + 1 from rfl, Links.walk, if_pos rfl]
      rfl

lemma runqueue_eq (hs : Linked s Q) : s.runqueue = Q .runqueue := hs.queue_eq (by simp)

lemma keyboardQueue_eq (hs : Linked s Q) : s.keyboardQueue = Q .keyboardQueue :=
  hs.queue_eq (by simp)

lemma waitList_eq (hs : Linked s Q) (n : SemId) : s.waitList n = Q (.waitList n) :=
  hs.queue_eq (by simp)

/-- The pool may change in any way that keeps the processes on the lists, when the pids stay. -/
lemma of_pool {Q' : Node → List Slot} (hs : Linked s Q)
    (hpool : Pool Node.task t.links t.Active Q')
    (hmem : ∀ u, (∃ h, u ∈ Q' h) ↔ ∃ h, u ∈ Q h) (hzero : 0 ∈ Q' .runqueue)
    (hpid : ∀ u, (t.task u).pid = (s.task u).pid) (hcounter : t.pid = s.pid) : Linked t Q' := by
  refine ⟨hpool, ?_, hzero, ?_, ?_⟩
  · intro u
    rw [Kernel.Live, hpid u, hmem u]
    exact hs.live_iff u
  · intro u
    rw [hpid u, hs.pid_zero u]
  · rw [hcounter]
    exact hs.counter

/-- The invariant only reads what `SameSched` keeps. -/
lemma congr (hs : Linked s Q) (h : SameSched s t) : Linked t Q := by
  refine hs.of_pool ?_ (fun u => Iff.rfl) hs.zero_mem h.pid h.counter
  rw [h.links]
  apply hs.pool.congr_act
  intro k
  cases k <;> simp [Kernel.Active, h.sem]

/-- Which process runs does not matter. -/
lemma switchTo (hs : Linked s Q) (u : Slot) (i : ℤ) :
    Linked (s.handTo i u) Q :=
  hs.of_pool hs.pool (fun v => Iff.rfl) hs.zero_mem (fun v => by simp) rfl

/-- The runqueue is never empty, so `runqueue.next` is a process. -/
lemma switchToNext (hs : Linked s Q) (i : ℤ) {α : Type} :
    ∃ u rest, Q .runqueue = u :: rest ∧
      (s.switchToNext i : Outcome Kernel α) = .switched (s.handTo i u) ∧
      SchedOk (s.handTo i u) Q := by
  cases hQ : Q .runqueue with
  | nil =>
    have h0 := hs.zero_mem
    rw [hQ] at h0
    exact absurd h0 List.not_mem_nil
  | cons u rest =>
    have hr := hs.pool.ring .runqueue trivial
    rw [hQ, List.map_cons] at hr
    refine ⟨u, rest, rfl, ?_, hs.switchTo u i, ?_⟩
    · rw [Kernel.switchToNext, hr.next_head]
      rfl
    · rw [hQ, Kernel.handTo_cur]
      rfl

/-- **The one rule of process movement.** A process goes from the list it is on to the end of
a list in use; task 0 may only go to the runqueue. -/
lemma move (hs : Linked s Q) {a k : Node} {u : Slot} (hu : u ∈ Q a) (hk : s.Active k)
    (hz : u = 0 → k = .runqueue) :
    Linked { s with links := (s.links.listDel (.task u)).listAddTail (.task u) k }
      (Pool.moved Q u a k) := by
  refine hs.of_pool (hs.pool.move hu hk) (fun v => Pool.mem_moved hu) ?_ (fun v => rfl) rfl
  rw [Pool.moved_apply]
  by_cases hu0 : u = 0
  · rw [hz hu0]
    simp [hu0]
  · have hm : (0 : Slot) ∈ (Q .runqueue).erase u :=
      (List.mem_erase_of_ne (Ne.symm hu0)).mpr hs.zero_mem
    split_ifs <;> simp [hm, hs.zero_mem]

end Linked

namespace SchedOk

variable {s t : Kernel} {Q : Node → List Slot}

lemma congr (hs : SchedOk s Q) (h : SameSched s t) : SchedOk t Q :=
  ⟨hs.toLinked.congr h, by rw [h.cur]; exact hs.head⟩

/-- The runqueue starts with the running process. -/
lemma runqueue_cons (hs : SchedOk s Q) : ∃ rest, Q .runqueue = s.cur :: rest := by
  cases hQ : Q .runqueue with
  | nil =>
    have h := hs.head
    rw [hQ] at h
    simp at h
  | cons u rest =>
    have h := hs.head
    rw [hQ] at h
    simp only [List.head?_cons, Option.some.injEq] at h
    exact ⟨rest, by rw [h]⟩

lemma cur_mem (hs : SchedOk s Q) : s.cur ∈ Q .runqueue := by
  obtain ⟨rest, hQ⟩ := hs.runqueue_cons
  rw [hQ]
  exact List.mem_cons_self ..

lemma cur_live (hs : SchedOk s Q) : s.Live s.cur := (hs.live_iff s.cur).mpr ⟨_, hs.cur_mem⟩

lemma erase_cur (hs : SchedOk s Q) : (Q .runqueue).erase s.cur = (Q .runqueue).tail := by
  obtain ⟨rest, hQ⟩ := hs.runqueue_cons
  rw [hQ, List.erase_cons_head, List.tail_cons]

/-- Only the first process of the runqueue runs. -/
lemma ne_cur_of_mem_tail (hs : SchedOk s Q) {u : Slot} (hu : u ∈ (Q .runqueue).tail) : u ≠ s.cur := by
  rintro rfl
  have hno := hs.pool.not_mem_erase hs.cur_mem .runqueue
  rw [Function.update_self, hs.erase_cur] at hno
  exact hno hu

lemma cur_pid_ne_neg_one (hs : SchedOk s Q) : s.current.pid ≠ -1 := by
  have h := hs.cur_live
  intro hpid
  rw [Kernel.Live, hpid] at h
  omega

lemma current_pid_eq_zero_iff (hs : SchedOk s Q) : s.current.pid = 0 ↔ s.cur = 0 :=
  hs.pid_zero s.cur

/-- Waking the first process of a queue leaves the running process first. -/
lemma wake (hs : SchedOk s Q) {a : Node} {u : Slot} (hu : u ∈ Q a) (ha : a ≠ .runqueue) :
    SchedOk { s with links := (s.links.listDel (.task u)).listAddTail (.task u) .runqueue }
      (Pool.moved Q u a .runqueue) := by
  refine ⟨hs.toLinked.move hu trivial (fun _ => rfl), ?_⟩
  obtain ⟨rest, hQ⟩ := hs.runqueue_cons
  rw [Pool.moved_apply, if_neg (Ne.symm ha), hQ]
  rfl

end SchedOk

/-! ## The scheduler -/

namespace Kernel

lemma quiet_newQuantum (s : Kernel) (q : ℤ) :
    Quiet s ({ s with left4current := q }.updTask s.cur fun k => { k with remaining := q }) := by
  have h : Quiet s { s with left4current := q } := .other rfl rfl rfl rfl rfl rfl
  exact h.trans (.updTask _ s.cur _ rfl rfl rfl)

/-- What `schedule` does to the queues: nothing, when the time is not over or there is only
one process; otherwise a context switch, after the running process has gone to the tail. -/
lemma schedule_cases {s : Kernel} {Q : Node → List Slot} (hs : SchedOk s Q) (i : ℤ) :
    (∃ t, s.schedule i = .ret () t ∧ Quiet s t ∧ ¬ (s.left4current ≤ 0 ∧ 2 ≤ (Q .runqueue).length)) ∨
    (s.left4current ≤ 0 ∧ 2 ≤ (Q .runqueue).length ∧ ∃ u rest,
      (Q .runqueue).tail = u :: rest ∧
      s.schedule i = .switched ((s.moveCurrent .runqueue).handTo i u) ∧
      SchedOk ((s.moveCurrent .runqueue).handTo i u)
        (Pool.moved Q s.cur .runqueue .runqueue)) := by
  have hfl := (hs.pool.ring .runqueue trivial).first_eq_last_iff
  rw [List.length_map] at hfl
  unfold schedule
  by_cases hleft : s.left4current ≤ 0
  · rw [if_pos hleft]
    by_cases hone : (Q .runqueue).length ≤ 1
    · rw [if_pos (hfl.mpr hone)]
      exact .inl ⟨_, rfl, s.quiet_newQuantum _, by omega⟩
    · rw [if_neg (fun h => hone (hfl.mp h)), if_pos hs.cur_pid_ne_neg_one]
      refine .inr ⟨hleft, by omega, ?_⟩
      have hl := hs.toLinked.move hs.cur_mem (k := .runqueue) trivial (fun _ => rfl)
      obtain ⟨u, rest, hQ, hsw, hok⟩ := hl.switchToNext i (α := Unit)
      rw [Pool.moved_apply, if_pos rfl, if_pos rfl, hs.erase_cur] at hQ
      -- the tail is not empty, so its first element is the new head
      cases htail : (Q .runqueue).tail with
      | nil =>
        have hlen : (Q .runqueue).tail.length = 0 := by rw [htail]; rfl
        rw [List.length_tail] at hlen
        omega
      | cons v vs =>
        rw [htail, List.cons_append, List.cons.injEq] at hQ
        exact ⟨u, vs, by rw [hQ.1], hsw, hok⟩
  · rw [if_neg hleft]
    exact .inl ⟨s, rfl, .refl s, fun h => hleft h.1⟩

/-- `schedule` called by `sys_exit`, on a process that is on no list: with two processes left
it switches to the first, with one it does not switch at all. -/
lemma schedule_exited {s : Kernel} {Q : Node → List Slot} (hs : Linked s Q)
    (hleft : s.left4current ≤ 0) (hpid : s.current.pid = -1) (i : ℤ) :
    (2 ≤ (Q .runqueue).length ∧ ∃ u rest, Q .runqueue = u :: rest ∧
      s.schedule i = .switched (s.handTo i u) ∧
      SchedOk (s.handTo i u) Q) ∨
    ((Q .runqueue).length < 2 ∧ ∃ t, s.schedule i = .ret () t ∧ Quiet s t) := by
  have hfl := (hs.pool.ring .runqueue trivial).first_eq_last_iff
  rw [List.length_map] at hfl
  unfold schedule
  rw [if_pos hleft]
  by_cases hone : (Q .runqueue).length ≤ 1
  · rw [if_pos (hfl.mpr hone)]
    exact .inr ⟨by omega, _, rfl, s.quiet_newQuantum _⟩
  · rw [if_neg (fun h => hone (hfl.mp h)), if_neg (fun h => h hpid)]
    exact .inl ⟨by omega, hs.switchToNext i⟩

end Kernel

end ZeOS
