import ZeOS.EntryCode
import ZeOS.CpuTime

/-!
# Registers across the kernel

To user code the kernel is transparent.  A process that an interrupt takes the processor from goes on
with all its registers, whoever runs in between and whatever they do; a process that makes a system
call goes on with all of them but `%eax`, which has the result; and a child starts with the registers
of its parent and 0 in `%eax`.

The history of a run (`noteEntry`) keeps what each process had in its registers when it came into the
kernel last.  `Kept` relates the saved registers to it, and is kept by every step: code that runs for
one process touches the saved registers of another only to give a result to one that waits for a
semaphore (`StepServes.other`).

The one register that is left open is `%ecx` after `sys_open`, which uses its second argument as a
variable: the compiler may keep that variable in the argument's place on the stack.
-/

namespace ZeOS

open IntrusiveList GuardedRun Relation

/-! ## Who waits -/

section

variable {act : Action} {x y : Config} {n : SemId} {u : Slot}

lemma Calm.waitList (h : Calm act x y) (hu : u ∈ y.2 (.waitList n)) : u ∈ x.2 (.waitList n) := by
  cases h with
  | wake =>
    simp only [Pool.moved_apply, reduceCtorEq, if_false, List.append_nil] at hu
    split_ifs at hu
    · exact List.mem_of_mem_erase hu
    · exact hu
  | release =>
    simp only [releasedQueues] at hu
    split_ifs at hu
    · simp at hu
    · exact hu
  | fork =>
    simpa only [ne_eq, reduceCtorEq, not_false_eq_true, Function.update_of_ne] using hu
  | _ => exact hu

lemma Handover.waitList (h : Handover act x y) (hu : u ∈ y.2 (.waitList n)) :
    u ∈ x.2 (.waitList n) ∨ u = x.1.cur ∧ ∃ k, act = .semWait k := by
  cases h with
  | @move s Q h v rest i ha h0 hact hkbd hne hQ =>
    simp only [Pool.moved_apply, reduceCtorEq, if_false, List.mem_append] at hu
    rcases hu with hu | hu
    · exact .inl hu
    · split_ifs at hu with hn
      · obtain ⟨k, hk, -⟩ := hact n hn.symm
        exact .inr ⟨List.mem_singleton.mp hu, k, hk⟩
      · simp at hu
  | exit =>
    simp only [leftQueues, ne_eq, reduceCtorEq, not_false_eq_true, Function.update_of_ne] at hu
    exact .inl hu

/-- Only a call of `sys_sem_wait` makes a process wait, and only its caller. -/
lemma Turn.waitList (h : Turn act x y) (hu : u ∈ y.2 (.waitList n)) :
    u ∈ x.2 (.waitList n) ∨ u = x.1.cur ∧ ∃ k, act = .semWait k := by
  have hcalms : ∀ {z : Config}, Calms act x z → u ∈ z.2 (.waitList n) → u ∈ x.2 (.waitList n) := by
    intro z hz hm
    induction hz with
    | refl => exact hm
    | tail _ hc ih => exact ih (hc.waitList hm)
  rcases h with h | ⟨z, hc, hh⟩
  · exact .inl (hcalms h hu)
  · rcases hh.waitList hu with hz | ⟨hcur, hk⟩
    · exact .inl (hcalms hc hz)
    · exact .inr ⟨hcur.trans hc.cur_eq, hk⟩

end

section

variable {s t : Kernel} {e : Event} {Q : Node → List Slot} {u : Slot}

/-- The same for a step. -/
lemma SystemOk.step_waits (hs : SystemOk s Q) (hg : s.ExitsFindTwo e) (hst : s.step e = .ok t)
    (hu : t.WaitsForSem u) : s.WaitsForSem u ∨ u = s.cur ∧ ∃ k, e.act = .semWait k := by
  obtain ⟨Q', hturn⟩ := (hs.step_effects e hg).1 t hst
  have ht : SchedOk t Q' := (hturn.systemOk hs).sched
  obtain ⟨n, hn⟩ := (ht.waitsForSem_iff u).mp hu
  rcases hturn.waitList hn with hw | hcur
  · exact .inl ((hs.sched.waitsForSem_iff u).mpr ⟨n, hw⟩)
  · exact .inr hcur

end

/-! ## What a step does to the saved registers of the others -/

/-- Accesses of user code, which save no registers. -/
def Action.isUser : Action → Bool
  | .store .. | .pageFault => true
  | _ => false

namespace Kernel

variable {s t : Kernel} {e : Event} {u : Slot}

lemma entered_links (s : Kernel) (e : Event) : (s.entered e).links = s.links := by
  unfold entered
  split <;> rfl

lemma waitsForSem_of_links (h : t.links = s.links) : t.WaitsForSem u ↔ s.WaitsForSem u := by
  simp only [WaitsForSem, waitList, queue, h]

lemma setEax_waits (s : Kernel) (r : ℤ) : (s.setEax r).WaitsForSem u ↔ s.WaitsForSem u :=
  waitsForSem_of_links rfl

lemma entered_waits (s : Kernel) (e : Event) : (s.entered e).WaitsForSem u ↔ s.WaitsForSem u :=
  waitsForSem_of_links (s.entered_links e)

lemma enter_task_stack (s : Kernel) (k : SavedRegs) (u : Slot) :
    ((s.enter k).task u).stack = if u = s.cur then k else (s.task u).stack := by
  rw [enter, updTask_task]
  split_ifs <;> rfl

lemma setEax_task_stack (s : Kernel) (r : ℤ) (u : Slot) : ((s.setEax r).task u).stack =
    if u = s.cur then Function.update (s.task u).stack eaxIndex r else (s.task u).stack := by
  rw [setEax, updTask_task]
  split_ifs with hu
  · rw [hu]
  · rfl

lemma handTo_task_stack (s : Kernel) (i : ℤ) (p u : Slot) :
    ((s.handTo i p).task u).stack = (s.task u).stack := by
  rw [handTo_task]
  split_ifs <;> rfl

lemma leave_task_stack (s : Kernel) (u : Slot) : (s.leave.task u).stack = (s.task u).stack := by
  rw [leave_eq]
  by_cases hu : u = s.cur
  · subst hu
    simp
  · simp [hu]

lemma forkFailed_task_stack (s : Kernel) {new : Slot} (mm : Memory) (hu : u ≠ new) :
    ((s.forkFailed new mm).task u).stack = (s.task u).stack := by
  simp only [forkFailed, Function.update_of_ne hu]

lemma forked_task_stack (s : Kernel) {new : Slot} (frames : Fin numPagData → ℤ) (mm : Memory)
    (hu : u ≠ new) : ((s.forked new frames mm).task u).stack = (s.task u).stack := by
  simp only [forked, Function.update_of_ne hu]

lemma sysNice_task_stack (s : Kernel) (q : ℤ) (u : Slot) :
    ((s.sysNice q).2.task u).stack = (s.task u).stack := by
  rw [sysNice]
  split_ifs
  · dsimp only
    rw [updTask_task]
    split_ifs with hu
    · rw [hu]
    · rfl
  · rfl

lemma sysNice_cur (s : Kernel) (q : ℤ) : (s.sysNice q).2.cur = s.cur := by
  rw [sysNice]
  split_ifs <;> rfl

lemma sysNice_links (s : Kernel) (q : ℤ) : (s.sysNice q).2.links = s.links := by
  rw [sysNice]
  split_ifs <;> rfl

/-- The registers of an entry are those of the running process. -/
lemma entered_stack (s : Kernel) (e : Event) (u : Slot) : ((s.entered e).task u).stack =
    if u = s.cur ∧ e.act.isUser = false then e.regs else (s.task u).stack := by
  have henter := s.enter_task_stack e.regs u
  unfold entered
  cases h : e.act with
  | clock =>
    simp only [Action.isUser, and_true]
    rw [tick_task]
    split_ifs <;> rfl
  | store a b => simp [Action.isUser]
  | pageFault => simp [Action.isUser]
  | _ => simpa only [Action.isUser, and_true] using henter

lemma undisturbed_entered (hu : u ≠ s.cur) : Undisturbed s (s.entered e) u := by
  refine ⟨?_, (s.entered_waits e).mpr⟩
  rw [entered_stack, if_neg (fun h => hu h.1)]

end Kernel

section

open Kernel

variable {s t : Kernel} {e : Event} {Q : Node → List Slot} {u : Slot}

/-- In a step the saved registers of another process only change to a result that it waits for. -/
lemma StepServes.other (h : StepServes s e t) (hs : SchedOk s Q) (hu : u ≠ s.cur) (hl : s.Live u) :
    Undisturbed s t u ∨ s.WaitsForSem u ∧ Answered WakeResult s t u := by
  have hent : Undisturbed s (s.entered e) u := undisturbed_entered hu
  -- code that serves the running process, and then a change of process
  have hserved : ∀ {R : ℤ → Prop} {v : Kernel}, Served R (s.entered e) v →
      Undisturbed s v u ∨ s.WaitsForSem u ∧ Answered WakeResult s v u := by
    intro R v hv
    rcases hv.saved u with hk | ⟨hcur, -⟩ | ⟨hw, ha⟩
    · exact .inl (hent.trans hk)
    · exact absurd (hcur.trans (s.entered_cur e)) hu
    · exact .inr ⟨(s.entered_waits e).mp hw, hent.answered ha⟩
  have hafter : ∀ {v : Kernel}, (t.task u).stack = (v.task u).stack →
      (v.WaitsForSem u → t.WaitsForSem u) →
      Undisturbed s v u ∨ s.WaitsForSem u ∧ Answered WakeResult s v u →
      Undisturbed s t u ∨ s.WaitsForSem u ∧ Answered WakeResult s t u := by
    rintro v hstack hwait (hv | ⟨hw, ha⟩)
    · exact .inl (hv.trans ⟨hstack, hwait⟩)
    · exact .inr ⟨hw, ha.undisturbed ⟨hstack, hwait⟩⟩
  cases h with
  | stays hfork hnice hclock h hans hexit hfault => exact hserved h
  | ticks hact hleft ht => exact hserved (ht ▸ served_showTime (R := NoResult) (s.entered e))
  | renews hact hleft hone ht =>
    refine .inl (hent.trans ⟨?_, (waitsForSem_of_links ?_).mpr⟩)
    · rw [ht, showTime_task, renewed, updTask_task, s.entered_cur, if_neg hu]
    · rw [ht, showTime_links]
      rfl
  | remains x hact ht =>
    refine .inl ⟨?_, (waitsForSem_of_links ?_).mpr⟩
    · rw [ht, setEax_task_stack, if_neg (show u ≠ (s.enter e.regs).cur from hu), enter_task_stack,
        if_neg hu]
    · rw [ht]
      rfl
  | nice q hact ht =>
    have hne : u ≠ ((s.enter e.regs).sysNice q).2.cur := by rwa [sysNice_cur]
    refine .inl ⟨?_, (waitsForSem_of_links ?_).mpr⟩
    · rw [ht, setEax_task_stack, if_neg hne, sysNice_task_stack, enter_task_stack, if_neg hu]
    · rw [ht]
      exact sysNice_links ..
  | forkFails hact ht =>
    have hok := hs.congr (s.quiet_enter e.regs).sched
    rcases ht with rfl | ⟨new, mm, hnew, rfl⟩
    · refine .inl ⟨?_, (waitsForSem_of_links rfl).mpr⟩
      rw [setEax_task_stack, if_neg (show u ≠ (s.enter e.regs).cur from hu), enter_task_stack,
        if_neg hu]
    · have hdead : ((s.enter e.regs).task new).pid < 0 := by
        rw [(s.quiet_enter e.regs).sched.pid]
        exact not_le.mp hnew
      have hok' := hok.forkFailed hdead mm
      have hun : u ≠ new := fun h => hnew (h ▸ hl)
      refine .inl ⟨?_, fun hw => ?_⟩
      · have hcur : u ≠ ((s.enter e.regs).forkFailed new mm).cur := hu
        rw [setEax_task_stack, if_neg hcur, forkFailed_task_stack _ mm hun, enter_task_stack,
          if_neg hu]
      · rw [setEax_waits, hok'.waitsForSem_iff]
        exact (hs.waitsForSem_iff u).mp hw
  | forks new frames mm hact hnew ht =>
    have hdead : ((s.enter e.regs).task new).pid < 0 := by
      rw [(s.quiet_enter e.regs).sched.pid]
      exact not_le.mp hnew
    have hok := (hs.congr (s.quiet_enter e.regs).sched).forked hdead frames mm
    have hun : u ≠ new := fun h => hnew (h ▸ hl)
    refine .inl ⟨?_, fun hw => ?_⟩
    · have hcur : u ≠ ((s.enter e.regs).forked new frames mm).cur := hu
      rw [ht, setEax_task_stack, if_neg hcur, forked_task_stack _ frames mm hun, enter_task_stack,
        if_neg hu]
    · rw [ht, setEax_waits, hok.waitsForSem_iff]
      simpa only [ne_eq, reduceCtorEq, not_false_eq_true, Function.update_of_ne] using
        (hs.waitsForSem_iff u).mp hw
  | hands hfork hnice hexit huser h =>
    obtain ⟨v, i, p, k, hv, hne, ht, hwait, -⟩ := h
    rw [s.entered_cur] at hwait
    refine hafter ?_ (hwait u hu).mpr (hserved hv)
    rw [ht, handTo_task_stack]
    rfl
  | ends v p hfork hnice h hne h0 ht hwait =>
    refine hafter ?_ (hwait u).mpr (hserved h)
    rw [ht, handTo_task_stack, leave_task_stack]

end

/-! ## The last entry -/

/-- The last time that a process came into the kernel: its registers and what it came for.  A child
comes to life in its parent's call. -/
structure LastEntry where
  regs : SavedRegs
  act : Action
  child : Bool

/-- What interrupts a process in no call of its own. -/
def Action.isInterrupt : Action → Bool
  | .clock | .key .. => true
  | _ => false

/-- The system calls that return. -/
def Action.isCall : Action → Bool
  | .exit _ | .clock | .key .. | .store .. | .pageFault => false
  | _ => true

lemma PlainCall.isCall {act : Action} (h : PlainCall act) : act.isCall = true := by
  cases act <;> first | rfl | exact h.elim

/-- The saved registers `k` of a process whose last entry is `en`. -/
inductive LastEntry.Kept (en : LastEntry) (waits : Prop) (k : SavedRegs) : Prop
  | born (hchild : en.child = true) (hact : en.act = .fork) (hw : ¬ waits)
      (hk : k = Function.update en.regs eaxIndex 0)
  | interrupted (hchild : en.child = false) (hact : en.act.isInterrupt = true) (hw : ¬ waits)
      (hk : k = en.regs)
  | remains (x : ℤ) (hchild : en.child = false) (hact : en.act = .exit x) (hw : ¬ waits)
      (hk : k = Function.update en.regs eaxIndex x)
  | waiting (r : ℤ) (hchild : en.child = false) (hact : ∃ n, en.act = .semWait n) (hw : waits)
      (hk : k = Function.update en.regs eaxIndex r)
  | answered (r : ℤ) (hchild : en.child = false) (hact : en.act.isCall = true) (hw : ¬ waits)
      (hr : en.act.Returns r) (hk : k = Function.update en.regs eaxIndex r)

/-- The history of the entries: that of the running process, and with a child its parent's. -/
def noteEntry (s : Kernel) (e : Event) (t : Kernel) (g : Slot → Option LastEntry) :
    Slot → Option LastEntry := fun u =>
  if ¬ s.Live u ∧ t.Live u then some { regs := e.regs, act := .fork, child := true }
  else if u = s.cur ∧ e.act.isUser = false then some { regs := e.regs, act := e.act, child := false }
  else g u

section

variable {s t : Kernel} {e : Event} {u : Slot} {g : Slot → Option LastEntry}

lemma noteEntry_cur (hl : s.Live s.cur) (huser : e.act.isUser = false) :
    noteEntry s e t g s.cur = some { regs := e.regs, act := e.act, child := false } := by
  rw [noteEntry, if_neg (fun h => h.1 hl), if_pos ⟨rfl, huser⟩]

/-- Nothing is noted of a process while others run. -/
lemma noteEntry_of_ne (hl : s.Live u) (hu : u ≠ s.cur) : noteEntry s e t g u = g u := by
  rw [noteEntry, if_neg (fun h => h.1 hl), if_neg (fun h => hu h.1)]

lemma noteEntry_run {es : List Event} {g' : Slot → Option LastEntry}
    (h : Run (record Kernel.step noteEntry) (fun s _ => s.1.Live u ∧ u ≠ s.1.cur) (s, g) es (t, g')) :
    g' u = g u := by
  have hstep : ∀ (x : Kernel × (Slot → Option LastEntry)) (e : Event) (y), x.2 u = g u →
      x.1.Live u ∧ u ≠ x.1.cur → record Kernel.step noteEntry x e = .ok y → y.2 u = g u := by
    intro x e y hx hok hst
    rw [(record_ok_iff.mp hst).2, noteEntry_of_ne hok.1 hok.2, hx]
  exact h.invariant hstep rfl

end

/-- A process has its saved registers, or it has never come into the kernel. -/
def KeptFor (s : Kernel) (g : Slot → Option LastEntry) (u : Slot) : Prop :=
  (g u = none ∧ u = s.cur) ∨ ∃ en, g u = some en ∧ en.Kept (s.WaitsForSem u) (s.task u).stack

section

open Kernel

variable {s t : Kernel} {e : Event} {Q : Node → List Slot} {u : Slot} {g : Slot → Option LastEntry}
  {en : LastEntry}

/-- What other processes do. -/
lemma LastEntry.Kept.other (h : en.Kept (s.WaitsForSem u) (s.task u).stack)
    (hwaits : t.WaitsForSem u → s.WaitsForSem u)
    (hsaved : Undisturbed s t u ∨ s.WaitsForSem u ∧ Answered WakeResult s t u) :
    en.Kept (t.WaitsForSem u) (t.task u).stack := by
  rcases hsaved with ⟨hstack, hw⟩ | ⟨hw, r', hr', hstack⟩
  · have hiff : t.WaitsForSem u ↔ s.WaitsForSem u := ⟨hwaits, hw⟩
    rwa [hstack, hiff]
  · cases h with
    | waiting r hchild hact _ hk =>
      have hk' : (t.task u).stack = Function.update en.regs eaxIndex r' := by
        rw [hstack, hk, Function.update_idem]
      by_cases ht : t.WaitsForSem u
      · exact .waiting r' hchild hact ht hk'
      · obtain ⟨n, hn⟩ := hact
        exact .answered r' hchild (by rw [hn]; rfl) ht (hn ▸ hr'.returns) hk'
    | born hchild hact hno hk => exact absurd hw hno
    | interrupted hchild hact hno hk => exact absurd hw hno
    | remains x hchild hact hno hk => exact absurd hw hno
    | answered r hchild hact hno hr hk => exact absurd hw hno

/-- What is left when an entry is no plain call, no `fork`, `nice` or `exit`. -/
lemma Action.isInterrupt_of {act : Action} (hplain : ¬ PlainCall act) (huser : act.isUser = false)
    (hfork : act ≠ .fork) (hnice : ∀ q, act ≠ .nice q) (hexit : ∀ x, act ≠ .exit x) :
    act.isInterrupt = true := by
  cases act <;> simp [PlainCall, isInterrupt, isUser] at hplain huser hfork hnice hexit ⊢

/-- Code that serves the running process leaves its registers, or gives it a result. -/
lemma Served.own {R : ℤ → Prop} {v : Kernel} (h : Served R (s.entered e) v)
    (hno : ¬ (s.entered e).WaitsForSem s.cur) :
    (v.task s.cur).stack = ((s.entered e).task s.cur).stack ∨ Answered R (s.entered e) v s.cur := by
  rcases h.saved s.cur with ⟨hstack, -⟩ | ⟨-, ha⟩ | ⟨hw, -⟩
  · exact .inl hstack
  · exact .inr ha
  · exact absurd hw hno

/-- A process that ends is not alive any more. -/
lemma not_live_of_ends {R : ℤ → Prop} {v : Kernel} {p : Slot} (h : Served R (s.entered e) v)
    (ht : t = v.leave.handTo 0 p) : ¬ t.Live s.cur := by
  have hcur : v.cur = s.cur := h.cur.trans (s.entered_cur e)
  have hdead : (t.task s.cur).pid = -1 := by
    rw [ht, handTo_task_pid, leave_eq, ← hcur]
    simp
  rw [Live, hdead]
  omega

/-- What the running process's own step saves. -/
lemma StepServes.own (h : StepServes s e t) (hs : SchedOk s Q) (htime : TimeOk s)
    (hwaits : t.WaitsForSem s.cur → s.WaitsForSem s.cur ∨ ∃ k, e.act = .semWait k)
    (hl : t.Live s.cur) (huser : e.act.isUser = false) :
    LastEntry.Kept ⟨e.regs, e.act, false⟩ (t.WaitsForSem s.cur) (t.task s.cur).stack := by
  have hent : ((s.entered e).task s.cur).stack = e.regs := by
    rw [entered_stack, if_pos ⟨rfl, huser⟩]
  have hno : ¬ s.WaitsForSem s.cur := hs.not_waitsForSem
  have hno' : ¬ (s.entered e).WaitsForSem s.cur := fun h => hno ((s.entered_waits e).mp h)
  -- only a wait makes it wait
  have hquiet : (∀ k, e.act ≠ .semWait k) → ¬ t.WaitsForSem s.cur := fun hact hw =>
    (hwaits hw).elim hno fun ⟨k, hk⟩ => hact k hk
  have hanswered : ∀ {v : Kernel}, Answered (CallResult e.act) (s.entered e) v s.cur →
      (t.task s.cur).stack = (v.task s.cur).stack → ¬ t.WaitsForSem s.cur →
      LastEntry.Kept ⟨e.regs, e.act, false⟩ (t.WaitsForSem s.cur) (t.task s.cur).stack := by
    rintro v ⟨r, ⟨hplain, hr⟩, hv⟩ hstack hw
    exact .answered r rfl hplain.isCall hw hr (by rw [hstack, hv, hent])
  cases h with
  | stays hfork hnice hclock h hans hexit hfault =>
    have hw : ¬ t.WaitsForSem s.cur := fun hw => hno' (h.waits _ hw)
    by_cases hplain : PlainCall e.act
    · exact hanswered (hans hplain) rfl hw
    · have hact := Action.isInterrupt_of hplain huser hfork hnice hexit
      rcases Served.own h hno' with hstack | ⟨r, hr, -⟩
      · exact .interrupted rfl hact hw (hstack.trans hent)
      · exact absurd hr.1 hplain
  | ticks hact hleft ht =>
    refine .interrupted rfl (by rw [hact]; rfl) (hquiet (by simp [hact])) ?_
    rw [ht, showTime_task, hent]
  | renews hact hleft hone ht =>
    refine .interrupted rfl (by rw [hact]; rfl) (hquiet (by simp [hact])) ?_
    rw [ht, showTime_task, renewed, updTask_task, if_pos (s.entered_cur e).symm, s.entered_cur]
    exact hent
  | remains x hact ht =>
    refine .remains x rfl hact (hquiet (by simp [hact])) ?_
    have hcur : s.cur = (s.enter e.regs).cur := rfl
    rw [ht, setEax_task_stack, if_pos hcur, enter_task_stack, if_pos rfl]
  | nice q hact ht =>
    have hr : (Action.nice q).Returns ((s.enter e.regs).sysNice q).1 := by
      rw [sysNice]
      split_ifs
      · have hq := htime.quantum s.cur hs.cur_live
        have hsame := congrArg (fun a => a.1) (s.enter_task_account e.regs s.cur)
        exact Action.returns_of_nonneg (hsame ▸ hq.le)
      · exact Action.returns_neg (by simp [Action.errors])
    refine .answered _ rfl (by rw [hact]; rfl) (hquiet (by simp [hact])) (hact ▸ hr) ?_
    have hcur : s.cur = ((s.enter e.regs).sysNice q).2.cur := ((s.enter e.regs).sysNice_cur q).symm
    rw [ht, setEax_task_stack, if_pos hcur, sysNice_task_stack, enter_task_stack, if_pos rfl]
  | forkFails hact ht =>
    have hr : Action.fork.Returns (-eAgain) := Action.returns_neg (by simp [Action.errors])
    refine .answered _ rfl (by rw [hact]; rfl) (hquiet (by simp [hact])) (hact ▸ hr) ?_
    rcases ht with rfl | ⟨new, mm, hnew, rfl⟩
    · have hcur : s.cur = (s.enter e.regs).cur := rfl
      rw [setEax_task_stack, if_pos hcur, enter_task_stack, if_pos rfl]
    · have hne : s.cur ≠ new := fun h => hnew (h ▸ hs.cur_live)
      have hcur : s.cur = ((s.enter e.regs).forkFailed new mm).cur := rfl
      rw [setEax_task_stack, if_pos hcur, forkFailed_task_stack _ mm hne, enter_task_stack,
        if_pos rfl]
  | forks new frames mm hact hnew ht =>
    have hr : Action.fork.Returns s.pid := Action.returns_of_nonneg hs.counter.le
    refine .answered _ rfl (by rw [hact]; rfl) (hquiet (by simp [hact])) (hact ▸ hr) ?_
    have hne : s.cur ≠ new := fun h => hnew (h ▸ hs.cur_live)
    have hcur : s.cur = ((s.enter e.regs).forked new frames mm).cur := rfl
    rw [ht, setEax_task_stack, if_pos hcur, forked_task_stack _ frames mm hne, enter_task_stack,
      if_pos rfl]
  | hands hfork hnice hexit _ h =>
    obtain ⟨v, i, p, k, hv, hne, ht, -, hans⟩ := h
    rw [s.entered_cur] at hans
    have hstack : (t.task s.cur).stack = (v.task s.cur).stack := by
      rw [ht, handTo_task_stack]
      rfl
    by_cases hplain : PlainCall e.act
    · by_cases hw : t.WaitsForSem s.cur
      · have hact : ∃ n, e.act = .semWait n := (hwaits hw).resolve_left hno
        rcases Served.own hv hno' with hsame | ⟨r, -, hsame⟩
        · refine .waiting (e.regs eaxIndex) rfl hact hw ?_
          rw [hstack, hsame, hent, Function.update_eq_self]
        · exact .waiting r rfl hact hw (by rw [hstack, hsame, hent])
      · have hans' := hans ⟨0, callResult_of_nonneg hplain le_rfl⟩
        exact hanswered (hans'.resolve_right hw) hstack hw
    · have hact := Action.isInterrupt_of hplain huser hfork hnice hexit
      rcases Served.own hv hno' with hsame | ⟨r, hr, -⟩
      · refine .interrupted rfl hact (hquiet fun n hn => ?_) (by rw [hstack, hsame, hent])
        simp [hn, Action.isInterrupt] at hact
      · exact absurd hr.1 hplain
  | ends v p hfork hnice h hne h0 ht hwait => exact absurd hl (not_live_of_ends h ht)

/-- Nobody is born but by a fork, and then with the registers of the caller. -/
lemma StepServes.born (h : StepServes s e t) (hs : SchedOk s Q)
    (hwaits : t.WaitsForSem u → s.WaitsForSem u ∨ u = s.cur ∧ ∃ k, e.act = .semWait k)
    (hlive : e.act ≠ .fork → ∀ u, t.Live u → s.Live u) (hu : ¬ s.Live u) (hl : t.Live u) :
    LastEntry.Kept ⟨e.regs, .fork, true⟩ (t.WaitsForSem u) (t.task u).stack := by
  have hne : u ≠ s.cur := fun h => hu (h ▸ hs.cur_live)
  have hw : ¬ t.WaitsForSem u := by
    intro hw
    rcases hwaits hw with hw | ⟨hcur, -⟩
    · obtain ⟨n, hn⟩ := (hs.waitsForSem_iff u).mp hw
      exact hu ((hs.live_iff u).mpr ⟨_, hn⟩)
    · exact hne hcur
  have hfork : e.act = .fork := by
    by_contra hfork
    exact hu (hlive hfork u hl)
  have hpid : ((s.enter e.regs).task u).pid = (s.task u).pid := (s.quiet_enter e.regs).sched.pid u
  cases h with
  | forkFails hact ht =>
    rcases ht with rfl | ⟨new, mm, hnew, rfl⟩
    · rw [Live, (sameRecords_setEax _ _).pid, hpid] at hl
      exact absurd hl hu
    · rw [Live, (sameRecords_setEax _ _).pid, forkFailed] at hl
      by_cases hun : u = new
      · simp [hun] at hl
      · simp only [Function.update_of_ne hun] at hl
        rw [hpid] at hl
        exact absurd hl hu
  | forks new frames mm hact hnew ht =>
    by_cases hun : u = new
    · refine .born rfl rfl hw ?_
      have hcur : u ≠ ((s.enter e.regs).forked new frames mm).cur := hne
      rw [ht, setEax_task_stack, if_neg hcur, forked, hun]
      simp only [Function.update_self]
      rw [child, enter_current_stack]
    · rw [ht, Live, (sameRecords_setEax _ _).pid, forked] at hl
      simp only [Function.update_of_ne hun] at hl
      rw [hpid] at hl
      exact absurd hl hu
  | stays hno => exact absurd hfork hno
  | hands hno => exact absurd hfork hno
  | ends v p hno => exact absurd hfork hno
  | ticks hact => simp [hact] at hfork
  | renews hact => simp [hact] at hfork
  | remains x hact => simp [hact] at hfork
  | nice q hact => simp [hact] at hfork

/-- User code that survives an access goes on. -/
lemma StepServes.user (h : StepServes s e t) (hs : SchedOk s Q) (hl : t.Live s.cur)
    (huser : e.act.isUser = true) : t.cur = s.cur ∧ Undisturbed s t s.cur := by
  have hno : ¬ s.WaitsForSem s.cur := hs.not_waitsForSem
  have hplain : ¬ PlainCall e.act := by
    intro hplain
    have hcall := hplain.isCall
    cases hact : e.act <;> simp [hact, Action.isUser, Action.isCall] at huser hcall
  have hent : ((s.entered e).task s.cur).stack = (s.task s.cur).stack := by
    rw [entered_stack, if_neg (by simp [huser])]
  cases h with
  | stays hfork hnice hclock h hans hexit hfault =>
    refine ⟨h.cur.trans (s.entered_cur e), ?_, fun hw => absurd hw hno⟩
    rcases Served.own h (fun hw => hno ((s.entered_waits e).mp hw)) with hstack | ⟨r, hr, -⟩
    · exact hstack.trans hent
    · exact absurd hr.1 hplain
  | ends v p hfork hnice h hne h0 ht hwait => exact absurd hl (not_live_of_ends h ht)
  | hands hfork hnice hexit hno' h =>
    cases hact : e.act with
    | store a b => exact absurd hact (hno'.2 a b)
    | pageFault => exact absurd hact hno'.1
    | _ => simp [hact, Action.isUser] at huser
  | ticks hact => simp [hact, Action.isUser] at huser
  | renews hact => simp [hact, Action.isUser] at huser
  | remains x hact => simp [hact, Action.isUser] at huser
  | nice q hact => simp [hact, Action.isUser] at huser
  | forkFails hact => simp [hact, Action.isUser] at huser
  | forks new frames mm hact => simp [hact, Action.isUser] at huser

/-- One step, for a process that is alive after it.  An entry of the running process replaces the
last one, so that what its saved registers were before does not matter. -/
lemma KeptFor.step (hs : SystemOk s Q) (htime : TimeOk s) (hg : s.ExitsFindTwo e)
    (hst : s.step e = .ok t)
    (hkept : s.Live u → u ≠ s.cur ∨ e.act.isUser = true → KeptFor s g u) (hl : t.Live u) :
    KeptFor t (noteEntry s e t g) u := by
  have hserves := hs.step_serves hg hst
  obtain ⟨Q', hturn⟩ := (hs.step_effects e hg).1 t hst
  have hwaits : ∀ v, t.WaitsForSem v → s.WaitsForSem v ∨ v = s.cur ∧ ∃ k, e.act = .semWait k :=
    fun v hv => hs.step_waits hg hst hv
  have hlive : e.act ≠ .fork → ∀ v, t.Live v → s.Live v := by
    intro hfork v hv
    by_contra hdead
    exact hfork (hturn.live hv hdead)
  by_cases hold : s.Live u
  · by_cases hu : u = s.cur
    · subst hu
      cases huser : e.act.isUser with
      | false =>
        refine .inr ⟨⟨e.regs, e.act, false⟩, noteEntry_cur hold huser, ?_⟩
        exact hserves.own hs.sched htime (fun h => (hwaits _ h).imp_right And.right) hl huser
      | true =>
        obtain ⟨hcur, hstack, hw⟩ := hserves.user hs.sched hl huser
        have hnote : noteEntry s e t g s.cur = g s.cur := by
          rw [noteEntry, if_neg (fun h => h.1 hold), if_neg (by simp [huser])]
        rcases hkept hold (.inr huser) with ⟨hnone, -⟩ | ⟨en, hen, hk⟩
        · exact .inl ⟨hnote.trans hnone, hcur.symm⟩
        · refine .inr ⟨en, hnote.trans hen, hk.other (fun h => ?_) (.inl ⟨hstack, hw⟩)⟩
          refine (hwaits _ h).resolve_right fun ⟨_, k, hk⟩ => ?_
          simp [hk, Action.isUser] at huser
    · have hnote : noteEntry s e t g u = g u := noteEntry_of_ne hold hu
      rcases hkept hold (.inl hu) with ⟨-, hcur⟩ | ⟨en, hen, hk⟩
      · exact absurd hcur hu
      · refine .inr ⟨en, hnote.trans hen, hk.other (fun h => ?_) (hserves.other hs.sched hu hold)⟩
        exact (hwaits u h).resolve_right fun hc => hu hc.1
  · refine .inr ⟨⟨e.regs, .fork, true⟩, ?_, hserves.born hs.sched (hwaits u) hlive hold hl⟩
    rw [noteEntry, if_pos ⟨hold, hl⟩]

/-- A run. -/
lemma KeptFor.run {es : List Event} {g' : Slot → Option LastEntry}
    (hrun : Run (record Kernel.step noteEntry) (fun s e => s.1.ExitsFindTwo e) (s, g) es (t, g'))
    (hs : SystemOk s Q) (htime : TimeOk s) (hkept : ∀ u, s.Live u → KeptFor s g u) :
    ∀ u, t.Live u → KeptFor t g' u := by
  induction es generalizing s g Q with
  | nil =>
    rw [run_nil_iff, Prod.mk.injEq] at hrun
    obtain ⟨rfl, rfl⟩ := hrun
    exact hkept
  | cons e es ih =>
    obtain ⟨⟨v, k⟩, hg, hst, hrest⟩ := run_cons_iff.mp hrun
    obtain ⟨hst', hk⟩ := record_ok_iff.mp hst
    simp only at hst' hk
    subst hk
    obtain ⟨Q', hs'⟩ := hs.step hg hst'
    have htime' := (hs.step_accounts hg hst').timeOk htime hs.sched.cur_live hs'.sched.cur_live
    exact ih hrest hs' htime' fun u hu => .step hs htime hg hst' (fun hl _ => hkept u hl) hu

end

/-! ## The result -/

/-- The registers with which a process goes on, if its last entry is `en`. -/
structure LastEntry.Resumes (en : LastEntry) (reg : Registers) : Prop where
  others : ∀ r, r ≠ .eax → (r = .ecx → ∀ addr path flags, en.act ≠ .open addr path flags) →
    reg r = loadRegs en.regs r
  child : en.child = true → en.act = .fork ∧ reg .eax = 0
  interrupted : en.child = false → en.act.isInterrupt = true → reg .eax = loadRegs en.regs .eax
  answered : en.child = false → en.act.isCall = true → en.act.Returns (reg .eax)

lemma LastEntry.Kept.resumes {en : LastEntry} {waits : Prop} {k : SavedRegs}
    (h : en.Kept waits k) (hw : ¬ waits) : en.Resumes (loadRegs k) := by
  have hupdate : ∀ (v : ℤ) (r : Reg), r ≠ .eax →
      loadRegs (Function.update en.regs eaxIndex v) r = loadRegs en.regs r := by
    intro v r hr
    refine Function.update_of_ne ?_ ..
    cases r <;> first | exact absurd rfl hr | decide
  have heax : ∀ v : ℤ, loadRegs (Function.update en.regs eaxIndex v) .eax = v :=
    fun v => Function.update_self ..
  cases h with
  | born hchild hact _ hk =>
    subst hk
    exact ⟨fun r hr _ => hupdate 0 r hr, fun _ => ⟨hact, heax 0⟩, by simp [hchild], by simp [hchild]⟩
  | interrupted hchild hact _ hk =>
    subst hk
    refine ⟨fun r _ _ => rfl, by simp [hchild], fun _ _ => rfl, fun _ hcall => ?_⟩
    cases hen : en.act <;> simp [hen, Action.isInterrupt, Action.isCall] at hact hcall
  | remains x hchild hact _ hk =>
    subst hk
    exact ⟨fun r hr _ => hupdate x r hr, by simp [hchild], by simp [hact, Action.isInterrupt],
      by simp [hact, Action.isCall]⟩
  | waiting r hchild hact hw' hk => exact absurd hw' hw
  | answered v hchild hact _ hv hk =>
    subst hk
    refine ⟨fun r hr _ => hupdate v r hr, by simp [hchild], fun _ hint => ?_, fun _ _ => ?_⟩
    · cases hen : en.act <;> simp [hen, Action.isInterrupt, Action.isCall] at hact hint
    · rwa [heax]

section

open Kernel

variable {s t : Kernel} {Q : Node → List Slot} {x : Given} {reg reg' : Registers}

/-- What an entry has pushed is there already when the handler's step begins. -/
lemma step_pushed {c : Cause} (hc : c.code = none) :
    (s.enter (c.pushed reg)).step (c.event reg x) = s.step (c.event reg x) := by
  have hpid : (s.enter (c.pushed reg)).current.pid = s.current.pid :=
    (s.quiet_enter _).sched.current_pid
  have hcall : ∀ (f : SysCall) (arg : ℕ → ℤ),
      settle ((s.enter (c.pushed reg)).dispatch ⟨c.pushed reg, f.action arg x⟩) =
        settle (s.dispatch ⟨c.pushed reg, f.action arg x⟩) := by
    intro f arg
    rw [settle_dispatch, settle_dispatch, enter_enter]
  rw [step_eq_settle, step_eq_settle]
  cases c with
  | pageFault v => simp [Cause.code] at hc
  | systemCall =>
    rw [Cause.event, Cause.action, Cause.call]
    split_ifs
    · exact hcall .sysNiSyscall fun _ => 0
    · exact hcall ..
  | clock =>
    simp only [Cause.event, Cause.action, dispatch, enter_enter]
  | keyboard =>
    simp only [Cause.event, Cause.action, dispatch, enter_enter]

/-- The exit of a process that leaves two others. -/
lemma SystemOk.sysExit_switched (hs : SystemOk s Q) (hpid : s.current.pid ≠ 0)
    (htwo : ∀ v, destroyOwned (List.finRange semMaxValue) s = .ok v → 2 ≤ v.leave.runqueue.length) :
    ∃ v, s.sysExit = .switched v := by
  have h0 : s.cur ≠ 0 := fun h => hpid (hs.sched.current_pid_eq_zero_iff.mpr h)
  obtain ⟨v, -, hv, -, -, -, -, -, -, ⟨-, u, -, -, hsw, -⟩ | ⟨hlen, -⟩⟩ := hs.sysExit_cases h0
  · exact ⟨_, hsw⟩
  · have := htwo v hv
    omega

/-- The handlers end as the step from what they have pushed, and load what is saved then. -/
lemma step_of_handle {c : Cause} (hs : SystemOk (s.enter (c.pushed reg)) Q)
    (hg : (s.enter (c.pushed reg)).ExitsFindTwo (c.event reg x))
    (h : c.handle x s reg = .user t reg') :
    (s.enter (c.pushed reg)).step (c.event reg x) = .ok t ∧ reg' = loadRegs t.current.stack := by
  have hofStep : ∀ {o : Except Stop Kernel}, Resumption.ofStep o = .user t reg' →
      o = .ok t ∧ reg' = loadRegs t.current.stack := by
    intro o ho
    cases o with
    | error r => simp [Resumption.ofStep] at ho
    | ok v =>
      rw [Resumption.ofStep, Resumption.user.injEq] at ho
      obtain ⟨rfl, rfl⟩ := ho
      exact ⟨rfl, rfl⟩
  cases hc : c.code with
  | none =>
    rw [Cause.handle_eq_step hc] at h
    rw [step_pushed hc]
    exact hofStep h
  | some v =>
    obtain ⟨v, rfl⟩ : ∃ v, c = .pageFault v := by
      cases c <;> first | exact ⟨_, rfl⟩ | simp [Cause.code] at hc
    rw [Cause.handle_pageFault] at h
    set k := s.enter ((Cause.pageFault v).pushed reg)
    rw [step_eq_settle]
    show settle (k.pageFaultRoutine .userFault) = _ ∧ _
    unfold Cpu.pageFaultRoutine at h
    rw [Kernel.pageFaultRoutine]
    split_ifs at h ⊢ with hpid
    · have hquiet := k.quiet_printFault
      have hdispatch : k.dispatch ((Cause.pageFault v).event reg x) =
          .exits .userFault k.printFault := by
        show k.pageFaultRoutine .userFault = _
        rw [Kernel.pageFaultRoutine, if_pos hpid]
      have hpid' : k.printFault.current.pid ≠ 0 := by rwa [hquiet.sched.current_pid]
      have hcalm : Calms .pageFault (k, Q) (k.printFault, Q) := .quiet hquiet
      obtain ⟨u, hu⟩ := (hcalm.systemOk hs).sysExit_switched hpid'
        fun w hw => hg _ _ w hdispatch hpid' hw
      rw [hu] at h
      obtain ⟨hut, hreg⟩ := hofStep (o := .ok u) h
      rw [settle, hu]
      exact ⟨hut, hreg⟩
    · simp [Cause.afterPageFault] at h

/-- A page fault ends in a change of process, if it ends. -/
lemma StepServes.cur_ne_of_pageFault {e : Event} (h : StepServes s e t) (hact : e.act = .pageFault) :
    t.cur ≠ s.cur := by
  cases h with
  | stays hfork hnice hclock h hans hexit hfault => exact absurd hact hfault
  | hands hfork hnice hexit huser h => exact absurd hact huser.1
  | ends v p hfork hnice h hne h0 ht hwait =>
    rw [ht, handTo_cur]
    exact hne
  | ticks hact' => simp [hact'] at hact
  | renews hact' => simp [hact'] at hact
  | remains x hact' => simp [hact'] at hact
  | nice q hact' => simp [hact'] at hact
  | forkFails hact' => simp [hact'] at hact
  | forks new frames mm hact' => simp [hact'] at hact

/-- Only a page fault comes into the kernel with no registers to keep. -/
lemma Cause.isUser_action (c : Cause) (reg : Registers) (x : Given) :
    (c.action reg x).isUser = true ↔ c.action reg x = .pageFault := by
  cases c with
  | systemCall =>
    have hsys : ∀ (f : SysCall) (arg : ℕ → ℤ), (f.action arg x).isUser = false := by
      intro f arg
      cases f <;> rfl
    have hcall : (Cause.call reg x).isUser = false := by
      rw [Cause.call]
      split_ifs
      · rfl
      · exact hsys ..
    rw [Cause.action, hcall]
    refine ⟨by simp, fun h => ?_⟩
    rw [h] at hcall
    simp [Action.isUser] at hcall
  | _ => simp [Cause.action, Action.isUser]

lemma timeOk_enter (h : TimeOk s) (k : SavedRegs) : TimeOk (s.enter k) := by
  have hacc := s.enter_task_account k
  refine ⟨fun u hu => ?_, ?_, h.left_pos⟩
  · have hq : ((s.enter k).task u).quantum = (s.task u).quantum := congrArg (fun a => a.1) (hacc u)
    rw [hq]
    exact h.quantum u (((s.quiet_enter k).sched.live_iff u).mp hu)
  · exact h.remaining.trans (congrArg (fun a => a.2.2.1) (hacc s.cur)).symm

lemma noteEntry_enter (s : Kernel) (k : SavedRegs) (e : Event) (t : Kernel)
    (g : Slot → Option LastEntry) : noteEntry (s.enter k) e t g = noteEntry s e t g := by
  funext u
  have hlive := (s.quiet_enter k).sched.live_iff u
  exact if_congr (and_congr (not_congr hlive) Iff.rfl) rfl rfl

/-- At the start task 0 has never come into the kernel. -/
lemma keptFor_boot (E : Env) (u : Slot) (hu : E.boot.Live u) : KeptFor E.boot (fun _ => none) u := by
  refine .inl ⟨rfl, ?_⟩
  by_contra hne
  have hne0 : u ≠ 0 := hne
  rw [Live, E.boot_task_pid, if_neg hne0] at hu
  omega

/-- The process that a handler comes back to has its registers as it saved them at its last entry. -/
lemma resumed_kept (E : Env) {es : List Event} {g : Slot → Option LastEntry}
    (hrun : Run (record Kernel.step noteEntry) (fun s e => s.1.ExitsFindTwo e)
      (E.boot, fun _ => none) es (s, g))
    (c : Cause) (hg : (s.enter (c.pushed reg)).ExitsFindTwo (c.event reg x))
    (h : c.handle x s reg = .user t reg') :
    ∃ en, noteEntry s (c.event reg x) t g t.cur = some en ∧
      en.Kept (t.WaitsForSem t.cur) t.current.stack ∧ ¬ t.WaitsForSem t.cur ∧
      reg' = loadRegs t.current.stack := by
  have hexit : ExitRun E.boot es s :=
    Run.of_record (s := (E.boot, fun _ => none)) (t := (s, g)) (fun _ _ hg => hg) hrun
  obtain ⟨Q, hs⟩ := hexit.systemOk
  have htime := E.boot_systemOk.timeOk (timeOk_boot E) hexit
  have hkept : ∀ u, s.Live u → KeptFor s g u :=
    KeptFor.run hrun E.boot_systemOk (timeOk_boot E) (keptFor_boot E)
  have hquiet := s.quiet_enter (c.pushed reg)
  have hcalm : Calms .pageFault (s, Q) (s.enter (c.pushed reg), Q) := .quiet hquiet
  obtain ⟨hst, hreg⟩ := step_of_handle (hcalm.systemOk hs) hg h
  obtain ⟨Q', ht⟩ := (hcalm.systemOk hs).step hg hst
  have hserves := (hcalm.systemOk hs).step_serves hg hst
  have hother : t.cur = s.cur → (c.event reg x).act.isUser = false := by
    intro hcur
    by_contra huser
    rw [Bool.not_eq_false] at huser
    exact hserves.cur_ne_of_pageFault ((c.isUser_action reg x).mp huser) hcur
  have hnow : KeptFor t (noteEntry (s.enter (c.pushed reg)) (c.event reg x) t g) t.cur := by
    refine .step (hcalm.systemOk hs) (timeOk_enter htime _) hg hst (fun hl hu => ?_) ht.sched.cur_live
    have hne : t.cur ≠ s.cur := by
      intro hcur
      rcases hu with hu | hu
      · exact hu hcur
      · rw [hother hcur] at hu
        simp at hu
    rcases hkept t.cur ((hquiet.sched.live_iff _).mp hl) with ⟨-, hcur⟩ | ⟨en, hen, hk⟩
    · exact absurd hcur hne
    · have hsame : ((s.enter (c.pushed reg)).task t.cur).stack = (s.task t.cur).stack := by
        rw [enter_task_stack, if_neg hne]
      refine .inr ⟨en, hen, hk.other (waitsForSem_of_links rfl).mp (.inl ⟨hsame, ?_⟩)⟩
      exact (waitsForSem_of_links rfl).mpr
  rw [noteEntry_enter] at hnow
  rcases hnow with ⟨hnone, -⟩ | ⟨en, hen, hk⟩
  · exfalso
    rw [noteEntry] at hnone
    split_ifs at hnone with hborn hcur
    have hlive : s.Live t.cur := by
      by_contra hdead
      exact hborn ⟨hdead, ht.sched.cur_live⟩
    rcases hkept t.cur hlive with ⟨-, hcur'⟩ | ⟨en, hen, -⟩
    · exact hcur ⟨hcur', hother hcur'⟩
    · rw [hen] at hnone
      simp at hnone
  · exact ⟨en, hen, hk, ht.sched.not_waitsForSem, hreg⟩

/-- **The kernel is transparent to user code.**  In every run from boot whose exits find two processes
to run, with any interleaving of system calls, interrupts, faults and forks, take the next entry to
the kernel and the process that the handler comes back to.  This process has every register as it was
at its own last entry, however many other processes have run since and whatever they have done, but
for `%eax` after a system call (and `%ecx`, which `sys_open` may use up).  After an interrupt `%eax`
is as it was as well; after a system call it holds a number that is not negative or the negative of
one of the error codes of this call; and a new child has the registers of its parent and 0 in
`%eax`. -/
theorem registers_come_back (E : Env) {es : List Event} {g : Slot → Option LastEntry}
    (hrun : Run (record Kernel.step noteEntry) (fun s e => s.1.ExitsFindTwo e)
      (E.boot, fun _ => none) es (s, g))
    (c : Cause) (hg : (s.enter (c.pushed reg)).ExitsFindTwo (c.event reg x))
    (h : c.handle x s reg = .user t reg') :
    ∃ en, noteEntry s (c.event reg x) t g t.cur = some en ∧ en.Resumes reg' := by
  obtain ⟨en, hen, hk, hw, hreg⟩ := resumed_kept E hrun c hg h
  exact ⟨en, hen, hreg ▸ hk.resumes hw⟩

/-- Nothing is given but zeros. -/
def zeroGiven : Given where
  path := []
  beyondTask := emptyTask
  scan := 0
  beyond := 0
  eax := 0
  ecx := 0
  edx := 0
  below := fun _ => 0

/-- The clock hands the processor over. -/
lemma clock_handle {p q : Slot} {ts : List Slot} (h : InTurn s (p :: q :: ts))
    (hleft : s.left4current = 1) (reg : Registers) (x : Given) :
    ∃ t, Cause.clock.handle x s reg = .user t (loadRegs t.current.stack) ∧ t.cur = q := by
  obtain ⟨t, hst, hin, -⟩ := h.tick_next (e := Cause.clock.event reg x) rfl hleft
  refine ⟨t, ?_, (Option.some.inj hin.head).symm⟩
  rw [Cause.handle_eq_step rfl, hst, Resumption.ofStep]

/-- A run of ticks of one process leaves what is noted of the others. -/
lemma noteEntry_turn {p : Slot} {ts : List Slot} {es : List Event} (hu : u ∈ ts) (hne : u ≠ p)
    (h : Run Kernel.step (TickInTurn (p :: ts)) s es t) (g : Slot → Option LastEntry) :
    ∃ g', Run (record Kernel.step noteEntry) (fun s e => s.1.ExitsFindTwo e) (s, g) es (t, g') ∧
      g' u = g u := by
  obtain ⟨g', hrun⟩ := h.exists_record noteEntry g
  refine ⟨g', hrun.mono fun _ _ h => h.exitsFindTwo, noteEntry_run (hrun.mono fun v e h => ?_)⟩
  refine ⟨h.1.live u (List.mem_cons_of_mem _ hu), ?_⟩
  rw [h.cur_eq]
  exact hne

/-- A fork and most of the quantum of task 0; the last tick, with 7 in every register of task 0; and
most of the quantum of its child. -/
def preempted : List Event :=
  [plain .fork] ++ (List.replicate 59 (plain .clock) ++
    ([Cause.clock.event (fun _ => 7) zeroGiven] ++ List.replicate 59 (plain .clock)))

/-- The clock takes the processor from task 0, its child runs for a quantum with registers of its
own, and task 0 goes on with its registers. -/
theorem registers_come_back_of_preempted :
    ∃ g s t reg', Run (record Kernel.step noteEntry) (fun s e => s.1.ExitsFindTwo e)
        (zeroEnv.boot, fun _ => none) preempted (s, g) ∧
      s.cur = 1 ∧ Cause.clock.handle zeroGiven s (fun _ => 9) = .user t reg' ∧ t.cur = 0 ∧
      reg' = fun _ => 7 := by
  -- the fork and the quantum of task 0
  obtain ⟨v₀, hrun₀, -⟩ := zeroEnv.boot_fork
  obtain ⟨v, hg₀, hst₀, hnil⟩ := run_cons_iff.mp hrun₀
  obtain rfl : v = v₀ := run_nil_iff.mp hnil
  obtain ⟨hin₀, hleft₀, hquantum⟩ := inTurn_fork hst₀
  obtain ⟨v₁, hrun₁, hin₁, hleft₁, hgains₁⟩ := hin₀.ticks (act_of_mem_ticks (n := 59)) (by rw [hleft₀]; decide)
  obtain ⟨v₂, hst₂, hin₂, hleft₂, -⟩ := hin₁.tick_next
    (e := Cause.clock.event (fun _ => 7) zeroGiven) rfl (by rw [hleft₁, hleft₀]; rfl)
  rw [hgains₁.quantum, hquantum 1 (by simp)] at hleft₂
  -- the quantum of its child
  obtain ⟨s, hrun₃, hin₃, hleft₃, -⟩ := hin₂.ticks (act_of_mem_ticks (n := 59)) (by rw [hleft₂]; decide)
  obtain ⟨t, ht, hcur⟩ := clock_handle hin₃ (by rw [hleft₃, hleft₂]; rfl) (fun _ => 9) zeroGiven
  -- what is noted of task 0
  have hexit₁ : ExitRun zeroEnv.boot _ v₁ :=
    run_append_iff.mpr ⟨v, hrun₀, hrun₁.mono fun _ _ h => h.exitsFindTwo⟩
  obtain ⟨g₁, hrec₁⟩ := hexit₁.exists_record noteEntry fun _ => none
  have hrec₂ := hrec₁.snoc_record (clock_exitsFindTwo rfl) hst₂
  obtain ⟨g, hrec₃, hg⟩ := noteEntry_turn (u := 0) (by simp) (by decide) hrun₃
    (noteEntry v₁ (Cause.clock.event (fun _ => 7) zeroGiven) v₂ g₁)
  have hrec : Run (record Kernel.step noteEntry) (fun s e => s.1.ExitsFindTwo e)
      (zeroEnv.boot, fun _ => none) preempted (s, g) := by
    have hall := run_append_iff.mpr ⟨_, hrec₂, hrec₃⟩
    simpa only [preempted, List.append_assoc] using hall
  have hcur₁ : v₁.cur = 0 := (Option.some.inj hin₁.head).symm
  have hlast : noteEntry s (Cause.clock.event (fun _ => 9) zeroGiven) t g t.cur =
      some ⟨Cause.clock.pushed fun _ => 7, .clock, false⟩ := by
    have hcur₃ : s.cur = 1 := (Option.some.inj hin₃.head).symm
    rw [hcur, noteEntry_of_ne (hin₃.live 0 (by simp)) (by rw [hcur₃]; decide), hg, ← hcur₁]
    exact noteEntry_cur (hin₁.live _ hin₁.cur_mem) rfl
  obtain ⟨en, hen, hres⟩ := registers_come_back zeroEnv hrec Cause.clock
    (clock_exitsFindTwo rfl) ht
  obtain rfl := Option.some.inj (hen.symm.trans hlast)
  refine ⟨g, s, t, _, hrec, (Option.some.inj hin₃.head).symm, ht, hcur, ?_⟩
  funext r
  by_cases hr : r = .eax
  · rw [hr, hres.interrupted rfl rfl]
    rfl
  · rw [hres.others r hr (by simp)]
    exact congrFun (loadRegs_savedRegs fun _ => 7) r

end

end ZeOS
