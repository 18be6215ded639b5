import ZeOS.Kernel.Libc
import ZeOS.Registers
import ZeOS.Semaphores

/-!
# System calls as user programs see them

Between the call of a wrapper in `libc.c` and its return lie the stack of the caller, five registers,
`SAVE_ALL`, the table of system calls, the routine, any number of other processes, and
`RESTORE_ALL`.  `libc_call_returns` puts these together: the routine of the same name gets the
arguments in their order, and the wrapper returns the result, or -1 with one of the error codes of
this call in `errno`.

`perror` has a line for each of these codes but two (`perrorText_code`).
-/

namespace ZeOS

open IntrusiveList GuardedRun

namespace Libc

variable {f : SysCall} {w : Wrapper} {arg : ℕ → ℤ} {reg : Registers} {x : Given}

/-- A wrapper asks for the routine of its name, with its own arguments. -/
lemma call_enter (hw : wrapper f = some w) : Cause.call (w.enter arg reg) x = f.action arg x := by
  cases f <;> simp only [wrapper, reduceCtorEq, Option.some.injEq] at hw <;> subst hw <;> rfl

/-- A call without `check_errcode` cannot fail. -/
lemma errors_of_plain (hw : wrapper f = some w) (hplain : w.after = .plain) :
    (f.action arg x).errors = [] := by
  cases f <;> simp only [wrapper, reduceCtorEq, Option.some.injEq] at hw <;> subst hw <;>
    first | rfl | cases hplain

lemma after_ne_nothing (hw : wrapper f = some w) (hf : f ≠ .sysExit) : w.after ≠ .nothing := by
  cases f <;> simp only [wrapper, reduceCtorEq, Option.some.injEq] at hw <;> subst hw <;>
    first | exact absurd rfl hf | simp [fork, read, write, «open», close, unlink, getpid,
      semInit, semWait, semSignal, semDestroy, nice, getStats, dup]

lemma isCall_action (hf : f ≠ .sysExit) : (f.action arg x).isCall = true := by
  cases f <;> first | rfl | exact absurd rfl hf

lemma action_eq_open {addr : ℕ} {path : List Byte} {flags : ℤ}
    (h : f.action arg x = .open addr path flags) : f = .sysOpen := by
  cases f <;> first | rfl | cases h

lemma action_eq_fork (h : f.action arg x = .fork) : f = .sysFork := by
  cases f <;> first | rfl | cases h

/-- The error codes are numbers above 0, and `perror` has a line for all of them but two. -/
lemma perrorText_code {act : Action} {code : ℤ} (h : code ∈ act.errors) : 0 < code ∧
    (perrorText code = "Unknown error or no error\n" ↔ code = eNoent ∨ code = eExist) := by
  have hall : ∀ c ∈ [eBadf, eFbig, eInval, eFault, eNospc, eNosys, ePerm, eNametoolong, eNfile,
      eMfile, eNoent, eExist, eAcces, eBusy, eAgain, eSrch], 0 < c ∧
      (perrorText c = "Unknown error or no error\n" ↔ c = eNoent ∨ c = eExist) := by
    decide
  refine hall code ?_
  cases act <;> simp only [Action.errors, List.mem_cons, List.not_mem_nil, or_false] at h ⊢ <;> tauto

/-- The result of a wrapper, for a value that the call returns. -/
lemma result_of_returns (hw : wrapper f = some w) (hf : f ≠ .sysExit) {r : ℤ}
    (hr : (f.action arg x).Returns r) (errno : ℤ) :
    (0 ≤ r ∧ w.result errno r = (errno, some r)) ∨
      ∃ code ∈ (f.action arg x).errors, w.result errno r = (code, some (-1)) := by
  cases hafter : w.after with
  | nothing => exact absurd hafter (after_ne_nothing hw hf)
  | plain =>
    rw [Action.Returns, errors_of_plain hw hafter] at hr
    exact .inl ⟨hr.resolve_right (by simp), by rw [Wrapper.result, hafter]⟩
  | checkErrcode =>
    rw [Wrapper.result, hafter]
    rcases hr with hr | hr
    · exact .inl ⟨hr, by simp [checkErrcode, hr.not_gt]⟩
    · have hneg : r < 0 := by
        have := (perrorText_code hr).1
        omega
      exact .inr ⟨-r, hr, by simp [checkErrcode, hneg]⟩

end Libc

section

open Kernel Libc

variable {s t : Kernel} {x x₀ : Given} {reg reg' reg₀ : Registers} {f : SysCall} {w : Wrapper}
  {arg : ℕ → ℤ}

/-- What a wrapper gives its caller when the call `act` comes back with `eax`: the value that the
routine returned, or -1 with an error code of this call in `errno`.  `perror` has a line for it, if it
is neither `ENOENT` nor `EEXIST`. -/
def Libc.Answers (w : Wrapper) (act : Action) (errno eax : ℤ) : Prop :=
  (0 ≤ eax ∧ w.result errno eax = (errno, some eax)) ∨
    ∃ code ∈ act.errors, w.result errno eax = (code, some (-1)) ∧
      (perrorText code = "Unknown error or no error\n" ↔ code = eNoent ∨ code = eExist)

/-- **A call of the library is a call of the kernel's routine.**  Take any run from boot whose exits
find two processes to run, and a process that goes on after it, whose last entry was the `int $0x80`
of a wrapper.  The kernel's routine of this name was called, with the caller's arguments in their
order, and no register has changed but `%eax` (and `%ecx` in `open`).  If the routine returned a number that is not negative, the
wrapper returns it and leaves `errno`; otherwise it returns -1, and `errno` is one of the error codes
of this call.  A new child returns 0 from its parent's `fork`. -/
theorem libc_call_returns (E : Env) {es : List Event} {g : Slot → Option LastEntry}
    (hrun : Run (record Kernel.step noteEntry) (fun s e => s.1.ExitsFindTwo e)
      (E.boot, fun _ => none) es (s, g))
    (c : Cause) (hg : (s.enter (c.pushed reg)).ExitsFindTwo (c.event reg x))
    (h : c.handle x s reg = .user t reg') {en : LastEntry}
    (hen : noteEntry s (c.event reg x) t g t.cur = some en) (hw : wrapper f = some w)
    (hregs : en.regs = savedRegs (w.enter arg reg₀))
    (hact : en.act = Cause.call (w.enter arg reg₀) x₀) :
    en.act = f.action arg x₀ ∧
    (∀ r, r ≠ .eax → (r = .ecx → f ≠ .sysOpen) → reg' r = w.enter arg reg₀ r) ∧
    (en.child = true → ∀ errno, w.result errno (reg' .eax) = (errno, some 0)) ∧
    (en.child = false → f ≠ .sysExit → ∀ errno, Answers w en.act errno (reg' .eax)) := by
  obtain ⟨en', hen', hkept, hnot, hreg⟩ := resumed_kept E hrun c hg h
  obtain rfl : en' = en := Option.some_inj.mp (hen'.symm.trans hen)
  have hres : en'.Resumes reg' := hreg ▸ hkept.resumes hnot
  have hcall : en'.act = f.action arg x₀ := hact.trans (call_enter hw)
  refine ⟨hcall, fun r hr hecx => ?_, fun hchild errno => ?_, fun hchild hf errno => ?_⟩
  · have hkeep := hres.others r hr fun hr' addr path flags hopen =>
      hecx hr' (action_eq_open (hcall.symm.trans hopen))
    rw [hkeep, hregs, loadRegs_savedRegs]
  · obtain ⟨hfork, heax⟩ := hres.child hchild
    obtain rfl := action_eq_fork (hcall.symm.trans hfork)
    obtain rfl := Option.some_inj.mp hw
    rw [heax]
    rfl
  · have hr := hres.answered hchild (by rw [hcall]; exact isCall_action hf)
    rw [hcall] at hr ⊢
    rcases result_of_returns hw hf hr errno with hres | ⟨code, hcode, hres⟩
    · exact .inl hres
    · exact .inr ⟨code, hcode, hres, (perrorText_code hcode).2⟩

/-- `sem_wait(0)`. -/
def waitCall : Event :=
  Cause.systemCall.event (Libc.semWait.enter (fun _ => 0) fun _ => 7) zeroGiven

/-- The child of task 0 takes a semaphore without permits and waits on it; task 0 runs, signals, and
shares the processor with its child again. -/
lemma waitAndSignal :
    ∃ s₁ s₂ s, ExitRun zeroEnv.boot (childRuns ++ [plain (.semInit 0 0)]) s₁ ∧
      s₁.Live s₁.cur ∧ s₁.cur = 1 ∧ s₁.ExitsFindTwo waitCall ∧ s₁.step waitCall = .ok s₂ ∧
      s₂.Live 1 ∧ s₂.cur = 0 ∧ s₂.ExitsFindTwo (plain (.semSignal 0)) ∧
      s₂.step (plain (.semSignal 0)) = .ok s ∧ s.InTurn [0, 1] := by
  obtain ⟨s₀, Q₀, hrun₀, hs₀, hcur₀, hQ₀, -, hsem₀⟩ := childRuns_run zeroEnv
  have hn₀ : (s₀.sem 0).init ≠ 1 := by
    rw [hsem₀]
    show (0 : ℤ) ≠ 1
    decide
  obtain ⟨s₁, hst₁, hg₁, hs₁, hsem₁, hnone, -⟩ :=
    hs₀.step_semInit (e := plain (.semInit 0 0)) rfl semId_zero hn₀
  have hrq₁ : s₁.runqueue = [1, 0] := by rw [hs₁.sched.runqueue_eq, hQ₀]
  have hcur₁ : s₁.cur = 1 := by
    have hhead := hs₁.sched.head
    rw [hQ₀] at hhead
    exact (Option.some.inj hhead).symm
  have hwait₁ : s₁.waitList 0 = [] := by rw [hs₁.sched.waitList_eq, hnone]
  -- the wait finds no permit
  obtain ⟨s₂, hd₂, hin₂, hcase₂⟩ := hs₁.step_semWait (e := waitCall) rfl semId_zero
    (by rw [hsem₁]) (by rw [hcur₁]; decide)
  obtain ⟨-, -, hwait₂, hrq₂⟩ := hcase₂.resolve_left fun h => h.1 (by rw [hsem₁]; rfl)
  rw [hwait₁, hcur₁, List.nil_append] at hwait₂
  rw [hrq₁, hcur₁] at hrq₂
  have hg₂ := exitsFindTwo_of_done hd₂
  have hst₂ := step_of_done hd₂
  obtain ⟨Q₂, hs₂⟩ := hs₁.step hg₂ hst₂
  have hcur₂ : s₂.cur = 0 := by
    have hhead := hs₂.sched.head
    rw [← hs₂.sched.runqueue_eq, hrq₂] at hhead
    exact (Option.some.inj hhead).symm
  have hlive₂ : s₂.Live 1 := by
    rw [hs₂.sched.live_iff]
    refine ⟨.waitList 0, ?_⟩
    rw [← hs₂.sched.waitList_eq, hwait₂]
    exact List.mem_singleton_self _
  -- the signal finds the child
  obtain ⟨s, hst, hg, hcase⟩ := hs₂.step_semSignal (e := plain (.semSignal 0)) rfl semId_zero hin₂
  obtain ⟨u, rest, hu, -, -, hrq, -⟩ := hcase.resolve_left fun h => by simp [hwait₂] at h
  obtain ⟨rfl, -⟩ := List.cons.inj (hwait₂.symm.trans hu)
  obtain ⟨Q, hs⟩ := hs₂.step hg hst
  have hrun₁ := hrun₀.snoc hg₁ hst₁
  have hin : s.InTurn s.runqueue := hs.inTurn
    (zeroEnv.boot_systemOk.timeOk (timeOk_boot zeroEnv) ((hrun₁.snoc hg₂ hst₂).snoc hg hst))
  rw [hrq, hrq₂] at hin
  exact ⟨s₁, s₂, s, hrun₁, hs₁.sched.cur_live, hcur₁, hg₂, hst₂, hlive₂, hcur₂, hg, hst, hin⟩

/-- The child waits on a semaphore; task 0 signals it and runs until its quantum is over; and the
`sem_wait` of the child returns. -/
theorem libc_call_returns_of_semWait :
    ∃ n g s t reg', Run (record Kernel.step noteEntry) (fun s e => s.1.ExitsFindTwo e)
        (zeroEnv.boot, fun _ => none)
        (childRuns ++ [plain (.semInit 0 0)] ++ [waitCall] ++ [plain (.semSignal 0)] ++
          List.replicate n (plain .clock)) (s, g) ∧
      s.cur = 0 ∧ Cause.clock.handle zeroGiven s (fun _ => 9) = .user t reg' ∧ t.cur = 1 ∧
      Answers Libc.semWait (.semWait 0) 0 (reg' .eax) := by
  obtain ⟨s₁, s₂, s₃, hrun₁, hlive₁, hcur₁, hg₂, hst₂, hlive₂, hcur₂, hg₃, hst₃, hin₃⟩ :=
    waitAndSignal
  -- the ticks up to the last one
  obtain ⟨n, hn⟩ : ∃ n : ℕ, s₃.left4current - 1 = n :=
    ⟨_, (Int.toNat_of_nonneg (by have := hin₃.left_pos; omega)).symm⟩
  obtain ⟨s, hrun₄, hin, hleft, -⟩ := hin₃.ticks (act_of_mem_ticks (n := n))
    (by rw [List.length_replicate]; omega)
  rw [List.length_replicate] at hleft
  obtain ⟨t, ht, hcur⟩ := clock_handle hin (by omega) (fun _ => 9) zeroGiven
  -- what is noted of the child
  obtain ⟨g₁, hrec₁⟩ := hrun₁.exists_record noteEntry fun _ => none
  have hrec₃ := (hrec₁.snoc_record hg₂ hst₂).snoc_record hg₃ hst₃
  obtain ⟨g, hrec₄, hg⟩ := noteEntry_turn (u := 1) (by simp) (by decide) hrun₄
    (noteEntry s₂ (plain (.semSignal 0)) s₃ (noteEntry s₁ waitCall s₂ g₁))
  have hrec := run_append_iff.mpr ⟨_, hrec₃, hrec₄⟩
  have hcur₄ : s.cur = 0 := (Option.some.inj hin.head).symm
  have hlast : noteEntry s (Cause.clock.event (fun _ => 9) zeroGiven) t g t.cur =
      some ⟨waitCall.regs, waitCall.act, false⟩ := by
    rw [hcur, noteEntry_of_ne (hin.live 1 (by simp)) (by rw [hcur₄]; decide), hg,
      noteEntry_of_ne hlive₂ (by rw [hcur₂]; decide), ← hcur₁]
    exact noteEntry_cur hlive₁ rfl
  have hact : waitCall.act = Cause.call (Libc.semWait.enter (fun _ => 0) fun _ => 7) zeroGiven := rfl
  obtain ⟨-, -, -, hans⟩ := libc_call_returns zeroEnv hrec Cause.clock (clock_exitsFindTwo rfl) ht
    hlast (f := .sysSemWait) rfl rfl hact
  exact ⟨n, g, s, t, _, hrec, hcur₄, ht, hcur, hans rfl (by decide) 0⟩

end

end ZeOS
