import ZeOS.Kernel.Entry
import ZeOS.Invariants.Frames
import Mathlib.Tactic.FinCases
import Mathlib.Tactic.IntervalCases

/-!
# The entry code runs the kernel's steps

`step` speaks of an action and of the registers that come with it.  The processor only has registers,
a vector and the instructions of `entry.S`.  The two agree: whatever the registers are, the handler
of a system call, of the clock or of the keyboard calls the routine of the action that the registers
ask for, with its arguments, and user code goes on in the state after the step with the registers
that the running task has saved (`handle_eq_step`).

The argument goes through the handler in three parts: what lies on the stack after `SAVE_ALL`
(`saved_entered`), what a C routine leaves there (`Cpu.afterCall`), and that `RESTORE_ALL` and `iret`
load the saved registers, which is the library's rule for pops (`run_restore`).
-/

namespace ZeOS

open RegisterStack

/-! ## Runs of code -/

namespace Cpu

variable {x : Given} {c c' : Cpu} {is js : List Instr} {n : ℕ}

lemma exec_append (h : exec x is c = .next c') : exec x (is ++ js) c = exec x js c' := by
  induction is generalizing c with
  | nil =>
    obtain rfl : c = c' := by simpa [exec] using h
    rfl
  | cons i is ih =>
    rw [exec] at h
    rw [List.cons_append, exec]
    cases hi : c.step x i with
    | next d =>
      rw [hi] at h
      exact ih h
    | jump l d => simp [hi] at h
    | done y => simp [hi] at h

/-- The first part of the code is over. -/
lemma run_append (h : exec x is c = .next c') : run x n (is ++ js) c = run x n js c' := by
  cases n <;> rw [run, run, exec_append h]

lemma run_done {y : Resumption} (h : exec x is c = .done y) : run x n is c = y := by
  cases n <;> rw [run, h]

lemma run_jump {l : Label} (h : exec x is c = .jump l c') : run x (n + 1) is c = run x n l.code c' := by
  rw [run, h]

lemma exec_pushl (x : Given) (rs : List Reg) (c : Cpu) :
    exec x (rs.map .pushl) c = .next { c with toMachine := c.pushRegs rs } := by
  induction rs generalizing c with
  | nil => rfl
  | cons r rs ih =>
    rw [List.map_cons, exec]
    exact ih _

lemma exec_popl (x : Given) (rs : List Reg) (c : Cpu) :
    exec x (rs.map .popl) c = .next { c with toMachine := c.popRegs rs } := by
  induction rs generalizing c with
  | nil => rfl
  | cons r rs ih =>
    rw [List.map_cons, exec]
    exact ih _

/-- Popping the whole layout loads the saved registers. -/
lemma popRegs_layout (h : c.sp = savedBase) : (c.popRegs Reg.layout).reg = loadRegs c.saved := by
  have hnodup : Reg.layout.Nodup := by decide
  have hpop := Machine.map_popRegs_reg c.toMachine hnodup
  have hframe : c.frame Reg.layout.length = Reg.layout.map (loadRegs c.saved) := by
    rw [Machine.frame, h]
    rfl
  rw [hframe] at hpop
  funext r
  exact List.map_inj_left.mp hpop r (by cases r <;> decide)

/-- `RESTORE_ALL` and `iret`: user code goes on with the saved registers. -/
lemma run_restore (h : c.sp = savedBase) :
    run x n (restoreAll ++ [.iret]) c = .user c.store (loadRegs c.saved) := by
  have hrestore : restoreAll = saveOrder.reverse.map .popl := rfl
  rw [hrestore, run_append (exec_popl x _ c)]
  refine run_done ?_
  rw [exec, step, ← popRegs_layout h]
  show Flow.done (.user _ ((c.popRegs _).popRegs _).reg) = _
  rw [← Machine.popRegs_append]
  congr 2

end Cpu

/-! ## The saved registers -/

namespace Kernel

variable {s : Kernel}

@[simp] lemma enter_current_stack (s : Kernel) (k : SavedRegs) : (s.enter k).current.stack = k := by
  simp [enter, current]

@[simp] lemma enter_cur (s : Kernel) (k : SavedRegs) : (s.enter k).cur = s.cur := rfl

@[simp] lemma enter_enter (s : Kernel) (k k' : SavedRegs) : (s.enter k).enter k' = s.enter k' := by
  simp [enter, updTask]

/-- What is saved already may be saved again. -/
lemma enter_stack (s : Kernel) : s.enter s.current.stack = s := by
  simp [enter, updTask, current]

/-- A result is stored in the saved registers. -/
lemma setEax_eq_enter (s : Kernel) (r : ℤ) :
    s.setEax r = s.enter (Function.update s.current.stack eaxIndex r) := rfl

@[simp] lemma stackWords_saved (s : Kernel) (below : ℕ → ℤ) (i : Fin 16) :
    s.stackWords below (savedBase + i) = s.current.stack i := by
  have hi : savedBase ≤ savedBase + i.val ∧ savedBase + i.val < kernelStackSize := by
    simp only [savedBase, kernelStackSize]
    omega
  have hsub : (⟨savedBase + i.val - savedBase, sub_savedBase_lt hi⟩ : Fin 16) = i :=
    Fin.ext (Nat.add_sub_cancel_left savedBase i.val)
  rw [stackWords, dif_pos hi, hsub]

end Kernel

namespace Cpu

variable {x : Given} {c : Cpu} {s : Kernel} {is : List Instr} {n : ℕ}

/-- The end of `task_switch`: the new task goes on. -/
lemma run_switchTo (c : Cpu) (s : Kernel) :
    run x n Label.taskSwitch.code (c.switchTo s) = .user s (loadRegs s.current.stack) := by
  have hsaved : (c.switchTo s).saved = s.current.stack := by
    funext i
    exact s.stackWords_saved c.word i
  rw [Label.code, run_restore rfl, store, hsaved]
  congr 1
  exact s.enter_stack

end Cpu

/-- How the processor goes on after a step of the kernel. -/
def Resumption.ofStep : Except Stop Kernel → Resumption
  | .ok t => .user t (loadRegs t.current.stack)
  | .error r => .stop r

namespace Kernel

/-- A phase with the `sys_exit` that it comes to. -/
def settle : Phase → Except Stop Kernel
  | .done s => .ok s
  | .exits cause s => afterExit cause s.sysExit
  | .stop r => .error r

lemma step_eq_settle (s : Kernel) (e : Event) : s.step e = settle (s.dispatch e) := by
  rw [step]
  cases s.dispatch e <;> rfl

end Kernel

/-! ## After `SAVE_ALL` -/

namespace Cpu

variable {x : Given} {c : Cpu}

/-- The processor after `SAVE_ALL`. -/
def saveRegs (c : Cpu) : Cpu :=
  { c.pushRegs saveOrder with
    reg := Function.update (Function.update (Function.update c.reg .edx kernelDs) .ds kernelDs) .es kernelDs
    kernel := c.kernel }

lemma exec_saveAll (x : Given) (c : Cpu) : exec x saveAll c = .next c.saveRegs := by
  rw [saveAll, exec_append (exec_pushl x saveOrder c)]
  have hreg := Machine.pushRegs_reg c.toMachine saveOrder
  simp only [exec, step, saveRegs, hreg, Function.update_self, ne_eq, reduceCtorEq,
    not_false_eq_true, Function.update_of_ne]

/-- What a handler finds on the stack: the last 16 words are `c.pushed`. -/
lemma saved_entered (c : Cause) (s : Kernel) (reg : Registers) (x : Given) :
    (trap s reg c.code x).saveRegs.saved = c.pushed reg := by
  funext i
  cases c <;> fin_cases i <;> rfl

lemma store_entered (c : Cause) (s : Kernel) (reg : Registers) (x : Given) :
    (trap s reg c.code x).saveRegs.store = s.enter (c.pushed reg) := by
  rw [store, saved_entered]
  cases c <;> rfl

end Cpu

/-! ## Calls of C code -/

namespace Outcome

variable {σ α : Type}

lemma leaves_eq_ret {o : Outcome σ Unit} {v r : ℤ} {s : σ} (h : o.leaves v = .ret r s) :
    r = v ∧ o = .ret () s := by
  cases o with
  | ret u t =>
    obtain ⟨rfl, rfl⟩ := Outcome.ret.inj h
    exact ⟨rfl, rfl⟩
  | _ => simp [leaves] at h

end Outcome

namespace Cpu

open Kernel

variable {x : Given} {c c' : Cpu} {i : Instr} {is : List Instr} {n : ℕ} {o : Outcome Kernel ℤ}
  {p : Phase}

lemma run_cons_next (h : c.step x i = .next c') : run x n (i :: is) c = run x n is c' := by
  have hexec : exec x [i] c = .next c' := by rw [exec, h]; rfl
  exact run_append hexec

lemma run_cons_done {y : Resumption} (h : c.step x i = .done y) : run x n (i :: is) c = y :=
  run_done (by rw [exec, h])

lemma run_cons_jump {l : Label} (h : c.step x i = .jump l c') :
    run x (n + 1) (i :: is) c = run x n l.code c' :=
  run_jump (by rw [exec, h])

lemma saved_returned (c : Cpu) (x : Given) (v : ℤ) (s : Kernel) :
    (c.returned x v s).saved = s.current.stack := by
  funext i
  exact s.stackWords_saved (fun i => if c.sp ≤ i then c.word i else x.below i) i

lemma store_returned (c : Cpu) (x : Given) (v : ℤ) (s : Kernel) : (c.returned x v s).store = s := by
  rw [store, saved_returned]
  exact s.enter_stack

/-- A call that switches, faults or stops ends as the kernel's step does. -/
lemma run_call (hstep : c.step x i = c.afterCall x o)
    (hret : ∀ v s, o = .ret v s → run x (n + 1) is (c.returned x v s) = .ofStep (settle p))
    (hother : (∀ v s, o ≠ .ret v s) → p = finish o) :
    run x (n + 1) (i :: is) c = .ofStep (settle p) := by
  cases o with
  | ret v s => rw [run_cons_next hstep, hret v s rfl]
  | switched s =>
    rw [run_cons_jump hstep, run_switchTo, hother (fun _ _ => by simp)]
    rfl
  | stop r =>
    rw [run_cons_done hstep, hother (fun _ _ => by simp)]
    rfl
  | fault s =>
    rw [hother (fun _ _ => by simp), finish, Kernel.pageFaultRoutine]
    rw [afterCall, Cpu.pageFaultRoutine] at hstep
    split_ifs at hstep ⊢ with hpid
    · rw [settle]
      cases ho : s.printFault.sysExit with
      | switched t =>
        rw [ho] at hstep
        rw [run_cons_jump hstep, run_switchTo]
        rfl
      | stop r =>
        rw [ho] at hstep
        rw [run_cons_done hstep]
        rfl
      | _ =>
        rw [ho] at hstep
        rw [run_cons_done hstep]
        rfl
    · rw [run_cons_done hstep]
      rfl

/-- `EOI` only changes `%al`. -/
lemma exec_eoi (x : Given) (c : Cpu) : exec x eoi c =
    .next { c with reg := Function.update c.reg .eax (c.reg .eax / 256 * 256 + 0x20) } := rfl

/-- The end of an interrupt handler. -/
lemma run_interrupt {f : Routine} {o : Outcome Kernel Unit} (hsp : c.sp = savedBase)
    (hf : routine x c.store f = o.leaves x.eax) :
    run x (n + 1) (.call f :: eoi ++ restoreAll ++ [.iret]) c = .ofStep (settle (finishInt o)) := by
  rw [List.cons_append, List.cons_append, List.append_assoc]
  refine run_call (o := o.leaves x.eax) (by rw [step, hf]) (fun v s ho => ?_) fun hno => ?_
  · obtain ⟨-, rfl⟩ := Outcome.leaves_eq_ret ho
    rw [run_append (exec_eoi x _)]
    refine (run_restore ?_).trans ?_
    · exact hsp
    · exact congrArg₂ Resumption.user (store_returned c x v s)
        (congrArg loadRegs (saved_returned c x v s))
  · cases o with
    | ret u s => exact absurd rfl (hno _ _)
    | _ => rfl

end Cpu

/-! ## System calls -/

namespace Kernel

variable {s : Kernel} {x : Given}

lemma sysExit_ne_fault (s t : Kernel) : s.sysExit ≠ .fault t := by
  unfold sysExit
  split_ifs
  · split
    · simp
    · exact schedule_ne_fault _ 0 t
  · simp

lemma finish_ofExcept (o : Except Stop (ℤ × Kernel)) : finish (.ofExcept o) = finishExcept o := by
  rcases o with r | ⟨v, t⟩ <;> rfl

/-- A routine of the table does what the action of the kernel does. -/
lemma settle_dispatch (s : Kernel) (k : SavedRegs) (arg : ℕ → ℤ) (x : Given) (f : SysCall) :
    settle (s.dispatch ⟨k, f.action arg x⟩) = settle (finish (f.run arg x (s.enter k))) := by
  cases f with
  | sysExit =>
    show afterExit (.syscall x.eax) (s.enter k).sysExit =
      settle (finish ((s.enter k).sysExit.leaves x.eax))
    cases ho : (s.enter k).sysExit with
    | fault t => exact absurd ho (sysExit_ne_fault _ t)
    | _ => rfl
  | sysGetpid =>
    show settle (finishExcept (.ok (s.current.pid, s.enter k))) =
      settle (finish (.ret (s.enter k).current.pid (s.enter k)))
    rw [(s.quiet_enter k).sched.current_pid]
    rfl
  | sysFork | sysOpen | sysClose | sysUnlink | sysSemSignal | sysSemDestroy =>
    simp only [SysCall.run, finish_ofExcept]
    rfl
  | _ => rfl

end Kernel

/-- A routine only looks at its three arguments. -/
lemma SysCall.run_congr {arg arg' : ℕ → ℤ} (h : ∀ i < 3, arg i = arg' i) (x : Given) (s : Kernel)
    (f : SysCall) : f.run arg x s = f.run arg' x s := by
  cases f <;> simp only [SysCall.run, h 0 (by decide), h 1 (by decide), h 2 (by decide)]

namespace Cpu

open Kernel

variable {x : Given} {c : Cpu} {n : ℕ}

/-- `24(%esp)` is the place of `%eax`. -/
lemma saved_store (hsp : c.sp = savedBase) (v : ℤ) :
    saved { c with word := Function.update c.word (c.sp + 24 / 4) v } =
      Function.update c.saved eaxIndex v := by
  funext i
  show Function.update c.word (c.sp + 24 / 4) v (savedBase + i) = _
  rw [hsp]
  by_cases hi : i = eaxIndex
  · subst hi
    rw [Function.update_self]
    exact Function.update_self ..
  · have hne : savedBase + i.val ≠ savedBase + 24 / 4 := fun h => hi (Fin.ext (Nat.add_left_cancel h))
    rw [Function.update_of_ne hi, Function.update_of_ne hne]
    rfl

/-- A result is stored for user code. -/
lemma run_result (hsp : c.sp = savedBase) (v : ℤ) :
    run x n (restoreAll ++ [.iret]) { c with word := Function.update c.word (c.sp + 24 / 4) v } =
      .ofStep (.ok (c.store.setEax v)) := by
  refine (run_restore ?_).trans ?_
  · exact hsp
  · rw [Resumption.ofStep, setEax_eq_enter, store, store, saved_store hsp, enter_current_stack,
      enter_enter, enter_current_stack]

/-- The end of the system call handler, from the call of the routine on. -/
lemma run_callTable (hsp : c.sp = savedBase) :
    run x (n + 1) (.callTable :: .movlToStack .eax 24 :: restoreAll ++ [.iret]) c =
      .ofStep (settle (finish ((sysCallTable.getD (c.reg .eax).toNat .sysNiSyscall).run
        (fun i => c.word (c.sp + i)) x c.store))) := by
  rw [List.cons_append, List.cons_append]
  refine run_call rfl (fun v s ho => ?_) fun _ => rfl
  rw [ho]
  refine (run_cons_next rfl).trans ((run_result ?_ _).trans ?_)
  · exact hsp
  · rw [store_returned]
    rfl

end Cpu

/-! ## The result -/

namespace Cause

open Kernel Cpu

/-- A system call: the routine of the table, or `-ENOSYS`. -/
lemma handle_systemCall (x : Given) (s : Kernel) (reg : Registers) :
    systemCall.handle x s reg = .ofStep (s.step (systemCall.event reg x)) := by
  have hstore := store_entered systemCall s reg x
  have hsaved := saved_entered systemCall s reg x
  rw [handle, handler, Handler.code, List.append_assoc, List.append_assoc,
    run_append (exec_saveAll x _)]
  set c := (trap s reg systemCall.code x).saveRegs
  have hsp : c.sp = savedBase := rfl
  have heax : c.reg .eax = reg .eax := rfl
  have hjl : c.step x (.jl minSyscall .eax .errorNoSyscall) =
      if reg .eax < minSyscall then .jump .errorNoSyscall c else .next c := rfl
  have hjg : c.step x (.jg maxSyscall .eax .errorNoSyscall) =
      if maxSyscall < reg .eax then .jump .errorNoSyscall c else .next c := rfl
  -- `SAVE_ALL` puts the arguments where a C routine finds them
  have hargs : ∀ i < 3, c.word (c.sp + i) = savedRegs reg (Fin.ofNat 16 i) := by
    intro i hi
    interval_cases i <;> rfl
  have herror : run x 0 Label.errorNoSyscall.code c =
      .ofStep (settle (s.dispatch ⟨systemCall.pushed reg, .niSyscall⟩)) := by
    refine (run_cons_next rfl).trans ((run_result hsp _).trans ?_)
    rw [hstore]
    rfl
  rw [step_eq_settle, event, action, call, List.cons_append, List.cons_append]
  by_cases hlt : reg .eax < minSyscall
  · rw [if_pos (.inl hlt), ← herror]
    exact run_cons_jump (by rw [hjl, if_pos hlt])
  by_cases hgt : maxSyscall < reg .eax
  · rw [if_pos (.inr hgt), ← herror, run_cons_next (by rw [hjl, if_neg hlt])]
    exact run_cons_jump (by rw [hjg, if_pos hgt])
  · rw [if_neg (by simp [hlt, hgt]), settle_dispatch, ← hstore,
      run_cons_next (by rw [hjl, if_neg hlt]), run_cons_next (by rw [hjg, if_neg hgt])]
    refine (run_callTable hsp).trans ?_
    rw [heax, SysCall.run_congr hargs]

/-- An interrupt. -/
lemma handle_interrupt {c : Cause} {f : Routine} {x : Given} {s : Kernel} {reg : Registers}
    {o : Outcome Kernel Unit} (hcode : c.handler.code = interruptHandler f) (herr : c.code = none)
    (hf : routine x (s.enter (c.pushed reg)) f = o.leaves x.eax) :
    c.handle x s reg = .ofStep (settle (finishInt o)) := by
  have hassoc : interruptHandler f = saveAll ++ (.call f :: eoi ++ restoreAll ++ [.iret]) := by
    simp only [interruptHandler, List.append_assoc]
  rw [handle, hcode, hassoc, run_append (exec_saveAll x _)]
  refine run_interrupt ?_ ?_
  · rw [herr]
    rfl
  · rw [store_entered]
    exact hf

/-- A handler ends as the step of the kernel does. -/
lemma handle_eq_step {c : Cause} (hc : c.code = none) (x : Given) (s : Kernel) (reg : Registers) :
    c.handle x s reg = .ofStep (s.step (c.event reg x)) := by
  cases c with
  | systemCall => exact handle_systemCall x s reg
  | clock =>
    rw [step_eq_settle]
    exact handle_interrupt rfl rfl rfl
  | keyboard =>
    rw [step_eq_settle]
    exact handle_interrupt rfl rfl rfl
  | pageFault v => simp [code] at hc

/-- `RESTORE_ALL`, the error code, and `iret`. -/
lemma popRegs_faulted (m : Machine Reg ℤ) (h : m.sp = savedBase - 1) (r : Reg) :
    (Machine.popRegs { m.popRegs saveOrder.reverse with sp := (m.popRegs saveOrder.reverse).sp + 1 }
      [.eip, .cs, .eflags, .esp, .ss]).reg r =
      if r = .ebx then m.word (savedBase - 1)
      else if r.index ≤ 10 then m.word (savedBase + (r.index - 1 : Fin 16))
      else m.word (savedBase + r.index) := by
  obtain ⟨reg, sp, word⟩ := m
  obtain rfl : sp = savedBase - 1 := h
  cases r <;> rfl

/-- The registers that `page_fault_handler` pops: the error code has moved those of `SAVE_ALL`. -/
def loadFaulted (reg : Registers) (k : SavedRegs) : Registers := fun r =>
  if r = .ebx then reg .ebx else if r.index ≤ 10 then k (r.index - 1) else k r.index

/-- How a page fault of user code goes on. -/
def afterPageFault (reg : Registers) : Outcome Kernel Unit → Resumption
  | .ret _ t => .user t (loadFaulted reg t.current.stack)
  | .switched t => .ofStep (.ok t)
  | .fault _ => .stop .hang
  | .stop r => .stop r

lemma pageFaultRoutine_ne_fault (s t : Kernel) : Cpu.pageFaultRoutine s ≠ .fault t := by
  unfold Cpu.pageFaultRoutine
  split_ifs
  · exact sysExit_ne_fault _ t
  · simp

/-- A page fault of user code. -/
lemma handle_pageFault (v : ℤ) (x : Given) (s : Kernel) (reg : Registers) :
    (pageFault v).handle x s reg =
      afterPageFault reg (Cpu.pageFaultRoutine (s.enter ((pageFault v).pushed reg))) := by
  have hassoc : handlerWithCode .pageFaultRoutine =
      saveAll ++ .call .pageFaultRoutine :: (restoreAll ++ [.addlEsp 4, .iret]) := by
    simp only [handlerWithCode, List.append_assoc, List.cons_append]
  have hstore := store_entered (pageFault v) s reg x
  rw [handle, handler, Handler.code, hassoc, run_append (exec_saveAll x _), ← hstore]
  set c := (trap s reg (pageFault v).code x).saveRegs with hc
  have hstep : c.step x (.call .pageFaultRoutine) =
      c.afterCall x ((Cpu.pageFaultRoutine c.store).leaves x.eax) := rfl
  cases ho : Cpu.pageFaultRoutine c.store with
  | fault t => exact absurd ho (pageFaultRoutine_ne_fault _ t)
  | switched t =>
    rw [ho] at hstep
    exact (run_cons_jump hstep).trans (run_switchTo c t)
  | stop r =>
    rw [ho] at hstep
    exact run_cons_done hstep
  | ret u t =>
    rw [ho] at hstep
    have hrestore : restoreAll = saveOrder.reverse.map .popl := rfl
    rw [run_cons_next hstep, hrestore, run_append (exec_popl x _ _)]
    refine (run_cons_next rfl).trans ((run_cons_done rfl).trans ?_)
    rw [afterPageFault]
    congr 1
    · exact store_returned c x x.eax t
    · funext r
      have hword := fun i => t.stackWords_saved (fun i => if c.sp ≤ i then c.word i else x.below i) i
      refine (popRegs_faulted (c.returned x x.eax t).toMachine rfl r).trans ?_
      rw [loadFaulted]
      split_ifs
      · rfl
      · exact hword _
      · exact hword _

end Cause

open Cause in
/-- **The entry code runs the kernel's steps.**  From every state, with every value of the
registers, the handler of a system call, of the clock and of the keyboard ends as the step of the
kernel does, with the action that the registers ask for: user code goes on in the state after it, of
the task that is running then, with the registers that this task has saved; and where the kernel
stops, the handler does not come back for the same reason.  A page fault pushes an error code, so
that the saved registers of the faulting process are not where those of the others are; if
`page_fault_routine` ends in a change of process, the new one goes on as after the other handlers. -/
theorem entry_code_runs_steps (x : Given) (s : Kernel) (reg : Registers) (v : ℤ) :
    systemCall.handle x s reg = .ofStep (s.step (systemCall.event reg x)) ∧
    clock.handle x s reg = .ofStep (s.step (clock.event reg x)) ∧
    keyboard.handle x s reg = .ofStep (s.step (keyboard.event reg x)) ∧
    (pageFault v).handle x s reg =
      afterPageFault reg (Cpu.pageFaultRoutine (s.enter ((pageFault v).pushed reg))) := by
  exact ⟨handle_eq_step rfl x s reg, handle_eq_step rfl x s reg, handle_eq_step rfl x s reg,
    handle_pageFault v x s reg⟩

end ZeOS
