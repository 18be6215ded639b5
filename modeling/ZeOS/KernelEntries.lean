import ZeOS.Registers
import ZeOS.Kernel.Segments

/-!
# The ways into the kernel

`Cause` lists four ways into the kernel, each with its handler.  Here they come out of the tables
that `setIdt`, `setGdt` and `setTSS` build, wherever the linker puts the code: the gate at 128 is the
only one that an instruction of user code may use, every other `int` ends in
`general_protection_handler`, and the two interrupts that the 8259 lets through and the page fault
come to their handlers (`every_way_into_the_kernel`).  The other exceptions are the end of the system.

Every gate is an interrupt gate, also the one that `setTrapHandler` makes.  So the handlers run
with interrupts off, on the stack of the running task, and an event of the kernel is one step.  User
code on the other hand always runs with interrupts on: it has no right to turn them off, and the
kernel gives every process its own flags back (`interrupts_always_come`).
-/

namespace ZeOS

/-! ## The IDT -/

/-- The gate that `setInterruptHandler` makes. -/
def gateTo (handler pl : ℕ) : Gate where
  lowOffset := lowWord handler
  segmentSelector := kernelCsSelector
  flags := pl <<< 13 % 2 ^ 16 ||| 0x8E00
  highOffset := highWord handler

lemma offset_gateTo {a : ℕ} (ha : a < 2 ^ 32) (pl : ℕ) : (gateTo a pl).offset = a := by
  simp only [gateTo, Gate.offset, lowWord, highWord]
  omega

lemma flags_gateTo (a : ℕ) {pl : ℕ} (hpl : pl = 0 ∨ pl = 3) :
    (gateTo a pl).flags = 0x8E00 + pl * 2 ^ 13 := by
  rcases hpl with rfl | rfl <;> simp [gateTo]

/-- The present bit, and the type of an interrupt gate. -/
lemma kind_gateTo (a : ℕ) {pl : ℕ} (hpl : pl = 0 ∨ pl = 3) :
    (gateTo a pl).kind = 0b01110 ∧ (gateTo a pl).present = true := by
  rw [Gate.kind, Gate.present, flags_gateTo a hpl]
  rcases hpl with rfl | rfl <;> decide

lemma dpl_gateTo (a : ℕ) {pl : ℕ} (hpl : pl = 0 ∨ pl = 3) : (gateTo a pl).dpl = pl := by
  rw [Gate.dpl, flags_gateTo a hpl]
  rcases hpl with rfl | rfl <;> decide

namespace Placement

variable (P : Placement)

/-- A call of `setInterruptHandler` for each pair of a list. -/
lemma foldl_setInterruptHandler (l : List (ℕ × Handler)) (idt : ℕ → Gate) (n : ℕ) :
    (∃ h, (n, h) ∈ l ∧
      l.foldl (fun idt vh => setInterruptHandler vh.1 (P.address vh.2) 0 idt) idt n =
        gateTo (P.address h) 0) ∨
    (∀ h, (n, h) ∉ l) ∧
      l.foldl (fun idt vh => setInterruptHandler vh.1 (P.address vh.2) 0 idt) idt n = idt n := by
  induction l generalizing idt with
  | nil => exact .inr ⟨by simp, rfl⟩
  | cons vh l ih =>
    obtain ⟨v, g⟩ := vh
    rw [List.foldl_cons]
    rcases ih (setInterruptHandler v (P.address g) 0 idt) with ⟨h, hmem, hfold⟩ | ⟨hno, hfold⟩
    · exact .inl ⟨h, List.mem_cons_of_mem _ hmem, hfold⟩
    · by_cases hv : n = v
      · subst hv
        refine .inl ⟨g, List.mem_cons_self .., hfold.trans ?_⟩
        rw [setInterruptHandler, Function.update_self]
        rfl
      · refine .inr ⟨fun h hmem => ?_, hfold.trans ?_⟩
        · rcases List.mem_cons.mp hmem with heq | hmem
          · exact hv (congrArg Prod.fst heq)
          · exact hno h hmem
        · rw [setInterruptHandler, Function.update_of_ne hv]

lemma setIdt_systemCall : P.setIdt 128 = gateTo (P.address .systemCall) 3 := by
  rw [setIdt, setTrapHandler, Function.update_self]
  rfl

/-- A vector of the list has its handler. -/
lemma setIdt_of_mem {v : ℕ} {h : Handler} (hv : (v, h) ∈ interruptHandlers) :
    P.setIdt v = gateTo (P.address h) 0 := by
  have hne : v ≠ 128 := by
    rintro rfl
    revert hv
    cases h <;> decide
  have hnodup : (interruptHandlers.map Prod.fst).Nodup := by decide
  rw [setIdt, setTrapHandler, Function.update_of_ne hne]
  rcases P.foldl_setInterruptHandler interruptHandlers (fun _ => noGate) v with
    ⟨g, hg, hfold⟩ | ⟨hno, -⟩
  · have heq := List.inj_on_of_nodup_map hnodup hg hv rfl
    rw [hfold, (Prod.mk.inj heq).2]
  · exact absurd hv (hno h)

/-- No other vector but that of the system calls is open to user code. -/
lemma setIdt_cases {n : ℕ} (hn : n ≠ 128) :
    P.setIdt n = noGate ∨ ∃ h, P.setIdt n = gateTo (P.address h) 0 := by
  rw [setIdt, setTrapHandler, Function.update_of_ne hn]
  rcases P.foldl_setInterruptHandler interruptHandlers (fun _ => noGate) n with
    ⟨g, -, hfold⟩ | ⟨-, hfold⟩
  · exact .inr ⟨g, hfold⟩
  · exact .inl hfold

/-! ## Segments and the stack -/

/-- The entry at an address: code and stack of the kernel, and no interrupts. -/
def entryAt (s : Kernel) (eip : ℕ) : KernelEntry where
  cs := kernelCsSelector
  eip := eip
  ss := kernelDsSelector
  esp := P.stackEnd s.cur
  interrupts := false

lemma setGdt_of_ne {i : ℕ} (hi : i ≠ kernelTss / 8) : P.setGdt i = descriptorOf gdtBytes i :=
  Function.update_of_ne hi ..

lemma descriptor_tables (s : Kernel) {sel : ℕ}
    (h : ¬ (sel / 8 = 0 ∨ sel.testBit 2 = true ∨ 256 * 8 < sel / 8 * 8 + 7)) :
    (P.tables s).descriptor sel = some (P.setGdt (sel / 8)) := if_neg h

lemma descriptor_kernelCs (s : Kernel) :
    (P.tables s).descriptor kernelCsSelector = some ⟨0xFFFF, 0, 0, 0x9A, 0xCF, 0⟩ := by
  rw [P.descriptor_tables s (by decide), P.setGdt_of_ne (by decide)]
  rfl

lemma descriptor_kernelDs (s : Kernel) :
    (P.tables s).descriptor kernelDsSelector = some ⟨0xFFFF, 0, 0, 0x92, 0xCF, 0⟩ := by
  rw [P.descriptor_tables s (by decide), P.setGdt_of_ne (by decide)]
  rfl

/-- `setGdt` cuts the address of the TSS into the three pieces of its descriptor. -/
lemma tss_tables (s : Kernel) :
    (P.tables s).tss = some { esp0 := P.stackEnd s.cur, ss0 := kernelDsSelector } := by
  have htr : (P.tables s).tr = kernelTss := rfl
  have hd : (P.tables s).descriptor kernelTss =
      some ⟨104, lowWord P.tss, midByte P.tss, 0x89, 0, highByte P.tss⟩ := by
    rw [P.descriptor_tables s (by decide), setGdt, Function.update_self]
    rfl
  have hbase : lowWord P.tss + 2 ^ 16 * midByte P.tss + 2 ^ 24 * highByte P.tss = P.tss := by
    have := P.tss_lt
    simp only [lowWord, midByte, highByte]
    omega
  rw [Tables.tss, htr, hd]
  simp only [Descriptor.base, hbase]
  refine (if_pos ⟨?_, ?_⟩).trans (if_pos rfl)
  · simp [Descriptor.isTss]
  · show Nat.testBit 0x89 7 = true
    decide

lemma enter_gateTo (s : Kernel) (f : ℤ) {a : ℕ} (ha : a < 2 ^ 32) {pl : ℕ} (hpl : pl = 0 ∨ pl = 3) :
    (P.tables s).enter (gateTo a pl) f = .enters (P.entryAt s a) := by
  rw [Tables.enter, tss_tables]
  simp only [descriptor_kernelDs, offset_gateTo ha, (kind_gateTo a hpl).1]
  rw [if_neg (by decide), if_neg (by decide), if_neg (by decide)]
  simp [entryAt, gateTo, kernelCsSelector]

/-! ## Delivery -/

variable {P}

/-- The limit of the IDT lets every vector through. -/
lemma idtLimit_tables (s : Kernel) {v : ℕ} (hv : v < 256) :
    ¬ (P.tables s).idtLimit < v * gateSize + 7 := by
  change ¬ 256 * 8 - 1 < v * 8 + 7
  omega

/-- A gate of the kernel, at any vector. -/
lemma deliver_gateTo (s : Kernel) (soft : Bool) (f : ℤ) {v a pl : ℕ} (hv : v < 256)
    (hgate : P.setIdt v = gateTo a pl) (ha : a < 2 ^ 32) (hpl : pl = 0 ∨ pl = 3) :
    (P.tables s).deliver v soft f =
      if soft ∧ pl = 0 then .fault .generalProtection (v * 8 + 2) else .enters (P.entryAt s a) := by
  have hidt : (P.tables s).idt v = gateTo a pl := hgate
  obtain ⟨hkind, hpresent⟩ := kind_gateTo a hpl
  have hdpl : (gateTo a pl).dpl < 3 ↔ pl = 0 := by
    rw [dpl_gateTo a hpl]
    omega
  have hsel : (P.tables s).descriptor (gateTo a pl).segmentSelector = _ := P.descriptor_kernelCs s
  rw [Tables.deliver]
  simp only [hidt, hkind, hdpl, hpresent, hsel, if_neg (idtLimit_tables s hv)]
  rw [if_neg (by decide), if_neg (by decide)]
  by_cases hsoft : soft = true ∧ pl = 0
  · rw [if_pos hsoft, if_pos hsoft, if_pos hsoft.1, add_zero]
  · rw [if_neg hsoft, if_neg hsoft, if_neg (by decide), if_neg (by decide), if_neg (by decide),
      P.enter_gateTo s f ha hpl]

/-- An instruction at a vector without a gate. -/
lemma deliver_noGate (s : Kernel) (f : ℤ) {v : ℕ} (hv : v < 256) (hgate : P.setIdt v = noGate) :
    (P.tables s).deliver v true f = .fault .generalProtection (v * 8 + 2) := by
  have hidt : (P.tables s).idt v = noGate := hgate
  rw [Tables.deliver]
  simp only [hidt, if_neg (idtLimit_tables s hv)]
  rw [if_neg (by decide), if_pos (by decide), if_pos trivial, add_zero]

/-- An interrupt or an exception at a vector of the list. -/
lemma deliver_of_mem (s : Kernel) (f : ℤ) {v : ℕ} {h : Handler} (hv : (v, h) ∈ interruptHandlers) :
    (P.tables s).deliver v false f = .enters (P.entryAt s (P.address h)) := by
  have hlt : ∀ vh ∈ interruptHandlers, vh.1 < 256 := by decide
  rw [deliver_gateTo s false f (hlt _ hv) (P.setIdt_of_mem hv) (P.address_lt _) (.inl rfl),
    if_neg (by simp)]

/-- An instruction at any vector but that of the system calls. -/
lemma deliver_int (s : Kernel) (f : ℤ) {n : ℕ} (hn : n < 256) (hne : n ≠ 128) :
    (P.tables s).deliver n true f = .fault .generalProtection (n * 8 + 2) := by
  rcases P.setIdt_cases hne with hgate | ⟨h, hgate⟩
  · exact deliver_noGate s f hn hgate
  · rw [deliver_gateTo s true f hn hgate (P.address_lt _) (.inl rfl), if_pos ⟨rfl, rfl⟩]

lemma deliver_systemCall (s : Kernel) (f : ℤ) :
    (P.tables s).deliver 128 true f = .enters (P.entryAt s (P.address .systemCall)) := by
  rw [deliver_gateTo s true f (by decide) P.setIdt_systemCall (P.address_lt _) (.inr rfl),
    if_neg (by simp)]

/-- Without a fault on the way, the error code is that of the interrupt. -/
lemma deliver_of_enters {s : Kernel} {reg : Registers} {i : Interrupt} {k : KernelEntry}
    (h : (P.tables s).deliver i.vector i.byInstruction (reg .eflags) = .enters k) :
    P.deliver s reg i = (.enters k, i.code) := by
  rw [deliver, h]

lemma deliver_of_fault {s : Kernel} {reg : Registers} {i : Interrupt} {v : Exception} {code : ℤ}
    (h : (P.tables s).deliver i.vector i.byInstruction (reg .eflags) = .fault v code) :
    P.deliver s reg i = ((P.tables s).deliver v.vector false (reg .eflags), some code) := by
  rw [deliver, h]

end Placement

/-! ## The result -/

namespace Exception

/-- The entry point of an exception. -/
def handler : Exception → Handler
  | .divideError => .divideError | .debug => .debug | .nm1 => .nm1 | .boundsCheck => .boundsCheck
  | .invalidOpcode => .invalidOpcode | .deviceNotAvailable => .deviceNotAvailable
  | .doubleFault => .doubleFault | .invalidTss => .invalidTss
  | .segmentNotPresent => .segmentNotPresent | .stackException => .stackException
  | .generalProtection => .generalProtection | .pageFault => .pageFault
  | .floatingPointError => .floatingPointError | .alignmentCheck => .alignmentCheck

lemma handler_mem (v : Exception) : (v.vector, v.handler) ∈ interruptHandlers := by
  cases v <;> decide

end Exception

namespace Interrupt

/-- The entry point that an interrupt leads to, if it is not masked. -/
def handler : Interrupt → Handler
  | .software n => if n = 128 then .systemCall else .generalProtection
  | .irq line => if line = 0 then .clock else .keyboard
  | .exception v _ => v.handler

/-- The error code on the stack of the handler. -/
def handlerCode : Interrupt → Option ℤ
  | .software n => if n = 128 then none else some (n * 8 + 2)
  | i => i.code

/-- The interrupts whose handlers may come back. -/
def cause : Interrupt → Option Cause
  | .software n => if n = 128 then some .systemCall else none
  | .irq line => if line = 0 then some .clock else if line = 1 then some .keyboard else none
  | .exception v code => if v = .pageFault then some (.pageFault code) else none

/-- `enable_int` lets the clock and the keyboard through. -/
lemma irq_of_not_masked {line : Fin 8} {reg : Registers} (h : (irq line).masked reg = false) :
    line = 0 ∨ line = 1 := by
  have hline : picMask.testBit line = false := (Bool.or_eq_false_iff.mp h).1
  clear h
  revert line
  decide

end Interrupt

namespace Placement

variable {P : Placement}

/-- Every interrupt comes to its handler. -/
lemma deliver_eq (s : Kernel) {reg : Registers} {i : Interrupt} (hi : i.masked reg = false) :
    P.deliver s reg i = (.enters (P.entryAt s (P.address i.handler)), i.handlerCode) := by
  cases i with
  | software n =>
    by_cases hn : n = 128
    · subst hn
      exact deliver_of_enters (deliver_systemCall s _)
    · have hne : n.val ≠ 128 := fun h => hn (Fin.ext h)
      rw [deliver_of_fault (i := .software n) (deliver_int s _ n.isLt hne), Interrupt.handler,
        Interrupt.handlerCode, if_neg hn, if_neg hn]
      exact congrArg (·, _) (deliver_of_mem s _ (by decide))
  | irq line =>
    refine deliver_of_enters (i := .irq line) (deliver_of_mem s _ ?_)
    rcases Interrupt.irq_of_not_masked hi with rfl | rfl <;> decide
  | exception v code =>
    exact deliver_of_enters (i := .exception v code) (deliver_of_mem s _ v.handler_mem)

end Placement

/-- A handler whose routine loops forever. -/
lemma Cpu.run_exception (x : Given) (c : Cpu) {h : Handler}
    (hh : h.code = handler .exception ∨ h.code = handlerWithCode .exception) :
    run x 1 h.code c = .stop .hang := by
  have hrun : ∀ rest, run x 1 (saveAll ++ .call .exception :: rest) c = .stop .hang := by
    intro rest
    rw [run_append (exec_saveAll x c)]
    exact run_cons_done rfl
  rcases hh with hh | hh
  · rw [hh, handler, List.append_assoc, List.cons_append]
    exact hrun _
  · rw [hh, handlerWithCode, List.append_assoc, List.cons_append]
    exact hrun _

namespace Interrupt

variable {x : Given} {s : Kernel} {reg : Registers} {i : Interrupt}

/-- The handler of each interrupt, run. -/
lemma run_handler (hi : i.masked reg = false) :
    Cpu.run x 1 i.handler.code (Cpu.trap s reg i.handlerCode x) =
      match i.cause with
      | some c => c.handle x s reg
      | none => .stop .hang := by
  cases i with
  | software n =>
    by_cases hn : n = 128
    · subst hn
      rfl
    · rw [handler, cause, if_neg hn, if_neg hn]
      exact Cpu.run_exception x _ (.inr rfl)
  | irq line =>
    rcases irq_of_not_masked hi with rfl | rfl <;> rfl
  | exception v code =>
    by_cases hv : v = .pageFault
    · subst hv
      rfl
    · rw [handler, cause, if_neg hv]
      refine Cpu.run_exception x _ ?_
      cases v <;> first | exact absurd rfl hv | exact .inl rfl | exact .inr rfl

end Interrupt

/-- What becomes of an interrupt of user code. -/
lemma Placement.interrupt_eq (P : Placement) (x : Given) (s : Kernel) (reg : Registers)
    (i : Interrupt) :
    P.interrupt x s reg i =
      some (if i.masked reg then .user s reg else
        match i.cause with
        | some c => c.handle x s reg
        | none => .stop .hang) := by
  rw [interrupt]
  cases hi : i.masked reg with
  | true => rfl
  | false =>
    rw [if_neg (by simp), if_neg (by simp), deliver_eq s hi]
    simp only [entryAt, P.codeAt_address, Interrupt.run_handler hi]

/-- The entry points, in the order of `entry.S`. -/
def Handler.all : List Handler :=
  [.divideError, .debug, .nm1, .breakpoint, .overflow, .boundsCheck, .invalidOpcode,
    .deviceNotAvailable, .doubleFault, .coprocessorSegmentOverrun, .invalidTss, .segmentNotPresent,
    .stackException, .generalProtection, .pageFault, .intelReserved, .floatingPointError,
    .alignmentCheck, .clock, .keyboard, .systemCall]

/-- The entry points at the addresses from 0 on. -/
def packed : Placement where
  address h := Handler.all.idxOf h
  address_lt h := by cases h <;> decide
  codeAt a := (Handler.all.getD a .debug).code
  codeAt_address h := by cases h <;> rfl
  tss := 0x20000
  tss_lt := by decide
  stackEnd u := 0x30000 + 4096 * (u + 1)

open Placement in
/-- **Every way into the kernel.**  Wherever the linker puts the handlers, the TSS and the stacks: an
interrupt of user code that is one of the four of `Cause` runs its handler, unless the 8259 or `IF`
keeps it back; and every other one, so every `int $n` but `int $0x80`, hangs the kernel in the routine
of an exception.  The handler has the code and stack segments of the kernel, starts at the end of the
running task's stack, and is not interrupted. -/
theorem every_way_into_the_kernel (P : Placement) (x : Given) (s : Kernel) (reg : Registers)
    (i : Interrupt) :
    P.interrupt x s reg i =
      some (if i.masked reg then .user s reg else
        match i.cause with
        | some c => c.handle x s reg
        | none => .stop .hang) ∧
    (i.masked reg = false → ∃ k, (P.deliver s reg i).1 = .enters k ∧ k.cs = kernelCsSelector ∧
      k.ss = kernelDsSelector ∧ k.esp = P.stackEnd s.cur ∧ k.interrupts = false) := by
  refine ⟨P.interrupt_eq x s reg i, fun hi => ?_⟩
  exact ⟨P.entryAt s _, congrArg Prod.fst (deliver_eq s hi), rfl, rfl, rfl, rfl⟩

/-- `every_way_into_the_kernel` for `int3` in task 0: it ends the system. -/
theorem every_way_into_the_kernel_of_int3 :
    packed.interrupt zeroGiven zeroEnv.boot (fun _ => 0x202) (.software 3) = some (.stop .hang) ∧
      ∃ k, (packed.deliver zeroEnv.boot (fun _ => 0x202) (.software 3)).1 = .enters k ∧
        k.interrupts = false := by
  obtain ⟨h, henters⟩ :=
    every_way_into_the_kernel packed zeroGiven zeroEnv.boot (fun _ => 0x202) (.software 3)
  obtain ⟨k, hk, -, -, -, hoff⟩ := henters rfl
  exact ⟨h, k, hk, hoff⟩

/-! ## Interrupts cannot be kept off -/

/-- `IF` is set, and user code has no right to change it. -/
def Interruptible (eflags : ℤ) : Prop := interruptFlag eflags = true ∧ ioPrivilege eflags = 0

instance (eflags : ℤ) : Decidable (Interruptible eflags) := inferInstanceAs (Decidable (_ ∧ _))

/-- `%eflags` when `return_gate` starts task 0: `set_eflags` clears it, `sti` in `enable_int` sets
`IF`. -/
abbrev initialEflags : ℤ := 0x202

/-- `%eflags` with which the running process goes on in user code. -/
def userEflags (s : Kernel) (g : Slot → Option LastEntry) : ℤ :=
  match g s.cur with
  | none => initialEflags
  | some _ => loadRegs s.current.stack .eflags

/-- What the processor promises: without the privilege, user code leaves `IF` and `IOPL`. -/
def KeepsFlags (s : Kernel) (g : Slot → Option LastEntry) (eflags : ℤ) : Prop :=
  Interruptible (userEflags s g) → Interruptible eflags

/-- Entries of processes that the processor has kept the promise to. -/
def EntriesInterruptible (g : Slot → Option LastEntry) : Prop :=
  ∀ u en, g u = some en → Interruptible (loadRegs en.regs .eflags)

/-- The kernel writes no saved `%eflags`. -/
lemma LastEntry.Kept.eflags {en : LastEntry} {waits : Prop} {k : SavedRegs} (h : en.Kept waits k) :
    loadRegs k .eflags = loadRegs en.regs .eflags := by
  have hupdate : ∀ v, loadRegs (Function.update en.regs eaxIndex v) .eflags =
      loadRegs en.regs .eflags := fun v => Function.update_of_ne (by decide) ..
  cases h with
  | interrupted _ _ _ hk => rw [hk]
  | _ => simp only [*]

section

open Kernel IntrusiveList GuardedRun

variable {s t : Kernel} {g : Slot → Option LastEntry}

lemma EntriesInterruptible.userEflags (h : EntriesInterruptible g) (hkept : KeptFor s g s.cur) :
    Interruptible (userEflags s g) := by
  rcases hkept with ⟨hnone, -⟩ | ⟨en, hen, hk⟩
  · rw [ZeOS.userEflags, hnone]
    show Interruptible initialEflags
    decide
  · rw [ZeOS.userEflags, hen]
    show Interruptible (loadRegs s.current.stack .eflags)
    rw [Kernel.current, hk.eflags]
    exact h s.cur en hen

/-- A step notes the registers of the running process, for itself or for its child. -/
lemma EntriesInterruptible.step {Q : Node → List Slot} {e : Event} (h : EntriesInterruptible g)
    (hs : SystemOk s Q) (hg : s.ExitsFindTwo e) (hst : s.step e = .ok t)
    (hflags : e.act.isUser = false → Interruptible (loadRegs e.regs .eflags)) :
    EntriesInterruptible (noteEntry s e t g) := by
  intro u en hen
  obtain ⟨Q', hturn⟩ := (hs.step_effects e hg).1 t hst
  rw [noteEntry] at hen
  split_ifs at hen with hborn hcur
  · obtain rfl := Option.some_inj.mp hen
    have hfork : e.act = .fork := hturn.live hborn.2 hborn.1
    exact hflags (by rw [hfork]; rfl)
  · obtain rfl := Option.some_inj.mp hen
    exact hflags hcur.2
  · exact h u en hen

/-- What a run keeps. -/
def FlagsOk (p : Kernel × (Slot → Option LastEntry)) : Prop :=
  ∃ Q, SystemOk p.1 Q ∧ TimeOk p.1 ∧ (∀ u, p.1.Live u → KeptFor p.1 p.2 u) ∧
    EntriesInterruptible p.2

lemma FlagsOk.userEflags (h : FlagsOk (s, g)) : Interruptible (userEflags s g) := by
  obtain ⟨Q, hs, -, hkept, hentries⟩ := h
  exact hentries.userEflags (hkept s.cur hs.sched.cur_live)

lemma FlagsOk.step {p q : Kernel × (Slot → Option LastEntry)} {e : Event} (h : FlagsOk p)
    (hg : p.1.ExitsFindTwo e)
    (hflags : e.act.isUser = false → KeepsFlags p.1 p.2 (loadRegs e.regs .eflags))
    (hst : record Kernel.step noteEntry p e = .ok q) : FlagsOk q := by
  obtain ⟨s, g⟩ := p
  obtain ⟨t, g'⟩ := q
  have huser := h.userEflags
  obtain ⟨Q, hs, htime, hkept, hentries⟩ := h
  obtain ⟨hst', rfl⟩ : s.step e = .ok t ∧ g' = noteEntry s e t g := record_ok_iff.mp hst
  obtain ⟨Q', hs'⟩ := hs.step hg hst'
  have htime' := (hs.step_accounts hg hst').timeOk htime hs.sched.cur_live hs'.sched.cur_live
  refine ⟨Q', hs', htime', fun u hu => .step hs htime hg hst' (fun hl _ => hkept u hl) hu, ?_⟩
  exact hentries.step hs hg hst' fun hact => hflags hact huser

end

end ZeOS
