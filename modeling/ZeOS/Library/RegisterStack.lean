import Mathlib.Tactic.Lemma
import Mathlib.Data.List.Nodup
import Mathlib.Data.Nat.Notation
import Mathlib.Logic.Function.Basic

/-!
# Registers on a stack

A machine has registers and a stack that grows towards index 0.  A routine saves registers by
pushing them one after the other (`pushRegs`) and gives them back by popping them in the opposite
order (`popRegs`).  What lies between the two may change the registers, the stack pointer and the
words as it likes, and may even change to another stack: the registers that are popped are the words
at the pointer then, in their order (`map_popRegs_reg`), and the others stay
(`popRegs_reg_of_notMem`).

`frame` is the window of the words that are popped.
-/

namespace RegisterStack

variable {R V : Type*}

/-- Registers, and a stack with the index of its top word. -/
structure Machine (R V : Type*) where
  reg : R → V
  sp : ℕ
  word : ℕ → V

namespace Machine

/-- Push a value. -/
def push (m : Machine R V) (v : V) : Machine R V :=
  { m with sp := m.sp - 1, word := Function.update m.word (m.sp - 1) v }

/-- Push registers, the first one first. -/
def pushRegs (m : Machine R V) (rs : List R) : Machine R V := rs.foldl (fun m r => m.push (m.reg r)) m

/-- The `n` words from the top of the stack on. -/
def frame (m : Machine R V) (n : ℕ) : List V := (List.range n).map fun i => m.word (m.sp + i)

variable {m m' : Machine R V} {r : R} {rs : List R} {n i : ℕ}

@[simp] lemma push_reg (m : Machine R V) (v : V) : (m.push v).reg = m.reg := rfl

@[simp] lemma pushRegs_cons (m : Machine R V) (r : R) (rs : List R) :
    m.pushRegs (r :: rs) = (m.push (m.reg r)).pushRegs rs := rfl

@[simp] lemma pushRegs_reg (m : Machine R V) (rs : List R) : (m.pushRegs rs).reg = m.reg := by
  induction rs generalizing m with
  | nil => rfl
  | cons r rs ih => rw [pushRegs_cons, ih, push_reg]

section Pop

variable [DecidableEq R]

/-- Pop a register. -/
def pop (m : Machine R V) (r : R) : Machine R V :=
  { m with reg := Function.update m.reg r (m.word m.sp), sp := m.sp + 1 }

/-- Pop registers, the first one first. -/
def popRegs (m : Machine R V) (rs : List R) : Machine R V := rs.foldl pop m

@[simp] lemma pop_sp (m : Machine R V) (r : R) : (m.pop r).sp = m.sp + 1 := rfl

@[simp] lemma pop_word (m : Machine R V) (r : R) : (m.pop r).word = m.word := rfl

lemma pop_reg (m : Machine R V) (r r' : R) :
    (m.pop r).reg r' = if r' = r then m.word m.sp else m.reg r' :=
  Function.update_apply ..

@[simp] lemma popRegs_cons (m : Machine R V) (r : R) (rs : List R) :
    m.popRegs (r :: rs) = (m.pop r).popRegs rs := rfl

@[simp] lemma popRegs_append (m : Machine R V) (rs rs' : List R) :
    m.popRegs (rs ++ rs') = (m.popRegs rs).popRegs rs' := List.foldl_append

/-- A register that is not popped keeps its value. -/
lemma popRegs_reg_of_notMem (m : Machine R V) (h : r ∉ rs) : (m.popRegs rs).reg r = m.reg r := by
  induction rs generalizing m with
  | nil => rfl
  | cons a rs ih =>
    rw [List.mem_cons, not_or] at h
    rw [popRegs_cons, ih _ h.2, pop_reg, if_neg h.1]

/-- Registers that are popped get the words of the frame. -/
lemma map_popRegs_reg (m : Machine R V) (hrs : rs.Nodup) :
    rs.map (m.popRegs rs).reg = m.frame rs.length := by
  induction rs generalizing m with
  | nil => rfl
  | cons r rs ih =>
    rw [List.nodup_cons] at hrs
    have hrest : rs.map ((m.pop r).popRegs rs).reg =
        (List.range rs.length).map fun i => m.word (m.sp + 1 + i) := ih (m.pop r) hrs.2
    rw [popRegs_cons, List.map_cons, hrest, popRegs_reg_of_notMem _ hrs.1, pop_reg, if_pos rfl,
      frame, List.length_cons, List.range_succ_eq_map, List.map_cons, List.map_map]
    congr 1
    refine List.map_congr_left fun i _ => ?_
    rw [Function.comp_apply, Nat.succ_eq_add_one, Nat.add_assoc, Nat.add_comm 1]

end Pop

end Machine

end RegisterStack
