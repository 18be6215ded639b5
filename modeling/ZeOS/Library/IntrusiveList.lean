import Mathlib.Tactic.Lemma
import Mathlib.Logic.Function.Basic
import Mathlib.Data.List.Nodup

/-!
# Intrusive circular doubly linked lists

Nodes of an arbitrary type `α` carry two links, `next` and `prev`, each a node or null
(`none`).  Several lists share one pool of links: a list is a head node together with the
nodes linked into a ring through it, and the same node is moved between lists by relinking.

The operations are the usual unchecked ones.  `listDel` follows the links of the node it
is given, so a node that is on no list, or on two, makes it relink whatever those links
happen to name; a store through a null link touches no node.

`Ring L h xs` says that the nodes `xs`, in order, are the list with head `h`.  The rules
give, for each operation, the ring it makes (`Ring.listAddTail`, `Ring.listDel`) and the
rings it leaves alone (`Ring.listAddTail_frame`, `Ring.listDel_frame`), and read the three
tests a client makes of a head off the list (`Ring.listEmpty_iff`, `Ring.next_head`,
`Ring.first_eq_last_iff`).  `members` recovers the list from the links.
-/

namespace IntrusiveList

variable {α : Type*} [DecidableEq α]

/-- The two links of every node; null is `none`. -/
structure Links (α : Type*) where
  next : α → Option α
  prev : α → Option α

namespace Links

/-- `x->next = v`, where a store through a null `x` reaches no node. -/
def setNext (L : Links α) (x : Option α) (v : Option α) : Links α :=
  match x with
  | none => L
  | some a => { L with next := Function.update L.next a v }

/-- `x->prev = v`. -/
def setPrev (L : Links α) (x : Option α) (v : Option α) : Links α :=
  match x with
  | none => L
  | some a => { L with prev := Function.update L.prev a v }

/-- Make `h` the head of an empty list. -/
def initListHead (L : Links α) (h : α) : Links α :=
  (L.setNext (some h) (some h)).setPrev (some h) (some h)

/-- Link `x` between `prev` and `next`, which are known to be neighbours. -/
def listAddBetween (L : Links α) (x : α) (prev next : Option α) : Links α :=
  (((L.setPrev next (some x)).setNext (some x) next).setPrev (some x) prev).setNext prev (some x)

/-- Link `x` in just after the head. -/
def listAdd (L : Links α) (x h : α) : Links α :=
  L.listAddBetween x (some h) (L.next h)

/-- Link `x` in just before the head. -/
def listAddTail (L : Links α) (x h : α) : Links α :=
  L.listAddBetween x (L.prev h) (some h)

/-- Make `prev` and `next` point to each other. -/
def listDelBetween (L : Links α) (prev next : Option α) : Links α :=
  (L.setPrev next prev).setNext prev next

/-- Unlink `x` and null its links. -/
def listDel (L : Links α) (x : α) : Links α :=
  ((L.listDelBetween (L.prev x) (L.next x)).setNext (some x) none).setPrev (some x) none

/-- Copy the links of `x` over those of `y`, as a copy of the structure around them does. -/
def copyNode (L : Links α) (x y : α) : Links α :=
  (L.setNext (some y) (L.next x)).setPrev (some y) (L.prev x)

/-- The list of `h` is empty. -/
def listEmpty (L : Links α) (h : α) : Bool := L.next h == some h

/-- The node after the head. -/
def listFirst (L : Links α) (h : α) : Option α := L.next h

/-- The node before the head. -/
def listLast (L : Links α) (h : α) : Option α := L.prev h

/-- Follow `next` from `x` until the head, a null link or the end of the fuel. -/
def walk (L : Links α) (h : α) : ℕ → Option α → List α
  | 0, _ => []
  | _ + 1, none => []
  | n + 1, some x => if x = h then [] else x :: L.walk h n (L.next x)

/-- The nodes on the list of `h`, at most `fuel` of them. -/
def members (L : Links α) (h : α) (fuel : ℕ) : List α := L.walk h fuel (L.next h)

/-! ## The links after each operation -/

lemma next_listAddTail {L : Links α} {x h p : α} (hp : L.prev h = some p) (y : α) :
    (L.listAddTail x h).next y =
      if y = p then some x else if y = x then some h else L.next y := by
  simp only [listAddTail, listAddBetween, setPrev, setNext, hp, Function.update_apply]

lemma prev_listAddTail {L : Links α} {x h p : α} (hp : L.prev h = some p) (y : α) :
    (L.listAddTail x h).prev y =
      if y = x then some p else if y = h then some x else L.prev y := by
  simp only [listAddTail, listAddBetween, setPrev, setNext, hp, Function.update_apply]

lemma next_listDel {L : Links α} {x p q : α} (hp : L.prev x = some p) (hq : L.next x = some q)
    (y : α) :
    (L.listDel x).next y = if y = x then none else if y = p then some q else L.next y := by
  simp only [listDel, listDelBetween, setPrev, setNext, hp, hq, Function.update_apply]

lemma prev_listDel {L : Links α} {x p q : α} (hp : L.prev x = some p) (hq : L.next x = some q)
    (y : α) :
    (L.listDel x).prev y = if y = x then none else if y = q then some p else L.prev y := by
  simp only [listDel, listDelBetween, setPrev, setNext, hp, hq, Function.update_apply]

lemma next_initListHead (L : Links α) (h y : α) :
    (L.initListHead h).next y = if y = h then some h else L.next y := by
  simp only [initListHead, setPrev, setNext, Function.update_apply]

lemma prev_initListHead (L : Links α) (h y : α) :
    (L.initListHead h).prev y = if y = h then some h else L.prev y := by
  simp only [initListHead, setPrev, setNext, Function.update_apply]

/-- A node with null links is unlinked from nothing. -/
lemma listDel_of_null {L : Links α} {x : α} (hn : L.next x = none) (hp : L.prev x = none) :
    L.listDel x = L := by
  have hnext : Function.update L.next x none = L.next := by
    rw [← hn, Function.update_eq_self]
  have hprev : Function.update L.prev x none = L.prev := by
    rw [← hp, Function.update_eq_self]
  rw [listDel, hn, hp]
  simp only [listDelBetween, setPrev, setNext, hnext, hprev]

/-- A node that is the last of a list already is linked to itself. -/
lemma next_listAddTail_of_last {L : Links α} {x h : α} (hp : L.prev h = some x) :
    (L.listAddTail x h).next x = some x := by
  rw [next_listAddTail hp, if_pos rfl]

/-- A walk does not leave a node that is linked to itself. -/
lemma walk_of_loop {L : Links α} {h x : α} (hx : x ≠ h) (hloop : L.next x = some x) (n : ℕ) :
    L.walk h n (some x) = List.replicate n x := by
  induction n with
  | zero => rfl
  | succ n ih => rw [walk, if_neg hx, hloop, ih, List.replicate_succ]

end Links

/-! ## Segments and rings -/

/-- The links lead from `a` through `xs` to `b`, and back. -/
def Seg (L : Links α) : α → List α → α → Prop
  | a, [], b => L.next a = some b ∧ L.prev b = some a
  | a, x :: xs, b => (L.next a = some x ∧ L.prev x = some a) ∧ Seg L x xs b

/-- The nodes `xs`, in order, are the list with head `h`. -/
def Ring (L : Links α) (h : α) (xs : List α) : Prop :=
  (h :: xs).Nodup ∧ Seg L h xs h

omit [DecidableEq α] in
lemma seg_append {L : Links α} {xs ys : List α} {p b : α} :
    ∀ {a : α}, Seg L a (xs ++ p :: ys) b ↔ Seg L a xs p ∧ Seg L p ys b := by
  induction xs with
  | nil => intro a; exact Iff.rfl
  | cons x xs ih =>
    intro a
    show (_ ∧ Seg L x (xs ++ p :: ys) b) ↔ (_ ∧ Seg L x xs p) ∧ _
    rw [ih, and_assoc, and_assoc, and_assoc]

omit [DecidableEq α] in
/-- A segment only depends on the links along it. -/
lemma Seg.congr {L L' : Links α} {xs : List α} {b : α} :
    ∀ {a : α}, Seg L a xs b → (∀ y ∈ a :: xs, L'.next y = L.next y) →
      (∀ y ∈ xs ++ [b], L'.prev y = L.prev y) → Seg L' a xs b := by
  induction xs with
  | nil =>
    intro a h hn hp
    exact ⟨(hn a (by simp)).trans h.1, (hp b (by simp)).trans h.2⟩
  | cons x xs ih =>
    intro a h hn hp
    refine ⟨⟨(hn a (by simp)).trans h.1.1, (hp x (by simp)).trans h.1.2⟩, ih h.2 ?_ ?_⟩
    · intro y hy
      exact hn y (List.mem_cons_of_mem _ hy)
    · intro y hy
      exact hp y (List.mem_cons_of_mem _ hy)

omit [DecidableEq α] in
/-- A ring only depends on the links of its own nodes. -/
lemma Ring.congr {L L' : Links α} {h : α} {xs : List α} (hr : Ring L h xs)
    (hn : ∀ y ∈ h :: xs, L'.next y = L.next y) (hp : ∀ y ∈ h :: xs, L'.prev y = L.prev y) :
    Ring L' h xs := by
  refine ⟨hr.1, hr.2.congr hn ?_⟩
  intro y hy
  apply hp
  simpa [or_comm] using hy

omit [DecidableEq α] in
/-- The neighbours of a node on a ring are nodes of that ring. -/
lemma Ring.neighbours {L : Links α} {h x : α} {xs ys : List α}
    (hr : Ring L h (xs ++ x :: ys)) :
    ∃ p ∈ h :: xs, ∃ q ∈ ys ++ [h], L.prev x = some p ∧ L.next x = some q := by
  obtain ⟨h1, h2⟩ := seg_append.mp hr.2
  obtain ⟨p, hpm, hp⟩ : ∃ p ∈ h :: xs, L.prev x = some p := by
    rcases List.eq_nil_or_concat xs with rfl | ⟨xs', p, rfl⟩
    · exact ⟨h, by simp, h1.2⟩
    · rw [List.concat_eq_append] at h1
      exact ⟨p, by simp, (seg_append.mp h1).2.2⟩
  obtain ⟨q, hqm, hq⟩ : ∃ q ∈ ys ++ [h], L.next x = some q := by
    cases ys with
    | nil => exact ⟨h, by simp, h2.1⟩
    | cons q ys => exact ⟨q, by simp, h2.1.1⟩
  exact ⟨p, hpm, q, hqm, hp, hq⟩

omit [DecidableEq α] in
/-- The node before the head is the last of the list, or the head itself. -/
lemma Ring.prev_head {L : Links α} {h : α} {xs : List α} (hr : Ring L h xs) :
    L.prev h = some ((h :: xs).getLast (by simp)) := by
  rcases List.eq_nil_or_concat xs with rfl | ⟨xs', p, rfl⟩
  · exact hr.2.2
  · rw [List.concat_eq_append] at hr
    simpa using (seg_append.mp hr.2).2.2

omit [DecidableEq α] in
lemma Ring.next_head {L : Links α} {h x : α} {xs : List α} (hr : Ring L h (x :: xs)) :
    L.next h = some x := hr.2.1.1

omit [DecidableEq α] in
lemma Ring.next_head_nil {L : Links α} {h : α} (hr : Ring L h []) :
    L.next h = some h := hr.2.1

lemma Ring.listEmpty_iff {L : Links α} {h : α} {xs : List α} (hr : Ring L h xs) :
    L.listEmpty h = true ↔ xs = [] := by
  unfold Links.listEmpty
  cases xs with
  | nil => simp [hr.next_head_nil]
  | cons x xs =>
    have hne : x ≠ h := by
      rintro rfl
      exact (List.nodup_cons.mp hr.1).1 (List.mem_cons_self ..)
    simp [hr.next_head, hne]

omit [DecidableEq α] in
/-- The first and the last node of a list coincide exactly when it has at most one. -/
lemma Ring.first_eq_last_iff {L : Links α} {h : α} {xs : List α} (hr : Ring L h xs) :
    L.listFirst h = L.listLast h ↔ xs.length ≤ 1 := by
  unfold Links.listFirst Links.listLast
  rw [hr.prev_head]
  match xs, hr with
  | [], hr => simp [hr.next_head_nil]
  | [x], hr => simp [hr.next_head]
  | x :: y :: ys, hr =>
    have hx : x ∉ y :: ys := (List.nodup_cons.mp (List.nodup_cons.mp hr.1).2).1
    have hl : x ≠ (h :: x :: y :: ys).getLast (by simp) := by
      intro heq
      apply hx
      rw [heq]
      simp
    rw [hr.next_head]
    simp only [Option.some.injEq, List.length_cons]
    exact ⟨fun h => absurd h hl, fun h => by omega⟩

/-! ## The operations on rings -/

lemma ring_initListHead (L : Links α) (h : α) : Ring (L.initListHead h) h [] :=
  ⟨by simp, by simp [Links.next_initListHead], by simp [Links.prev_initListHead]⟩

/-- Overwriting the links of a node that is on no list. -/
lemma Ring.copyNode_frame {L : Links α} {h x y : α} {xs : List α} (hr : Ring L h xs)
    (hy : y ∉ h :: xs) : Ring (L.copyNode x y) h xs := by
  have hne : ∀ z ∈ h :: xs, z ≠ y := fun z hz hzy => hy (hzy ▸ hz)
  apply hr.congr
  · intro z hz
    simp only [Links.copyNode, Links.setNext, Links.setPrev, Function.update_apply,
      if_neg (hne z hz)]
  · intro z hz
    simp only [Links.copyNode, Links.setNext, Links.setPrev, Function.update_apply,
      if_neg (hne z hz)]

lemma Ring.initListHead_frame {L : Links α} {h k : α} {xs : List α} (hr : Ring L h xs)
    (hk : k ∉ h :: xs) : Ring (L.initListHead k) h xs := by
  have hne : ∀ y ∈ h :: xs, y ≠ k := fun y hy hyk => hk (hyk ▸ hy)
  apply hr.congr
  · intro y hy
    rw [Links.next_initListHead, if_neg (hne y hy)]
  · intro y hy
    rw [Links.prev_initListHead, if_neg (hne y hy)]

/-- Appending a node that is not on the list. -/
lemma Ring.listAddTail {L : Links α} {h x : α} {xs : List α} (hr : Ring L h xs)
    (hx : x ∉ h :: xs) : Ring (L.listAddTail x h) h (xs ++ [x]) := by
  have hnd := hr.1
  have hxh : x ≠ h := fun hxh => hx (by simp [hxh])
  refine ⟨?_, ?_⟩
  · rw [← List.cons_append]
    exact hnd.append (by simp) (by simpa [List.disjoint_singleton, eq_comm] using hx)
  · have hp := hr.prev_head
    rcases List.eq_nil_or_concat xs with rfl | ⟨xs', p, rfl⟩
    · have hp' : L.prev h = some h := hp
      refine ⟨⟨?_, ?_⟩, ?_, ?_⟩
      · rw [Links.next_listAddTail hp', if_pos rfl]
      · rw [Links.prev_listAddTail hp', if_pos rfl]
      · rw [Links.next_listAddTail hp', if_neg hxh, if_pos rfl]
      · rw [Links.prev_listAddTail hp', if_neg hxh.symm, if_pos rfl]
    · rw [List.concat_eq_append] at hr hx hnd hp ⊢
      have hp' : L.prev h = some p := by simpa using hp
      have hxp : x ≠ p := fun hxp => hx (by simp [hxp])
      have hph : p ≠ h := by
        rintro rfl
        simp at hnd
      -- The old segment up to `p` is untouched; the two new links go through `x`.
      rw [List.append_assoc, List.singleton_append, seg_append]
      refine ⟨(seg_append.mp hr.2).1.congr ?_ ?_, ⟨?_, ?_⟩, ?_, ?_⟩
      · intro y hy
        have hyp : y ≠ p := by
          rintro rfl
          have hnd' := hnd
          rw [← List.cons_append, List.nodup_append] at hnd'
          exact hnd'.2.2 _ hy _ (by simp) rfl
        have hyx : y ≠ x := by
          rintro rfl
          exact hx (List.mem_cons.mpr ((List.mem_cons.mp hy).imp_right (by simp_all)))
        rw [Links.next_listAddTail hp', if_neg hyp, if_neg hyx]
      · intro y hy
        have hyx : y ≠ x := fun hyx => hx (List.mem_cons_of_mem _ (hyx ▸ hy))
        have hyh : y ≠ h := fun hyh => (List.nodup_cons.mp hnd).1 (hyh ▸ hy)
        rw [Links.prev_listAddTail hp', if_neg hyx, if_neg hyh]
      · rw [Links.next_listAddTail hp', if_pos rfl]
      · rw [Links.prev_listAddTail hp', if_pos rfl]
      · rw [Links.next_listAddTail hp', if_neg hxp, if_pos rfl]
      · rw [Links.prev_listAddTail hp', if_neg hxh.symm, if_pos rfl]

/-- Appending to one list leaves every list that shares no node with it alone. -/
lemma Ring.listAddTail_frame {L : Links α} {h k x : α} {xs ys : List α} (hr : Ring L h xs)
    (hk : Ring L k ys) (hx : x ∉ k :: ys) (hd : List.Disjoint (h :: xs) (k :: ys)) :
    Ring (L.listAddTail x h) k ys := by
  have hp := hr.prev_head
  have hlast : (h :: xs).getLast (by simp) ∈ h :: xs := List.getLast_mem _
  apply hk.congr
  · intro y hy
    rw [Links.next_listAddTail hp, if_neg, if_neg]
    · exact fun hyx => hx (hyx ▸ hy)
    · exact fun hyl => hd hlast (hyl ▸ hy)
  · intro y hy
    rw [Links.prev_listAddTail hp, if_neg, if_neg]
    · exact fun hyh => hd (List.mem_cons_self ..) (hyh ▸ hy)
    · exact fun hyx => hx (hyx ▸ hy)

/-- A node outside the list keeps its successor when another one is appended. -/
lemma Ring.next_listAddTail_of_notMem {L : Links α} {h x y : α} {xs : List α} (hr : Ring L h xs)
    (hy : y ∉ h :: xs) (hyx : y ≠ x) : (L.listAddTail x h).next y = L.next y := by
  have hlast : (h :: xs).getLast (by simp) ∈ h :: xs := List.getLast_mem _
  rw [Links.next_listAddTail hr.prev_head, if_neg, if_neg hyx]
  exact fun hyl => hy (hyl ▸ hlast)

/-- Unlinking a node of a list. -/
lemma Ring.listDel {L : Links α} {h x : α} {xs ys : List α} (hr : Ring L h (xs ++ x :: ys)) :
    Ring (L.listDel x) h (xs ++ ys) := by
  obtain ⟨h1, h2⟩ := seg_append.mp hr.2
  have hnd := hr.1
  rw [List.nodup_cons, List.nodup_append, List.nodup_cons] at hnd
  obtain ⟨hh, hxs, ⟨hxys, hys⟩, hdis⟩ := hnd
  have hxh : x ≠ h := fun hxh => hh (by simp [hxh])
  have hxxs : x ∉ xs := fun hm => hdis x hm x (by simp) rfl
  refine ⟨?_, ?_⟩
  · refine List.nodup_cons.mpr ⟨fun hm => hh ?_, List.nodup_append.mpr ⟨hxs, hys, ?_⟩⟩
    · rcases List.mem_append.mp hm with hm | hm <;> simp [hm]
    · intro a ha b hb
      exact hdis a ha b (List.mem_cons_of_mem _ hb)
  -- Split on whether `x` has a list node, or only the head, on either side.
  rcases List.eq_nil_or_concat xs with rfl | ⟨xs', p, rfl⟩
  · cases ys with
    | nil =>
      refine ⟨?_, ?_⟩
      · rw [Links.next_listDel h1.2 h2.1, if_neg hxh.symm, if_pos rfl]
      · rw [Links.prev_listDel h1.2 h2.1, if_neg hxh.symm, if_pos rfl]
    | cons q ys =>
      have hqx : q ≠ x := fun hqx => hxys (by simp [hqx])
      refine ⟨⟨?_, ?_⟩, h2.2.congr ?_ ?_⟩
      · rw [Links.next_listDel h1.2 h2.1.1, if_neg hxh.symm, if_pos rfl]
      · rw [Links.prev_listDel h1.2 h2.1.1, if_neg hqx, if_pos rfl]
      · intro y hy
        rw [Links.next_listDel h1.2 h2.1.1, if_neg, if_neg]
        · exact fun hyh => hh (by simpa [hyh] using Or.inr hy)
        · exact fun hyx => hxys (hyx ▸ hy)
      · intro y hy
        have hyq : y ≠ q := by
          rintro rfl
          rcases List.mem_append.mp hy with hy | hy
          · exact (List.nodup_cons.mp hys).1 hy
          · exact hh (by simp at hy; simp [hy])
        have hyx : y ≠ x := by
          rintro rfl
          rcases List.mem_append.mp hy with hy | hy
          · exact hxys (List.mem_cons_of_mem _ hy)
          · exact hxh (by simpa using hy)
        rw [Links.prev_listDel h1.2 h2.1.1, if_neg hyx, if_neg hyq]
  · rw [List.concat_eq_append] at *
    obtain ⟨h1a, h1b⟩ := seg_append.mp h1
    have hpx : p ≠ x := fun hpx => hxxs (by simp [hpx])
    have hph : p ≠ h := fun hph => hh (by simp [hph])
    have hpxs' : p ∉ xs' := fun hm => (List.nodup_append.mp hxs).2.2 p hm p (by simp) rfl
    have hleft : ∀ q, L.next x = some q → q = h ∨ q ∈ ys →
        Seg (L.listDel x) h xs' p := by
      intro q hq hqm
      apply h1a.congr
      · intro y hy
        rw [Links.next_listDel h1b.2 hq, if_neg, if_neg]
        · rintro rfl
          rcases List.mem_cons.mp hy with hy | hy
          · exact hph hy
          · exact hpxs' hy
        · rintro rfl
          rcases List.mem_cons.mp hy with rfl | hy
          · exact hxh rfl
          · exact hxxs (List.mem_append_left _ hy)
      · intro y hy
        rw [Links.prev_listDel h1b.2 hq, if_neg, if_neg]
        · rintro rfl
          rcases hqm with rfl | hqm
          · exact hh (List.mem_append_left _ hy)
          · exact hdis _ hy _ (List.mem_cons_of_mem _ hqm) rfl
        · rintro rfl
          exact hxxs hy
    rw [List.append_assoc, List.singleton_append, seg_append]
    cases ys with
    | nil =>
      refine ⟨hleft h h2.1 (Or.inl rfl), ?_, ?_⟩
      · rw [Links.next_listDel h1b.2 h2.1, if_neg hpx, if_pos rfl]
      · rw [Links.prev_listDel h1b.2 h2.1, if_neg hxh.symm, if_pos rfl]
    | cons q ys =>
      have hqx : q ≠ x := fun hqx => hxys (by simp [hqx])
      refine ⟨hleft q h2.1.1 (Or.inr (by simp)), ⟨?_, ?_⟩, h2.2.congr ?_ ?_⟩
      · rw [Links.next_listDel h1b.2 h2.1.1, if_neg hpx, if_pos rfl]
      · rw [Links.prev_listDel h1b.2 h2.1.1, if_neg hqx, if_pos rfl]
      · intro y hy
        rw [Links.next_listDel h1b.2 h2.1.1, if_neg, if_neg]
        · rintro rfl
          exact hdis y (by simp) y (List.mem_cons_of_mem _ hy) rfl
        · exact fun hyx => hxys (hyx ▸ hy)
      · intro y hy
        have hyq : y ≠ q := by
          rintro rfl
          rcases List.mem_append.mp hy with hy | hy
          · exact (List.nodup_cons.mp hys).1 hy
          · exact hh (by simp at hy; simp [hy])
        have hyx : y ≠ x := by
          rintro rfl
          rcases List.mem_append.mp hy with hy | hy
          · exact hxys (List.mem_cons_of_mem _ hy)
          · exact hxh (by simpa using hy)
        rw [Links.prev_listDel h1b.2 h2.1.1, if_neg hyx, if_neg hyq]

/-- The first node goes to the end. -/
lemma Ring.rotate {L : Links α} {h x : α} {xs : List α} (hr : Ring L h (x :: xs)) :
    Ring ((L.listDel x).listAddTail x h) h (xs ++ [x]) := by
  have hnd := hr.1
  rw [List.nodup_cons, List.nodup_cons] at hnd
  obtain ⟨hh, hx, -⟩ := hnd
  have hdel : Ring (L.listDel x) h ([] ++ xs) := Ring.listDel hr
  refine Ring.listAddTail hdel fun hmem => ?_
  rcases List.mem_cons.mp hmem with rfl | hmem
  · exact hh List.mem_cons_self
  · exact hx hmem

/-- Unlinking a node of one list leaves every list that shares no node with it alone. -/
lemma Ring.listDel_frame {L : Links α} {h k x : α} {xs ys : List α} (hr : Ring L h xs)
    (hx : x ∈ xs) (hk : Ring L k ys) (hd : List.Disjoint (h :: xs) (k :: ys)) :
    Ring (L.listDel x) k ys := by
  obtain ⟨as, bs, rfl⟩ := List.append_of_mem hx
  obtain ⟨p, hpm, q, hqm, hp, hq⟩ := hr.neighbours
  have hpm' : p ∈ h :: (as ++ x :: bs) := by
    rcases List.mem_cons.mp hpm with rfl | hpm <;> simp_all
  have hqm' : q ∈ h :: (as ++ x :: bs) := by
    rcases List.mem_append.mp hqm with hqm | hqm <;> simp_all
  apply hk.congr
  · intro y hy
    rw [Links.next_listDel hp hq, if_neg, if_neg]
    · exact fun hyp => hd hpm' (hyp ▸ hy)
    · exact fun hyx => hd (List.mem_cons_of_mem _ hx) (hyx ▸ hy)
  · intro y hy
    rw [Links.prev_listDel hp hq, if_neg, if_neg]
    · exact fun hyq => hd hqm' (hyq ▸ hy)
    · exact fun hyx => hd (List.mem_cons_of_mem _ hx) (hyx ▸ hy)

/-- A node outside the list keeps its successor when a node of the list is unlinked. -/
lemma Ring.next_listDel_of_notMem {L : Links α} {h x y : α} {xs : List α} (hr : Ring L h xs)
    (hx : x ∈ xs) (hy : y ∉ h :: xs) : (L.listDel x).next y = L.next y := by
  obtain ⟨as, bs, rfl⟩ := List.append_of_mem hx
  obtain ⟨p, hpm, q, -, hp, hq⟩ := hr.neighbours
  have hpm' : p ∈ h :: (as ++ x :: bs) := by
    rcases List.mem_cons.mp hpm with rfl | hpm <;> simp_all
  rw [Links.next_listDel hp hq, if_neg, if_neg]
  · exact fun hyp => hy (hyp ▸ hpm')
  · exact fun hyx => hy (List.mem_cons_of_mem _ (hyx ▸ hx))

/-! ## Recovering the list -/

lemma Seg.walk_eq {L : Links α} {h : α} {xs : List α} :
    ∀ {a : α}, Seg L a xs h → h ∉ xs → ∀ {fuel : ℕ}, xs.length < fuel →
      L.walk h fuel (L.next a) = xs := by
  induction xs with
  | nil =>
    intro a hs _ fuel hf
    obtain ⟨n, rfl⟩ : ∃ n, fuel = n + 1 := ⟨fuel - 1, by omega⟩
    simp [hs.1, Links.walk]
  | cons x xs ih =>
    intro a hs hh fuel hf
    obtain ⟨n, rfl⟩ : ∃ n, fuel = n + 1 := ⟨fuel - 1, by simp at hf; omega⟩
    have hxh : x ≠ h := fun hxh => hh (by simp [hxh])
    rw [hs.1.1, Links.walk, if_neg hxh]
    rw [ih hs.2 (fun hm => hh (List.mem_cons_of_mem _ hm)) (by simpa using hf)]

/-- With enough fuel, following the links from the head gives the list back. -/
lemma Ring.members_eq {L : Links α} {h : α} {xs : List α} (hr : Ring L h xs) {fuel : ℕ}
    (hf : xs.length < fuel) : L.members h fuel = xs :=
  hr.2.walk_eq (List.nodup_cons.mp hr.1).1 hf

end IntrusiveList
