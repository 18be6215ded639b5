import ZeOS.Library.IntrusiveList

/-!
# Disjoint lists in one pool of links

Records of a type `β` each embed one list node, `node b : α`, so a record is on at most one
list at a time.  Some nodes are list heads and some of the heads are in use; which ones are
may change.  `Pool node L act Q` says that the heads in use (`act`) each carry the list `Q h`
of records, that the other heads carry none, and that no record is on two lists.

The rules move the assignment `Q` along with the links: unlinking (`Pool.listDel`), appending
(`Pool.listAddTail`) and their composition, which moves a record from one list to another or
to the end of its own (`Pool.move`); taking a head into use and out of it; and overwriting the
node of a record that is on no list (`Pool.copyNode`).
-/

namespace IntrusiveList

variable {α β : Type*} [DecidableEq α] [DecidableEq β] {node : β → α} {L : Links α}
  {act : α → Prop} {Q : α → List β}

/-- The heads in use carry the lists `Q`, and no record is on two of them. -/
structure Pool (node : β → α) (L : Links α) (act : α → Prop) (Q : α → List β) : Prop where
  /-- Different records embed different nodes. -/
  inj : Function.Injective node
  /-- A head in use is not the node of a record. -/
  not_head : ∀ h, act h → ∀ b, node b ≠ h
  ring : ∀ h, act h → Ring L h ((Q h).map node)
  inactive : ∀ h, ¬ act h → Q h = []
  /-- A head out of use is null or points to itself. -/
  idle : ∀ h, ¬ act h → (∀ b, node b ≠ h) → L.next h = none ∨ L.next h = some h
  disjoint : ∀ h k, h ≠ k → List.Disjoint (Q h) (Q k)

namespace Pool

omit [DecidableEq α] [DecidableEq β] in
lemma nodup (hP : Pool node L act Q) (h : α) : (Q h).Nodup := by
  by_cases ha : act h
  · exact List.Nodup.of_map _ (List.nodup_cons.mp (hP.ring h ha).1).2
  · rw [hP.inactive h ha]
    exact List.nodup_nil

omit [DecidableEq α] [DecidableEq β] in
lemma act_of_mem (hP : Pool node L act Q) {h : α} {b : β} (hb : b ∈ Q h) : act h := by
  by_contra ha
  rw [hP.inactive h ha] at hb
  exact List.not_mem_nil hb

omit [DecidableEq α] [DecidableEq β] in
/-- A record is on one list only. -/
lemma eq_of_mem (hP : Pool node L act Q) {h k : α} {b : β} (hh : b ∈ Q h) (hk : b ∈ Q k) :
    h = k := by
  by_contra hne
  exact hP.disjoint h k hne hh hk

omit [DecidableEq α] [DecidableEq β] in
/-- The rings of two heads share no node, the heads included. -/
lemma disjoint_rings (hP : Pool node L act Q) {h k : α} (hh : act h) (hk : act k) (hne : h ≠ k) :
    List.Disjoint (h :: (Q h).map node) (k :: (Q k).map node) := by
  intro x hx hx'
  rcases List.mem_cons.mp hx with rfl | hx
  · rcases List.mem_cons.mp hx' with hxk | hx'
    · exact hne hxk
    · obtain ⟨b, -, hb⟩ := List.mem_map.mp hx'
      exact hP.not_head x hh b hb
  · obtain ⟨b, hb, rfl⟩ := List.mem_map.mp hx
    rcases List.mem_cons.mp hx' with hxk | hx'
    · exact hP.not_head k hk b hxk
    · obtain ⟨c, hc, hcb⟩ := List.mem_map.mp hx'
      exact hP.disjoint h k hne hb (hP.inj hcb ▸ hc)

omit [DecidableEq α] [DecidableEq β] in
/-- A head out of use is on no ring. -/
lemma idle_not_mem {h k x : α} (hh : act h) (hk : ¬ act k)
    (hnode : ∀ b, node b ≠ k) (hx : x ∈ h :: (Q h).map node) : k ≠ x := by
  rintro rfl
  rcases List.mem_cons.mp hx with rfl | hx
  · exact hk hh
  · obtain ⟨b, -, hb⟩ := List.mem_map.mp hx
    exact hnode b hb

omit [DecidableEq α] [DecidableEq β] in
lemma node_not_mem (hP : Pool node L act Q) {h : α} (hh : act h) {b : β} (hb : b ∉ Q h) :
    node b ∉ h :: (Q h).map node := by
  intro hm
  rcases List.mem_cons.mp hm with hm | hm
  · exact hP.not_head h hh b hm
  · obtain ⟨c, hc, hcb⟩ := List.mem_map.mp hm
    exact hb (hP.inj hcb ▸ hc)

/-- Unlink a record from the list it is on. -/
lemma listDel (hP : Pool node L act Q) {a : α} {b : β} (hb : b ∈ Q a) :
    Pool node (L.listDel (node b)) act (Function.update Q a ((Q a).erase b)) := by
  have ha := hP.act_of_mem hb
  have hra := hP.ring a ha
  refine ⟨hP.inj, hP.not_head, ?_, ?_, ?_, ?_⟩
  · intro h hh
    by_cases hha : h = a
    · subst hha
      rw [Function.update_self]
      obtain ⟨xs, ys, hxy⟩ := List.append_of_mem hb
      have hbx : b ∉ xs := by
        intro hbx
        have hnd := hP.nodup h
        rw [hxy] at hnd
        exact (List.nodup_append.mp hnd).2.2 b hbx b (List.mem_cons_self ..) rfl
      rw [hxy, List.map_append, List.map_cons] at hra
      rw [hxy, List.erase_append_right _ hbx, List.erase_cons_head, List.map_append]
      exact hra.listDel
    · rw [Function.update_of_ne hha]
      exact hra.listDel_frame (List.mem_map_of_mem hb) (hP.ring h hh)
        (hP.disjoint_rings ha hh (Ne.symm hha))
  · intro h hh
    have hha : h ≠ a := fun hha => hh (hha ▸ ha)
    rw [Function.update_of_ne hha]
    exact hP.inactive h hh
  · intro h hh hnode
    obtain ⟨xs, ys, hxy⟩ := List.append_of_mem (List.mem_map_of_mem (f := node) hb)
    have hr := hra
    rw [hxy] at hr
    obtain ⟨p, hpm, q, -, hp, hq⟩ := hr.neighbours
    have hpm' : p ∈ a :: (Q a).map node := by
      rw [hxy]
      rcases List.mem_cons.mp hpm with rfl | hpm
      · exact List.mem_cons_self ..
      · exact List.mem_cons_of_mem _ (List.mem_append_left _ hpm)
    rw [Links.next_listDel hp hq, if_neg (Ne.symm (hnode b)),
      if_neg (idle_not_mem ha hh hnode hpm')]
    exact hP.idle h hh hnode
  · intro h k hne c hc hc'
    have hsub : ∀ x, c ∈ Function.update Q a ((Q a).erase b) x → c ∈ Q x := by
      intro x hx
      by_cases hxa : x = a
      · subst hxa
        rw [Function.update_self] at hx
        exact List.mem_of_mem_erase hx
      · rwa [Function.update_of_ne hxa] at hx
    exact hP.disjoint h k hne (hsub h hc) (hsub k hc')

omit [DecidableEq β] in
/-- Append a record that is on no list. -/
lemma listAddTail (hP : Pool node L act Q) {a : α} {b : β} (ha : act a) (hb : ∀ h, b ∉ Q h) :
    Pool node (L.listAddTail (node b) a) act (Function.update Q a (Q a ++ [b])) := by
  have hra := hP.ring a ha
  refine ⟨hP.inj, hP.not_head, ?_, ?_, ?_, ?_⟩
  · intro h hh
    by_cases hha : h = a
    · subst hha
      rw [Function.update_self, List.map_append]
      exact hra.listAddTail (hP.node_not_mem hh (hb h))
    · rw [Function.update_of_ne hha]
      exact hra.listAddTail_frame (hP.ring h hh) (hP.node_not_mem hh (hb h))
        (hP.disjoint_rings ha hh (Ne.symm hha))
  · intro h hh
    have hha : h ≠ a := fun hha => hh (hha ▸ ha)
    rw [Function.update_of_ne hha]
    exact hP.inactive h hh
  · intro h hh hnode
    rw [Links.next_listAddTail hra.prev_head, if_neg (Ne.symm (hnode b)),
      if_neg (idle_not_mem ha hh hnode (List.getLast_mem _))]
    exact hP.idle h hh hnode
  · intro h k hne c hc hc'
    by_cases hha : h = a
    · subst hha
      rw [Function.update_self] at hc
      rw [Function.update_of_ne (Ne.symm hne)] at hc'
      rcases List.mem_append.mp hc with hc | hc
      · exact hP.disjoint h k hne hc hc'
      · exact hb k (List.mem_singleton.mp hc ▸ hc')
    · rw [Function.update_of_ne hha] at hc
      by_cases hka : k = a
      · subst hka
        rw [Function.update_self] at hc'
        rcases List.mem_append.mp hc' with hc' | hc'
        · exact hP.disjoint h k hne hc hc'
        · exact hb h (List.mem_singleton.mp hc' ▸ hc)
      · rw [Function.update_of_ne hka] at hc'
        exact hP.disjoint h k hne hc hc'

lemma not_mem_erase (hP : Pool node L act Q) {a : α} {b : β} (hb : b ∈ Q a) (h : α) :
    b ∉ Function.update Q a ((Q a).erase b) h := by
  by_cases hha : h = a
  · subst hha
    rw [Function.update_self]
    exact List.Nodup.not_mem_erase (hP.nodup h)
  · rw [Function.update_of_ne hha]
    exact fun hm => hha (hP.eq_of_mem hm hb)

/-- The lists after a record has been moved from `a` to the end of `k`. -/
def moved (Q : α → List β) (b : β) (a k : α) : α → List β :=
  let Q := Function.update Q a ((Q a).erase b)
  Function.update Q k (Q k ++ [b])

/-- Move a record from one list to the end of another, or of the same. -/
lemma move (hP : Pool node L act Q) {a k : α} {b : β} (hb : b ∈ Q a) (hk : act k) :
    Pool node ((L.listDel (node b)).listAddTail (node b) k) act (moved Q b a k) :=
  (hP.listDel hb).listAddTail hk (hP.not_mem_erase hb)

/-- The list of each head after a move. -/
lemma moved_apply (Q : α → List β) (b : β) (a k h : α) :
    moved Q b a k h =
      (if h = a then (Q h).erase b else Q h) ++ (if h = k then [b] else []) := by
  unfold moved
  by_cases hk : h = k
  · subst hk
    by_cases ha : h = a
    · subst ha
      simp
    · simp [ha]
  · by_cases ha : h = a
    · subst ha
      simp [hk]
    · simp [hk, ha]

/-- Moving a record keeps the records that are on some list. -/
lemma mem_moved {a k : α} {b c : β} (hb : b ∈ Q a) :
    (∃ h, c ∈ moved Q b a k h) ↔ ∃ h, c ∈ Q h := by
  by_cases hcb : c = b
  · subst hcb
    refine ⟨fun _ => ⟨a, hb⟩, fun _ => ⟨k, ?_⟩⟩
    simp [moved_apply]
  · have hmem : ∀ h, c ∈ moved Q b a k h ↔ c ∈ Q h := by
      intro h
      rw [moved_apply]
      split_ifs <;> simp [hcb, List.mem_erase_of_ne]
    simp only [hmem]

omit [DecidableEq β] in
/-- Take a new head into use, with an empty list. -/
lemma initListHead (hP : Pool node L act Q) {k : α} (hk : ¬ act k) (hnode : ∀ b, node b ≠ k) :
    Pool node (L.initListHead k) (fun h => act h ∨ h = k) Q := by
  refine ⟨hP.inj, ?_, ?_, ?_, ?_, hP.disjoint⟩
  · rintro h (hh | rfl)
    · exact hP.not_head h hh
    · exact hnode
  · rintro h (hh | rfl)
    · apply (hP.ring h hh).initListHead_frame
      intro hm
      rcases List.mem_cons.mp hm with rfl | hm
      · exact hk hh
      · obtain ⟨b, -, hb⟩ := List.mem_map.mp hm
        exact hnode b hb
    · rw [hP.inactive h hk]
      exact ring_initListHead L h
  · intro h hh
    exact hP.inactive h (fun ha => hh (Or.inl ha))
  · intro h hh hn
    rw [Links.next_initListHead, if_neg (fun hk => hh (Or.inr hk))]
    exact hP.idle h (fun ha => hh (Or.inl ha)) hn

omit [DecidableEq α] [DecidableEq β] in
/-- Take a head with an empty list out of use. -/
lemma retire (hP : Pool node L act Q) {k : α} (hk : Q k = []) :
    Pool node L (fun h => act h ∧ h ≠ k) Q := by
  refine ⟨hP.inj, fun h hh => hP.not_head h hh.1, fun h hh => hP.ring h hh.1, ?_, ?_, hP.disjoint⟩
  · intro h hh
    by_cases hhk : h = k
    · exact hhk ▸ hk
    · exact hP.inactive h (fun ha => hh ⟨ha, hhk⟩)
  · intro h hh hnode
    by_cases ha : act h
    · have hhk : h = k := by
        by_contra hne
        exact hh ⟨ha, hne⟩
      have hr := hP.ring h ha
      rw [hhk, hk] at hr
      exact .inr (hhk ▸ hr.next_head_nil)
    · exact hP.idle h ha hnode

omit [DecidableEq β] in
/-- Overwrite the node of a record that is on no list. -/
lemma copyNode (hP : Pool node L act Q) {x : α} {b : β} (hb : ∀ h, b ∉ Q h) :
    Pool node (L.copyNode x (node b)) act Q :=
  ⟨hP.inj, hP.not_head,
    fun h hh => (hP.ring h hh).copyNode_frame (hP.node_not_mem hh (hb h)),
    hP.inactive,
    fun h hh hnode => by
      have hne : h ≠ node b := Ne.symm (hnode b)
      simpa [Links.copyNode, Links.setNext, Links.setPrev, hne] using hP.idle h hh hnode,
    hP.disjoint⟩

omit [DecidableEq α] [DecidableEq β] in
lemma congr_act {act' : α → Prop} (hP : Pool node L act Q) (h : ∀ k, act' k ↔ act k) :
    Pool node L act' Q :=
  ⟨hP.inj, fun k hk => hP.not_head k ((h k).mp hk), fun k hk => hP.ring k ((h k).mp hk),
    fun k hk => hP.inactive k (fun ha => hk ((h k).mpr ha)),
    fun k hk => hP.idle k (fun ha => hk ((h k).mpr ha)), hP.disjoint⟩

end Pool

end IntrusiveList
