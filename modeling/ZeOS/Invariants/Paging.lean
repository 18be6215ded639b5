import ZeOS.Invariants.Frame

/-!
# The page table and the byte map of frames

What each routine of `mm.c`, and the loops of `sys_fork` over frames, do to the page table, to
the byte map and to the contents of the frames.  A frame is handed out as a C `int` and comes
back as a base address or as an unsigned index; `frameNat` is the number behind it.
-/

namespace ZeOS

namespace Memory

/-- The frame behind a value of `alloc_frame`. -/
def frameNat (f : ℤ) : ℕ := (f % 2 ^ 20).toNat

lemma frameNat_natCast {f : ℕ} (h : f < totalPages) : frameNat f = f := by
  have h' : f < 1024 := h
  unfold frameNat
  omega

lemma ssEntry_pbaseAddr (f : ℤ) : (ssEntry f).pbaseAddr = frameNat f := rfl

/-! ## Loops of `set_ss_pag` -/

@[simp] lemma setSsPag_physMem (m : Memory) (page : ℕ) (f : ℤ) :
    (m.setSsPag page f).physMem = m.physMem := rfl

@[simp] lemma setSsPag_frame (m : Memory) (page : ℕ) (f : ℤ) :
    (m.setSsPag page f).frame = m.frame := rfl

@[simp] lemma setSsPags_physMem (base : ℕ) (ph : Fin numPagData → ℤ) (is : List (Fin numPagData)) :
    ∀ m : Memory, (m.setSsPags base ph is).physMem = m.physMem := by
  induction is with
  | nil =>
    intro m
    rfl
  | cons i is ih =>
    intro m
    exact ih _

@[simp] lemma setSsPags_frame (base : ℕ) (ph : Fin numPagData → ℤ) (is : List (Fin numPagData)) :
    ∀ m : Memory, (m.setSsPags base ph is).frame = m.frame := by
  induction is with
  | nil =>
    intro m
    rfl
  | cons i is ih =>
    intro m
    exact ih _

/-- The entries of other pages stay. -/
lemma setSsPags_table_of_ne {base : ℕ} {ph : Fin numPagData → ℤ} {page : ℕ}
    {is : List (Fin numPagData)} :
    ∀ {m : Memory}, (∀ i ∈ is, page ≠ base + i.val) →
      (m.setSsPags base ph is).pagusrTable page = m.pagusrTable page := by
  induction is with
  | nil =>
    intro m _
    rfl
  | cons i is ih =>
    intro m h
    have hstep : (m.setSsPags base ph (i :: is)) =
        (m.setSsPag (base + i.val) (ph i)).setSsPags base ph is := rfl
    rw [hstep, ih (fun j hj => h j (List.mem_cons_of_mem _ hj)), setSsPag]
    exact Function.update_of_ne (h i (List.mem_cons_self ..)) _ _

/-- The entries of the listed pages map the given frames. -/
lemma setSsPags_table_mem {base : ℕ} {ph : Fin numPagData → ℤ} {i : Fin numPagData}
    {is : List (Fin numPagData)} :
    ∀ {m : Memory}, i ∈ is →
      (m.setSsPags base ph is).pagusrTable (base + i.val) = ssEntry (ph i) := by
  induction is with
  | nil =>
    intro m h
    exact absurd h List.not_mem_nil
  | cons j is ih =>
    intro m h
    have hstep : (m.setSsPags base ph (j :: is)) =
        (m.setSsPag (base + j.val) (ph j)).setSsPags base ph is := rfl
    rw [hstep]
    by_cases hi : i ∈ is
    · exact ih hi
    · have hij : i = j := (List.mem_cons.mp h).resolve_right hi
      subst hij
      rw [setSsPags_table_of_ne, setSsPag]
      · exact Function.update_self ..
      · intro k hk hne
        have : i = k := Fin.ext (by omega)
        exact hi (this ▸ hk)

/-! ## Bytes in frames -/

@[simp] lemma load_store_self (m : Memory) (a : ℕ) (b : Byte) : (m.store a b).load a = b := by
  simp [load, store, frameOf]

lemma load_store_of_ne (m : Memory) {a a' : ℕ} (b : Byte)
    (h : m.frameOf a' ≠ m.frameOf a ∨ a' % pageSize ≠ a % pageSize) :
    (m.store a b).load a' = m.load a' := by
  have hframe : (m.store a b).frameOf a' = m.frameOf a' := rfl
  rw [load, load, hframe, store]
  by_cases hf : m.frameOf a' = m.frameOf a
  · have hmod := h.resolve_left (fun hne => hne hf)
    simp only [hf, Function.update_self, Function.update_of_ne hmod]
  · simp only [Function.update_of_ne hf]

/-! ## The pages of user space -/

/-- User space is mapped as before, the data pages perhaps to other frames. -/
structure SameUserPages (m n : Memory) : Prop where
  low : ∀ page < pagLogInitDataP0, n.pagusrTable page = m.pagusrTable page
  data : ∀ page, pagLogInitDataP0 ≤ page → page < windowPage →
    n.pagusrTable page = m.pagusrTable page ∨ ∃ f, n.pagusrTable page = ssEntry f

namespace SameUserPages

variable {m n k : Memory}

lemma of_table (h : n.pagusrTable = m.pagusrTable) : SameUserPages m n :=
  ⟨fun _ _ => congrFun h _, fun _ _ _ => .inl (congrFun h _)⟩

lemma refl (m : Memory) : SameUserPages m m := .of_table rfl

lemma trans (h : SameUserPages m n) (h' : SameUserPages n k) : SameUserPages m k := by
  refine ⟨fun page hp => (h'.low page hp).trans (h.low page hp), fun page hlo hhi => ?_⟩
  rcases h'.data page hlo hhi with hsame | hnew
  · rw [hsame]
    exact h.data page hlo hhi
  · exact .inr hnew

/-- `task_switch` maps the data pages, and the window is above them. -/
lemma setSsPags (m : Memory) {base : ℕ} (hbase : pagLogInitDataP0 ≤ base) (ph : Fin numPagData → ℤ)
    (is : List (Fin numPagData)) : SameUserPages m (m.setSsPags base ph is) := by
  refine ⟨fun page hp => setSsPags_table_of_ne fun i _ => by omega, fun page _ _ => ?_⟩
  by_cases hmem : ∃ i ∈ is, page = base + i.val
  · obtain ⟨i, hi, rfl⟩ := hmem
    exact .inr ⟨ph i, setSsPags_table_mem hi⟩
  · push Not at hmem
    exact .inl (setSsPags_table_of_ne hmem)

end SameUserPages

/-! ## Single frames -/

/-- The byte map with the listed frames marked. -/
def mark (m : Memory) (fs : List ℕ) (k : FrameMark) : Memory :=
  { m with physMem := fun i => if i ∈ fs then k else m.physMem i }

/-- `alloc_frame` takes a free frame above the kernel, or there is none among those it looks
at. -/
lemma allocFrame_cases (m : Memory) :
    (∃ i : ℕ, numPagKernel ≤ i ∧ i < totalPages ∧ m.physMem i = .free ∧
      m.allocFrame = ((i : ℤ), m.mark [i] .used)) ∨ m.allocFrame = (-1, m) := by
  unfold allocFrame
  split
  · next i hi =>
    have hfree : m.physMem i = .free := by simpa using List.find?_some hi
    obtain ⟨j, hj, hij⟩ := List.mem_range'.mp (List.mem_of_find?_eq_some hi)
    have hj' : j < 384 := hj
    have hij' : i = 256 + 2 * j := hij
    have hlow : 256 ≤ i := by omega
    have hhigh : i < 1024 := by omega
    refine .inl ⟨i, hlow, hhigh, hfree, ?_⟩
    rw [mark]
    congr 2
    funext k
    rw [Function.update_apply]
    simp only [List.mem_singleton]
  · exact .inr rfl

lemma freeFrame_eq {f : ℕ} (h : f < totalPages) (m : Memory) :
    m.freeFrame f = m.mark [f] .free := by
  have h' : f < 1024 := h
  have hf : ((f : ℤ) % 2 ^ 32).toNat = f := by omega
  rw [freeFrame, hf, mark]
  congr 1
  funext k
  rw [Function.update_apply]
  simp only [List.mem_singleton]

lemma mark_mark (m : Memory) (as bs : List ℕ) (k : FrameMark) :
    (m.mark as k).mark bs k = m.mark (as ++ bs) k := by
  simp only [mark]
  congr 1
  funext i
  by_cases hb : i ∈ bs <;> by_cases ha : i ∈ as <;> simp [ha, hb]

lemma foldl_freeFrame (fs : List ℕ) :
    ∀ m : Memory, (∀ f ∈ fs, f < totalPages) →
      (fs.map (fun f : ℕ => (f : ℤ))).foldl freeFrame m = m.mark fs .free := by
  induction fs with
  | nil =>
    intro m _
    simp [mark]
  | cons f fs ih =>
    intro m h
    rw [List.map_cons, List.foldl_cons, freeFrame_eq (h f (List.mem_cons_self ..)),
      ih _ (fun g hg => h g (List.mem_cons_of_mem _ hg)), mark_mark]
    rfl

/-! ## The frames of a child -/

/-- The frames that the allocation loop of `sys_fork` takes are different from one another and
were all free, and without enough of them memory is as it was. -/
lemma allocFrames_spec (ph : Fin numPagData → ℤ) (m : Memory) (is : List (Fin numPagData)) :
    ∀ {old : List ℕ}, old.Nodup →
      (∀ f ∈ old, numPagKernel ≤ f ∧ f < totalPages ∧ m.physMem f = .free) →
      (∃ new : List ℕ, new.Nodup ∧
        (∀ f ∈ new, numPagKernel ≤ f ∧ f < totalPages ∧ m.physMem f = .free) ∧
        allocFrames ph is (old.map fun f : ℕ => (f : ℤ)) (m.mark old .used) =
          (some (new.map fun f : ℕ => (f : ℤ)), m.mark new .used)) ∨
      allocFrames ph is (old.map fun f : ℕ => (f : ℤ)) (m.mark old .used) = (none, m) := by
  induction is with
  | nil =>
    intro old hnd hold
    exact .inl ⟨old, hnd, hold, rfl⟩
  | cons i is ih =>
    intro old hnd hold
    rw [allocFrames]
    split_ifs with hph hfail
    · exact .inl ⟨old, hnd, hold, rfl⟩
    · -- the frames taken so far go back, so the byte map is the one of the start
      refine .inr ?_
      have hmm : (m.mark old .used).allocFrame.2 = m.mark old .used := by
        rcases (m.mark old .used).allocFrame_cases with ⟨i, -, -, -, h⟩ | h
        · rw [h] at hfail
          simp only at hfail
          omega
        · rw [h]
      rw [hmm, ← List.map_reverse, foldl_freeFrame _ _ (by
        intro f hf
        exact (hold f (List.mem_reverse.mp hf)).2.1)]
      congr 1
      simp only [mark, List.mem_reverse]
      congr 1
      funext j
      by_cases hj : j ∈ old
      · simp [hj, (hold j hj).2.2]
      · simp [hj]
    · rcases (m.mark old .used).allocFrame_cases with ⟨f, hlow, hhigh, hfree, h⟩ | h
      · rw [h]
        have hf : f ∉ old := by
          intro hf
          simp [mark, hf] at hfree
        have hfree' : m.physMem f = .free := by
          simpa [mark, hf] using hfree
        have hnd' : (old ++ [f]).Nodup := by
          rw [List.nodup_append]
          refine ⟨hnd, List.nodup_singleton f, ?_⟩
          intro a ha b hb hab
          rw [List.mem_singleton.mp hb] at hab
          exact hf (hab ▸ ha)
        have hold' : ∀ g ∈ old ++ [f], numPagKernel ≤ g ∧ g < totalPages ∧ m.physMem g = .free := by
          intro g hg
          rcases List.mem_append.mp hg with hg | hg
          · exact hold g hg
          · rw [List.mem_singleton.mp hg]
            exact ⟨hlow, hhigh, hfree'⟩
        have hrec := ih hnd' hold'
        rw [List.map_append, ← mark_mark] at hrec
        exact hrec
      · rw [h] at hfail
        exact absurd rfl hfail

/-- `allocFrames_spec` from the start of the loop. -/
lemma allocFrames_cases (ph : Fin numPagData → ℤ) (m : Memory) (is : List (Fin numPagData)) :
    (∃ new : List ℕ, new.Nodup ∧
      (∀ f ∈ new, numPagKernel ≤ f ∧ f < totalPages ∧ m.physMem f = .free) ∧
      allocFrames ph is [] m = (some (new.map fun f : ℕ => (f : ℤ)), m.mark new .used)) ∨
    allocFrames ph is [] m = (none, m) := by
  have h := allocFrames_spec ph m is List.nodup_nil (by simp)
  rwa [show m.mark [] .used = m by simp [mark], List.map_nil] at h

lemma allocFrames_some {ph : Fin numPagData → ℤ} {m mm : Memory} {is : List (Fin numPagData)}
    {frames : List ℤ} (h : allocFrames ph is [] m = (some frames, mm)) :
    ∃ new : List ℕ, new.Nodup ∧
      (∀ f ∈ new, numPagKernel ≤ f ∧ f < totalPages ∧ m.physMem f = .free) ∧
      frames = new.map (fun f : ℕ => (f : ℤ)) ∧ mm = m.mark new .used := by
  rcases allocFrames_cases ph m is with ⟨new, hnd, hfree, halloc⟩ | halloc
  · rw [halloc, Prod.mk.injEq, Option.some.injEq] at h
    exact ⟨new, hnd, hfree, h.1.symm, h.2.symm⟩
  · rw [halloc] at h
    simp at h

/-- A failed allocation gives back what it took. -/
lemma allocFrames_none {ph : Fin numPagData → ℤ} {m mm : Memory} {is : List (Fin numPagData)}
    (h : allocFrames ph is [] m = (none, mm)) : mm = m := by
  rcases allocFrames_cases ph m is with ⟨new, -, -, halloc⟩ | halloc
  · rw [halloc] at h
    simp at h
  · rw [halloc, Prod.mk.injEq] at h
    exact h.2.symm

/-- The frame of a data page, in a list of one frame for each. -/
lemma exists_getD_eq {frames : List ℕ} (hlen : frames.length = numPagData) (j : Fin numPagData) :
    ∃ f ∈ frames, (frames.map fun f : ℕ => (f : ℤ)).getD j.val 0 = f ∧ frames[j.val]? = some f := by
  have hj : j.val < frames.length := by
    rw [hlen]
    exact j.isLt
  refine ⟨frames[j.val], List.getElem_mem hj, ?_, List.getElem?_eq_getElem hj⟩
  simp [hj]

/-- A frame in use is none of those that were free. -/
lemma ne_frameNat_of_used {m : Memory} {frames : List ℕ} (hlen : frames.length = numPagData)
    (hfree : ∀ f ∈ frames, numPagKernel ≤ f ∧ f < totalPages ∧ m.physMem f = .free) {g : ℕ}
    (hg : m.physMem g = .used) (j : Fin numPagData) :
    g ≠ frameNat ((frames.map fun f : ℕ => (f : ℤ)).getD j.val 0) := by
  obtain ⟨f, hf, hget, -⟩ := exists_getD_eq hlen j
  obtain ⟨-, hlt, hff⟩ := hfree f hf
  rw [hget, frameNat_natCast hlt]
  rintro rfl
  rw [hff] at hg
  exact absurd hg (by decide)

/-! ## The copy of the data pages -/

/-- The memory after one turn of the copying loop: the frame of the data page is copied, and the
window page is unmapped. -/
lemma copyDataPage_eq (m : Memory) (j : Fin numPagData) (f : ℤ) :
    m.copyDataPage j f = { m with
      pagusrTable := Function.update m.pagusrTable (windowPage + j.val) noEntry
      frame := Function.update m.frame (frameNat f)
        (m.frame (m.pagusrTable (pagLogInitDataP0 + j.val)).pbaseAddr) } := by
  have hne : pagLogInitDataP0 + j.val ≠ windowPage + j.val := by
    show 264 + j.val ≠ 284 + j.val
    omega
  simp only [copyDataPage, setSsPag, copyPage, delSsPag, Function.update_self,
    Function.update_of_ne hne, Function.update_idem, ssEntry_pbaseAddr]

/-- The copying loop over the listed pages. -/
def copyPagesOver (is : List (Fin numPagData)) (m : Memory) (frames : Fin numPagData → ℤ) : Memory :=
  is.foldl (fun m j => m.copyDataPage j (frames j)) m

lemma copyPagesOver_cons (i : Fin numPagData) (is : List (Fin numPagData)) (m : Memory)
    (frames : Fin numPagData → ℤ) :
    copyPagesOver (i :: is) m frames = copyPagesOver is (m.copyDataPage i (frames i)) frames := rfl

@[simp] lemma copyPagesOver_physMem (frames : Fin numPagData → ℤ) (is : List (Fin numPagData)) :
    ∀ m : Memory, (copyPagesOver is m frames).physMem = m.physMem := by
  induction is with
  | nil =>
    intro m
    rfl
  | cons i is ih =>
    intro m
    rw [copyPagesOver_cons, ih, copyDataPage_eq]

/-- The loop takes the window pages of the list out of the table and changes no other entry. -/
lemma copyPagesOver_table (frames : Fin numPagData → ℤ) (is : List (Fin numPagData)) :
    ∀ (m : Memory) (page : ℕ), (copyPagesOver is m frames).pagusrTable page =
      if ∃ i ∈ is, page = windowPage + i.val then noEntry else m.pagusrTable page := by
  induction is with
  | nil =>
    intro m page
    simp [copyPagesOver]
  | cons i is ih =>
    intro m page
    rw [copyPagesOver_cons, ih, copyDataPage_eq]
    simp only
    by_cases his : ∃ j ∈ is, page = windowPage + j.val
    · obtain ⟨j, hj, hpage⟩ := his
      rw [if_pos ⟨j, hj, hpage⟩, if_pos ⟨j, List.mem_cons_of_mem _ hj, hpage⟩]
    · rw [if_neg his]
      by_cases hi : page = windowPage + i.val
      · rw [if_pos ⟨i, List.mem_cons_self .., hi⟩, hi, Function.update_self]
      · rw [Function.update_of_ne hi, if_neg]
        rintro ⟨j, hj, hpage⟩
        rcases List.mem_cons.mp hj with rfl | hj
        · exact hi hpage
        · exact his ⟨j, hj, hpage⟩

/-- The loop writes to the given frames only. -/
lemma copyPagesOver_frame_of_ne {frames : Fin numPagData → ℤ} {f : ℕ} {is : List (Fin numPagData)} :
    ∀ {m : Memory}, (∀ i ∈ is, f ≠ frameNat (frames i)) →
      (copyPagesOver is m frames).frame f = m.frame f := by
  induction is with
  | nil =>
    intro m _
    rfl
  | cons i is ih =>
    intro m h
    rw [copyPagesOver_cons, ih (fun j hj => h j (List.mem_cons_of_mem _ hj)), copyDataPage_eq]
    exact Function.update_of_ne (h i (List.mem_cons_self ..)) _ _

/-- A page of the list is copied to its frame, when the frames are different and none of them is
the one that the page is copied from. -/
lemma copyPagesOver_frame {frames : Fin numPagData → ℤ} {j : Fin numPagData}
    {is : List (Fin numPagData)} (hnd : is.Nodup) (hj : j ∈ is)
    (hinj : ∀ i ∈ is, frameNat (frames j) = frameNat (frames i) → i = j) :
    ∀ {m : Memory},
      (∀ i ∈ is, (m.pagusrTable (pagLogInitDataP0 + j.val)).pbaseAddr ≠ frameNat (frames i)) →
      (copyPagesOver is m frames).frame (frameNat (frames j)) =
        m.frame (m.pagusrTable (pagLogInitDataP0 + j.val)).pbaseAddr := by
  induction is with
  | nil => exact absurd hj (List.not_mem_nil)
  | cons i is ih =>
    intro m hsrc
    obtain ⟨hi, hnd⟩ := List.nodup_cons.mp hnd
    rw [copyPagesOver_cons]
    by_cases hij : i = j
    · -- the later turns write to other frames
      subst hij
      rw [copyPagesOver_frame_of_ne, copyDataPage_eq]
      · exact Function.update_self ..
      · intro k hk heq
        exact hi (hinj k (List.mem_cons_of_mem _ hk) heq ▸ hk)
    · have hj' : j ∈ is := (List.mem_cons.mp hj).resolve_left (Ne.symm hij)
      have hpage : pagLogInitDataP0 + j.val ≠ windowPage + i.val := by
        show 264 + j.val ≠ 264 + 20 + i.val
        have hlt : j.val < 20 := j.isLt
        omega
      have htable : (m.copyDataPage i (frames i)).pagusrTable (pagLogInitDataP0 + j.val) =
          m.pagusrTable (pagLogInitDataP0 + j.val) := by
        rw [copyDataPage_eq]
        exact Function.update_of_ne hpage _ _
      rw [ih hnd hj' (fun k hk => hinj k (List.mem_cons_of_mem _ hk)), htable, copyDataPage_eq]
      · exact Function.update_of_ne (hsrc i (List.mem_cons_self ..)) _ _
      · intro k hk
        rw [htable]
        exact hsrc k (List.mem_cons_of_mem _ hk)

@[simp] lemma copyDataPages_physMem (m : Memory) (frames : Fin numPagData → ℤ) :
    (m.copyDataPages frames).physMem = m.physMem := copyPagesOver_physMem frames _ m

lemma copyDataPages_table (m : Memory) (frames : Fin numPagData → ℤ) (page : ℕ) :
    (m.copyDataPages frames).pagusrTable page =
      if ∃ i : Fin numPagData, page = windowPage + i.val then noEntry else m.pagusrTable page := by
  have h := copyPagesOver_table frames (List.finRange numPagData) m page
  simp only [List.mem_finRange, true_and] at h
  exact h

/-- `sys_fork` only maps and unmaps the window. -/
lemma SameUserPages.copyDataPages (m : Memory) (frames : Fin numPagData → ℤ) :
    SameUserPages m (m.copyDataPages frames) := by
  have hsame : ∀ page < windowPage, (m.copyDataPages frames).pagusrTable page = m.pagusrTable page := by
    intro page hp
    rw [copyDataPages_table, if_neg]
    rintro ⟨i, rfl⟩
    exact absurd hp (Nat.not_lt.mpr (Nat.le_add_right ..))
  exact ⟨fun page hp => hsame page (lt_trans hp (by decide)), fun page _ hhi => .inl (hsame page hhi)⟩

lemma copyDataPages_frame_of_ne {m : Memory} {frames : Fin numPagData → ℤ} {f : ℕ}
    (h : ∀ i, f ≠ frameNat (frames i)) : (m.copyDataPages frames).frame f = m.frame f :=
  copyPagesOver_frame_of_ne (fun i _ => h i)

lemma copyDataPages_frame {m : Memory} {frames : Fin numPagData → ℤ}
    (hinj : Function.Injective fun i => frameNat (frames i)) (j : Fin numPagData)
    (hsrc : ∀ i, (m.pagusrTable (pagLogInitDataP0 + j.val)).pbaseAddr ≠ frameNat (frames i)) :
    (m.copyDataPages frames).frame (frameNat (frames j)) =
      m.frame (m.pagusrTable (pagLogInitDataP0 + j.val)).pbaseAddr :=
  copyPagesOver_frame (List.nodup_finRange _) (List.mem_finRange j) (fun _ _ h => (hinj h).symm)
    (fun i _ => hsrc i)

end Memory

end ZeOS
