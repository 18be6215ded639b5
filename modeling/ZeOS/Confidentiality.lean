import ZeOS.ProcessMemory

/-!
# What nobody can find out

A process that does not run keeps what is in its memory to itself.  `Isolated` says that nobody can
reach its frames; here it is the whole kernel that is looked at, with everything that it reads and
writes on behalf of others: two states that differ in the frames of the process only (`Alike`) go on
alike, whatever the other processes do, as long as it does not run.

The kernel writes into these frames, when it delivers keys.  It reads what the running process can
reach, and no other byte of memory; so code is alike in two ways.  Most of it never looks at a frame
(`alike_*` without a hypothesis), and what copies from user memory needs that none of the frames is
mapped.
-/

namespace ZeOS

open IntrusiveList Memory GuardedRun

/-! ## Memory -/

namespace Memory

/-- Two memories that differ in the contents of the frames `X` only. -/
structure Alike (X : ℕ → Prop) (m m' : Memory) : Prop where
  physMem : m'.physMem = m.physMem
  table : m'.pagusrTable = m.pagusrTable
  frame : ∀ f, ¬ X f → m'.frame f = m.frame f

/-- None of the frames is mapped. -/
def Hides (m : Memory) (X : ℕ → Prop) : Prop := ∀ f, X f → m.Unmapped f

variable {X : ℕ → Prop} {m m' : Memory}

namespace Alike

lemma present (h : m.Alike X m') (addr : ℕ) : m'.present addr = m.present addr := by
  rw [Memory.present, Memory.present, h.table]

lemma frameOf (h : m.Alike X m') (addr : ℕ) : m'.frameOf addr = m.frameOf addr := by
  rw [Memory.frameOf, Memory.frameOf, h.table]

lemma userWritable (h : m.Alike X m') (addr : ℕ) : m'.userWritable addr = m.userWritable addr := by
  rw [Memory.userWritable, Memory.userWritable, h.present, h.table]

lemma accessOk (h : m.Alike X m') (type : ℤ) (addr : ℕ) (size : ℤ) :
    m'.accessOk type addr size = m.accessOk type addr size := by
  rw [Memory.accessOk, Memory.accessOk, h.table]

lemma strlen (h : m.Alike X m') (addr : ℕ) (path : List Byte) :
    m'.strlen addr path = m.strlen addr path := by
  rw [Memory.strlen, Memory.strlen, funext h.present]

/-- A byte that can be reached from a page. -/
lemma load (h : m.Alike X m') (hx : m.Hides X) {addr : ℕ} (hp : m.present addr = true) :
    m'.load addr = m.load addr := by
  have hout : ¬ X (m.frameOf addr) := fun hX => (hx _ hX).ne_frameOf hp rfl
  rw [Memory.load, Memory.load, h.frameOf, h.frame _ hout]

lemma setSsPag (h : m.Alike X m') (page : ℕ) (frame : ℤ) :
    (m.setSsPag page frame).Alike X (m'.setSsPag page frame) := by
  refine ⟨h.physMem, ?_, h.frame⟩
  rw [Memory.setSsPag, Memory.setSsPag, h.table]

lemma setSsPags (h : m.Alike X m') (base : ℕ) (ph : Fin numPagData → ℤ)
    (is : List (Fin numPagData)) : (m.setSsPags base ph is).Alike X (m'.setSsPags base ph is) := by
  induction is generalizing m m' with
  | nil => exact h
  | cons i is ih => exact ih (h.setSsPag _ _)

lemma freeFrame (h : m.Alike X m') (frame : ℤ) :
    (m.freeFrame frame).Alike X (m'.freeFrame frame) := by
  refine ⟨?_, h.table, h.frame⟩
  rw [Memory.freeFrame, Memory.freeFrame, h.physMem]

lemma freeFrames {α : Type} (h : m.Alike X m') (g : α → ℤ) (is : List α) :
    (is.foldl (fun m i => m.freeFrame (g i)) m).Alike X
      (is.foldl (fun m i => m.freeFrame (g i)) m') := by
  induction is generalizing m m' with
  | nil => exact h
  | cons i is ih => exact ih (h.freeFrame _)

lemma allocFrame (h : m.Alike X m') :
    m'.allocFrame.1 = m.allocFrame.1 ∧ m.allocFrame.2.Alike X m'.allocFrame.2 := by
  unfold Memory.allocFrame
  rw [h.physMem]
  cases (List.range' numPagKernel ((totalPages - numPagKernel) / 2) 2).find?
    (fun i => m.physMem i = .free) with
  | none => exact ⟨rfl, h⟩
  | some i => exact ⟨rfl, rfl, h.table, h.frame⟩

lemma allocFrames (ph : Fin numPagData → ℤ) (is : List (Fin numPagData)) (frames : List ℤ)
    (h : m.Alike X m') : (m'.allocFrames ph is frames).1 = (m.allocFrames ph is frames).1 ∧
      (m.allocFrames ph is frames).2.Alike X (m'.allocFrames ph is frames).2 := by
  induction is generalizing m m' frames with
  | nil => exact ⟨rfl, h⟩
  | cons i is ih =>
    obtain ⟨hframe, halloc⟩ := h.allocFrame
    simp only [Memory.allocFrames, hframe]
    split_ifs
    · exact ⟨rfl, h⟩
    · exact ⟨rfl, halloc.freeFrames id _⟩
    · exact ih _ halloc

/-- A store, wherever it goes. -/
lemma store (h : m.Alike X m') (addr : ℕ) (b : Byte) :
    (m.store addr b).Alike X (m'.store addr b) := by
  refine ⟨h.physMem, h.table, fun f hf => ?_⟩
  simp only [Memory.store, h.frameOf, Function.update_apply]
  split_ifs with hframe
  · rw [← hframe, h.frame f hf]
  · exact h.frame f hf

/-- The copies of a fork, of pages whose frames are none of `X`. -/
lemma copyDataPages (h : m.Alike X m')
    (hsrc : ∀ j : Fin numPagData, ¬ X (m.pagusrTable (pagLogInitDataP0 + j.val)).pbaseAddr)
    (frames : Fin numPagData → ℤ) :
    (m.copyDataPages frames).Alike X (m'.copyDataPages frames) := by
  have hloop : ∀ (is : List (Fin numPagData)) {m m' : Memory}, m.Alike X m' →
      (∀ j : Fin numPagData, ¬ X (m.pagusrTable (pagLogInitDataP0 + j.val)).pbaseAddr) →
      (copyPagesOver is m frames).Alike X (copyPagesOver is m' frames) := by
    intro is
    induction is with
    | nil => exact fun h _ => h
    | cons i is ih =>
      intro m m' h hsrc
      rw [copyPagesOver_cons, copyPagesOver_cons]
      refine ih ?_ fun j => ?_
      · rw [copyDataPage_eq, copyDataPage_eq]
        refine ⟨h.physMem, by rw [h.table], fun f hf => ?_⟩
        simp only [h.table, Function.update_apply, h.frame _ (hsrc i)]
        split_ifs
        · rfl
        · exact h.frame f hf
      · have hpage : pagLogInitDataP0 + j.val ≠ windowPage + i.val := by
          show 264 + j.val ≠ 284 + i.val
          have hlt : j.val < 20 := j.isLt
          omega
        rw [copyDataPage_eq]
        simp only [Function.update_of_ne hpage]
        exact hsrc j
  exact hloop _ h hsrc

end Alike

end Memory

/-! ## Outcomes -/

/-- Two outcomes of one kind, with one result, in related states. -/
inductive Outcome.Alike {σ τ α : Type} (R : σ → τ → Prop) : Outcome σ α → Outcome τ α → Prop
  | ret (a : α) {s : σ} {t : τ} : R s t → Alike R (.ret a s) (.ret a t)
  | switched {s : σ} {t : τ} : R s t → Alike R (.switched s) (.switched t)
  | fault {s : σ} {t : τ} : R s t → Alike R (.fault s) (.fault t)
  | stop (r : Stop) : Alike R (.stop r) (.stop r)

lemma Outcome.Alike.lift {σ τ σ' τ' α : Type} {R : σ → τ → Prop} {R' : σ' → τ' → Prop}
    {o : Outcome σ α} {o' : Outcome τ α} {f : σ → σ'} {f' : τ → τ'} (h : Outcome.Alike R o o')
    (himp : ∀ s t, R s t → R' (f s) (f' t)) : Outcome.Alike R' (o.lift f) (o'.lift f') := by
  cases h with
  | ret a h => exact .ret a (himp _ _ h)
  | switched h => exact .switched (himp _ _ h)
  | fault h => exact .fault (himp _ _ h)
  | stop r => exact .stop r

lemma Outcome.Alike.ite {σ τ α : Type} {R : σ → τ → Prop} {c c' : Prop} [Decidable c] [Decidable c']
    {o₁ o₂ : Outcome σ α} {o₁' o₂' : Outcome τ α} (hc : c' ↔ c)
    (h₁ : c → Outcome.Alike R o₁ o₁') (h₂ : ¬ c → Outcome.Alike R o₂ o₂') :
    Outcome.Alike R (if c then o₁ else o₂) (if c' then o₁' else o₂') := by
  by_cases h : c
  · rw [if_pos h, if_pos (hc.mpr h)]
    exact h₁ h
  · rw [if_neg h, if_neg (fun h' => h (hc.mp h'))]
    exact h₂ h

/-- Two results of one kind, in related states. -/
inductive Except.Alike {σ τ ρ : Type} (R : σ → τ → Prop) : Except ρ σ → Except ρ τ → Prop
  | ok {s : σ} {t : τ} : R s t → Alike R (.ok s) (.ok t)
  | error (r : ρ) : Alike R (.error r) (.error r)

/-! ## Copies from and to user memory -/

section

variable {X : ℕ → Prop} {m m' : Memory}

namespace Memory.Alike

lemma copyBytes (bs : List Byte) (h : m.Alike X m') (dest : ℕ) :
    Outcome.Alike (Memory.Alike X) (m.copyBytes dest bs) (m'.copyBytes dest bs) := by
  induction bs generalizing m m' dest with
  | nil => exact .ret 0 h
  | cons b bs ih =>
    rw [Memory.copyBytes, Memory.copyBytes, h.present]
    split_ifs
    · exact ih (h.store dest b) (dest + 1)
    · exact .fault h

lemma copyToUser (h : m.Alike X m') (dest : ℕ) (bs : List Byte) :
    Outcome.Alike (Memory.Alike X) (m.copyToUser dest bs) (m'.copyToUser dest bs) := by
  fun_induction m.copyToUser dest bs generalizing m' with
  | case1 m dest b₀ b₁ b₂ b₃ b₄ bs hp ih =>
    rw [Memory.copyToUser, h.present, h.present, if_pos hp]
    exact ih ((((h.store _ _).store _ _).store _ _).store _ _)
  | case2 m dest b₀ b₁ b₂ b₃ b₄ bs hp =>
    rw [Memory.copyToUser, h.present, h.present, if_neg hp]
    exact .fault h
  | case3 m dest bs hbs =>
    rw [Memory.copyToUser]
    · exact h.copyBytes bs dest
    · exact hbs

lemma copyFromUser (h : m.Alike X m') (hx : m.Hides X) (src size : ℕ) :
    m'.copyFromUser src size = m.copyFromUser src size := by
  unfold Memory.copyFromUser
  simp only [h.present]
  split_ifs with hall
  · rw [List.all_eq_true] at hall
    exact congrArg some (List.map_congr_left fun i hi => h.load hx (hall i hi))
  · rfl

end Memory.Alike

/-- What a write to the console prints. -/
lemma Screen.sysWriteConsole_congr (sc : Screen) (h : m.Alike X m') (hx : m.Hides X)
    (buffer size : ℕ) : sc.sysWriteConsole m' buffer size = sc.sysWriteConsole m buffer size := by
  have hblocks : ∀ (n i : ℕ) (sc : Screen),
      writeBlocks m' buffer size n i sc = writeBlocks m buffer size n i sc := by
    intro n
    induction n with
    | zero =>
      intro i sc
      simp only [writeBlocks, h.copyFromUser hx]
    | succ n ih =>
      intro i sc
      simp only [writeBlocks, h.copyFromUser hx, ih]
  exact hblocks ..

namespace FileSystem

/-- What a write to a file stores. -/
lemma sysWriteFile_congr (fs : FileSystem) (h : m.Alike X m') (hx : m.Hides X) (v : FdtId)
    (f : FileId) (buffer size : ℕ) :
    fs.sysWriteFile m' v f buffer size = fs.sysWriteFile m v f buffer size := by
  have hloop : ∀ (n i : ℕ) (a b : ℤ) (fs : FileSystem),
      writeLoop m' v f buffer n i a b fs = writeLoop m v f buffer n i a b fs := by
    intro n
    induction n with
    | zero => exact fun i a b fs => rfl
    | succ n ih =>
      intro i a b fs
      simp only [writeLoop, h.present, ih]
      split
      · rfl
      · rfl
      · split_ifs with hp
        · rw [h.load hx hp]
        · rfl
        · rfl
  simp only [sysWriteFile, hloop]

/-- The tables of the file system are the same, and memory is alike. -/
def AlikeFiles (X : ℕ → Prop) (st st' : FileSystem × Memory) : Prop :=
  st'.1 = st.1 ∧ st.2.Alike X st'.2

/-- A read of a file. -/
lemma alike_sysReadFile (fs : FileSystem) (h : m.Alike X m') (v : FdtId) (f : FileId)
    (buffer size : ℕ) : Outcome.Alike (AlikeFiles X) (fs.sysReadFile m v f buffer size)
      (fs.sysReadFile m' v f buffer size) := by
  have hloop : ∀ (n i : ℕ) (a b : ℤ) (fs : FileSystem) {m m' : Memory}, m.Alike X m' →
      Outcome.Alike (AlikeFiles X) (readLoop v f buffer size n i a b (fs, m))
        (readLoop v f buffer size n i a b (fs, m')) := by
    intro n
    induction n with
    | zero => exact fun i a b fs m m' h => .ret _ ⟨rfl, h⟩
    | succ n ih =>
      intro i a b fs m m' h
      simp only [readLoop, h.present]
      split_ifs
      all_goals first
        | exact .ret _ ⟨rfl, h⟩
        | exact .fault ⟨rfl, h⟩
        | exact ih _ _ _ _ (h.store _ _)
  exact hloop _ _ _ _ _ h

end FileSystem

end

/-! ## The kernel -/

namespace Kernel

/-- The kernel with another memory. -/
def withMm (s : Kernel) (m : Memory) : Kernel := { s with mm := m }

/-- Two states that differ in the contents of the frames `X` only. -/
def Alike (X : ℕ → Prop) (s s' : Kernel) : Prop := ∃ m', s' = s.withMm m' ∧ s.mm.Alike X m'

variable {X : ℕ → Prop} {s s' : Kernel}

@[simp] lemma withMm_task (s : Kernel) (m : Memory) : (s.withMm m).task = s.task := rfl
@[simp] lemma withMm_links (s : Kernel) (m : Memory) : (s.withMm m).links = s.links := rfl
@[simp] lemma withMm_sem (s : Kernel) (m : Memory) : (s.withMm m).sem = s.sem := rfl
@[simp] lemma withMm_cur (s : Kernel) (m : Memory) : (s.withMm m).cur = s.cur := rfl
@[simp] lemma withMm_left (s : Kernel) (m : Memory) :
    (s.withMm m).left4current = s.left4current := rfl
@[simp] lemma withMm_kbd (s : Kernel) (m : Memory) : (s.withMm m).kbd = s.kbd := rfl
@[simp] lemma withMm_fs (s : Kernel) (m : Memory) : (s.withMm m).fs = s.fs := rfl
@[simp] lemma withMm_tics (s : Kernel) (m : Memory) : (s.withMm m).tics = s.tics := rfl
@[simp] lemma withMm_screen (s : Kernel) (m : Memory) : (s.withMm m).screen = s.screen := rfl
@[simp] lemma withMm_mm (s : Kernel) (m : Memory) : (s.withMm m).mm = m := rfl

namespace Alike

/-- Code that does not look at memory. -/
lemma map (h : s.Alike X s') (f : Kernel → Kernel) (hmm : (f s).mm = s.mm)
    (hf : ∀ m, f (s.withMm m) = (f s).withMm m) : (f s).Alike X (f s') := by
  obtain ⟨m', rfl, hm⟩ := h
  exact ⟨m', hf m', by rwa [hmm]⟩

lemma task (h : s.Alike X s') : s'.task = s.task := by
  obtain ⟨m', rfl, -⟩ := h
  rfl

lemma cur (h : s.Alike X s') : s'.cur = s.cur := by
  obtain ⟨m', rfl, -⟩ := h
  rfl

lemma links (h : s.Alike X s') : s'.links = s.links := by
  obtain ⟨m', rfl, -⟩ := h
  rfl

lemma kbd (h : s.Alike X s') : s'.kbd = s.kbd := by
  obtain ⟨m', rfl, -⟩ := h
  rfl

lemma mm (h : s.Alike X s') : s.mm.Alike X s'.mm := by
  obtain ⟨m', rfl, hm⟩ := h
  exact hm

lemma updTask (h : s.Alike X s') (t : Slot) (f : Task → Task) :
    (s.updTask t f).Alike X (s'.updTask t f) :=
  h.map (fun s => s.updTask t f) rfl fun _ => rfl

lemma enter (h : s.Alike X s') (regs : SavedRegs) : (s.enter regs).Alike X (s'.enter regs) :=
  h.map (fun s => s.enter regs) rfl fun _ => rfl

lemma setEax (h : s.Alike X s') (r : ℤ) : (s.setEax r).Alike X (s'.setEax r) :=
  h.map (fun s => s.setEax r) rfl fun _ => rfl

lemma printFault (h : s.Alike X s') : s.printFault.Alike X s'.printFault :=
  h.map Kernel.printFault rfl fun _ => rfl

/-! ### The scheduler -/

lemma taskSwitch (h : s.Alike X s') (t : Slot) : (s.taskSwitch t).Alike X (s'.taskSwitch t) := by
  obtain ⟨m', rfl, hm⟩ := h
  exact ⟨_, rfl, hm.setSsPags _ _ _⟩

lemma switchToNext {α : Type} (h : s.Alike X s') (fromInt : ℤ) :
    Outcome.Alike (Kernel.Alike X) (s.switchToNext fromInt : Outcome Kernel α)
      (s'.switchToNext fromInt) := by
  obtain ⟨m', rfl, hm⟩ := h
  unfold Kernel.switchToNext
  rw [withMm_links]
  split
  · exact .switched (taskSwitch (s := { s with itIsInt := fromInt }) ⟨m', rfl, hm⟩ _)
  · exact .stop _

lemma schedule (h : s.Alike X s') (fromInt : ℤ) :
    Outcome.Alike (Kernel.Alike X) (s.schedule fromInt) (s'.schedule fromInt) := by
  obtain ⟨m', rfl, hm⟩ := h
  have hself : s.Alike X (s.withMm m') := ⟨m', rfl, hm⟩
  have htail := hself.map (fun s => { s with
    links := (s.links.listDel (.task s.cur)).listAddTail (.task s.cur) .runqueue }) rfl fun _ => rfl
  exact .ite Iff.rfl
    (fun _ => .ite Iff.rfl (fun _ => .ret () ⟨m', rfl, hm⟩)
      fun _ => .ite Iff.rfl (fun _ => htail.switchToNext fromInt) fun _ => hself.switchToNext fromInt)
    fun _ => .ret () hself

/-! ### Semaphores, and the end of a process -/

lemma wakeFirst (h : s.Alike X s') (n : SemId) (result : ℤ) :
    Except.Alike (Kernel.Alike X) (s.wakeFirst n result) (s'.wakeFirst n result) := by
  obtain ⟨m', rfl, hm⟩ := h
  unfold Kernel.wakeFirst
  rw [withMm_links]
  split
  · exact .ok ⟨m', rfl, hm⟩
  · exact .error _

lemma wakeAll (n : SemId) (fuel : ℕ) (h : s.Alike X s') :
    Except.Alike (Kernel.Alike X) (Kernel.wakeAll n fuel s) (Kernel.wakeAll n fuel s') := by
  induction fuel generalizing s s' with
  | zero => exact .error _
  | succ fuel ih =>
    rw [Kernel.wakeAll, Kernel.wakeAll, h.links]
    split_ifs
    · exact .ok h
    · have hwake := h.wakeFirst n (-1)
      generalize s.wakeFirst n (-1) = o, s'.wakeFirst n (-1) = o' at hwake
      cases hwake with
      | error r => exact .error r
      | ok h => exact ih h

end Alike

/-- The same result, in states that are alike. -/
def AlikeResult (X : ℕ → Prop) (p p' : ℤ × Kernel) : Prop := p'.1 = p.1 ∧ p.2.Alike X p'.2

namespace Alike

lemma sysSemInit (h : s.Alike X s') (nSem : ℤ) (value : ℕ) :
    AlikeResult X (s.sysSemInit nSem value) (s'.sysSemInit nSem value) := by
  obtain ⟨m', rfl, hm⟩ := h
  unfold Kernel.sysSemInit
  rw [withMm_sem]
  split
  · exact ⟨rfl, m', rfl, hm⟩
  · split_ifs
    · exact ⟨rfl, m', rfl, hm⟩
    · exact ⟨rfl, m', rfl, hm⟩

lemma sysSemWait (h : s.Alike X s') (nSem : ℤ) :
    Outcome.Alike (Kernel.Alike X) (s.sysSemWait nSem) (s'.sysSemWait nSem) := by
  obtain ⟨m', rfl, hm⟩ := h
  have hself : s.Alike X (s.withMm m') := ⟨m', rfl, hm⟩
  refine .ite Iff.rfl (fun _ => .ret _ hself) fun _ => ?_
  cases semId nSem with
  | none => exact .ret _ hself
  | some n =>
    have hwait := hself.map (fun s => { s with
      links := (s.links.listDel (.task s.cur)).listAddTail (.task s.cur) (.waitList n) }) rfl
      fun _ => rfl
    exact .ite Iff.rfl (fun _ => .ret _ hself) fun _ =>
      .ite Iff.rfl (fun _ => hwait.switchToNext 0) fun _ => .ret 0 ⟨m', rfl, hm⟩

lemma sysSemSignal (h : s.Alike X s') (nSem : ℤ) :
    Except.Alike (AlikeResult X) (s.sysSemSignal nSem) (s'.sysSemSignal nSem) := by
  obtain ⟨m', rfl, hm⟩ := h
  have hself : s.Alike X (s.withMm m') := ⟨m', rfl, hm⟩
  unfold Kernel.sysSemSignal
  rw [withMm_sem, withMm_links]
  split
  · exact .ok ⟨rfl, hself⟩
  · rename_i n _
    have hwake := hself.wakeFirst n 0
    split_ifs
    · exact .ok ⟨rfl, hself⟩
    · exact .ok ⟨rfl, m', rfl, hm⟩
    · generalize s.wakeFirst n 0 = o, (s.withMm m').wakeFirst n 0 = o' at hwake
      cases hwake with
      | error r => exact .error r
      | ok h => exact .ok ⟨rfl, h⟩

lemma sysSemDestroy (h : s.Alike X s') (nSem : ℤ) :
    Except.Alike (AlikeResult X) (s.sysSemDestroy nSem) (s'.sysSemDestroy nSem) := by
  obtain ⟨m', rfl, hm⟩ := h
  have hself : s.Alike X (s.withMm m') := ⟨m', rfl, hm⟩
  unfold Kernel.sysSemDestroy
  rw [withMm_sem, Kernel.current, Kernel.current, withMm_task, withMm_cur]
  split
  · exact .ok ⟨rfl, hself⟩
  · rename_i n _
    have hwake := hself.wakeAll n numNodes
    split_ifs
    · exact .ok ⟨rfl, hself⟩
    · exact .ok ⟨rfl, hself⟩
    · generalize Kernel.wakeAll n numNodes s = o, Kernel.wakeAll n numNodes (s.withMm m') = o' at hwake
      cases hwake with
      | error r => exact .error r
      | ok h =>
        obtain ⟨m', rfl, hm⟩ := h
        exact .ok ⟨rfl, m', rfl, hm⟩

lemma destroyOwned (ns : List SemId) (h : s.Alike X s') :
    Except.Alike (Kernel.Alike X) (Kernel.destroyOwned ns s) (Kernel.destroyOwned ns s') := by
  induction ns generalizing s s' with
  | nil => exact .ok h
  | cons n ns ih =>
    have hone : Except.Alike (Kernel.Alike X) (s.destroyIfOwned n) (s'.destroyIfOwned n) := by
      have hdestroy := h.sysSemDestroy n.val
      unfold Kernel.destroyIfOwned
      rw [Kernel.current, Kernel.current, h.task, h.cur]
      split_ifs
      · generalize s.sysSemDestroy n.val = o, s'.sysSemDestroy n.val = o' at hdestroy
        cases hdestroy with
        | error r => exact .error r
        | ok h => exact .ok h.2
      · exact .ok h
    rw [Kernel.destroyOwned, Kernel.destroyOwned, List.foldlM_cons, List.foldlM_cons]
    generalize s.destroyIfOwned n = o, s'.destroyIfOwned n = o' at hone
    cases hone with
    | error r => exact .error r
    | ok h => exact ih h

lemma leave (h : s.Alike X s') : s.leave.Alike X s'.leave := by
  obtain ⟨m', rfl, hm⟩ := h
  exact ⟨_, rfl, hm.freeFrames _ _⟩

lemma sysExit (h : s.Alike X s') : Outcome.Alike (Kernel.Alike X) s.sysExit s'.sysExit := by
  unfold Kernel.sysExit
  rw [Kernel.current, Kernel.current, h.task, h.cur]
  split_ifs
  · have hdestroy := h.destroyOwned (List.finRange semMaxValue)
    generalize Kernel.destroyOwned _ s = o, Kernel.destroyOwned _ s' = o' at hdestroy
    cases hdestroy with
    | error r => exact .stop r
    | ok h => exact h.leave.schedule 0
  · exact .ret () h

/-! ### The keyboard -/

lemma copyFromCircBuffer (h : s.Alike X s') (blocked : Slot) (size : ℤ) :
    Outcome.Alike (Kernel.Alike X) (s.copyFromCircBuffer blocked size)
      (s'.copyFromCircBuffer blocked size) := by
  obtain ⟨m', rfl, hm⟩ := h
  have hcopy := (hm.setSsPags windowPage (s.task blocked).phPages (List.finRange numPagData)).copyToUser
    ((s.task blocked).buffer + numPagData * pageSize) (circBytes s.kbd size.toNat)
  have hcases := (s.withMm m').copyFromCircBuffer_cases blocked size
  simp only [windowOf, withMm_mm, withMm_task, withMm_kbd] at hcases
  rcases s.copyFromCircBuffer_cases blocked size with
    ⟨hsize, h⟩ | ⟨hsize, mm, ⟨hret, h⟩ | ⟨hfault, h⟩⟩ <;>
    rcases hcases with ⟨hsize', h'⟩ | ⟨hsize', mm', ⟨hret', h'⟩ | ⟨hfault', h'⟩⟩
  · rw [h, h']
    exact .stop _
  · exact absurd hsize (not_lt.mpr hsize')
  · exact absurd hsize (not_lt.mpr hsize')
  · exact absurd hsize' (not_lt.mpr hsize)
  · rw [windowOf] at hret
    rw [hret, hret'] at hcopy
    cases hcopy with
    | ret _ hmm =>
      rw [h, h']
      exact .ret () ⟨_, rfl, hmm.setSsPags _ _ _⟩
  · rw [windowOf] at hret
    rw [hret, hfault'] at hcopy
    cases hcopy
  · exact absurd hsize' (not_lt.mpr hsize)
  · rw [windowOf] at hfault
    rw [hfault, hret'] at hcopy
    cases hcopy
  · rw [windowOf] at hfault
    rw [hfault, hfault'] at hcopy
    cases hcopy with
    | fault hmm =>
      rw [h, h']
      exact .fault ⟨_, rfl, hmm⟩

lemma sysReadKeyboard (h : s.Alike X s') (size : ℤ) :
    Outcome.Alike (Kernel.Alike X) (s.sysReadKeyboard size) (s'.sysReadKeyboard size) := by
  have hpend : (s.setPending size).Alike X (s'.setPending size) :=
    h.map (fun s => s.setPending size) rfl fun _ => rfl
  have hserve := hpend.copyFromCircBuffer (s.setPending size).cur size
  have hwait := (hpend.map (fun s => s.waitForChars size) rfl fun _ => rfl).switchToNext (α := ℤ) 0
  unfold Kernel.sysReadKeyboard
  dsimp only
  rw [Kernel.current, Kernel.current, hpend.task, hpend.cur, hpend.links]
  refine .ite Iff.rfl (fun _ => ?_) fun _ => .ite Iff.rfl (fun _ => hwait) fun _ => .ret _ hpend
  generalize (s.setPending size).copyFromCircBuffer _ size = o,
    (s'.setPending size).copyFromCircBuffer _ size = o' at hserve
  cases hserve with
  | ret _ h => exact .ret size (h.map (fun s => s.consume size) rfl fun _ => rfl)
  | switched h => exact .switched h
  | fault h => exact .fault h
  | stop r => exact .stop r

lemma serveReader (h : s.Alike X s') (blocked : Slot) :
    Outcome.Alike (Kernel.Alike X) (s.serveReader blocked) (s'.serveReader blocked) := by
  have hpend := h.updTask blocked fun k => { k with pendingChars := k.pendingChars - 1 }
  unfold Kernel.serveReader
  dsimp only
  generalize (s.updTask blocked fun k => { k with pendingChars := k.pendingChars - 1 }) = v,
    (s'.updTask blocked fun k => { k with pendingChars := k.pendingChars - 1 }) = v' at hpend
  have hlast := hpend.copyFromCircBuffer blocked (v.task blocked).size
  have hfull := hpend.copyFromCircBuffer blocked circularSize
  rw [hpend.task, hpend.kbd]
  refine .ite Iff.rfl (fun _ => ?_) fun _ => .ite Iff.rfl (fun _ => ?_) fun _ => .ret () hpend
  · generalize v.copyFromCircBuffer _ (v.task blocked).size = o,
      v'.copyFromCircBuffer _ (v.task blocked).size = o' at hlast
    cases hlast with
    | ret _ h =>
      exact .ret () (h.map (fun s => s.emptyCircBuffer.unblockAndEnqueque blocked) rfl fun _ => rfl)
    | switched h => exact .switched h
    | fault h => exact .fault h
    | stop r => exact .stop r
  · generalize v.copyFromCircBuffer _ circularSize = o, v'.copyFromCircBuffer _ circularSize = o'
      at hfull
    cases hfull with
    | ret _ h =>
      exact .ret () (h.map (fun s => (s.advanceReader blocked).emptyCircBuffer) rfl fun _ => rfl)
    | switched h => exact .switched h
    | fault h => exact .fault h
    | stop r => exact .stop r

lemma keyboardRoutine (h : s.Alike X s') (scan beyond : Byte) :
    Outcome.Alike (Kernel.Alike X) (s.keyboardRoutine scan beyond)
      (s'.keyboardRoutine scan beyond) := by
  have hput := h.map (fun s => s.putChar (charOf scan beyond)) rfl fun _ => rfl
  unfold Kernel.keyboardRoutine
  refine .ite Iff.rfl (fun _ => ?_) fun _ => .ret () h
  dsimp only
  generalize s.putChar (charOf scan beyond) = v, s'.putChar (charOf scan beyond) = v' at hput
  obtain ⟨m', rfl, hm⟩ := hput
  rw [withMm_links]
  refine .ite Iff.rfl (fun _ => .ret () ⟨m', rfl, hm⟩) fun _ => ?_
  split
  · exact serveReader ⟨m', rfl, hm⟩ _
  · exact .stop _

/-! ### The clock -/

lemma showTime (h : s.Alike X s') : s.showTime.Alike X s'.showTime := by
  refine h.map Kernel.showTime ?_ fun m => ?_
  · unfold Kernel.showTime
    dsimp only
    split_ifs <;> rfl
  · unfold Kernel.showTime
    rw [withMm_tics, withMm_screen]
    dsimp only
    split_ifs <;> rfl

lemma clockRoutine (h : s.Alike X s') :
    Outcome.Alike (Kernel.Alike X) s.clockRoutine s'.clockRoutine := by
  have hsched := (h.map Kernel.tick rfl fun _ => rfl).schedule 1
  unfold Kernel.clockRoutine
  generalize s.tick.schedule 1 = o, s'.tick.schedule 1 = o' at hsched
  cases hsched with
  | ret _ h => exact .ret () h.showTime
  | switched h => exact .switched h
  | fault h => exact .fault h
  | stop r => exact .stop r

/-! ### System calls on user memory -/

lemma sysWrite (h : s.Alike X s') (hx : s.mm.Hides X) (fd : ℤ) (buffer : ℕ) (size : ℤ) :
    Outcome.Alike (Kernel.Alike X) (s.sysWrite fd buffer size) (s'.sysWrite fd buffer size) := by
  obtain ⟨m', rfl, hm⟩ := h
  have hself : s.Alike X (s.withMm m') := ⟨m', rfl, hm⟩
  have hopen : (s.withMm m').openFile fd = s.openFile fd := rfl
  unfold Kernel.sysWrite
  rw [hopen, withMm_fs, withMm_screen, withMm_mm]
  split
  · exact .ret _ hself
  · rename_i v _
    refine .ite Iff.rfl (fun _ => .ret _ hself) fun _ => .ite Iff.rfl (fun _ => .ret _ hself) fun _ =>
      .ite Iff.rfl (fun _ => .ret _ hself) fun _ =>
        .ite (by rw [hm.accessOk]) (fun _ => .ret _ hself) fun _ => ?_
    split
    · exact .stop _
    · rename_i f _
      split
      · exact .ret _ hself
      · rw [Screen.sysWriteConsole_congr _ hm hx]
        cases s.screen.sysWriteConsole s.mm buffer size.toNat with
        | ret a sc => exact .ret a ⟨m', rfl, hm⟩
        | switched sc => exact .switched ⟨m', rfl, hm⟩
        | fault sc => exact .fault ⟨m', rfl, hm⟩
        | stop r => exact .stop r
      · rw [FileSystem.sysWriteFile_congr _ hm hx]
        cases s.fs.sysWriteFile s.mm v f buffer size.toNat with
        | ret a fs => exact .ret a ⟨m', rfl, hm⟩
        | switched fs => exact .switched ⟨m', rfl, hm⟩
        | fault fs => exact .fault ⟨m', rfl, hm⟩
        | stop r => exact .stop r

lemma sysRead (h : s.Alike X s') (fd : ℤ) (buffer : ℕ) (size : ℤ) :
    Outcome.Alike (Kernel.Alike X) (s.sysRead fd buffer size) (s'.sysRead fd buffer size) := by
  obtain ⟨m', rfl, hm⟩ := h
  have hself : s.Alike X (s.withMm m') := ⟨m', rfl, hm⟩
  have hopen : (s.withMm m').openFile fd = s.openFile fd := rfl
  have hnote := hself.updTask s.cur fun k => { k with size := size, buffer := buffer }
  unfold Kernel.sysRead
  rw [hopen, withMm_fs]
  split
  · exact .ret _ hself
  · rename_i v _
    refine .ite Iff.rfl (fun _ => .ret _ hself) fun _ => .ite Iff.rfl (fun _ => .ret _ hself) fun _ =>
      .ite Iff.rfl (fun _ => .ret _ hself) fun _ =>
        .ite (by rw [withMm_mm, hm.accessOk]) (fun _ => .ret _ hself) fun _ => ?_
    dsimp only [updTask_fs, withMm_fs]
    split
    · exact .stop _
    · rename_i f _
      split
      · exact .ret _ hnote
      · exact hnote.sysReadKeyboard size
      · exact (FileSystem.alike_sysReadFile s.fs hm v f buffer size.toNat).lift
          fun st st' hst => ⟨st'.2, by rw [hst.1]; rfl, hst.2⟩

lemma sysGetStats (h : s.Alike X s') (spid : ℤ) (st : ℕ) (beyond : Task) :
    Outcome.Alike (Kernel.Alike X) (s.sysGetStats spid st beyond)
      (s'.sysGetStats spid st beyond) := by
  obtain ⟨m', rfl, hm⟩ := h
  have hself : s.Alike X (s.withMm m') := ⟨m', rfl, hm⟩
  refine .ite Iff.rfl (fun _ => .ret _ hself) fun _ =>
    .ite (by rw [withMm_mm, hm.accessOk]) (fun _ => .ret _ hself) fun _ =>
      .ite Iff.rfl (fun _ => .ret _ hself) fun _ => ?_
  exact (hm.copyToUser st (statsBytes (s.statsTask spid beyond))).lift fun m m' h => ⟨m', rfl, h⟩

lemma forked (h : s.Alike X s') {mm mm' : Memory} (hmm : mm.Alike X mm')
    (hsrc : ∀ j : Fin numPagData, ¬ X (mm.pagusrTable (pagLogInitDataP0 + j.val)).pbaseAddr)
    (new : Slot) (frames : Fin numPagData → ℤ) :
    (s.forked new frames mm).Alike X (s'.forked new frames mm') := by
  obtain ⟨m', rfl, hm⟩ := h
  exact ⟨_, rfl, hmm.copyDataPages hsrc frames⟩

lemma sysFork (h : s.Alike X s') (hlive : s.Live s.cur)
    (hsrc : ∀ j : Fin numPagData, ¬ X (s.mm.pagusrTable (pagLogInitDataP0 + j.val)).pbaseAddr) :
    Except.Alike (AlikeResult X) s.sysFork s'.sysFork := by
  have halloc := Memory.Alike.allocFrames s.current.phPages (List.finRange numPagData) [] h.mm
  obtain ⟨m', rfl, hm⟩ := h
  have hself : s.Alike X (s.withMm m') := ⟨m', rfl, hm⟩
  rcases (s.withMm m').sysFork_cases hlive with ⟨hnone', h'⟩ | ⟨new, hnew', -, h'⟩ <;>
    rcases s.sysFork_cases hlive with ⟨hnone, h⟩ | ⟨new', hnew, -, h⟩
  · rw [h, h']
    exact .ok ⟨rfl, hself⟩
  · cases hnew.symm.trans hnone'
  · cases hnew'.symm.trans hnone
  · obtain rfl : new' = new := Option.some_inj.mp (hnew.symm.trans hnew')
    rcases h with ⟨mm, ha, h⟩ | ⟨frames, mm, ha, h⟩ <;>
      rcases h' with ⟨mm', ha', h'⟩ | ⟨frames', mm', ha', h'⟩ <;>
      change Memory.allocFrames s.current.phPages _ _ m' = _ at ha' <;>
      rw [withMm_mm, ha, ha'] at halloc
    · rw [h, h']
      exact .ok ⟨rfl, mm', rfl, halloc.2⟩
    · cases halloc.1
    · cases halloc.1
    · obtain ⟨hframes, hmm⟩ := halloc
      obtain rfl : frames' = frames := Option.some_inj.mp hframes
      obtain ⟨fs, -, -, -, rfl⟩ := allocFrames_some ha
      rcases h with ⟨hlen, h⟩ | ⟨hlen, h⟩ <;> rcases h' with ⟨hlen', h'⟩ | ⟨hlen', h'⟩
      · rw [h, h']
        exact .ok ⟨rfl, hself.forked hmm hsrc _ _⟩
      · exact absurd hlen hlen'
      · exact absurd hlen' hlen
      · rw [h, h']
        exact .error _

/-! ### Attributes and files -/

lemma sysNice (h : s.Alike X s') (quantum : ℤ) :
    AlikeResult X (s.sysNice quantum) (s'.sysNice quantum) := by
  obtain ⟨m', rfl, hm⟩ := h
  unfold Kernel.sysNice
  split_ifs
  · exact ⟨rfl, m', rfl, hm⟩
  · exact ⟨rfl, m', rfl, hm⟩

lemma sysOpen (h : s.Alike X s') (addr : ℕ) (path : List Byte) (flags : ℤ) :
    Outcome.Alike (Kernel.Alike X) (s.sysOpen addr path flags) (s'.sysOpen addr path flags) := by
  obtain ⟨m', rfl, hm⟩ := h
  unfold Kernel.sysOpen
  rw [Kernel.current, Kernel.current, withMm_task, withMm_cur, withMm_fs, withMm_mm, hm.strlen]
  split_ifs
  · exact .ret _ ⟨m', rfl, hm⟩
  · cases s.mm.strlen addr path with
    | none => exact .fault ⟨m', rfl, hm⟩
    | some n =>
      dsimp only
      split
      · exact .stop _
      · exact .ret _ ⟨m', rfl, hm⟩

lemma sysDup (h : s.Alike X s') (fd : ℤ) : AlikeResult X (s.sysDup fd) (s'.sysDup fd) := by
  obtain ⟨m', rfl, hm⟩ := h
  exact ⟨rfl, m', rfl, hm⟩

lemma sysClose (h : s.Alike X s') (fd : ℤ) :
    Except.Alike (AlikeResult X) (s.sysClose fd) (s'.sysClose fd) := by
  obtain ⟨m', rfl, hm⟩ := h
  unfold Kernel.sysClose
  rw [Kernel.current, Kernel.current, withMm_task, withMm_cur, withMm_fs]
  split
  · exact .error _
  · exact .ok ⟨rfl, m', rfl, hm⟩

lemma sysUnlink (h : s.Alike X s') (addr : ℕ) (path : List Byte) :
    Outcome.Alike (Kernel.Alike X) (s.sysUnlink addr path) (s'.sysUnlink addr path) := by
  obtain ⟨m', rfl, hm⟩ := h
  unfold Kernel.sysUnlink
  rw [withMm_fs, withMm_mm, hm.strlen]
  split_ifs
  · exact .ret _ ⟨m', rfl, hm⟩
  · cases s.mm.strlen addr path with
    | none => exact .fault ⟨m', rfl, hm⟩
    | some n =>
      dsimp only
      split
      · exact .stop _
      · exact .ret _ ⟨m', rfl, hm⟩

end Alike

/-! ### Steps -/

/-- Two ends of a step before `sys_exit`. -/
inductive PhaseAlike (X : ℕ → Prop) : Phase → Phase → Prop
  | done {s s' : Kernel} : s.Alike X s' → PhaseAlike X (.done s) (.done s')
  | exits (cause : ExitCause) {s s' : Kernel} :
      s.Alike X s' → PhaseAlike X (.exits cause s) (.exits cause s')
  | stop (r : Stop) : PhaseAlike X (.stop r) (.stop r)

namespace Alike

lemma pageFaultRoutine (h : s.Alike X s') (cause : ExitCause) :
    PhaseAlike X (s.pageFaultRoutine cause) (s'.pageFaultRoutine cause) := by
  unfold Kernel.pageFaultRoutine
  rw [Kernel.current, Kernel.current, h.task, h.cur]
  split_ifs
  · exact .exits cause h.printFault
  · exact .stop _

end Alike

lemma alike_finish {o o' : Outcome Kernel ℤ} (h : Outcome.Alike (Kernel.Alike X) o o') :
    PhaseAlike X (finish o) (finish o') := by
  cases h with
  | ret r h => exact .done (h.setEax r)
  | switched h => exact .done h
  | fault h => exact h.pageFaultRoutine _
  | stop r => exact .stop r

lemma alike_finishInt {o o' : Outcome Kernel Unit} (h : Outcome.Alike (Kernel.Alike X) o o') :
    PhaseAlike X (finishInt o) (finishInt o') := by
  cases h with
  | ret r h => exact .done h
  | switched h => exact .done h
  | fault h => exact h.pageFaultRoutine _
  | stop r => exact .stop r

lemma alike_finishExcept {o o' : Except Stop (ℤ × Kernel)} (h : Except.Alike (AlikeResult X) o o') :
    PhaseAlike X (finishExcept o) (finishExcept o') := by
  cases h with
  | error r => exact .stop r
  | @ok p p' h =>
    obtain ⟨r, s⟩ := p
    obtain ⟨r', s'⟩ := p'
    obtain ⟨rfl, h⟩ := h
    exact .done (h.setEax _)

/-- None of the frames is mapped, and none is behind a data page. -/
structure Keeps (s : Kernel) (X : ℕ → Prop) : Prop where
  live : s.Live s.cur
  hides : s.mm.Hides X
  data : ∀ j : Fin numPagData, ¬ X (s.mm.pagusrTable (pagLogInitDataP0 + j.val)).pbaseAddr

/-- **An entry to the kernel**, up to the end of the process. -/
lemma Alike.dispatch (h : s.Alike X s') (hx : s.Keeps X) (e : Event) :
    PhaseAlike X (s.dispatch e) (s'.dispatch e) := by
  have henter := h.enter e.regs
  have hlive : (s.enter e.regs).Live (s.enter e.regs).cur :=
    ((s.quiet_enter e.regs).sched.live_iff _).mpr hx.live
  unfold Kernel.dispatch
  cases e.act with
  | write fd buffer size => exact alike_finish (henter.sysWrite hx.hides fd buffer size)
  | read fd buffer size => exact alike_finish (henter.sysRead fd buffer size)
  | «open» addr path flags => exact alike_finish (henter.sysOpen addr path flags)
  | close fd => exact alike_finishExcept (henter.sysClose fd)
  | dup fd => exact alike_finishExcept (.ok (henter.sysDup fd))
  | unlink addr path => exact alike_finish (henter.sysUnlink addr path)
  | getpid =>
    refine alike_finishExcept (.ok ⟨?_, henter⟩)
    rw [Kernel.current, Kernel.current, h.task, h.cur]
  | fork => exact alike_finishExcept (henter.sysFork hlive hx.data)
  | exit eax => exact .exits _ henter
  | semInit nSem value => exact alike_finishExcept (.ok (henter.sysSemInit nSem value))
  | semWait nSem => exact alike_finish (henter.sysSemWait nSem)
  | semSignal nSem => exact alike_finishExcept (henter.sysSemSignal nSem)
  | semDestroy nSem => exact alike_finishExcept (henter.sysSemDestroy nSem)
  | nice quantum => exact alike_finishExcept (.ok (henter.sysNice quantum))
  | getStats spid st beyond => exact alike_finish (henter.sysGetStats spid st beyond)
  | niSyscall => exact alike_finishExcept (.ok ⟨rfl, henter⟩)
  | clock => exact alike_finishInt henter.clockRoutine
  | key scan beyond => exact alike_finishInt (henter.keyboardRoutine scan beyond)
  | store addr b =>
    dsimp only
    rw [h.mm.userWritable]
    split_ifs
    · obtain ⟨m', rfl, hm⟩ := h
      exact .done ⟨_, rfl, hm.store addr b⟩
    · exact h.pageFaultRoutine _
  | pageFault => exact h.pageFaultRoutine _

/-- **A step.** -/
lemma Alike.step (h : s.Alike X s') (hx : s.Keeps X) (e : Event) :
    Except.Alike (Kernel.Alike X) (s.step e) (s'.step e) := by
  have hdispatch := h.dispatch hx e
  unfold Kernel.step
  generalize s.dispatch e = p, s'.dispatch e = p' at hdispatch
  cases hdispatch with
  | done h => exact .ok h
  | stop r => exact .error r
  | @exits cause u u' h =>
    have hexit := h.sysExit
    dsimp only
    generalize u.sysExit = o, u'.sysExit = o' at hexit
    cases hexit with
    | switched h => exact .ok h
    | ret _ h =>
      cases cause with
      | syscall eax => exact .ok (h.setEax eax)
      | userFault => exact .ok h
      | kernelFault => exact .error _
    | fault h => exact .error _
    | stop r => exact .error r

/-- The same guard holds. -/
lemma Alike.exitsFindTwo (h : s.Alike X s') (hx : s.Keeps X) {e : Event} (hg : s.ExitsFindTwo e) :
    s'.ExitsFindTwo e := by
  intro cause s₁' s₂' hd' hpid hdestroy'
  have hdispatch := h.dispatch hx e
  rw [hd'] at hdispatch
  generalize hd : s.dispatch e = p at hdispatch
  cases hdispatch with
  | @exits _ s₁ _ h₁ =>
    have hdestroy := h₁.destroyOwned (List.finRange semMaxValue)
    rw [hdestroy'] at hdestroy
    generalize hd₂ : Kernel.destroyOwned (List.finRange semMaxValue) s₁ = o at hdestroy
    cases hdestroy with
    | ok h₂ =>
      have hpid' : s₁.current.pid ≠ 0 := by
        rwa [Kernel.current, h₁.task, h₁.cur] at hpid
      have htwo := hg _ _ _ hd hpid' hd₂
      have hqueue : s₂'.leave.runqueue = (Kernel.leave _).runqueue := congrArg
        (fun l : Links Node => (l.members .runqueue numNodes).filterMap listHeadToTaskStruct)
        h₂.leave.links
      rwa [hqueue]

lemma Alike.windowClear (h : s.Alike X s') (hw : s.mm.WindowClear) : s'.mm.WindowClear := by
  rwa [WindowClear, h.mm.table]

lemma Alike.handsOverClear (h : s.Alike X s') (hx : s.Keeps X) {e : Event}
    (hclear : s.HandsOverClear e) : s'.HandsOverClear e := by
  have hdispatch := h.dispatch hx e
  refine ⟨fun t' hd' hne => ?_, fun cause s₁' hd' hpid => ?_⟩
  · rw [hd'] at hdispatch
    generalize hd : s.dispatch e = p at hdispatch
    cases hdispatch with
    | done ht =>
      rw [ht.cur, h.cur] at hne
      exact h.windowClear (hclear.1 _ hd hne)
  · rw [hd'] at hdispatch
    generalize hd : s.dispatch e = p at hdispatch
    cases hdispatch with
    | exits _ h₁ =>
      rw [Kernel.current, h₁.task, h₁.cur] at hpid
      exact h₁.windowClear (hclear.2 _ _ hd hpid)

/-- The frames of some processes. -/
def FramesOf (s : Kernel) (U : Set Slot) (f : ℕ) : Prop := ∃ u ∈ U, ∃ i, (s.task u).phPages i = f

/-- The kernel with other contents of the frames. -/
def withFrame (s : Kernel) (F : ℕ → ℕ → Byte) : Kernel := s.withMm { s.mm with frame := F }

/-- The steps that are looked at: nobody of `U` runs. -/
def WithoutThem (U : Set Slot) (s : Kernel) (e : Event) : Prop :=
  s.ExitsFindTwo e ∧ s.HandsOverClear e ∧ s.cur ∉ U

end Kernel

section

variable {E : Env} {s t : Kernel} {e : Event} {U : Set Slot}

/-- The frames of processes that do not run are not mapped. -/
lemma OwnTable.keeps (h : OwnTable E s) (hlive : ∀ u ∈ U, s.Live u) (hcur : s.cur ∉ U) :
    s.Keeps (s.FramesOf U) := by
  obtain ⟨Q, D, W, hs, hf, ht, hown⟩ := h
  have hhides : s.mm.Hides (s.FramesOf U) := by
    rintro f ⟨u, hu, i, hi⟩
    have hframe : frameNat ((s.task u).phPages i) = f := by
      have := hf.frameNat_eq (hlive u hu) i
      omega
    exact hframe ▸ hown.unmapped hs.sched hf ht (hlive u hu) (fun heq => hcur (heq ▸ hu)) i
  refine ⟨hs.sched.cur_live, hhides, fun j hj => ?_⟩
  have hlt : pagLogInitDataP0 + j.val < totalPages := by
    have hj := pageIndex_lt j
    show 264 + j.val < 1024
    omega
  exact hhides _ hj _ hlt (by rw [ht.data j]; rfl) rfl

/-- These processes and their frames are there after a step, too. -/
lemma OwnTable.step_others (h : OwnTable E s) (hlive : ∀ u ∈ U, s.Live u) (hcur : s.cur ∉ U)
    (hg : s.ExitsFindTwo e) (hst : s.step e = .ok t) :
    (∀ u ∈ U, t.Live u) ∧ t.FramesOf U = s.FramesOf U := by
  obtain ⟨Q, D, W, hs, hf, ht, hown⟩ := h
  obtain ⟨Q', hturn⟩ := (hs.step_effects e hg).1 t hst
  have hstay : ∀ u ∈ U, t.Live u := fun u hu =>
    hturn.live_of_ne (hlive u hu) fun heq => hcur (heq ▸ hu)
  refine ⟨hstay, funext fun f => propext ?_⟩
  refine exists_congr fun u => and_congr_right fun hu => exists_congr fun i => ?_
  rw [hturn.pages_eq (hlive u hu) (hstay u hu)]

/-- Two runs side by side, whose states differ in the frames `X` of the processes `U`. -/
structure SideBySide (E : Env) (U : Set Slot) (X : ℕ → Prop) (s s' : Kernel) : Prop where
  own : OwnTable E s
  live : ∀ u ∈ U, s.Live u
  frames : s.FramesOf U = X
  alike : s.Alike X s'

variable {X : ℕ → Prop} {s' : Kernel}

lemma SideBySide.keeps (h : SideBySide E U X s s') (hcur : s.cur ∉ U) : s.Keeps X :=
  h.frames ▸ h.own.keeps h.live hcur

/-- A step of both. -/
lemma SideBySide.step (h : SideBySide E U X s s') (hg : Kernel.WithoutThem U s e)
    (hst : s.step e = .ok t) :
    Kernel.WithoutThem U s' e ∧ ∃ t', s'.step e = .ok t' ∧ SideBySide E U X t t' := by
  obtain ⟨hexit, hclear, hcur⟩ := hg
  have hkeeps := h.keeps hcur
  have hstep := h.alike.step hkeeps e
  obtain ⟨hlive, hframes⟩ := h.own.step_others h.live hcur hexit hst
  refine ⟨⟨h.alike.exitsFindTwo hkeeps hexit, h.alike.handsOverClear hkeeps hclear, ?_⟩, ?_⟩
  · rwa [h.alike.cur]
  · rw [hst] at hstep
    generalize s'.step e = o at hstep
    cases hstep with
    | ok ht => exact ⟨_, rfl, h.own.step hexit hclear hst, hlive, hframes.trans h.frames, ht⟩

/-- **What a process keeps in its memory is nobody's business.**  Take any state of a run from boot
that hands the processor over with the window clear, any live processes, and any other contents of
their frames.  Whatever the other processes do from there on (they run, write to files and to the
screen, fork, end, read keys), as long as none of these processes runs: the same events lead to the same
state, but for the contents of these frames, and the kernel stops at the same event for the same
reason.  So no number that a system call returns, no file, nothing on the screen, no order of
processes and no byte of the others' memory depends on what these processes have in theirs. -/
theorem memory_is_confidential {pre : List Event}
    (hrun : Run Kernel.step (fun s e => s.ExitsFindTwo e ∧ s.HandsOverClear e) E.boot pre s)
    (hlive : ∀ u ∈ U, s.Live u) {F : ℕ → ℕ → Byte}
    (hF : ∀ f, ¬ s.FramesOf U f → F f = s.mm.frame f) {es : List Event}
    (h : Run Kernel.step (Kernel.WithoutThem U) s es t) :
    ∃ F', Run Kernel.step (Kernel.WithoutThem U) (s.withFrame F) es (t.withFrame F') ∧
      (∀ f, ¬ s.FramesOf U f → F' f = t.mm.frame f) ∧
      ∀ e r, t.cur ∉ U → t.step e = .error r → (t.withFrame F').step e = .error r := by
  have hown : OwnTable E s := hrun.invariant (fun s e t hs hg hst => hs.step hg.1 hg.2 hst)
    E.boot_ownTable
  have hstart : SideBySide E U (s.FramesOf U) s (s.withFrame F) :=
    ⟨hown, hlive, rfl, _, rfl, rfl, rfl, hF⟩
  obtain ⟨t', hrun', hend⟩ := h.simulate (fun _ _ _ _ hs hg hst => hs.step hg hst) hstart
  obtain ⟨m', rfl, hm⟩ := hend.alike
  have hm' : t.withMm m' = t.withFrame m'.frame := by
    obtain ⟨phys, table, frame⟩ := m'
    obtain ⟨rfl, rfl, -⟩ := hm
    rfl
  refine ⟨m'.frame, hm' ▸ hrun', hm.frame, fun e r hcur hr => ?_⟩
  have hstep := hend.alike.step (hend.keeps hcur) e
  rw [hr, hm'] at hstep
  generalize (t.withFrame m'.frame).step e = o at hstep
  cases hstep
  rfl

/-- `memory_is_confidential` for the child of the first fork, while its parent asks for its pid: a page
of the child may be full of ones. -/
theorem memory_is_confidential_of_child :
    ∃ (s t : Kernel) (F' : ℕ → ℕ → Byte),
      Run Kernel.step (fun s e => s.ExitsFindTwo e ∧ s.HandsOverClear e) linkedEnv.boot
        [plain .fork] s ∧ s.Live 1 ∧
      Run Kernel.step (Kernel.WithoutThem {1})
        (s.withFrame (Function.update s.mm.frame (frameNat ((s.task 1).phPages 0)) fun _ => 255))
        [plain .getpid] (t.withFrame F') := by
  obtain ⟨s, hrun, hs, -, -⟩ := linkedEnv.boot_fork
  obtain ⟨s', hg, hst, hnil⟩ := run_cons_iff.mp hrun
  obtain rfl : s' = s := run_nil_iff.mp hnil
  have hd : linkedEnv.boot.dispatch (plain .fork) = .done s' :=
    Kernel.dispatch_of_step hst fun cause s₁ hd => Kernel.ne_fork_of_exits hd rfl
  have hcur : s'.cur = 0 := by
    have h := hs.sched.head
    rw [Function.update_self] at h
    simpa using h.symm
  have hrun' : Run Kernel.step (fun s e => s.ExitsFindTwo e ∧ s.HandsOverClear e) linkedEnv.boot
      [plain .fork] s' :=
    .cons ⟨hg, Kernel.handsOverClear_of_stays hd hcur⟩ hst (.nil s')
  have hlive : s'.Live 1 := by
    rw [hs.sched.live_iff]
    exact ⟨.runqueue, by simp⟩
  obtain ⟨pid, hd'⟩ : ∃ pid, s'.dispatch (plain .getpid) =
      .done ((s'.enter (plain .getpid).regs).setEax pid) := ⟨_, rfl⟩
  have hnot : s'.cur ∉ ({1} : Set Slot) := by
    rw [hcur]
    decide
  have hone : Run Kernel.step (Kernel.WithoutThem {1}) s' [plain .getpid] _ :=
    .cons ⟨Kernel.exitsFindTwo_of_done hd', Kernel.handsOverClear_of_stays hd' rfl, hnot⟩
      (Kernel.step_of_done hd') (.nil _)
  obtain ⟨-, -, -, -, hf, -, -⟩ := OwnTable.step linkedEnv.boot_ownTable hg
    (Kernel.handsOverClear_of_stays hd hcur) hst
  have hF : ∀ f, ¬ s'.FramesOf {1} f →
      Function.update s'.mm.frame (frameNat ((s'.task 1).phPages 0)) (fun _ => 255) f =
        s'.mm.frame f := by
    intro f hno
    refine Function.update_of_ne (fun heq => hno ⟨1, rfl, 0, ?_⟩) ..
    rw [heq]
    exact (hf.frameNat_eq hlive 0).symm
  have hchild : ∀ u ∈ ({1} : Set Slot), s'.Live u := by
    rintro u rfl
    exact hlive
  obtain ⟨F', hF', -, -⟩ := memory_is_confidential hrun' hchild hF hone
  exact ⟨s', _, F', hrun', hlive, hF'⟩

end

end ZeOS
