import ZeOS.Kernel.System

/-!
# What the routines leave alone

Most of the kernel touches neither the queues nor the page table.  `SameSched` and `SamePages`
say what a piece of code left unchanged, `Quiet` is both, and the lemmas below establish one
of them for every routine that earns it.  Every invariant of the later modules looks at these
parts of the state only, so a routine whose lemma is here needs no other argument there.
-/

namespace ZeOS

open IntrusiveList

/-- The queues, the semaphores, the running task, and what the scheduler reads of each task
are the same. -/
structure SameSched (s t : Kernel) : Prop where
  links : t.links = s.links
  sem : t.sem = s.sem
  cur : t.cur = s.cur
  counter : t.pid = s.pid
  pid : ∀ u, (t.task u).pid = (s.task u).pid
  owned : ∀ u, (t.task u).ownedSems = (s.task u).ownedSems
  pages : ∀ u, (t.task u).phPages = (s.task u).phPages

/-- No page is mapped to a frame. -/
def Memory.Unmapped (m : Memory) (f : ℕ) : Prop :=
  ∀ page, page < totalPages → (m.pagusrTable page).present = true → (m.pagusrTable page).pbaseAddr ≠ f

/-- The byte map of frames and the page table are the same, and so are the contents of the
frames that no page is mapped to. -/
structure SamePages (m n : Memory) : Prop where
  physMem : n.physMem = m.physMem
  table : n.pagusrTable = m.pagusrTable
  unmapped : ∀ f, m.Unmapped f → n.frame f = m.frame f

/-- Neither the scheduler nor the page table sees a difference. -/
structure Quiet (s t : Kernel) : Prop where
  sched : SameSched s t
  mm : SamePages s.mm t.mm

namespace SameSched

lemma refl (s : Kernel) : SameSched s s := ⟨rfl, rfl, rfl, rfl, fun _ => rfl, fun _ => rfl, fun _ => rfl⟩

/-- Only other variables of the kernel differ. -/
lemma other {s t : Kernel} (htask : t.task = s.task) (hlinks : t.links = s.links)
    (hsem : t.sem = s.sem) (hcur : t.cur = s.cur) (hpid : t.pid = s.pid) : SameSched s t :=
  ⟨hlinks, hsem, hcur, hpid, fun u => by rw [htask], fun u => by rw [htask], fun u => by rw [htask]⟩

lemma trans {s t u : Kernel} (h : SameSched s t) (h' : SameSched t u) : SameSched s u :=
  ⟨h'.links.trans h.links, h'.sem.trans h.sem, h'.cur.trans h.cur, h'.counter.trans h.counter,
    fun v => (h'.pid v).trans (h.pid v), fun v => (h'.owned v).trans (h.owned v),
    fun v => (h'.pages v).trans (h.pages v)⟩

/-- A change of one task that keeps its pid, its semaphores and its frames. -/
lemma updTask (s : Kernel) (t : Slot) (f : Task → Task) (hpid : (f (s.task t)).pid = (s.task t).pid)
    (howned : (f (s.task t)).ownedSems = (s.task t).ownedSems)
    (hpages : (f (s.task t)).phPages = (s.task t).phPages) : SameSched s (s.updTask t f) := by
  refine ⟨rfl, rfl, rfl, rfl, ?_, ?_, ?_⟩ <;>
  · intro u
    rw [Kernel.updTask_task]
    split_ifs with h
    · subst h
      assumption
    · rfl

lemma current_pid {s t : Kernel} (h : SameSched s t) : t.current.pid = s.current.pid := by
  rw [Kernel.current, h.cur, h.pid]

lemma live_iff {s t : Kernel} (h : SameSched s t) (u : Slot) : t.Live u ↔ s.Live u := by
  rw [Kernel.Live, h.pid]

end SameSched

namespace SamePages

lemma refl (m : Memory) : SamePages m m := ⟨rfl, rfl, fun _ _ => rfl⟩

lemma unmapped_iff {m n : Memory} (h : SamePages m n) (f : ℕ) : n.Unmapped f ↔ m.Unmapped f := by
  rw [Memory.Unmapped, Memory.Unmapped, h.table]

lemma trans {m n o : Memory} (h : SamePages m n) (h' : SamePages n o) : SamePages m o :=
  ⟨h'.physMem.trans h.physMem, h'.table.trans h.table,
    fun f hf => (h'.unmapped f ((h.unmapped_iff f).mpr hf)).trans (h.unmapped f hf)⟩

lemma present {m n : Memory} (h : SamePages m n) (addr : ℕ) : n.present addr = m.present addr := by
  rw [Memory.present, Memory.present, h.table]

lemma frameOf {m n : Memory} (h : SamePages m n) (addr : ℕ) : n.frameOf addr = m.frameOf addr := by
  rw [Memory.frameOf, Memory.frameOf, h.table]

end SamePages

namespace Quiet

lemma refl (s : Kernel) : Quiet s s := ⟨.refl s, .refl s.mm⟩

lemma trans {s t u : Kernel} (h : Quiet s t) (h' : Quiet t u) : Quiet s u :=
  ⟨h.sched.trans h'.sched, h.mm.trans h'.mm⟩

lemma updTask (s : Kernel) (t : Slot) (f : Task → Task) (hpid : (f (s.task t)).pid = (s.task t).pid)
    (howned : (f (s.task t)).ownedSems = (s.task t).ownedSems)
    (hpages : (f (s.task t)).phPages = (s.task t).phPages) : Quiet s (s.updTask t f) :=
  ⟨.updTask s t f hpid howned hpages, .refl s.mm⟩

lemma other {s t : Kernel} (htask : t.task = s.task) (hlinks : t.links = s.links)
    (hsem : t.sem = s.sem) (hcur : t.cur = s.cur) (hpid : t.pid = s.pid) (hmm : t.mm = s.mm) :
    Quiet s t :=
  ⟨.other htask hlinks hsem hcur hpid, hmm ▸ .refl s.mm⟩

end Quiet

/-! ## Predicates on outcomes -/

namespace Outcome

variable {σ τ α : Type}

/-- The code returns or faults in a state that satisfies a predicate, and the run does not end
because a list head was taken for a task. -/
def Ends (P : σ → Prop) : Outcome σ α → Prop
  | .ret _ s => P s
  | .switched _ => False
  | .fault s => P s
  | .stop r => r ≠ .notATask

lemma Ends.lift {P : σ → Prop} {Q : τ → Prop} {f : σ → τ} {o : Outcome σ α}
    (h : o.Ends P) (himp : ∀ s, P s → Q (f s)) : (o.lift f).Ends Q := by
  cases o with
  | ret a s => exact himp s h
  | switched s => exact h
  | fault s => exact himp s h
  | stop r => exact h

lemma Ends.imp {P Q : σ → Prop} {o : Outcome σ α} (h : o.Ends P) (himp : ∀ s, P s → Q s) :
    o.Ends Q := by
  cases o with
  | ret a s => exact himp s h
  | switched s => exact h
  | fault s => exact himp s h
  | stop r => exact h

end Outcome

/-- The same for a phase. -/
def Phase.Ends (P : Kernel → Prop) : Phase → Prop
  | .done s => P s
  | .exits _ s => P s
  | .stop r => r ≠ .notATask

/-! ## Copies to user memory -/

namespace Memory

lemma Unmapped.ne_frameOf {m : Memory} {f addr : ℕ} (h : m.Unmapped f)
    (hp : m.present addr = true) : f ≠ m.frameOf addr := by
  rw [present, Bool.and_eq_true, decide_eq_true_eq] at hp
  exact (h _ hp.1 hp.2).symm

/-- A store to a page that is present. -/
lemma samePages_store (m : Memory) {addr : ℕ} (hp : m.present addr = true) (b : Byte) :
    SamePages m (m.store addr b) :=
  ⟨rfl, rfl, fun _ hf => Function.update_of_ne (hf.ne_frameOf hp) _ _⟩

/-- The pages of the first and of the last byte of a word are those of all its bytes. -/
lemma present_word {m : Memory} {dest j : ℕ} (h₀ : m.present dest = true)
    (h₃ : m.present (dest + 3) = true) (hj : j ≤ 3) : m.present (dest + j) = true := by
  have hpage : (dest + j) / 4096 = dest / 4096 ∨ (dest + j) / 4096 = (dest + 3) / 4096 := by omega
  rcases hpage with h | h
  · rw [present, show (dest + j) / pageSize = dest / pageSize from h]
    exact h₀
  · rw [present, show (dest + j) / pageSize = (dest + 3) / pageSize from h]
    exact h₃

lemma samePages_copyBytes (bs : List Byte) :
    ∀ (m : Memory) (dest : ℕ), (m.copyBytes dest bs).Ends (SamePages m) := by
  induction bs with
  | nil =>
    intro m dest
    exact .refl m
  | cons b bs ih =>
    intro m dest
    rw [copyBytes]
    split_ifs with hp
    · exact (ih _ _).imp (fun n hn => (m.samePages_store hp b).trans hn)
    · exact .refl m

lemma samePages_copyToUser (m : Memory) (dest : ℕ) (bs : List Byte) :
    (m.copyToUser dest bs).Ends (SamePages m) := by
  induction m, dest, bs using copyToUser.induct with
  | case1 m dest b₀ b₁ b₂ b₃ b₄ bs hp ih =>
    rw [copyToUser, if_pos hp]
    rw [Bool.and_eq_true] at hp
    have h₁ : m.present (dest + 1) = true := present_word hp.1 hp.2 (by decide)
    have h₂ : m.present (dest + 2) = true := present_word hp.1 hp.2 (by decide)
    have hword := (((m.samePages_store hp.1 b₀).trans
      ((m.store dest b₀).samePages_store h₁ b₁)).trans
      (((m.store dest b₀).store (dest + 1) b₁).samePages_store h₂ b₂)).trans
      ((((m.store dest b₀).store (dest + 1) b₁).store (dest + 2) b₂).samePages_store hp.2 b₃)
    exact ih.imp (fun n hn => hword.trans hn)
  | case2 m dest b₀ b₁ b₂ b₃ b₄ bs hp =>
    rw [copyToUser, if_neg hp]
    exact .refl m
  | case3 m dest bs hbs =>
    rw [copyToUser.eq_2 _ _ _ hbs]
    exact samePages_copyBytes bs m dest

/-- A copy to user memory neither switches nor ends the run. -/
lemma copyBytes_ret_or_fault (bs : List Byte) :
    ∀ (m : Memory) (dest : ℕ), (∃ n, m.copyBytes dest bs = .ret 0 n) ∨
      ∃ n, m.copyBytes dest bs = .fault n := by
  induction bs with
  | nil =>
    intro m dest
    exact .inl ⟨m, rfl⟩
  | cons b bs ih =>
    intro m dest
    rw [copyBytes]
    split_ifs
    · exact ih _ _
    · exact .inr ⟨m, rfl⟩

lemma copyToUser_ret_or_fault (m : Memory) (dest : ℕ) (bs : List Byte) :
    (∃ n, m.copyToUser dest bs = .ret 0 n) ∨ ∃ n, m.copyToUser dest bs = .fault n := by
  induction m, dest, bs using copyToUser.induct with
  | case1 m dest b₀ b₁ b₂ b₃ b₄ bs hp ih =>
    rw [copyToUser, if_pos hp]
    exact ih
  | case2 m dest b₀ b₁ b₂ b₃ b₄ bs hp =>
    rw [copyToUser, if_neg hp]
    exact .inr ⟨m, rfl⟩
  | case3 m dest bs hbs =>
    rw [copyToUser.eq_2 _ _ _ hbs]
    exact copyBytes_ret_or_fault bs m dest

/-! ## Paths -/

variable {m : Memory} {addr : ℕ} {path : List Byte}

/-- The path of a call passes the check of its address, and `strlen` comes to its end. -/
structure PathOk (m : Memory) (addr : ℕ) (path : List Byte) : Prop where
  address : checkAddress addr 1 = true
  string : m.strlen addr path ≠ none

lemma strlen_eq_none_iff :
    m.strlen addr path = none ↔ ∃ i < path.length + 1, m.present (addr + i) = false := by
  unfold strlen
  split_ifs with hall
  · simpa using hall
  · simpa using hall

lemma PathOk.of_present (haddr : checkAddress addr 1 = true)
    (h : ∀ i ≤ path.length, m.present (addr + i) = true) : m.PathOk addr path := by
  refine ⟨haddr, fun hnone => ?_⟩
  obtain ⟨i, hi, hp⟩ := strlen_eq_none_iff.mp hnone
  rw [h i (by omega)] at hp
  cases hp

end Memory

/-! ## File system routines -/

namespace Screen

lemma writeBlocks_ends (m : Memory) (buffer size : ℕ) (n : ℕ) :
    ∀ (i : ℕ) (sc : Screen), (writeBlocks m buffer size n i sc).Ends (fun _ => True) := by
  induction n with
  | zero =>
    intro i sc
    rw [writeBlocks]
    split_ifs
    · split <;> trivial
    · trivial
  | succ n ih =>
    intro i sc
    rw [writeBlocks]
    split
    · trivial
    · exact ih _ _

end Screen

namespace FileSystem

lemma balloc_error {fs : FileSystem} {n : ℤ} {r : Stop} (h : fs.balloc n = .error r) :
    r = .diverge := by
  unfold balloc at h
  split_ifs at h
  simp only at h
  split at h
  · simpa using h.symm
  · split_ifs at h

lemma freeb_error {fs : FileSystem} {i : ℤ} {r : Stop} (h : fs.freeb i = .error r) :
    r = .diverge := by
  unfold freeb at h
  split_ifs at h
  split at h
  · simpa using h.symm
  · simp at h

lemma growFile_error {fs : FileSystem} {f : FileId} {a b : ℤ} {r : Stop}
    (h : fs.growFile f a b = .error r) : r = .diverge := by
  unfold growFile at h
  split_ifs at h
  split at h
  · next hb =>
    simp only [Except.error.injEq] at h
    exact h ▸ balloc_error hb
  · split_ifs at h

lemma writeLoop_ends (m : Memory) (v : FdtId) (f : FileId) (buffer : ℕ) (n : ℕ) :
    ∀ (i : ℕ) (a b : ℤ) (fs : FileSystem),
      (writeLoop m v f buffer n i a b fs).Ends (fun _ => True) := by
  induction n with
  | zero =>
    intro i a b fs
    trivial
  | succ n ih =>
    intro i a b fs
    rw [writeLoop]
    split
    · next hg =>
      rw [growFile_error hg]
      simp [Outcome.Ends]
    · trivial
    · simp only
      split_ifs
      · exact ih _ _ _ _
      · simp [Outcome.Ends]
      · trivial

lemma sysWriteFile_ends (fs : FileSystem) (m : Memory) (v : FdtId) (f : FileId)
    (buffer size : ℕ) : (fs.sysWriteFile m v f buffer size).Ends (fun _ => True) := by
  unfold sysWriteFile
  split
  · simp [Outcome.Ends]
  · exact writeLoop_ends ..

lemma createFile_error {fs : FileSystem} {path : List Byte} {r : Stop}
    (h : fs.createFile path = .error r) : r = .diverge := by
  unfold createFile at h
  split at h
  · simp at h
  · split_ifs at h
    split at h
    · next hb =>
      simp only [Except.error.injEq] at h
      exact h ▸ balloc_error hb
    · split_ifs at h

lemma sysOpen_error {fs : FileSystem} {fds : Descriptors} {path : List Byte} {flags : ℤ} {r : Stop}
    (h : fs.sysOpen fds path flags = .error r) : r = .diverge ∨ r = .errorPointer := by
  unfold sysOpen at h
  repeat' split at h
  all_goals try contradiction
  · next hc =>
    simp only [Except.error.injEq] at h
    exact .inl (h ▸ createFile_error hc)
  · simp only [Except.error.injEq] at h
    exact .inr h.symm

lemma sysClose_error {fs : FileSystem} {fds : Descriptors} {fd : ℤ} {r : Stop}
    (h : fs.sysClose fds fd = .error r) : r = .nullPointer := by
  unfold sysClose at h
  split_ifs at h
  simp only at h
  split at h
  · simp at h
  · split at h
    · simpa using h.symm
    · simp at h

lemma sysUnlink_error {fs : FileSystem} {path : List Byte} {r : Stop}
    (h : fs.sysUnlink path = .error r) : r = .diverge := by
  unfold sysUnlink at h
  split_ifs at h
  split at h
  · simp at h
  · split_ifs at h
    simp only at h
    split at h
    · next hrel =>
      simp only [Except.error.injEq] at h
      subst h
      split at hrel
      · simp at hrel
      · unfold sysReleaseFile at hrel
        split at hrel
        · next hf =>
          simp only [Except.error.injEq] at hrel
          exact hrel ▸ freeb_error hf
        · simp at hrel
    · simp at h

lemma samePages_readLoop (v : FdtId) (f : FileId) (buffer size : ℕ) (n : ℕ) :
    ∀ (i : ℕ) (block0 byte0 : ℤ) (st : FileSystem × Memory),
      (readLoop v f buffer size n i block0 byte0 st).Ends (fun u => SamePages st.2 u.2) := by
  induction n with
  | zero =>
    intro i block0 byte0 st
    exact .refl st.2
  | succ n ih =>
    rintro i block0 byte0 ⟨fs, m⟩
    simp only [readLoop]
    split_ifs
    all_goals first
      | exact SamePages.refl m
      | exact (ih _ _ _ _).imp (fun u hu => (m.samePages_store (by assumption) _).trans hu)

end FileSystem

/-! ## Quiet routines -/

namespace Kernel

lemma quiet_enter (s : Kernel) (regs : SavedRegs) : Quiet s (s.enter regs) :=
  .updTask s s.cur _ rfl rfl rfl

lemma quiet_setEax (s : Kernel) (r : ℤ) : Quiet s (s.setEax r) :=
  .updTask s s.cur _ rfl rfl rfl

lemma quiet_printFault (s : Kernel) : Quiet s s.printFault := .other rfl rfl rfl rfl rfl rfl

lemma quiet_withFiles (s : Kernel) (fs : FileSystem) (fds : FileSystem.Descriptors) :
    Quiet s (s.withFiles fs fds) := by
  have h : Quiet s { s with fs := fs } := .other rfl rfl rfl rfl rfl rfl
  exact h.trans (.updTask _ s.cur _ rfl rfl rfl)

lemma quiet_sysWrite (s : Kernel) (fd : ℤ) (buffer : ℕ) (size : ℤ) :
    (s.sysWrite fd buffer size).Ends (Quiet s) := by
  have hsc : ∀ sc : Screen, Quiet s { s with screen := sc } :=
    fun sc => .other rfl rfl rfl rfl rfl rfl
  have hfs : ∀ fs : FileSystem, Quiet s { s with fs := fs } :=
    fun fs => .other rfl rfl rfl rfl rfl rfl
  unfold sysWrite
  split
  · exact Quiet.refl s
  · split_ifs
    all_goals try exact Quiet.refl s
    split
    · simp [Outcome.Ends]
    · split
      · exact Quiet.refl s
      · exact (Screen.writeBlocks_ends ..).lift (fun sc _ => hsc sc)
      · exact (FileSystem.sysWriteFile_ends ..).lift (fun fs _ => hfs fs)

lemma quiet_sysGetStats (s : Kernel) (spid : ℤ) (st : ℕ) (beyond : Task) :
    (s.sysGetStats spid st beyond).Ends (Quiet s) := by
  have hmm : ∀ mm, SamePages s.mm mm → Quiet s { s with mm := mm } :=
    fun mm h => ⟨.other rfl rfl rfl rfl rfl, h⟩
  unfold sysGetStats
  split_ifs
  all_goals try exact Quiet.refl s
  exact (Memory.samePages_copyToUser ..).lift hmm

lemma quiet_sysNice (s : Kernel) (quantum : ℤ) : Quiet s (s.sysNice quantum).2 := by
  unfold sysNice
  split_ifs
  · exact .updTask s s.cur (fun k => { k with quantum := quantum }) rfl rfl rfl
  · exact .refl s

lemma sysOpen_of_pathOk {s : Kernel} {addr : ℕ} {path : List Byte} (h : s.mm.PathOk addr path)
    (flags : ℤ) : s.sysOpen addr path flags =
      match s.fs.sysOpen s.current.fileDescriptors path flags with
      | .error r => .stop r
      | .ok (fd, fs, fds) => .ret fd (s.withFiles fs fds) := by
  obtain ⟨n, hn⟩ := Option.ne_none_iff_exists'.mp h.string
  rw [sysOpen, h.address, hn]
  rfl

/-- `sys_open` is refused, faults on its path, or is the call of the file system. -/
lemma sysOpen_cases (s : Kernel) (addr : ℕ) (path : List Byte) (flags : ℤ) :
    (Memory.checkAddress addr 1 = false ∧ s.sysOpen addr path flags = .ret (-eFault) s) ∨
    (Memory.checkAddress addr 1 = true ∧ s.mm.strlen addr path = none ∧
      s.sysOpen addr path flags = .fault s) ∨
    (s.mm.PathOk addr path ∧
      ((∃ r, s.fs.sysOpen s.current.fileDescriptors path flags = .error r ∧
        s.sysOpen addr path flags = .stop r) ∨
      ∃ r fs fds, s.fs.sysOpen s.current.fileDescriptors path flags = .ok (r, fs, fds) ∧
        s.sysOpen addr path flags = .ret r (s.withFiles fs fds))) := by
  by_cases haddr : Memory.checkAddress addr 1 = true
  · by_cases hlen : s.mm.strlen addr path = none
    · refine .inr (.inl ⟨haddr, hlen, ?_⟩)
      rw [sysOpen, haddr, hlen]
      rfl
    · refine .inr (.inr ⟨⟨haddr, hlen⟩, ?_⟩)
      rw [sysOpen_of_pathOk ⟨haddr, hlen⟩]
      cases s.fs.sysOpen s.current.fileDescriptors path flags with
      | error r => exact .inl ⟨r, rfl, rfl⟩
      | ok p => exact .inr ⟨p.1, p.2.1, p.2.2, rfl, rfl⟩
  · rw [Bool.not_eq_true] at haddr
    refine .inl ⟨haddr, ?_⟩
    rw [sysOpen, haddr]
    rfl

/-- A close changes the file system and the descriptors of its process. -/
lemma sysClose_ok {s t : Kernel} {fd r : ℤ} (h : s.sysClose fd = .ok (r, t)) :
    ∃ fs fds, t = s.withFiles fs fds := by
  unfold sysClose at h
  split at h
  · simp at h
  · simp only [Except.ok.injEq, Prod.mk.injEq] at h
    exact ⟨_, _, h.2.symm⟩

lemma sysUnlink_of_pathOk {s : Kernel} {addr : ℕ} {path : List Byte} (h : s.mm.PathOk addr path) :
    s.sysUnlink addr path =
      match s.fs.sysUnlink path with
      | .error r => .stop r
      | .ok (r, fs) => .ret r { s with fs := fs } := by
  obtain ⟨n, hn⟩ := Option.ne_none_iff_exists'.mp h.string
  rw [sysUnlink, h.address, hn]
  rfl

/-- `sys_unlink` ends in the same ways, with no descriptors to change. -/
lemma sysUnlink_cases (s : Kernel) (addr : ℕ) (path : List Byte) :
    (Memory.checkAddress addr 1 = false ∧ s.sysUnlink addr path = .ret (-eFault) s) ∨
    (Memory.checkAddress addr 1 = true ∧ s.mm.strlen addr path = none ∧
      s.sysUnlink addr path = .fault s) ∨
    (s.mm.PathOk addr path ∧
      ((∃ r, s.fs.sysUnlink path = .error r ∧ s.sysUnlink addr path = .stop r) ∨
      ∃ r fs, s.fs.sysUnlink path = .ok (r, fs) ∧
        s.sysUnlink addr path = .ret r { s with fs := fs })) := by
  by_cases haddr : Memory.checkAddress addr 1 = true
  · by_cases hlen : s.mm.strlen addr path = none
    · refine .inr (.inl ⟨haddr, hlen, ?_⟩)
      rw [sysUnlink, haddr, hlen]
      rfl
    · refine .inr (.inr ⟨⟨haddr, hlen⟩, ?_⟩)
      rw [sysUnlink_of_pathOk ⟨haddr, hlen⟩]
      cases s.fs.sysUnlink path with
      | error r => exact .inl ⟨r, rfl, rfl⟩
      | ok p => exact .inr ⟨p.1, p.2, rfl, rfl⟩
  · rw [Bool.not_eq_true] at haddr
    refine .inl ⟨haddr, ?_⟩
    rw [sysUnlink, haddr]
    rfl

/-- A fault on the path comes before anything changes. -/
lemma sysOpen_eq_fault {s t : Kernel} {addr : ℕ} {path : List Byte} {flags : ℤ}
    (h : s.sysOpen addr path flags = .fault t) : t = s ∧ s.mm.strlen addr path = none := by
  rcases s.sysOpen_cases addr path flags with ⟨-, ho⟩ | ⟨-, hlen, ho⟩ | ⟨-, ⟨r, -, ho⟩ | ⟨r, fs, fds, -, ho⟩⟩
  · simp [ho] at h
  · rw [ho, Outcome.fault.injEq] at h
    exact ⟨h.symm, hlen⟩
  · simp [ho] at h
  · simp [ho] at h

lemma sysUnlink_eq_fault {s t : Kernel} {addr : ℕ} {path : List Byte}
    (h : s.sysUnlink addr path = .fault t) : t = s ∧ s.mm.strlen addr path = none := by
  rcases s.sysUnlink_cases addr path with ⟨-, hu⟩ | ⟨-, hlen, hu⟩ | ⟨-, ⟨r, -, hu⟩ | ⟨r, fs, -, hu⟩⟩
  · simp [hu] at h
  · rw [hu, Outcome.fault.injEq] at h
    exact ⟨h.symm, hlen⟩
  · simp [hu] at h
  · simp [hu] at h

lemma quiet_sysOpen (s : Kernel) (addr : ℕ) (path : List Byte) (flags : ℤ) :
    (s.sysOpen addr path flags).Ends (Quiet s) := by
  rcases s.sysOpen_cases addr path flags with ⟨-, h⟩ | ⟨-, -, h⟩ | ⟨-, ⟨r, ho, h⟩ | ⟨r, fs, fds, -, h⟩⟩
  · rw [h]
    exact Quiet.refl s
  · rw [h]
    exact Quiet.refl s
  · rw [h]
    rcases FileSystem.sysOpen_error ho with rfl | rfl <;> simp [Outcome.Ends]
  · rw [h]
    exact quiet_withFiles ..

lemma quiet_sysClose {s t : Kernel} {fd r : ℤ} (h : s.sysClose fd = .ok (r, t)) : Quiet s t := by
  obtain ⟨fs, fds, rfl⟩ := sysClose_ok h
  exact quiet_withFiles ..

lemma quiet_sysDup (s : Kernel) (fd : ℤ) : Quiet s (s.sysDup fd).2 := quiet_withFiles ..

lemma quiet_sysUnlink (s : Kernel) (addr : ℕ) (path : List Byte) :
    (s.sysUnlink addr path).Ends (Quiet s) := by
  rcases s.sysUnlink_cases addr path with ⟨-, h⟩ | ⟨-, -, h⟩ | ⟨-, ⟨r, hu, h⟩ | ⟨r, fs, -, h⟩⟩
  · rw [h]
    exact Quiet.refl s
  · rw [h]
    exact Quiet.refl s
  · rw [h, FileSystem.sysUnlink_error hu]
    simp [Outcome.Ends]
  · rw [h]
    exact Quiet.other rfl rfl rfl rfl rfl rfl

/-! ### How a step ends

A step comes to `sys_exit` in the system call itself and in the page fault handler, and in no other
way; it ends where the routine returns or hands the processor over. -/

section

variable {s t : Kernel} {cause c : ExitCause}

lemma pageFaultRoutine_ne_done : s.pageFaultRoutine c ≠ .done t := by
  unfold pageFaultRoutine
  split_ifs <;> simp

lemma pageFaultRoutine_eq_exits (h : s.pageFaultRoutine c = .exits cause t) :
    s.current.pid ≠ 0 ∧ t = s.printFault := by
  unfold pageFaultRoutine at h
  split_ifs at h with hpid
  rw [Phase.exits.injEq] at h
  exact ⟨hpid, h.2.symm⟩

lemma finish_eq_exits {o : Outcome Kernel ℤ} (h : finish o = .exits cause t) :
    ∃ u, o = .fault u ∧ u.pageFaultRoutine .kernelFault = .exits cause t := by
  cases o with
  | fault u => exact ⟨u, rfl, h⟩
  | ret r u => simp [finish] at h
  | switched u => simp [finish] at h
  | stop r => simp [finish] at h

lemma finish_eq_done {o : Outcome Kernel ℤ} (h : finish o = .done t) :
    (∃ r u, o = .ret r u ∧ t = u.setEax r) ∨ o = .switched t := by
  cases o with
  | ret r u => exact .inl ⟨r, u, rfl, (Phase.done.inj h).symm⟩
  | switched u => exact .inr (congrArg _ (Phase.done.inj h))
  | fault u => exact absurd h pageFaultRoutine_ne_done
  | stop r => simp [finish] at h

lemma finishInt_eq_exits {o : Outcome Kernel Unit} (h : finishInt o = .exits cause t) :
    ∃ u, o = .fault u ∧ u.pageFaultRoutine .kernelFault = .exits cause t := by
  cases o with
  | fault u => exact ⟨u, rfl, h⟩
  | ret r u => simp [finishInt] at h
  | switched u => simp [finishInt] at h
  | stop r => simp [finishInt] at h

lemma finishInt_eq_done {o : Outcome Kernel Unit} (h : finishInt o = .done t) :
    o = .ret () t ∨ o = .switched t := by
  cases o with
  | ret r u => exact .inl (congrArg _ (Phase.done.inj h))
  | switched u => exact .inr (congrArg _ (Phase.done.inj h))
  | fault u => exact absurd h pageFaultRoutine_ne_done
  | stop r => simp [finishInt] at h

lemma finishExcept_ne_exits (o : Except Stop (ℤ × Kernel)) : finishExcept o ≠ .exits cause t := by
  cases o <;> simp [finishExcept]

lemma finishExcept_eq_done {o : Except Stop (ℤ × Kernel)} (h : finishExcept o = .done t) :
    ∃ r u, o = .ok (r, u) ∧ t = u.setEax r := by
  cases o with
  | ok p => exact ⟨p.1, p.2, rfl, (Phase.done.inj h).symm⟩
  | error r => simp [finishExcept] at h

end

lemma quiet_pageFaultRoutine {s t : Kernel} (h : Quiet s t) (cause : ExitCause) :
    (t.pageFaultRoutine cause).Ends (Quiet s) := by
  unfold pageFaultRoutine
  split_ifs
  · exact h.trans t.quiet_printFault
  · simp [Phase.Ends]

lemma quiet_finish {s : Kernel} {o : Outcome Kernel ℤ} (h : o.Ends (Quiet s)) :
    (finish o).Ends (Quiet s) := by
  cases o with
  | ret r t => exact Quiet.trans h (t.quiet_setEax r)
  | switched t => exact h.elim
  | fault t => exact quiet_pageFaultRoutine h _
  | stop r => exact h

lemma quiet_finishExcept {s : Kernel} {o : Except Stop (ℤ × Kernel)}
    (h : ∀ r t, o = .ok (r, t) → Quiet s t) (herr : ∀ r, o = .error r → r ≠ .notATask) :
    (finishExcept o).Ends (Quiet s) := by
  match o with
  | .ok (r, t) => exact (h r t rfl).trans (t.quiet_setEax r)
  | .error r => exact herr r rfl

lemma quiet_finishOk {s : Kernel} {p : ℤ × Kernel} (h : Quiet s p.2) :
    (finishExcept (.ok p)).Ends (Quiet s) := by
  refine quiet_finishExcept (fun r t ht => ?_) (by simp)
  simp only [Except.ok.injEq] at ht
  rwa [ht] at h

/-- A read from anything but the keyboard is quiet; a read from the keyboard is
`sys_read_keyboard`, after the size and the buffer have been noted. -/
lemma sysRead_cases (s : Kernel) (fd : ℤ) (buffer : ℕ) (size : ℤ) :
    (s.sysRead fd buffer size).Ends (Quiet s) ∨
      0 ≤ size ∧ size ≤ maxSize ∧ s.mm.accessOk 0 buffer size = true ∧
        s.sysRead fd buffer size =
          (s.updTask s.cur fun k => { k with size := size, buffer := buffer }).sysReadKeyboard
            size := by
  unfold sysRead
  split
  · exact .inl (.refl s)
  · split_ifs with h1 h2 h3 h4
    all_goals try exact .inl (Quiet.refl s)
    simp only
    have hq : Quiet s (s.updTask s.cur fun k => { k with size := size, buffer := buffer }) :=
      .updTask s s.cur _ rfl rfl rfl
    split
    · exact .inl (by simp [Outcome.Ends])
    · split
      · exact .inl hq
      · exact .inr ⟨by omega, by omega, by simpa using h4, rfl⟩
      · refine .inl ((FileSystem.samePages_readLoop ..).lift ?_)
        intro st hst
        exact ⟨hq.sched.trans (.other rfl rfl rfl rfl rfl), hst⟩

/-- The actions that the scheduler and the page table do not see, up to `sys_exit`. -/
def QuietAction : Action → Prop
  | .read .. | .fork | .semInit .. | .semWait _ | .semSignal _ | .semDestroy _ | .clock
  | .key .. => False
  | _ => True

lemma quiet_dispatch (s : Kernel) (e : Event) (h : QuietAction e.act) :
    (s.dispatch e).Ends (Quiet s) := by
  have henter := s.quiet_enter e.regs
  unfold dispatch
  cases hact : e.act with
  | write fd buffer size =>
    exact quiet_finish ((quiet_sysWrite ..).imp (fun t ht => henter.trans ht))
  | «open» addr path flags =>
    exact quiet_finish ((quiet_sysOpen ..).imp (fun t ht => henter.trans ht))
  | close fd =>
    refine quiet_finishExcept (fun r t ht => henter.trans (quiet_sysClose ht)) ?_
    intro r hr
    unfold sysClose at hr
    split at hr
    · next hf =>
      simp only [Except.error.injEq] at hr
      simp [← hr, FileSystem.sysClose_error hf]
    · simp at hr
  | dup fd => exact quiet_finishOk (henter.trans (quiet_sysDup ..))
  | unlink addr path =>
    exact quiet_finish ((quiet_sysUnlink ..).imp (fun t ht => henter.trans ht))
  | getpid => exact quiet_finishOk henter
  | exit eax => exact henter
  | nice quantum => exact quiet_finishOk (henter.trans (quiet_sysNice ..))
  | getStats spid st beyond =>
    exact quiet_finish ((quiet_sysGetStats ..).imp (fun t ht => henter.trans ht))
  | niSyscall => exact quiet_finishOk henter
  | store addr b =>
    simp only
    split_ifs with hw
    · rw [Memory.userWritable, Bool.and_eq_true, Bool.and_eq_true] at hw
      exact ⟨.other rfl rfl rfl rfl rfl, s.mm.samePages_store hw.1.1 b⟩
    · exact quiet_pageFaultRoutine (.refl s) _
  | pageFault => exact quiet_pageFaultRoutine (.refl s) _
  | read | fork | semInit | semWait | semSignal | semDestroy | clock | key =>
    rw [hact] at h
    exact h.elim

/-! ## The context switch -/

lemma taskSwitch_task (s : Kernel) (t u : Slot) :
    (s.taskSwitch t).task u =
      if u = t then { s.task u with
        transitions := (s.task u).transitions + 1, remaining := (s.task u).quantum }
      else s.task u := by
  simp only [taskSwitch, updTask, Function.update_apply]
  split_ifs with h
  · subst h
    simp
  · rfl

@[simp] lemma taskSwitch_links (s : Kernel) (t : Slot) : (s.taskSwitch t).links = s.links := rfl

@[simp] lemma taskSwitch_sem (s : Kernel) (t : Slot) : (s.taskSwitch t).sem = s.sem := rfl

@[simp] lemma taskSwitch_cur (s : Kernel) (t : Slot) : (s.taskSwitch t).cur = t := rfl

@[simp] lemma taskSwitch_counter (s : Kernel) (t : Slot) : (s.taskSwitch t).pid = s.pid := rfl

@[simp] lemma taskSwitch_fs (s : Kernel) (t : Slot) : (s.taskSwitch t).fs = s.fs := rfl

@[simp] lemma taskSwitch_kbd (s : Kernel) (t : Slot) : (s.taskSwitch t).kbd = s.kbd := rfl

@[simp] lemma taskSwitch_task_pid (s : Kernel) (t u : Slot) :
    ((s.taskSwitch t).task u).pid = (s.task u).pid := by
  rw [taskSwitch_task]
  split_ifs <;> rfl

@[simp] lemma taskSwitch_task_ownedSems (s : Kernel) (t u : Slot) :
    ((s.taskSwitch t).task u).ownedSems = (s.task u).ownedSems := by
  rw [taskSwitch_task]
  split_ifs <;> rfl

@[simp] lemma taskSwitch_task_phPages (s : Kernel) (t u : Slot) :
    ((s.taskSwitch t).task u).phPages = (s.task u).phPages := by
  rw [taskSwitch_task]
  split_ifs <;> rfl

@[simp] lemma taskSwitch_task_stack (s : Kernel) (t u : Slot) :
    ((s.taskSwitch t).task u).stack = (s.task u).stack := by
  rw [taskSwitch_task]
  split_ifs <;> rfl

@[simp] lemma taskSwitch_task_fileDescriptors (s : Kernel) (t u : Slot) :
    ((s.taskSwitch t).task u).fileDescriptors = (s.task u).fileDescriptors := by
  rw [taskSwitch_task]
  split_ifs <;> rfl

end Kernel

end ZeOS
