import ZeOS.Directory
import ZeOS.UserPointers

/-!
# The errors and the flags of `sys_open`

`sys_open` reads its flags by comparing and subtracting the whole word, and it takes the errors of
`create_file` for pointers: `file < 0` compares an address, so it never holds.  Everything before
`create_file` fails without a trace, and `create_file` itself changes nothing when it fails, so the
call is clean just when it does not come to an error of `create_file` (`open_fails_cleanly_iff`).

The flags 8 to 11, `O_EXCL` without `O_CREAT`, pass for a request to create a file, and what is
subtracted from them leaves no access mode.  `sys_read` refuses the mode `O_WRONLY` alone and
`sys_write` the mode `O_RDONLY` alone, so a descriptor whose flags ask for neither is good for both.
-/

namespace ZeOS

open FileSystem LinkChain GuardedRun

namespace FileSystem

variable {fs : FileSystem} {fds : Descriptors} {path : List Byte} {flags : ℤ}

lemma PointsToError.sysOpen_eq (h : fs.PointsToError fds path flags)
    (hffb : fs.ffb = -1 ∨ 0 ≤ fs.ffb) : fs.sysOpen fds path flags = .error .errorPointer := by
  obtain ⟨v, hv⟩ := Option.isSome_iff_exists.mp h.comes.fdt
  obtain ⟨fd, hfd⟩ := Option.isSome_iff_exists.mp h.comes.fd
  rw [h.comes.sysOpen_eq hv hfd, h.missing]
  rcases fs.createFile_cases hffb path with ⟨-, code, -, hcode⟩ | ⟨i, hi, hlen, hne, -⟩
  · simp only [if_neg (Int.not_lt.mpr h.creat), hcode]
  · rcases h.refused with hnone | hlong | hnone
    · exact absurd (hnone.symm.trans hi) (by simp)
    · exact absurd hlong (Nat.not_lt.mpr hlen)
    · exact absurd hnone hne

end FileSystem

/-! ## Clean errors -/

namespace Kernel

variable {s : Kernel} {addr : ℕ} {path : List Byte} {flags : ℤ}

/-- `sys_open` returns a descriptor, or a negative code with the file tables and all descriptors as
they were; what `create_file` reports is what it returns. -/
structure OpenIsClean (s : Kernel) (addr : ℕ) (path : List Byte) (flags : ℤ) : Prop where
  ends : ∃ r t, s.sysOpen addr path flags = .ret r t ∧
    (0 ≤ r ∨ r < 0 ∧ t.fs = s.fs ∧ t.fds = s.fds)
  reports : ∀ code fs', Memory.checkAddress addr 1 = true →
    s.fs.ComesToLookup (s.fds s.cur) path flags → s.fs.lookup path = none → oCreat ≤ flags →
    s.fs.createFile path = .ok (.error code, fs') → ∃ t, s.sysOpen addr path flags = .ret code t

lemma withFiles_self (s : Kernel) :
    (s.withFiles s.fs (s.fds s.cur)).fs = s.fs ∧ (s.withFiles s.fs (s.fds s.cur)).fds = s.fds := by
  rw [fds_withFiles, Function.update_eq_self]
  exact ⟨rfl, rfl⟩

lemma openIsClean_iff (hok : s.TableOk) :
    s.OpenIsClean addr path flags ↔
      ¬ (Memory.checkAddress addr 1 = true ∧ (s.mm.strlen addr path = none ∨
        s.fs.PointsToError (s.fds s.cur) path flags)) := by
  obtain ⟨C, hC⟩ := hok
  constructor
  · rintro ⟨⟨r, t, hopen, -⟩, -⟩ ⟨haddr, hbad⟩
    by_cases hlen : s.mm.strlen addr path = none
    · rw [sysOpen, if_neg (by simp [haddr]), hlen] at hopen
      cases hopen
    · have hpoints := hbad.resolve_left hlen
      rw [sysOpen_of_pathOk ⟨haddr, hlen⟩, hpoints.sysOpen_eq hC.ffb_cases] at hopen
      cases hopen
  · intro hno
    by_cases haddr : Memory.checkAddress addr 1 = true
    · have hpath : s.mm.PathOk addr path := ⟨haddr, fun h => hno ⟨haddr, .inl h⟩⟩
      have hnot : ¬ s.fs.PointsToError (s.fds s.cur) path flags := fun h => hno ⟨haddr, .inr h⟩
      constructor
      · rw [sysOpen_of_pathOk hpath]
        rcases s.fs.sysOpen_cases hC.ffb_cases (s.fds s.cur) path flags with ⟨code, hneg, ho⟩ |
          ⟨hpoints, -⟩ | ⟨v, fd, -, -, ⟨f, mode, -, ho⟩ | ⟨f, mode, -, ho⟩⟩
        · exact ⟨code, _, by rw [ho], .inr ⟨hneg, s.withFiles_self⟩⟩
        · exact absurd hpoints hnot
        · exact ⟨fd.val, _, by rw [ho], .inl (Int.natCast_nonneg _)⟩
        · exact ⟨fd.val, _, by rw [ho], .inl (Int.natCast_nonneg _)⟩
      · intro code fs' _ hcomes hlook hcreat hc
        rcases s.fs.createFile_cases hC.ffb_cases path with ⟨hrefused, -⟩ | ⟨i, -, -, -, hc'⟩
        · exact absurd ⟨hcomes, hlook, hcreat, hrefused⟩ hnot
        · simp [hc] at hc'
    · refine ⟨⟨-eFault, s, ?_, .inr ⟨by decide, rfl, rfl⟩⟩, fun _ _ h => absurd h haddr⟩
      rw [sysOpen, if_pos (by simpa using haddr)]

end Kernel

/-- **When `sys_open` fails cleanly.**  In every state that a run comes to, for every address, path
and flags, the call returns a descriptor or a negative code that leaves the tables and all
descriptors as they were, just when its address is refused, or the path can be read up to its end
and the call is not a request for a new file that passes the checks of `sys_open` while the
directory is full, the name has `MAX_NAME_LENGTH` bytes or no block is free.  A path in user space
can be read. -/
theorem open_fails_cleanly_iff (E : Env) {es : List Event} {s : Kernel} (h : AnyRun E.boot es s)
    (addr : ℕ) (path : List Byte) (flags : ℤ) :
    (s.OpenIsClean addr path flags ↔
      ¬ (Memory.checkAddress addr 1 = true ∧ (s.mm.strlen addr path = none ∨
        s.fs.PointsToError (s.fds s.cur) path flags))) ∧
    (lUserStart ≤ addr → addr + path.length < userEnd → s.mm.strlen addr path ≠ none) :=
  ⟨Kernel.openIsClean_iff (h.invariant (fun _ _ _ hok _ hst => hok.step hst) E.boot_tableOk),
    fun hlo hend => (h.userMapped.pathOk hlo hend).string⟩

/-- A new file with a short name, right after boot. -/
theorem open_fails_cleanly_iff_short_name :
    zeroEnv.boot.OpenIsClean lUserStart nameF (oCreat + oRdwr) := by
  obtain ⟨hiff, hread⟩ :=
    open_fails_cleanly_iff zeroEnv (.nil _) lUserStart nameF (oCreat + oRdwr)
  refine hiff.mpr ?_
  rintro ⟨-, hfault | hpoints⟩
  · exact hread le_rfl (by decide) hfault
  rcases hpoints.refused with hfull | hlong | hnone
  · exact absurd hfull (by decide)
  · exact absurd hlong (by decide)
  · exact absurd hnone (by decide)

/-- A new file with a name of ten characters: the length is right for `sys_open`, too long for
`create_file`, and `-ENAMETOOLONG` is used as a pointer. -/
theorem ten_character_name_used_as_pointer :
    zeroEnv.boot.sysOpen lUserStart (List.replicate 10 97) (oCreat + oRdwr) = .stop .errorPointer ∧
      ¬ zeroEnv.boot.OpenIsClean lUserStart (List.replicate 10 97) (oCreat + oRdwr) := by
  have hpoints : zeroEnv.boot.fs.PointsToError (zeroEnv.boot.fds zeroEnv.boot.cur)
      (List.replicate 10 97) (oCreat + oRdwr) :=
    ⟨⟨by decide, by decide, by decide, by decide, by decide⟩, by decide, by decide,
      .inr (.inl (by decide))⟩
  have hopen : zeroEnv.boot.sysOpen lUserStart (List.replicate 10 97) (oCreat + oRdwr) =
      .stop .errorPointer := by
    have hpath : zeroEnv.boot.mm.PathOk lUserStart (List.replicate 10 97) :=
      zeroEnv.boot_userMapped.pathOk le_rfl (by decide)
    rw [Kernel.sysOpen_of_pathOk hpath, ← Kernel.fds, hpoints.sysOpen_eq (.inr (by decide))]
  refine ⟨hopen, ?_⟩
  rintro ⟨⟨r, t, hok, -⟩, -⟩
  rw [hopen] at hok
  simp at hok

/-! ## Flags -/

/-- A bit is set in the flags of an open. -/
def HasFlag (flags flag : ℤ) : Prop := flags.toNat &&& flag.toNat ≠ 0

instance (flags flag : ℤ) : Decidable (HasFlag flags flag) :=
  inferInstanceAs (Decidable (_ ≠ _))

/-- `flags & O_RDWR`. -/
def accessBits (flags : ℤ) : ℤ := (flags.toNat &&& oRdwr.toNat : ℕ)

/-- The bits of the flags that `sys_open` accepts, as the code could read them. -/
structure FlagBits (flags : ℤ) : Prop where
  creat : HasFlag flags oCreat ↔ 4 ≤ flags % 8
  excl : HasFlag flags oExcl ↔ 8 ≤ flags
  rdonly : HasFlag flags oRdonly ↔ flags % 2 = 1
  wronly : HasFlag flags oWronly ↔ 2 ≤ flags % 4
  access : accessBits flags = flags % 4

lemma flagBits {flags : ℤ} (h0 : 0 ≤ flags) (hle : flags ≤ 0xF) : FlagBits flags := by
  obtain ⟨n, rfl⟩ : ∃ n : Fin 16, flags = (n.val : ℤ) := by
    refine ⟨⟨flags.toNat, by omega⟩, ?_⟩
    show flags = (flags.toNat : ℤ)
    omega
  have hbits : ∀ n : Fin 16, (HasFlag n.val oCreat ↔ 4 ≤ (n.val : ℤ) % 8) ∧
      (HasFlag n.val oExcl ↔ 8 ≤ (n.val : ℤ)) ∧ (HasFlag n.val oRdonly ↔ (n.val : ℤ) % 2 = 1) ∧
      (HasFlag n.val oWronly ↔ 2 ≤ (n.val : ℤ) % 4) ∧ accessBits n.val = (n.val : ℤ) % 4 := by
    decide
  obtain ⟨h₁, h₂, h₃, h₄, h₅⟩ := hbits n
  exact ⟨h₁, h₂, h₃, h₄, h₅⟩

namespace FileSystem

variable {fs fs' : FileSystem} {C : Option FileId → List ℤ} {fds : Descriptors} {path : List Byte}
  {flags : ℤ}

/-- A file that is created has the head of the free list for its block. -/
lemma CreatesFile.firstBlock {f : FileId} (h : fs.CreatesFile path f fs') :
    fs'.IsRegular f ∧ (fs'.dir f).firstBlock = fs.ffb := by
  obtain ⟨v, mode, rfl⟩ := h
  constructor
  · simp [IsRegular, opened]
  · simp [opened]

/-- No file is created by a call that keeps the operations and the first blocks. -/
lemma FatOk.not_createsFile (h : FatOk fs C) (fs' : FileSystem) (hops : fs'.ops = fs.ops)
    (hfirst : ∀ f, (fs'.dir f).firstBlock = (fs.dir f).firstBlock) (f : FileId) :
    ¬ fs.CreatesFile path f fs' := by
  intro hnew
  obtain ⟨hreg, hblock⟩ := hnew.firstBlock
  rw [IsRegular, hops] at hreg
  rw [hfirst] at hblock
  -- the head of the free list would be a block of the file
  obtain ⟨b, bs, hbs⟩ := List.exists_cons_of_ne_nil (h.regular f hreg).nonempty
  have hhead := h.chains.chain (some f)
  rw [heads_regular hreg, hbs, hblock] at hhead
  obtain ⟨hb, hne, -⟩ := hhead
  obtain ⟨xs, hxs⟩ := h.free_cons (hb ▸ hne)
  have hfree : b ∈ C none := by simp [hxs, hb]
  have hfile : b ∈ C (some f) := by simp [hbs]
  exact h.chains.disjoint none (some f) (by simp) hfree hfile

/-- `sys_open` reads its flags bit by bit. -/
structure FlagsMean (fs : FileSystem) (fds : Descriptors) (path : List Byte) (flags : ℤ) : Prop where
  creates : (∃ r fs' fds' f, fs.sysOpen fds path flags = .ok (r, fs', fds') ∧
    fs.CreatesFile path f fs') ↔ fs.lookup path = none ∧ HasFlag flags oCreat
  missing : fs.lookup path = none → ¬ HasFlag flags oCreat →
    fs.sysOpen fds path flags = .ok (-eNoent, fs, fds)
  found : (∃ fs' fds', fs.sysOpen fds path flags = .ok (-eExist, fs', fds')) ↔
    fs.lookup path ≠ none ∧ HasFlag flags oCreat ∧ HasFlag flags oExcl
  mode : ∀ (fd : Fd) fs' fds' v, fs.sysOpen fds path flags = .ok ((fd.val : ℤ), fs', fds') →
    fds' fd = some v → (fs'.fdt v).accessMode = accessBits flags

/-- The flags are `O_EXCL` without `O_CREAT`, for a name that is missing or a file that may be read
and written; or a new file is asked for, and `create_file` refuses. -/
def Misreads (fs : FileSystem) (path : List Byte) (flags : ℤ) : Prop :=
  (oExcl ≤ flags ∧ flags < oExcl + oCreat ∧ (fs.lookup path = none ∨
    ∃ f, fs.lookup path = some f ∧ (fs.dir f).accessModeAllow = oRdwr)) ∨
  (fs.lookup path = none ∧ oCreat ≤ flags ∧ fs.CreateRefused path)

/-- A call that returns an error and changes nothing creates no file and gives no descriptor. -/
lemma FatOk.flagsMean_of_error (h : FatOk fs C) {code : ℤ} (hneg : code < 0)
    (ho : fs.sysOpen fds path flags = .ok (code, fs, fds))
    (hnew : ¬ (fs.lookup path = none ∧ HasFlag flags oCreat))
    (hmissing : fs.lookup path = none → code = -eNoent)
    (hfound : code = -eExist ↔ fs.lookup path ≠ none ∧ HasFlag flags oCreat ∧ HasFlag flags oExcl) :
    fs.FlagsMean fds path flags := by
  refine ⟨⟨?_, fun hc => absurd hc hnew⟩, ?_, ?_, ?_⟩
  · rintro ⟨r, fs', fds', f, ho', hc⟩
    rw [ho, Except.ok.injEq, Prod.mk.injEq, Prod.mk.injEq] at ho'
    obtain ⟨-, rfl, -⟩ := ho'
    exact absurd hc (h.not_createsFile _ rfl (fun _ => rfl) f)
  · intro hlook _
    rw [ho, hmissing hlook]
  · rw [← hfound, ho]
    simp
  · intro fd fs' fds' v ho'
    rw [ho, Except.ok.injEq, Prod.mk.injEq] at ho'
    omega

/-- A call that gives out descriptor `fd` for entry `v` with the given mode. -/
lemma flagsMean_of_opened {fd : Fd} {v : FdtId} {mode : ℤ}
    (ho : fs.sysOpen fds path flags = .ok (fd.val, fs', Function.update fds fd (some v)))
    (hmode : (fs'.fdt v).accessMode = mode)
    (hnew : (∃ f, fs.CreatesFile path f fs') ↔ fs.lookup path = none ∧ HasFlag flags oCreat)
    (hfound : ¬ (fs.lookup path ≠ none ∧ HasFlag flags oCreat ∧ HasFlag flags oExcl)) :
    fs.FlagsMean fds path flags ↔
      (fs.lookup path = none → HasFlag flags oCreat) ∧ mode = accessBits flags := by
  have hne : ∀ code : ℤ, code < 0 → (fd.val : ℤ) ≠ code := fun code hneg => by omega
  constructor
  · intro h
    constructor
    · intro hlook
      by_contra hno
      have hmissing := h.missing hlook hno
      rw [ho, Except.ok.injEq, Prod.mk.injEq] at hmissing
      exact hne _ (by decide) hmissing.1
    · rw [← hmode]
      exact h.mode fd _ _ v ho (Function.update_self ..)
  · rintro ⟨hcreat, hbits⟩
    refine ⟨?_, fun hlook hno => absurd (hcreat hlook) hno, ?_, ?_⟩
    · rw [← hnew, ho]
      constructor
      · rintro ⟨r, fs'', fds', f, heq, hc⟩
        rw [Except.ok.injEq, Prod.mk.injEq, Prod.mk.injEq] at heq
        exact ⟨f, heq.2.1 ▸ hc⟩
      · rintro ⟨f, hc⟩
        exact ⟨_, _, _, f, rfl, hc⟩
    · refine iff_of_false ?_ hfound
      rintro ⟨fs'', fds', heq⟩
      rw [ho, Except.ok.injEq, Prod.mk.injEq] at heq
      exact hne _ (by decide) heq.1
    · intro fd' fs'' fds' w heq hw
      rw [ho, Except.ok.injEq, Prod.mk.injEq, Prod.mk.injEq] at heq
      obtain ⟨hfd, rfl, rfl⟩ := heq
      obtain rfl : fd = fd' := Fin.ext (by exact_mod_cast hfd)
      rw [Function.update_self, Option.some.injEq] at hw
      rw [← hw, hmode, hbits]

lemma opened_accessMode (fs : FileSystem) (v : FdtId) (f : FileId) (mode : ℤ) :
    ((fs.opened v f mode).fdt v).accessMode = mode := by
  rw [opened_fdt_self]

/-- The four access modes. -/
def AllowOk (fs : FileSystem) : Prop :=
  ∀ f, 0 ≤ (fs.dir f).accessModeAllow ∧ (fs.dir f).accessModeAllow ≤ oRdwr

/-- A name that no entry has. -/
lemma FatOk.flagsMean_missing (h : FatOk fs C) (hcomes : fs.ComesToLookup fds path flags)
    (hlook : fs.lookup path = none) : fs.FlagsMean fds path flags ↔ ¬ fs.Misreads path flags := by
  obtain ⟨v, hv⟩ := Option.isSome_iff_exists.mp hcomes.fdt
  obtain ⟨fd, hfd⟩ := Option.isSome_iff_exists.mp hcomes.fd
  have hbits := flagBits hcomes.flags_nonneg hcomes.flags_le
  have h0 := hcomes.flags_nonneg
  have hle := hcomes.flags_le
  have hmis : fs.Misreads path flags ↔
      (8 ≤ flags ∧ flags < 12) ∨ (4 ≤ flags ∧ fs.CreateRefused path) := by
    simp only [Misreads, hlook, true_or, and_true, true_and]
    exact .rfl
  rw [hmis]
  by_cases hcreat : flags < oCreat
  · -- nothing is created
    have hno : ¬ HasFlag flags oCreat := by
      rw [hbits.creat]
      change flags < 4 at hcreat
      omega
    have ho : fs.sysOpen fds path flags = .ok (-eNoent, fs, fds) := by
      rw [hcomes.sysOpen_eq hv hfd, hlook]
      simp only [if_pos hcreat]
    refine iff_of_true ?_ ?_
    · refine h.flagsMean_of_error (by decide) ho (fun hc => hno hc.2) (fun _ => rfl) ?_
      exact iff_of_false (by decide) (fun hc => hno hc.2.1)
    · change flags < 4 at hcreat
      rintro (⟨h8, -⟩ | ⟨h4, -⟩) <;> omega
  · have h4 : 4 ≤ flags := Int.not_lt.mp hcreat
    by_cases hrefused : fs.CreateRefused path
    · -- the error of `create_file` is used as a pointer
      have hpoints : fs.PointsToError fds path flags := ⟨hcomes, hlook, h4, hrefused⟩
      have ho := hpoints.sysOpen_eq h.ffb_cases
      refine iff_of_false (fun hmean => ?_) (not_not_intro (.inr ⟨h4, hrefused⟩))
      by_cases hflag : HasFlag flags oCreat
      · obtain ⟨r, fs', fds', f, heq, -⟩ := hmean.creates.mpr ⟨hlook, hflag⟩
        simp [ho] at heq
      · have heq := hmean.missing hlook hflag
        simp [ho] at heq
    · obtain ⟨i, hi, hlen, hne, -⟩ := (fs.createFile_cases h.ffb_cases path).resolve_left
        (fun hr => hrefused hr.1)
      have hnew : fs.CreatesEntry path flags i
          ((if flags ≥ oExcl then flags - oExcl else flags) - oCreat) :=
        ⟨hlen, hlook, hi, hne, h4, hle, rfl⟩
      have ho := hnew.sysOpen (h.ffb_cases.resolve_left hne) hv hfd
      by_cases hflag : HasFlag flags oCreat
      · rw [flagsMean_of_opened ho (opened_accessMode ..)
          (iff_of_true ⟨i, v, _, rfl⟩ ⟨hlook, hflag⟩) (fun hf => hf.1 hlook)]
        rw [hbits.access, hbits.creat]
        rw [hbits.creat] at hflag
        refine iff_of_true ⟨fun _ => hflag, ?_⟩ ?_
        · show (if flags ≥ 8 then flags - 8 else flags) - 4 = flags % 4
          split_ifs <;> omega
        · rintro (⟨h8, h12⟩ | ⟨-, hr⟩)
          · omega
          · exact hrefused hr
      · refine iff_of_false (fun hmean => ?_) (not_not_intro (.inl ?_))
        · have heq := hmean.missing hlook hflag
          rw [ho, Except.ok.injEq, Prod.mk.injEq] at heq
          have hcode : (-eNoent : ℤ) < 0 := by decide
          omega
        · rw [hbits.creat] at hflag
          omega

/-- A name that an entry has. -/
lemma FatOk.flagsMean_found (h : FatOk fs C) (hallow : fs.AllowOk)
    (hcomes : fs.ComesToLookup fds path flags) {f : FileId} (hlook : fs.lookup path = some f) :
    fs.FlagsMean fds path flags ↔ ¬ fs.Misreads path flags := by
  obtain ⟨v, hv⟩ := Option.isSome_iff_exists.mp hcomes.fdt
  obtain ⟨fd, hfd⟩ := Option.isSome_iff_exists.mp hcomes.fd
  have hbits := flagBits hcomes.flags_nonneg hcomes.flags_le
  have h0 := hcomes.flags_nonneg
  have hle := hcomes.flags_le
  have hmis : fs.Misreads path flags ↔
      8 ≤ flags ∧ flags < 12 ∧ (fs.dir f).accessModeAllow = oRdwr := by
    simp only [Misreads, hlook, reduceCtorEq, false_or, false_and, or_false, Option.some.injEq,
      exists_eq_left']
    exact .rfl
  have hsome : fs.lookup path ≠ none := by simp [hlook]
  rw [hmis]
  by_cases hexcl : flags ≥ 0xC
  · have ho : fs.sysOpen fds path flags = .ok (-eExist, fs, fds) := by
      rw [hcomes.sysOpen_eq hv hfd, hlook]
      simp only [if_pos hexcl]
    refine iff_of_true ?_ (by omega)
    refine h.flagsMean_of_error (by decide) ho (fun hc => hsome hc.1) (fun hc => absurd hc hsome) ?_
    exact iff_of_true rfl ⟨hsome, hbits.creat.mpr (by omega), hbits.excl.mpr (by omega)⟩
  · have hnot : ¬ (fs.lookup path ≠ none ∧ HasFlag flags oCreat ∧ HasFlag flags oExcl) := by
      rw [hbits.creat, hbits.excl]
      omega
    set mode : ℤ := if flags ≥ oCreat then flags - oCreat else flags with hmode
    have hmode' : mode = if flags ≥ 4 then flags - 4 else flags := hmode
    by_cases hopen : (fs.dir f).accessModeAllow = oRdwr ∨ mode = (fs.dir f).accessModeAllow
    · have hentry : fs.OpensEntry path flags f mode :=
        ⟨hcomes.len, hlook, h0, Int.not_le.mp hexcl, rfl, hopen⟩
      have hnew : ¬ ∃ g, fs.CreatesFile path g (fs.opened v f mode) := by
        rintro ⟨g, hc⟩
        refine h.not_createsFile (fs.opened v f mode) rfl (fun k => ?_) g hc
        by_cases hk : k = f <;> simp [hk]
      rw [flagsMean_of_opened (hentry.sysOpen hv hfd) (opened_accessMode ..)
        (iff_of_false hnew (fun hc => hsome hc.1)) hnot, hbits.access]
      obtain ⟨hlow, hhigh⟩ := hallow f
      change (fs.dir f).accessModeAllow ≤ 3 at hhigh
      have hmode4 : mode = flags % 4 ↔ ¬ (8 ≤ flags ∧ flags < 12) := by
        split_ifs at hmode' <;> omega
      constructor
      · rintro ⟨-, hm⟩ ⟨h8, h12, -⟩
        exact hmode4.mp hm ⟨h8, h12⟩
      · intro hno
        refine ⟨fun hc => absurd hc hsome, hmode4.mpr ?_⟩
        rintro ⟨h8, h12⟩
        rcases hopen with hrw | hm
        · exact hno ⟨h8, h12, hrw⟩
        · split_ifs at hmode' <;> omega
    · have ho : fs.sysOpen fds path flags = .ok (-eAcces, fs, fds) := by
        rw [hcomes.sysOpen_eq hv hfd, hlook]
        simp only [if_neg hexcl]
        rw [openEntry, if_pos (not_or.mp hopen)]
      refine iff_of_true ?_ (fun hm => hopen (.inl hm.2.2))
      refine h.flagsMean_of_error (by decide) ho (fun hc => hsome hc.1)
        (fun hc => absurd hc hsome) ?_
      exact iff_of_false (by decide) hnot

end FileSystem

/-! ## Descriptors and their flags -/

namespace Kernel

variable {s t : Kernel} {e : Event} {H : Slot → Fd → ℤ}

/-- The flags that the descriptors were opened with.  An open notes its flags at the descriptor that
it fills in, and `sys_dup` and `sys_fork` take them along. -/
def noteFlags (s : Kernel) (e : Event) (t : Kernel) (H : Slot → Fd → ℤ) : Slot → Fd → ℤ := fun u fd =>
  match e.act with
  | .open _ _ flags => if s.fds u fd = none ∧ t.fds u fd ≠ none then flags else H u fd
  | .dup old =>
    if s.fds u fd = none ∧ t.fds u fd ≠ none then H s.cur (Fin.ofNat maxFds old.toNat) else H u fd
  | .fork => if s.srchFreeTask = some u then H s.cur fd else H u fd
  | _ => H u fd

/-- The access mode of every descriptor lets through no more than its flags ask for. -/
def Permitted (s : Kernel) (H : Slot → Fd → ℤ) : Prop :=
  ∀ u fd v, s.fds u fd = some v →
    ((s.fs.fdt v).accessMode ≠ oWronly → HasFlag (H u fd) oRdonly) ∧
    ((s.fs.fdt v).accessMode ≠ oRdonly → HasFlag (H u fd) oWronly)

/-- The flags ask for an access, and they are not `O_EXCL` with only one of the two. -/
def AsksPlainly (flags : ℤ) : Prop :=
  accessBits flags ≠ 0 ∧ flags ≠ oExcl + oRdonly ∧ flags ≠ oExcl + oWronly

/-- An open that gives out a descriptor asks plainly, and takes an entry of `fdt[]` that no
descriptor of any task points to. -/
def OpensPlainly (s : Kernel) (e : Event) : Prop :=
  ∀ addr path flags, e.act = .open addr path flags →
    ((∃ f mode, s.fs.OpensEntry path flags f mode) ∨ ∃ f mode, s.fs.CreatesEntry path flags f mode) →
    AsksPlainly flags ∧ ∀ v, s.fs.freeFdt = some v → ∀ u fd, s.fds u fd ≠ some v

/-- The mode of an open that asks plainly. -/
lemma AsksPlainly.permits {flags mode : ℤ} (h : AsksPlainly flags) (h0 : 0 ≤ flags)
    (hle : flags ≤ 0xF) (hmode : (flags < 8 ∨ 12 ≤ flags) → mode = flags % 4) :
    (mode ≠ oWronly → HasFlag flags oRdonly) ∧ (mode ≠ oRdonly → HasFlag flags oWronly) := by
  have hbits := flagBits h0 hle
  obtain ⟨haccess, hro, hwo⟩ := h
  rw [hbits.access] at haccess
  rw [hbits.rdonly, hbits.wronly]
  change flags ≠ 9 at hro
  change flags ≠ 10 at hwo
  show (mode ≠ 2 → flags % 2 = 1) ∧ (mode ≠ 1 → 2 ≤ flags % 4)
  by_cases h8 : flags < 8 ∨ 12 ≤ flags
  · have := hmode h8
    omega
  · omega

/-- A descriptor is filled in with entry `v`, which no descriptor pointed to. -/
lemma Permitted.opened (h : s.Permitted H) {flags : ℤ} {v : FdtId} {fd : Fd}
    (hact : ∃ addr path, e.act = .open addr path flags) (hfree : s.fds s.cur fd = none)
    (hunused : ∀ u fd, s.fds u fd ≠ some v)
    (hfds : t.fds = Function.update s.fds s.cur (Function.update (s.fds s.cur) fd (some v)))
    (hfdt : ∀ w, w ≠ v → (t.fs.fdt w).accessMode = (s.fs.fdt w).accessMode)
    (hnew : ((t.fs.fdt v).accessMode ≠ oWronly → HasFlag flags oRdonly) ∧
      ((t.fs.fdt v).accessMode ≠ oRdonly → HasFlag flags oWronly)) :
    t.Permitted (noteFlags s e t H) := by
  obtain ⟨addr, path, hact⟩ := hact
  intro u k w hw
  rw [noteFlags, hact]
  simp only
  by_cases huk : u = s.cur ∧ k = fd
  · obtain ⟨rfl, rfl⟩ := huk
    have hsome : t.fds s.cur k = some v := by rw [hfds, Function.update_self, Function.update_self]
    obtain rfl : v = w := Option.some.inj (hsome.symm.trans hw)
    rw [if_pos ⟨hfree, by simp [hsome]⟩]
    exact hnew
  · have hold : t.fds u k = s.fds u k := by rw [hfds, updateFd_of_ne huk]
    rw [hold] at hw ⊢
    rw [if_neg (fun hn => hn.2 hn.1)]
    have hwv : w ≠ v := fun hwv => hunused u k (hwv ▸ hw)
    rw [hfdt w hwv]
    exact h u k w hw

/-- The tables keep their access modes, and every descriptor was there before, with these flags. -/
lemma Permitted.kept {H' : Slot → Fd → ℤ} (h : s.Permitted H)
    (hmode : ∀ v, (t.fs.fdt v).accessMode = (s.fs.fdt v).accessMode)
    (hfds : ∀ u fd v, t.fds u fd = some v →
      ∃ u' fd', s.fds u' fd' = some v ∧ H' u fd = H u' fd') : t.Permitted H' := by
  intro u fd v hv
  obtain ⟨u', fd', hv', hH⟩ := hfds u fd v hv
  rw [hmode, hH]
  exact h u' fd' v hv'

/-- A step that fills in no descriptor notes no flags. -/
lemma noteFlags_of_fds (hfork : e.act ≠ .fork) {u : Slot} {fd : Fd} (hfds : t.fds u fd = s.fds u fd) :
    noteFlags s e t H u fd = H u fd := by
  have hno : ¬ (s.fds u fd = none ∧ t.fds u fd ≠ none) := by
    rw [hfds]
    exact fun hn => hn.2 hn.1
  unfold noteFlags
  split
  · rw [if_neg hno]
  · rw [if_neg hno]
  · next hact => exact absurd hact hfork
  · rfl

lemma Permitted.step_fork (h : s.Permitted H) (hfork : e.act = .fork) (hst : s.step e = .ok t) :
    t.Permitted (noteFlags s e t H) := by
  obtain ⟨hfs, hfds⟩ := step_fork_files hfork hst
  have hmode : ∀ v, (t.fs.fdt v).accessMode = (s.fs.fdt v).accessMode := by
    intro v
    rcases hfs with hfs | hfs
    · rw [hfs]
    · rw [hfs, forkRefs_accessMode]
  refine h.kept hmode (fun u fd v hv => ?_)
  rw [hfds u] at hv
  rw [noteFlags, hfork]
  simp only
  split_ifs at hv ⊢
  · exact ⟨s.cur, fd, hv, rfl⟩
  · exact ⟨u, fd, hv, rfl⟩

/-- Every step keeps the descriptors to their flags, if its opens ask plainly. -/
lemma Permitted.step (h : s.Permitted H) (hok : s.TableOk) (hg : s.OpensPlainly e)
    (hst : s.step e = .ok t) : t.Permitted (noteFlags s e t H) := by
  by_cases hfork : e.act = .fork
  · exact h.step_fork hfork hst
  · have heff := hasEffect_step hok hfork hst
    rw [HasEffect] at heff
    generalize hfs : t.fs = fs at heff
    generalize hfds : t.fds = D at heff
    have hsame : t.fds = s.fds → ∀ u fd v, t.fds u fd = some v →
        ∃ u' fd', s.fds u' fd' = some v ∧ noteFlags s e t H u fd = H u' fd' := fun heq u fd v hv =>
      ⟨u, fd, heq ▸ hv, noteFlags_of_fds hfork (by rw [heq])⟩
    cases heff with
    | same hsame' => exact h.kept (fun v => by rw [hfs, hsame'.mode]) (hsame hfds)
    | @opens addr path flags mode v fd f hact haddr hv hfd hopen =>
      obtain ⟨hasks, hunused⟩ := hg addr path flags hact (.inl ⟨f, mode, hopen⟩)
      have hnone : s.fds s.cur fd = none := by simpa using List.find?_some hfd
      have h0 := hopen.flags_nonneg
      have hexcl : flags < 12 := hopen.not_excl
      have hmode : mode = if flags ≥ 4 then flags - 4 else flags := hopen.mode_eq
      refine h.opened ⟨addr, path, hact⟩ hnone (hunused v hv) hfds (fun w hw => ?_) ?_
      · simp [hfs, hw]
      · rw [hfs, opened_accessMode]
        refine hasks.permits h0 (by omega) (fun hr => ?_)
        split_ifs at hmode <;> omega
    | @creates addr path flags mode v fd f hact hv hfd hnew =>
      obtain ⟨hasks, hunused⟩ := hg addr path flags hact (.inr ⟨f, mode, hnew⟩)
      have hnone : s.fds s.cur fd = none := by simpa using List.find?_some hfd
      have hmode : mode = (if flags ≥ 8 then flags - 8 else flags) - 4 := hnew.mode_eq
      have hcreat : 4 ≤ flags := hnew.creat
      have hle := hnew.flags_le
      refine h.opened ⟨addr, path, hact⟩ hnone (hunused v hv) hfds (fun w hw => ?_) ?_
      · simp [hfs, hw]
      · rw [hfs, opened_accessMode]
        refine hasks.permits (by omega) hle (fun hr => ?_)
        split_ifs at hmode <;> omega
    | @dups v fd new hact hfd hnew =>
      have hnone : s.fds s.cur new = none := by simpa using List.find?_some hnew
      refine h.kept (fun w => by rw [hfs, incRefs_fdt]) (fun u k w hw => ?_)
      by_cases huk : u = s.cur ∧ k = new
      · obtain ⟨rfl, rfl⟩ := huk
        have hsome : t.fds s.cur k = some v := by
          rw [hfds, Function.update_self, Function.update_self]
        obtain rfl : v = w := Option.some.inj (hsome.symm.trans hw)
        refine ⟨s.cur, fd, hfd, ?_⟩
        rw [noteFlags, hact]
        simp only
        rw [if_pos ⟨hnone, by simp [hsome]⟩, Int.toNat_natCast, Fin.ofNat_val_eq_self]
      · have hold : t.fds u k = s.fds u k := by rw [hfds, updateFd_of_ne huk]
        exact ⟨u, k, hold ▸ hw, noteFlags_of_fds hfork hold⟩
    | @closes v fd f hact hfd hdev =>
      refine h.kept (fun w => ?_) (fun u k w hw => ?_)
      · by_cases hw : w = v <;> simp [hfs, hw]
      · have huk : ¬ (u = s.cur ∧ k = fd) := by
          rintro ⟨rfl, rfl⟩
          rw [hfds, Function.update_self, Function.update_self] at hw
          simp at hw
        have hold : t.fds u k = s.fds u k := by rw [hfds, updateFd_of_ne huk]
        exact ⟨u, k, hold ▸ hw, noteFlags_of_fds hfork hold⟩
    | unlinks _ _ _ hfdt => exact h.kept (fun v => by rw [hfs, hfdt]) (hsame hfds)

/-- Only a new file changes what an entry allows. -/
lemma step_allow (hok : s.TableOk) (hst : s.step e = .ok t) (f : FileId) :
    (t.fs.dir f).accessModeAllow = (s.fs.dir f).accessModeAllow ∨
      (t.fs.dir f).accessModeAllow = oRdwr := by
  rcases step_dir hok hst f with ⟨-, hsame⟩ | ⟨⟨n, hn⟩, -⟩ | ⟨hnew, -⟩ | ⟨hallow, -⟩
  · exact .inl (hsame.allow f)
  · exact .inl (by rw [hn])
  · exact .inr (by rw [hnew])
  · exact .inl hallow

lemma allowOk_step (h : s.fs.AllowOk) (hok : s.TableOk) (hst : s.step e = .ok t) :
    t.fs.AllowOk := by
  intro f
  rcases step_allow hok hst f with hsame | hnew
  · rw [hsame]
    exact h f
  · rw [hnew]
    decide

/-- The flags that go with the standard descriptors. -/
def bootFlags : Slot → Fd → ℤ := fun _ fd => if fd.val = 0 then oRdonly else oWronly

end Kernel

namespace Env

variable (E : Env)

lemma boot_allowOk : E.boot.fs.AllowOk := by
  have hdir : E.boot.fs.dir = zeroEnv.boot.fs.dir := rfl
  rw [FileSystem.AllowOk, hdir]
  decide

lemma boot_permitted : E.boot.Permitted Kernel.bootFlags := by
  have hstd : ∀ fd v, stdDescriptors fd = some v → ((zeroEnv.boot.fs.fdt v).accessMode ≠ oWronly →
      HasFlag (if fd.val = 0 then oRdonly else oWronly) oRdonly) ∧
      ((zeroEnv.boot.fs.fdt v).accessMode ≠ oRdonly →
        HasFlag (if fd.val = 0 then oRdonly else oWronly) oWronly) := by
    decide
  intro u fd v hv
  by_cases hu : u = 0
  · subst hu
    exact hstd fd v hv
  · have htask : E.boot.task u = emptyTask := by
      change Function.update (fun _ => emptyTask) 0 E.task0 u = emptyTask
      exact Function.update_of_ne hu _ _
    rw [Kernel.fds, htask] at hv
    simp [emptyTask] at hv

end Env

/-- **What the flags of `sys_open` mean.**  In every state that a run comes to, a call that comes to
the lookup reads its flags bit by bit, just when they are not `O_EXCL` without `O_CREAT` for a
missing name or a file that may be read and written, and no request for a new file that
`create_file` refuses; any other call returns an error and changes nothing.  In a run in which every
open that gives out a descriptor asks plainly and takes an unused entry of `fdt[]`, reads and writes
come to a device only through descriptors whose flags ask for them. -/
theorem open_flags_mean_iff (E : Env) :
    (∀ (es : List Event) (s : Kernel), AnyRun E.boot es s → ∀ (path : List Byte) (flags : ℤ),
      (s.fs.ComesToLookup (s.fds s.cur) path flags →
        (s.fs.FlagsMean (s.fds s.cur) path flags ↔ ¬ s.fs.Misreads path flags)) ∧
      (¬ s.fs.ComesToLookup (s.fds s.cur) path flags →
        ∃ code < 0, s.fs.sysOpen (s.fds s.cur) path flags = .ok (code, s.fs, s.fds s.cur))) ∧
    (∀ (es : List Event) (s : Kernel) (H : Slot → Fd → ℤ),
      Run (record Kernel.step Kernel.noteFlags) (fun s e => s.1.OpensPlainly e)
        (E.boot, Kernel.bootFlags) es (s, H) →
      ∀ (fd : Fd) (buffer : ℕ) (size : ℤ) (v : FdtId) (f : FileId),
        (s.ReadsDevice fd.val buffer size v f → HasFlag (H s.cur fd) oRdonly) ∧
        (s.WritesDevice fd.val buffer size v f → HasFlag (H s.cur fd) oWronly)) := by
  constructor
  · intro es s hrun path flags
    refine ⟨fun hcomes => ?_, sysOpen_of_not_comesToLookup⟩
    have hstep : ∀ (s : Kernel) (e : Event) (t : Kernel), (s.TableOk ∧ s.fs.AllowOk) → True →
        s.step e = .ok t → (t.TableOk ∧ t.fs.AllowOk) := fun s e t h _ hst =>
      ⟨h.1.step hst, Kernel.allowOk_step h.2 h.1 hst⟩
    obtain ⟨⟨C, hC⟩, hallow⟩ := hrun.invariant hstep ⟨E.boot_tableOk, E.boot_allowOk⟩
    cases hlook : s.fs.lookup path with
    | none => exact hC.flagsMean_missing hcomes hlook
    | some f => exact hC.flagsMean_found hallow hcomes hlook
  · intro es s H hrun fd buffer size v f
    have hstep : ∀ (s : Kernel × (Slot → Fd → ℤ)) (e : Event) (t : Kernel × (Slot → Fd → ℤ)),
        (s.1.TableOk ∧ s.1.Permitted s.2) → s.1.OpensPlainly e →
        record Kernel.step Kernel.noteFlags s e = .ok t → (t.1.TableOk ∧ t.1.Permitted t.2) := by
      rintro s e t ⟨hok, hperm⟩ hg hst
      obtain ⟨hst, hH⟩ := record_ok_iff.mp hst
      rw [hH]
      exact ⟨hok.step hst, hperm.step hok hg hst⟩
    obtain ⟨-, hperm⟩ := hrun.invariant hstep ⟨E.boot_tableOk, E.boot_permitted⟩
    have hfd : ∀ {w}, s.openFile fd.val = some w → s.fds s.cur fd = some w := by
      intro w hw
      rwa [Kernel.openFile_val] at hw
    exact ⟨fun h => (hperm _ _ _ (hfd h.descriptor)).1 h.mode,
      fun h => (hperm _ _ _ (hfd h.descriptor)).2 h.mode⟩

/-- At boot: a new file with `O_CREAT | O_RDWR`, and a read of the keyboard. -/
theorem open_flags_mean_iff_at_boot :
    linkedEnv.boot.fs.FlagsMean (linkedEnv.boot.fds linkedEnv.boot.cur) nameF (oCreat + oRdwr) ∧
      linkedEnv.boot.ReadsDevice (0 : Fd).val lUserStart 1 0 0 ∧
      HasFlag (Kernel.bootFlags linkedEnv.boot.cur 0) oRdonly := by
  have hread : linkedEnv.boot.ReadsDevice (0 : Fd).val lUserStart 1 0 0 :=
    linkedEnv_boot_readsDevice (by decide)
  refine ⟨?_, hread, ((open_flags_mean_iff linkedEnv).2 [] _ _ (.nil _) 0 lUserStart 1 0 0).1 hread⟩
  refine (((open_flags_mean_iff linkedEnv).1 [] _ (.nil _) nameF (oCreat + oRdwr)).1 ?_).mpr ?_
  · exact ⟨by decide, by decide, by decide, by decide, by decide⟩
  · rintro (⟨h8, -⟩ | ⟨-, -, hfull | hlong | hnone⟩)
    · exact absurd h8 (by decide)
    · exact absurd hfull (by decide)
    · exact absurd hlong (by decide)
    · exact absurd hnone (by decide)

/-- At boot, an open with `O_EXCL | O_RDONLY` creates a file; and through a descriptor of a new file
that was opened with `O_CREAT` alone, a read comes to the device. -/
theorem flags_misread :
    ¬ linkedEnv.boot.fs.FlagsMean (linkedEnv.boot.fds linkedEnv.boot.cur) nameF (oExcl + oRdonly) ∧
    ∃ t H, Run (record Kernel.step Kernel.noteFlags) (fun _ _ => True)
        (linkedEnv.boot, Kernel.bootFlags) [plain (.open lUserStart nameF oCreat)] (t, H) ∧
      t.ReadsDevice (3 : Fd).val lUserStart 1 2 2 ∧ ¬ HasFlag (H t.cur 3) oRdonly := by
  have hcomes : linkedEnv.boot.fs.ComesToLookup (linkedEnv.boot.fds linkedEnv.boot.cur) nameF
      (oExcl + oRdonly) := ⟨by decide, by decide, by decide, by decide, by decide⟩
  constructor
  · rw [linkedEnv.boot_fatOk.flagsMean_missing hcomes (by decide)]
    exact not_not_intro (.inl ⟨by decide, by decide, .inl (by decide)⟩)
  · have hnew : linkedEnv.boot.fs.CreatesEntry nameF oCreat 2 0 :=
      ⟨by decide, by decide, by decide, by decide, by decide, by decide, by decide⟩
    have hv : linkedEnv.boot.fs.freeFdt = some 2 := by decide
    have hfd : freeFd (linkedEnv.boot.fds linkedEnv.boot.cur) = some 3 := by decide
    have hst := Kernel.step_of_done (Kernel.dispatch_new
      (e := plain (.open lUserStart nameF oCreat)) rfl linkedEnv.boot_userMapped.pathOk_nameF hnew
      (by decide) hv hfd)
    set t : Kernel := linkedEnv.boot.afterOpen _ _ 3 2
    have haccess : t.mm.accessOk 0 lUserStart 1 = true := by
      have hread : linkedEnv.boot.ReadsDevice 0 lUserStart 1 0 0 :=
        linkedEnv_boot_readsDevice (by decide)
      rw [Kernel.afterOpen_mm]
      exact hread.access
    refine ⟨t, Kernel.noteFlags linkedEnv.boot (plain (.open lUserStart nameF oCreat)) t
      Kernel.bootFlags, .cons trivial (record_ok_iff.mpr ⟨hst, rfl⟩) (.nil _), ?_, by decide⟩
    exact ⟨by decide, by decide, by decide, by decide, haccess, by decide, by decide⟩

end ZeOS
