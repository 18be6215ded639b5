import ZeOS.Invariants.Counters
import ZeOS.Invariants.Frames

/-!
# User space in every run

`TableIs` gives the whole page table, in the runs whose exits find another process to run.  What
it says of user space and of the kernel pages needs no such condition: no routine changes the
entries below the data pages, and each data page is mapped to some frame at all times.  So the
bytes of user space are present in every state of every run, and a path that lies there can be
read to its end.
-/

namespace ZeOS

open Memory

/-- The first address after user space. -/
abbrev userEnd : ℕ := lUserStart + (numPagCode + numPagData) * pageSize

/-- The first address of the data pages. -/
abbrev userData : ℕ := lUserStart + numPagCode * pageSize

/-- The pages below the data pages are as `set_user_pages` left them, and the data pages are
mapped. -/
structure Memory.UserMapped (E : Env) (m : Memory) : Prop where
  low : ∀ page < pagLogInitDataP0, m.pagusrTable page = E.codeMemory.pagusrTable page
  data : ∀ page, pagLogInitDataP0 ≤ page → page < windowPage → ∃ f, m.pagusrTable page = ssEntry f

namespace Memory.UserMapped

variable {E : Env} {m n : Memory} {addr : ℕ} {path : List Byte}

lemma of_same (h : m.UserMapped E) (hsame : SameUserPages m n) : n.UserMapped E := by
  refine ⟨fun page hp => (hsame.low page hp).trans (h.low page hp), fun page hlo hhi => ?_⟩
  rcases hsame.data page hlo hhi with heq | hnew
  · rw [heq]
    exact h.data page hlo hhi
  · exact hnew

lemma kernel (h : m.UserMapped E) {page : ℕ} (hp : page < numPagKernel) :
    m.pagusrTable page = initTablePages E.taskPage page := by
  rw [h.low page (lt_trans hp (by decide))]
  exact E.codeMemory_init hp

lemma code (h : m.UserMapped E) {page : ℕ} (hlo : numPagKernel ≤ page)
    (hhi : page < pagLogInitDataP0) :
    m.pagusrTable page = { present := true, rw := false, user := true, pbaseAddr := page } := by
  rw [h.low page hhi]
  exact E.codeMemory_code ⟨hlo, hhi⟩

lemma present (h : m.UserMapped E) (hlo : lUserStart ≤ addr) (hhi : addr < userEnd) :
    m.present addr = true := by
  change 256 * 4096 ≤ addr at hlo
  change addr < 256 * 4096 + 28 * 4096 at hhi
  have hpage : 256 ≤ addr / 4096 ∧ addr / 4096 < 284 := by omega
  rw [Memory.present, Bool.and_eq_true, decide_eq_true_eq]
  refine ⟨lt_trans hpage.2 (by decide), ?_⟩
  by_cases hdata : addr / pageSize < pagLogInitDataP0
  · rw [h.code hpage.1 hdata]
  · obtain ⟨f, hf⟩ := h.data (addr / pageSize) (not_lt.mp hdata) hpage.2
    rw [hf]
    rfl

/-- A string in user space, with its end, is read without a page fault. -/
lemma pathOk (h : m.UserMapped E) (hlo : lUserStart ≤ addr) (hend : addr + path.length < userEnd) :
    m.PathOk addr path := by
  refine .of_present ?_ fun i hi => h.present (by omega) (by omega)
  change 256 * 4096 ≤ addr at hlo
  change addr + path.length < 256 * 4096 + 28 * 4096 at hend
  have haddr : ¬ addr < 256 * 4096 ∧ ¬ addr > 256 * 4096 + 28 * 4096 := by omega
  rw [checkAddress]
  simp only [Bool.not_eq_true', Bool.or_eq_false_iff, decide_eq_false_iff_not]
  exact ⟨haddr, by decide⟩

end Memory.UserMapped

lemma Env.boot_userMapped (E : Env) : E.boot.mm.UserMapped E := by
  refine ⟨fun page hp => E.boot_table_other fun i => by omega, fun page hlo hhi => ?_⟩
  change 264 ≤ page at hlo
  change page < 264 + 20 at hhi
  obtain ⟨i, rfl⟩ : ∃ i : Fin numPagData, page = pagLogInitDataP0 + i.val :=
    ⟨⟨page - 264, by show page - 264 < 20; omega⟩, by show page = 264 + (page - 264); omega⟩
  exact ⟨_, E.boot_table_data i⟩

/-- User space is mapped in every state of every run. -/
lemma AnyRun.userMapped {E : Env} {es : List Event} {s : Kernel} (h : AnyRun E.boot es s) :
    s.mm.UserMapped E := by
  have hstep : ∀ (s : Kernel) (e : Event) (t : Kernel), s.mm.UserMapped E → True →
      s.step e = .ok t → t.mm.UserMapped E :=
    fun _ _ _ hs _ hst => hs.of_same (Kernel.step_userPages hst)
  exact h.invariant hstep E.boot_userMapped

end ZeOS
