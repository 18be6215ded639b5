import ZeOS.Kernel.Utils
import ZeOS.Kernel.Devices

/-!
# The console

`sys_write_console` copies the text through a buffer of 256 bytes on the kernel stack, in whole
blocks and a rest, and hands every character to `printc` once, in order (`console_write_exact`).

`printc` keeps a cursor.  At the last column it goes to the next row and from the last row to the
first, but a newline character goes to the next row without looking whether there is one.  The
cursor stays on the screen as long as no newline is printed in the last row
(`cursor_on_screen_iff`).
-/

namespace ZeOS

open RangeCopy Screen

/-! ## `sys_write_console`, byte by byte -/

section ByteByByte

variable {σ : Type}

/-- `sys_write_console` between two statements: the address space, what has been printed, and
`return_write`. -/
structure ConsoleWrite (σ : Type) where
  ram : Ram
  out : σ
  returnWrite : ℤ

namespace ConsoleWrite

/-- A copy of `n` bytes to `k_buffer`, and the loop that prints them. -/
def writeBlock (printc : σ → Byte → σ) (kBuffer : ℕ) (s : ConsoleWrite σ) (src n : ℕ) :
    ConsoleWrite σ :=
  let ram := (s.ram.copyFromUser src kBuffer n).2
  { ram := ram
    out := (List.range n).foldl (fun out j => printc out (ram (kBuffer + j))) s.out
    returnWrite := s.returnWrite + n }

/-- `sys_write_console`, with the address of its `k_buffer`. -/
def sysWriteConsole (printc : σ → Byte → σ) (kBuffer buffer size : ℕ) (ram : Ram) (out : σ) :
    ConsoleWrite σ :=
  let loop := size / maxWriteBlock
  let outBlock := size % maxWriteBlock
  let s := (List.range loop).foldl
    (fun s i => s.writeBlock printc kBuffer (buffer + i * maxWriteBlock) maxWriteBlock)
    { ram, out, returnWrite := 0 }
  if outBlock ≠ 0 then s.writeBlock printc kBuffer (buffer + (size - outBlock)) outBlock else s

/-- The first `n` characters have been printed, and nothing outside `k_buffer` has been
changed. -/
structure Written (printc : σ → Byte → σ) (kBuffer buffer : ℕ) (ram : Ram) (out : σ) (n : ℕ)
    (s : ConsoleWrite σ) : Prop where
  returnWrite : s.returnWrite = n
  out : s.out = (cells ram buffer n).foldl printc out
  ram : ∀ a, a < kBuffer ∨ kBuffer + maxWriteBlock ≤ a → s.ram a = ram a

variable {printc : σ → Byte → σ} {kBuffer buffer size n k : ℕ} {ram : Ram} {out : σ}
  {s : ConsoleWrite σ}

/-- One more block, which fits into `k_buffer`. -/
lemma Written.block (h : Written printc kBuffer buffer ram out n s) (hk : k ≤ maxWriteBlock)
    (hsize : n + k ≤ size)
    (hapart : kBuffer + maxWriteBlock ≤ buffer ∨ buffer + size ≤ kBuffer) :
    Written printc kBuffer buffer ram out (n + k)
      (s.writeBlock printc kBuffer (buffer + n) k) := by
  have hcopy : (s.ram.copyFromUser (buffer + n) kBuffer k).2 =
      blit s.ram (buffer + n) kBuffer k :=
    Ram.copyLoop_eq_blit _ _ _ _ (by unfold Apart; omega)
  have hsame : cells s.ram (buffer + n) k = cells ram (buffer + n) k :=
    cells_congr fun i hi => h.ram _ (by omega)
  constructor
  · rw [writeBlock, h.returnWrite]
    exact (Int.natCast_add n k).symm
  · have hprinted : (s.writeBlock printc kBuffer (buffer + n) k).out =
        (cells (blit s.ram (buffer + n) kBuffer k) kBuffer k).foldl printc s.out := by
      rw [writeBlock, hcopy, cells, List.foldl_map]
    rw [hprinted, cells_blit, hsame, h.out, cells_add, List.foldl_append]
  · intro a ha
    rw [writeBlock, hcopy, ← h.ram a ha]
    rcases ha with ha | ha
    · exact blit_of_lt _ _ _ ha
    · exact blit_of_le _ _ (by omega)

lemma Written.blocks (hapart : kBuffer + maxWriteBlock ≤ buffer ∨ buffer + size ≤ kBuffer)
    (loop : ℕ) (hloop : loop * maxWriteBlock ≤ size) :
    Written printc kBuffer buffer ram out (loop * maxWriteBlock)
      ((List.range loop).foldl
        (fun s i => s.writeBlock printc kBuffer (buffer + i * maxWriteBlock) maxWriteBlock)
        { ram, out, returnWrite := 0 }) := by
  induction loop with
  | zero => exact ⟨by simp, by simp [cells], fun _ _ => rfl⟩
  | succ loop ih =>
    rw [Nat.succ_mul] at hloop
    rw [List.range_succ, List.foldl_append, List.foldl_cons, List.foldl_nil, Nat.succ_mul]
    have hprev := ih ((Nat.le_add_right _ _).trans hloop)
    exact hprev.block (Nat.le_refl maxWriteBlock) hloop hapart

/-- The two block loops together. -/
lemma written (hapart : kBuffer + maxWriteBlock ≤ buffer ∨ buffer + size ≤ kBuffer) :
    Written printc kBuffer buffer ram out size
      (sysWriteConsole printc kBuffer buffer size ram out) := by
  have hsize : size / maxWriteBlock * maxWriteBlock + size % maxWriteBlock = size := by
    rw [Nat.mul_comm]
    exact Nat.div_add_mod size maxWriteBlock
  have hblocks : Written printc kBuffer buffer ram out _ _ :=
    .blocks hapart (size / maxWriteBlock) (by omega)
  by_cases hrest : size % maxWriteBlock = 0
  · rw [hrest, Nat.add_zero] at hsize
    rw [hsize] at hblocks
    rw [sysWriteConsole, if_neg (not_not.mpr hrest)]
    exact hblocks
  · have hlt : size % maxWriteBlock ≤ maxWriteBlock := (Nat.mod_lt _ (by decide)).le
    have hlast := hblocks.block hlt hsize.le hapart
    rw [hsize] at hlast
    rw [sysWriteConsole, if_pos hrest]
    rwa [show size - size % maxWriteBlock = size / maxWriteBlock * maxWriteBlock by omega]

end ConsoleWrite

end ByteByByte

/-! ## `sys_write_console`, on pages -/

section OnPages

variable {m : Memory} {sc : Screen} {buffer size src n : ℕ}

lemma Memory.copyFromUser_of_present (h : ∀ i < n, m.present (src + i)) :
    m.copyFromUser src n = some (cells m.load src n) := by
  refine if_pos (List.all_eq_true.mpr fun i hi => ?_)
  exact h i (List.mem_range.mp hi)

namespace Screen

/-- From whole block `i` on, with `n` whole blocks to go. -/
lemma writeBlocks_of_present (h : ∀ i < size, m.present (buffer + i)) {i : ℕ}
    (hi : i + n = size / maxWriteBlock) (sc : Screen) :
    writeBlocks m buffer size n i sc =
      .ret size (sc.printk
        (cells m.load (buffer + i * maxWriteBlock) (size - i * maxWriteBlock))) := by
  have hsize : size = size / maxWriteBlock * maxWriteBlock + size % maxWriteBlock := by
    rw [Nat.mul_comm]
    exact (Nat.div_add_mod size maxWriteBlock).symm
  have hrest : size % maxWriteBlock < maxWriteBlock := Nat.mod_lt _ (by decide)
  induction n generalizing i sc with
  | zero =>
    rw [Nat.add_zero] at hi
    subst hi
    have hlen : size - size / maxWriteBlock * maxWriteBlock = size % maxWriteBlock := by omega
    have hsrc : size - size % maxWriteBlock = size / maxWriteBlock * maxWriteBlock := by omega
    have hcopy : m.copyFromUser (buffer + size / maxWriteBlock * maxWriteBlock)
        (size % maxWriteBlock) = some (cells m.load _ _) :=
      Memory.copyFromUser_of_present fun j hj => by
        rw [Nat.add_assoc]
        exact h _ (by omega)
    have hret : ((size / maxWriteBlock : ℕ) : ℤ) * (maxWriteBlock : ℕ) +
        (size % maxWriteBlock : ℕ) = size := by
      exact_mod_cast hsize.symm
    unfold writeBlocks
    simp only [hlen, hsrc, hcopy]
    by_cases hzero : size % maxWriteBlock = 0
    · rw [hzero] at hret ⊢
      rw [if_neg (not_not.mpr rfl), ← hret]
      simp [cells, printk]
    · rw [if_pos hzero, hret]
  | succ n ih =>
    have hblock : (i + 1) * maxWriteBlock ≤ size :=
      (Nat.mul_le_mul_right _ (by omega)).trans (Nat.div_mul_le_self size maxWriteBlock)
    rw [Nat.succ_mul] at hblock
    have hcopy : m.copyFromUser (buffer + i * maxWriteBlock) maxWriteBlock =
        some (cells m.load _ _) :=
      Memory.copyFromUser_of_present fun j hj => by
        rw [Nat.add_assoc]
        exact h _ (by omega)
    have hlen : size - i * maxWriteBlock = maxWriteBlock + (size - (i + 1) * maxWriteBlock) := by
      rw [Nat.succ_mul]
      omega
    unfold writeBlocks
    simp only [hcopy]
    rw [ih (by omega), hlen, cells_add, printk, printk, printk, List.foldl_append, Nat.succ_mul,
      Nat.add_assoc]

end Screen

end OnPages

/-- **Console write is exact.**  For every buffer and size, `sys_write_console` hands the characters
of the buffer to `printc`, once each and in order, returns their number, and changes no byte outside
its kernel buffer, which lies apart from the user's.  The routine on pages does the same to the
screen. -/
theorem console_write_exact {σ : Type} (printc : σ → Byte → σ) (kBuffer buffer size : ℕ) (ram : Ram)
    (out : σ) (hapart : kBuffer + maxWriteBlock ≤ buffer ∨ buffer + size ≤ kBuffer) :
    ConsoleWrite.Written printc kBuffer buffer ram out size
        (ConsoleWrite.sysWriteConsole printc kBuffer buffer size ram out) ∧
      ∀ (m : Memory) (sc : Screen),
        (∀ i < size, m.present (buffer + i) ∧ m.load (buffer + i) = ram (buffer + i)) →
        sc.sysWriteConsole m buffer size = .ret size ((cells ram buffer size).foldl .printc sc) := by
  refine ⟨ConsoleWrite.written hapart, fun m sc h => ?_⟩
  have hpages := writeBlocks_of_present (fun i hi => (h i hi).1)
    (Nat.zero_add (size / maxWriteBlock)) sc
  rw [Nat.zero_mul, Nat.add_zero, Nat.sub_zero, cells_congr fun i hi => (h i hi).2] at hpages
  exact hpages

/-- `console_write_exact` for a text of two blocks and a tail, which is collected in a list. -/
theorem console_write_exact_two_blocks :
    (ConsoleWrite.sysWriteConsole (fun out c => out ++ [c]) 0x1f000 0x100000 515
        (fun a => a.toUInt8) []).returnWrite = 515 :=
  (console_write_exact (fun out c => out ++ [c]) 0x1f000 0x100000 515 (fun a => a.toUInt8) []
    (.inl (by decide))).1.returnWrite

/-! ## The cursor -/

namespace Screen

variable {sc : Screen} {c : Byte} {m : Memory} {buffer size : ℕ}

/-- The cursor is at one of the positions of the screen. -/
def OnScreen (sc : Screen) : Prop := sc.x < numColumns ∧ sc.y < numRows

/-- A word at this address is in video memory. -/
def InVideo (a : ℕ) : Prop := 0xb8000 ≤ a ∧ a + 2 ≤ 0xb8000 + numRows * numColumns * 2

lemma OnScreen.inVideo (h : sc.OnScreen) : InVideo (videoAddr sc.x sc.y) := by
  obtain ⟨hx, hy⟩ : sc.x < 80 ∧ sc.y < 25 := h
  change 0xb8000 ≤ 0xb8000 + (sc.y * 80 + sc.x) * 2 ∧
    0xb8000 + (sc.y * 80 + sc.x) * 2 + 2 ≤ 0xb8000 + 25 * 80 * 2
  omega

/-- A character that is not a newline, printed at a position of the screen. -/
lemma OnScreen.printc (h : sc.OnScreen) (hc : c ≠ newline) : (sc.printc c).OnScreen := by
  obtain ⟨hx, hy⟩ : sc.x < 80 ∧ sc.y < 25 := h
  rw [Screen.printc, if_neg hc]
  dsimp only
  by_cases hcol : (sc.x + 1) % 256 ≥ numColumns
  · rw [if_pos hcol]
    by_cases hrow : (sc.y + 1) % 256 ≥ numRows
    · rw [if_pos hrow]
      exact ⟨Nat.succ_pos _, Nat.succ_pos _⟩
    · rw [if_neg hrow]
      exact ⟨Nat.succ_pos _, not_le.mp hrow⟩
  · rw [if_neg hcol]
    exact ⟨not_le.mp hcol, hy⟩

/-- A newline stays on the screen in every row but the last. -/
lemma OnScreen.newline_iff (h : sc.OnScreen) :
    (sc.printc newline).OnScreen ↔ sc.y ≠ numRows - 1 := by
  obtain ⟨-, hy⟩ : sc.x < 80 ∧ sc.y < 25 := h
  rw [Screen.printc, if_pos rfl]
  change 0 < 80 ∧ (sc.y + 1) % 256 < 25 ↔ sc.y ≠ 24
  omega

lemma printk_snoc (sc : Screen) (cs : List Byte) (c : Byte) :
    sc.printk (cs ++ [c]) = (sc.printk cs).printc c :=
  List.foldl_concat ..

lemma printk_append (sc : Screen) (cs ds : List Byte) :
    sc.printk (cs ++ ds) = (sc.printk cs).printk ds :=
  List.foldl_append ..

/-- After every character the cursor is on the screen, and every character that is stored is
stored in video memory. -/
structure KeepsOnScreen (sc : Screen) (cs : List Byte) : Prop where
  cursor : ∀ pre, pre <+: cs → (sc.printk pre).OnScreen
  store : ∀ pre c, pre ++ [c] <+: cs → c ≠ newline →
    InVideo (videoAddr (sc.printk pre).x (sc.printk pre).y)

/-- The cursor stays on the screen just when no newline is printed in the last row. -/
lemma keepsOnScreen_iff (h : sc.OnScreen) (cs : List Byte) :
    sc.KeepsOnScreen cs ↔
      ∀ pre, pre ++ [newline] <+: cs → (sc.printk pre).y ≠ numRows - 1 := by
  constructor
  · intro hall pre hpre
    have hafter := hall.cursor _ hpre
    rw [printk_snoc] at hafter
    exact (hall.cursor pre ((List.prefix_append pre _).trans hpre)).newline_iff.mp hafter
  · intro hrows
    have hcursor : ∀ pre, pre <+: cs → (sc.printk pre).OnScreen := by
      intro pre
      induction pre using List.reverseRecOn with
      | nil => exact fun _ => h
      | append_singleton pre c ih =>
        intro hpre
        have hbefore := ih ((List.prefix_append pre _).trans hpre)
        rw [printk_snoc]
        by_cases hc : c = newline
        · subst hc
          exact hbefore.newline_iff.mpr (hrows pre hpre)
        · exact hbefore.printc hc
    exact ⟨hcursor, fun pre c hpre _ =>
      (hcursor pre ((List.prefix_append pre _).trans hpre)).inVideo⟩

end Screen

/-! ## The callers of `printc` -/

/-- A call of a routine that prints, and for `sys_write_console` the memory at that time. -/
inductive PrintCall where
  | printc (c : Byte)
  | printk (string : List Byte)
  | sysWriteConsole (m : Memory) (buffer size : ℕ)

/-- What `sys_write_console` hands to `printc`, from whole block `i` on: it ends at a block that is
on a page that is not present. -/
def blockChars (m : Memory) (buffer size : ℕ) : ℕ → ℕ → List Byte
  | 0, _ =>
    (m.copyFromUser (buffer + (size - size % maxWriteBlock)) (size % maxWriteBlock)).getD []
  | n + 1, i =>
    match m.copyFromUser (buffer + i * maxWriteBlock) maxWriteBlock with
    | none => []
    | some kBuffer => kBuffer ++ blockChars m buffer size n (i + 1)

namespace PrintCall

/-- The screen after a call, whether it returned or was stopped by a page fault. -/
def run (sc : Screen) : PrintCall → Screen
  | .printc c => sc.printc c
  | .printk string => sc.printk string
  | .sysWriteConsole m buffer size =>
    match sc.sysWriteConsole m buffer size with
    | .ret _ sc | .switched sc | .fault sc => sc
    | .stop _ => sc

/-- The characters that a call hands to `printc`. -/
def chars : PrintCall → List Byte
  | .printc c => [c]
  | .printk string => string
  | .sysWriteConsole m buffer size => blockChars m buffer size (size / maxWriteBlock) 0

end PrintCall

lemma Screen.writeBlocks_chars (m : Memory) (buffer size n i : ℕ) (sc : Screen) :
    (∃ r, writeBlocks m buffer size n i sc = .ret r (sc.printk (blockChars m buffer size n i))) ∨
      writeBlocks m buffer size n i sc = .fault (sc.printk (blockChars m buffer size n i)) := by
  induction n generalizing i sc with
  | zero =>
    unfold writeBlocks blockChars
    by_cases hrest : size % maxWriteBlock = 0
    · rw [if_neg (not_not.mpr hrest), hrest]
      exact .inl ⟨_, rfl⟩
    · rw [if_pos hrest]
      cases m.copyFromUser (buffer + (size - size % maxWriteBlock)) (size % maxWriteBlock) with
      | none => exact .inr rfl
      | some kBuffer => exact .inl ⟨_, rfl⟩
  | succ n ih =>
    unfold writeBlocks blockChars
    cases m.copyFromUser (buffer + i * maxWriteBlock) maxWriteBlock with
    | none => exact .inr rfl
    | some kBuffer =>
      dsimp only
      rw [printk_append]
      exact ih (i + 1) (sc.printk kBuffer)

lemma PrintCall.run_eq (sc : Screen) (call : PrintCall) : call.run sc = sc.printk call.chars := by
  cases call with
  | printc c => rfl
  | printk string => rfl
  | sysWriteConsole m buffer size =>
    rcases writeBlocks_chars m buffer size (size / maxWriteBlock) 0 sc with ⟨r, h⟩ | h
    · rw [run, Screen.sysWriteConsole, h]
      rfl
    · rw [run, Screen.sysWriteConsole, h]
      rfl

lemma PrintCall.foldl_run (sc : Screen) (calls : List PrintCall) :
    calls.foldl run sc = sc.printk (calls.flatMap chars) := by
  induction calls generalizing sc with
  | nil => rfl
  | cons call calls ih => rw [List.foldl_cons, run_eq, ih, List.flatMap_cons, printk_append]

/-- The cursor of `io.c` before anything is printed. -/
def bootCursor (video : ℕ → ℕ) : Screen := { x := 0, y := 15, video }

/-- **The cursor and the screen.**  Any calls of `printc`, `printk` and `sys_write_console`, from
the first cursor on, print the characters of their texts one after the other; and the cursor and
the stores stay on the screen just when no newline is printed in the last row. -/
theorem cursor_on_screen_iff (video : ℕ → ℕ) (calls : List PrintCall) :
    calls.foldl PrintCall.run (bootCursor video) =
        (bootCursor video).printk (calls.flatMap PrintCall.chars) ∧
      ((bootCursor video).KeepsOnScreen (calls.flatMap PrintCall.chars) ↔
        ∀ pre, pre ++ [newline] <+: calls.flatMap PrintCall.chars →
          ((bootCursor video).printk pre).y ≠ numRows - 1) :=
  ⟨PrintCall.foldl_run _ calls,
    keepsOnScreen_iff ⟨(by decide : 0 < 80), (by decide : 15 < 25)⟩ _⟩

/-- A page of newlines, mapped everywhere. -/
def newlinePage : Memory where
  physMem := fun _ => .free
  pagusrTable := fun _ => Memory.ssEntry 264
  frame := fun _ _ => newline

/-- A process writes ten newlines to the console. -/
theorem cursor_leaves_screen :
    let cs := [PrintCall.sysWriteConsole newlinePage 0x100000 10].flatMap PrintCall.chars
    cs = List.replicate 10 newline ∧ ((bootCursor fun _ => 0).printk cs).y = 25 ∧
      ¬ (bootCursor fun _ => 0).KeepsOnScreen cs := by
  have hcs : [PrintCall.sysWriteConsole newlinePage 0x100000 10].flatMap PrintCall.chars =
      List.replicate 10 newline := by decide
  have hy : ((bootCursor fun _ => 0).printk (List.replicate 10 newline)).y = 25 := rfl
  dsimp only
  rw [hcs]
  refine ⟨rfl, hy, fun h => ?_⟩
  have hlast := (h.cursor _ List.prefix_rfl).2
  rw [hy] at hlast
  exact absurd hlast (by decide)

end ZeOS
