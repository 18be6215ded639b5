import ZeOS.Kernel.Sys

/-!
# Interrupt and exception routines (`interrupt.c`)

The clock, the keyboard and the page fault.  The other exceptions print a line and loop
forever, so a run ends there and no event stands for them.
-/

namespace ZeOS

/-! ## The time on the screen -/

/-- The first loop of `itoa`: the number of decimal digits. -/
def itoaDigits (num : ℕ) : ℕ :=
  if num = 0 then 0 else itoaDigits (num / 10) + 1
termination_by num
decreasing_by omega

/-- The second loop of `itoa`, from the last of `i` digits to the first. -/
def itoaLoop : ℕ → ℕ → (ℕ → Byte) → (ℕ → Byte)
  | 0, _, buffer => buffer
  | i + 1, num, buffer => itoaLoop i (num / 10) (Function.update buffer i (num % 10 + 48).toUInt8)

/-- `itoa`; for a number that is not positive it writes nothing. -/
def itoa (num : ℤ) (buffer : ℕ → Byte) : ℕ → Byte :=
  itoaLoop (itoaDigits num.toNat) num.toNat buffer

/-- Write the digits of a number from position `pos` of an array on. -/
def itoaAt (num : ℤ) (pos : ℕ) (buffer : ℕ → Byte) : ℕ → Byte := fun i =>
  if pos ≤ i then itoa num (fun j => buffer (pos + j)) (i - pos) else buffer i

/-- The five characters that `clock_routine` prints for a time. -/
def timeText (minutes seconds : ℤ) : List Byte :=
  let time := fun i : ℕ => if i = 2 then (58 : Byte) else 48
  let time := itoaAt (minutes / 10) 0 time
  let time := itoaAt (minutes % 10) 1 time
  let time := itoaAt (seconds / 10) 3 time
  let time := itoaAt (seconds % 10) 4 time
  (List.range 5).map time

namespace Kernel

/-- The part of `clock_routine` after `schedule`, which only runs when `schedule` returns. -/
def showTime (s : Kernel) : Kernel :=
  if s.tics % 18 = 0 then
    let seconds := s.tics / 18
    let minutes := seconds / 60
    let seconds := seconds % 60
    if minutes > 59 then
      { s with tics := 0, screen := s.screen.printkXy 72 8 (timeText 0 seconds) }
    else { s with screen := s.screen.printkXy 72 8 (timeText minutes seconds) }
  else s

/-- What `clock_routine` counts before it calls `schedule`. -/
def tick (s : Kernel) : Kernel :=
  { s with tics := s.tics + 1, left4current := s.left4current - 1 }.updTask s.cur fun k =>
    { k with cpuTics := k.cpuTics + 1, remaining := k.remaining - 1 }

/-- `clock_routine`. -/
def clockRoutine (s : Kernel) : Outcome Kernel Unit :=
  match s.tick.schedule 1 with
  | .ret _ s => .ret () s.showTime
  | .switched s => .switched s
  | .fault s => .fault s
  | .stop r => .stop r

/-! ## The keyboard -/

/-- `char_map`.  The four letters outside ASCII are two-byte character constants, whose value
as a `char` is their last byte. -/
def charMap : List Byte :=
  [0, 0, 49, 50, 51, 52, 53, 54,
   55, 56, 57, 48, 39, 0xA1, 0, 0,
   113, 119, 101, 114, 116, 121, 117, 105,
   111, 112, 96, 43, 0, 0, 97, 115,
   100, 102, 103, 104, 106, 107, 108, 0xB1,
   0, 0xBA, 0, 0xA7, 122, 120, 99, 118,
   98, 110, 109, 44, 46, 45, 0, 42,
   0, 0, 0, 0, 0, 0, 0, 0,
   0, 0, 0, 0, 0, 0, 0, 55,
   56, 57, 45, 52, 53, 54, 43, 49,
   50, 51, 48, 0, 0, 0, 60, 0,
   0, 0, 0, 0, 0, 0, 0, 0,
   0, 0]

/-- The character of a scan code; the codes past the end of `char_map` give `beyond`, the
byte that lies there. -/
def charOf (scan : Byte) (beyond : Byte) : Byte := charMap.getD (scan.toNat % 128) beyond

/-- Bit 7 of a scan code tells a key press from a release. -/
def isMake (scan : Byte) : Bool := decide (scan.toNat < 128)

/-- A character goes into the circular buffer. -/
def putChar (s : Kernel) (c : Byte) : Kernel :=
  let s := { s with kbd := { s.kbd with circular := Function.update s.kbd.circular s.kbd.p c } }
  let s := s.stepCircBuffer
  { s with kbd := { s.kbd with circChars := s.kbd.circChars + 1 } }

/-- The circular buffer is empty again. -/
def emptyCircBuffer (s : Kernel) : Kernel :=
  { s with kbd := { s.kbd with circChars := 0, start := s.kbd.p } }

/-- A blocked reader has been given the `circ_chars` characters of the full buffer. -/
def advanceReader (s : Kernel) (blocked : Slot) : Kernel :=
  s.updTask blocked fun k => { k with
    size := k.size - s.kbd.circChars
    buffer := k.buffer + s.kbd.circChars.toNat }

/-- `keyboard_routine` for the first blocked reader: with its last character it is served, and
with a full buffer it is given what is there. -/
def serveReader (s : Kernel) (blocked : Slot) : Outcome Kernel Unit :=
  let s := s.updTask blocked fun k => { k with pendingChars := k.pendingChars - 1 }
  if (s.task blocked).pendingChars ≤ 0 then
    match s.copyFromCircBuffer blocked (s.task blocked).size with
    | .ret _ s => .ret () (s.emptyCircBuffer.unblockAndEnqueque blocked)
    | .switched s => .switched s
    | .fault s => .fault s
    | .stop r => .stop r
  else if s.kbd.circChars ≥ circularSize then
    match s.copyFromCircBuffer blocked circularSize with
    | .ret _ s => .ret () (s.advanceReader blocked).emptyCircBuffer
    | .switched s => .switched s
    | .fault s => .fault s
    | .stop r => .stop r
  else .ret () s

/-- `keyboard_routine`, with the scan code read from the port. -/
def keyboardRoutine (s : Kernel) (scan beyond : Byte) : Outcome Kernel Unit :=
  let c := charOf scan beyond
  if isMake scan then
    let s := s.putChar c
    if s.links.listEmpty .keyboardQueue then .ret () { s with screen := s.screen.printc c }
    else
      match s.links.next .keyboardQueue with
      | some (.task blocked) => s.serveReader blocked
      | _ => .stop .notATask
  else .ret () s

/-! ## The page fault -/

/-- The lines that `page_fault_routine` prints. -/
def printFault (s : Kernel) : Kernel :=
  let sc := s.screen.printk (FileSystem.asciiBytes "PAGE FAULT:\nThe process with PID=")
  let sc := sc.printc ((48 + s.current.pid) % 256).toNat.toUInt8
  let sc := sc.printk
    (FileSystem.asciiBytes " generated this exception and has been terminated\n")
  { s with screen := sc }

end Kernel

end ZeOS
