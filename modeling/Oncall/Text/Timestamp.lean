import Oncall.Text.Parts

/-!
Points in time as text: a date, a time of day and an offset from universal time. Numbers may have
fewer digits than usual, and blanks may stand between them. Days are counted in the calendar with
leap years, with day zero at the start of 1970.
-/

namespace Oncall.Timestamp

open Parts

def isLeap (year : Int) : Bool := year % 4 = 0 && (year % 100 ≠ 0 || year % 400 = 0)

def daysOfMonth (year : Int) (month : Nat) : Nat :=
  if month = 2 then if isLeap year then 29 else 28
  else if [4, 6, 9, 11].contains month then 30
  else 31

/-- The number of a day; years are counted from March here, so that leap days come last. -/
def dayNumber (year : Int) (month day : Nat) : Int :=
  let y := if month ≤ 2 then year - 1 else year
  let m := if month ≤ 2 then month + 9 else month - 3
  365 * y + y.fdiv 4 - y.fdiv 100 + y.fdiv 400 + (153 * m + 2) / 5 + day - 719469

/-- Reads what comes first in a text, and leaves the rest. -/
abbrev Reading? (α : Type) := List Char → Option (α × List Char)

def skipBlanks (cs : List Char) : List Char := trimStart Char.isWhitespace cs

def valueOf (digits : List Char) : Nat := digits.foldl (fun n c => n * 10 + (c.toNat - 48)) 0

/-- A number of at most so many digits. -/
def number? (width : Nat) : Reading? Nat := fun cs =>
  let digits := (cs.takeWhile Char.isDigit).take width
  if digits.isEmpty then none else some (valueOf digits, cs.drop digits.length)

/-- A year; with a sign it may have any number of digits. -/
def year? : Reading? Int := fun cs =>
  match skipBlanks cs with
  | '-' :: cs => (number? cs.length cs).map fun p => (-p.1, p.2)
  | '+' :: cs => (number? cs.length cs).map fun p => (p.1, p.2)
  | cs => (number? 4 cs).map fun p => (p.1, p.2)

def part? : Reading? Nat := fun cs => number? 2 (skipBlanks cs)

def sign? (c : Char) (cs : List Char) : Option (List Char) :=
  match skipBlanks cs with
  | d :: rest => if d = c then some rest else none
  | [] => none

/-- The day of a date that there is. -/
def date? : Reading? Int := fun cs => do
  let (year, cs) ← year? cs
  let (month, cs) ← part? (← sign? '-' cs)
  let (day, cs) ← part? (← sign? '-' cs)
  if 1 ≤ month ∧ month ≤ 12 ∧ 1 ≤ day ∧ day ≤ daysOfMonth year month ∧ year.natAbs < 262143 then
    some (dayNumber year month day, cs)
  else none

/-- A fraction of a second in nanoseconds; further digits are dropped. -/
def fraction? : Reading? Nat
  | '.' :: cs =>
    let digits := cs.takeWhile Char.isDigit
    if digits.isEmpty then none
    else
      let kept := digits.take 9
      some (valueOf kept * Nat.pow 10 (9 - kept.length), cs.drop digits.length)
  | cs => some (0, cs)

/-- Nanoseconds since midnight; a minute may have a leap second. -/
def time? : Reading? Nat := fun cs => do
  let (hour, cs) ← part? cs
  let (minute, cs) ← part? (← sign? ':' cs)
  let (second, cs) ← part? (← sign? ':' cs)
  let (nanos, cs) ← fraction? cs
  if hour < 24 ∧ minute < 60 ∧ second ≤ 60 then
    some (((hour * 60 + minute) * 60 + second) * 1000000000 + nanos, cs)
  else none

/-- Two digits, of which there have to be two. -/
def pair? (cs : List Char) : Option (Nat × List Char) :=
  match cs with
  | a :: b :: rest => if a.isDigit && b.isDigit then some (valueOf [a, b], rest) else none
  | _ => none

/-- Seconds ahead of universal time. -/
def offset? (cs : List Char) : Option (Int × List Char) :=
  match skipBlanks cs with
  | 'Z' :: rest | 'z' :: rest => some (0, rest)
  | c :: rest =>
    if String.ofList ((c :: rest).take 3 |>.map Char.toUpper) = "UTC" then some (0, rest.drop 2)
    else if c = '+' ∨ c = '-' ∨ c.toNat = 0x2212 then do
      let (hours, rest) ← pair? rest
      let (minutes, rest) ← pair? (trimStart (fun c => c = ':' || c.isWhitespace) rest)
      let seconds : Int := hours * 3600 + minutes * 60
      if minutes < 60 ∧ seconds < 86400 then some (if c = '+' then seconds else -seconds, rest)
      else none
    else none
  | [] => none

/-- Nanoseconds since the start of 1970 in universal time. -/
def parse? (s : String) : Option Int := do
  let (day, cs) ← date? s.toList
  match cs with
  | c :: cs =>
    if ['t', 'T', ' '].contains c then
      let (time, cs) ← time? cs
      let (ahead, cs) ← offset? cs
      if (skipBlanks cs).isEmpty then some ((day * 86400 - ahead) * 1000000000 + time) else none
    else none
  | [] => none

end Oncall.Timestamp
