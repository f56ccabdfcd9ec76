import Supervisor.Decimal.Shortest
import Supervisor.Text.Blank
/-!
# Timestamps

A moment in UTC, written as `2024-01-02T03:04:05.678Z`. Reading is more generous than writing: it
takes blanks between the parts, one-digit numbers, and any offset, which is taken off.
-/
namespace Supervisor

/-- A calendar day and a time of day. A leap second is written as second 59 with more than
`10 ^ 9` nanoseconds. -/
structure Timestamp where
  year : Int
  month : Nat
  day : Nat
  hour : Nat
  minute : Nat
  second : Nat
  nanos : Nat
deriving DecidableEq, Repr, Inhabited

inductive Timestamp.Refusal
  | tooShort
  | invalid
  | outOfRange
  | impossible
  | tooLong
deriving DecidableEq, Repr

def Timestamp.Refusal.message : Timestamp.Refusal → String
  | .tooShort => "premature end of input"
  | .invalid => "input contains invalid characters"
  | .outOfRange => "input is out of range"
  | .impossible => "no possible date and time matching input"
  | .tooLong => "trailing input"

namespace Timestamp
open Decimal.Layout (digitsOf padded)

def billion : Nat := 1000000000

def epoch : Timestamp := ⟨1970, 1, 1, 0, 0, 0, 0⟩

def isLeapYear (y : Int) : Bool := (y % 4 == 0 && y % 100 != 0) || y % 400 == 0

def monthLength (y : Int) (m : Nat) : Nat :=
  if m == 2 then (if isLeapYear y then 29 else 28)
  else if m == 4 || m == 6 || m == 9 || m == 11 then 30 else 31

def nextDay (t : Timestamp) : Timestamp :=
  if t.day < monthLength t.year t.month then { t with day := t.day + 1 }
  else if t.month < 12 then { t with month := t.month + 1, day := 1 }
  else { t with year := t.year + 1, month := 1, day := 1 }

def previousDay (t : Timestamp) : Timestamp :=
  if 1 < t.day then { t with day := t.day - 1 }
  else if 1 < t.month then { t with month := t.month - 1, day := monthLength t.year (t.month - 1) }
  else { t with year := t.year - 1, month := 12, day := 31 }

/-- The moment in UTC of a local time that is `offset` seconds ahead, less than a day. -/
def toUtc (t : Timestamp) (offset : Int) : Timestamp :=
  let s : Int := (t.hour * 3600 + t.minute * 60 + t.second : Nat) - offset
  let base := if s < 0 then t.previousDay else if 86400 ≤ s then t.nextDay else t
  let s := (s % 86400).toNat
  { base with hour := s / 3600, minute := s / 60 % 60, second := s % 60 }

/-! ## Writing -/

def yearChars (y : Int) : List Char :=
  if 0 ≤ y && y ≤ 9999 then padded 4 y.toNat
  else (if y < 0 then '-' else '+') :: padded 4 y.natAbs

/-- A fraction of a second in as few groups of three digits as it needs. -/
def fractionChars (nanos : Nat) : List Char :=
  if nanos = 0 then []
  else if nanos % 1000000 = 0 then '.' :: padded 3 (nanos / 1000000)
  else if nanos % 1000 = 0 then '.' :: padded 6 (nanos / 1000)
  else '.' :: padded 9 nanos

def chars (t : Timestamp) : List Char :=
  let second := if billion ≤ t.nanos then t.second + 1 else t.second
  yearChars t.year ++ '-' :: padded 2 t.month ++ '-' :: padded 2 t.day ++ 'T' :: padded 2 t.hour
    ++ ':' :: padded 2 t.minute ++ ':' :: padded 2 second ++ fractionChars (t.nanos % billion)
    ++ ['Z']

def text (t : Timestamp) : String := String.ofList t.chars

/-! ## Reading -/

/-- What was read, and the text after it. -/
abbrev Taken (α : Type) := α × List Char

def byteLength (cs : List Char) : Nat := cs.foldl (fun n c => n + c.utf8Size) 0

/-- One to `most` digits; with a limit on the value that 64 bits can hold. -/
def number (most : Nat) (cs : List Char) : Except Refusal (Taken Nat) :=
  match cs with
  | [] => .error .tooShort
  | c :: _ =>
    if !c.isDigit then .error .invalid
    else
      let ds := (cs.take most).takeWhile Char.isDigit
      let n := ds.foldl (fun n c => n * 10 + (c.toNat - 48)) 0
      if n < Nat.pow 2 63 then .ok (n, cs.drop ds.length) else .error .outOfRange

/-- A number of one or two digits after blanks, within bounds. -/
def field (least greatest : Nat) (cs : List Char) : Except Refusal (Taken Nat) := do
  let (n, rest) ← number 2 (Text.trimStart cs)
  if least ≤ n && n ≤ greatest then return (n, rest) else .error .outOfRange

def yearField (cs : List Char) : Except Refusal (Taken Int) := do
  let (y, rest) ← match Text.trimStart cs with
    | '-' :: rest => do
      let (n, rest) ← number rest.length rest
      pure (-(n : Int), rest)
    | '+' :: rest => do
      let (n, rest) ← number rest.length rest
      pure ((n : Int), rest)
    | cs => do
      let (n, rest) ← number 4 cs
      pure ((n : Int), rest)
  if -(Nat.pow 2 31 : Nat) ≤ y && y < (Nat.pow 2 31 : Nat) then return (y, rest) else .error .outOfRange

def mark (c : Char) (cs : List Char) : Except Refusal (List Char) :=
  match Text.trimStart cs with
  | [] => .error .tooShort
  | d :: rest => if c == d then .ok rest else .error .invalid

/-- The nanoseconds after a point; digits after the ninth do not count. -/
def fraction (cs : List Char) : Except Refusal (Taken Nat) :=
  match cs with
  | '.' :: rest => do
    let (n, after) ← number 9 rest
    let used := rest.length - after.length
    return (n * Nat.pow 10 (9 - used), after.dropWhile Char.isDigit)
  | cs => .ok (0, cs)

/-- The next two bytes as digits. -/
def twoDigits (cs : List Char) : Except Refusal (Taken (Nat × Nat)) :=
  if byteLength cs < 2 then .error .tooShort
  else match cs with
    | a :: b :: rest =>
      if a.isDigit && b.isDigit then .ok ((a.toNat - 48, b.toNat - 48), rest) else .error .invalid
    | _ => .error .invalid

def offsetDigits (cs : List Char) : Except Refusal (Taken Int) := do
  let ((h1, h2), cs) ← twoDigits cs
  let cs := cs.dropWhile fun c => c == ':' || Text.isBlank c
  let ((m1, m2), cs) ← twoDigits cs
  if 6 ≤ m1 then .error .outOfRange
  else return (((h1 * 10 + h2) * 3600 + (m1 * 10 + m2) * 60 : Nat), cs)

/-- Seconds ahead of UTC. -/
def offset (cs : List Char) : Except Refusal (Taken Int) :=
  if (cs.take 3).map Char.toUpper == ['U', 'T', 'C'] then .ok (0, cs.drop 3)
  else match cs with
    | [] => .error .tooShort
    | c :: rest =>
      if c == 'Z' || c == 'z' then .ok (0, rest)
      else if c == '+' then offsetDigits rest
      else if c == '-' || c == '\u2212' then (offsetDigits rest).map fun (s, cs) => (-s, cs)
      else .error .invalid

def separator (cs : List Char) : Except Refusal (List Char) :=
  match cs with
  | [] => .error .tooShort
  | c :: rest => if c == 'T' || c == 't' || c == ' ' then .ok rest else .error .invalid

/-- The years that a calendar day may have. -/
def inCalendar (y : Int) (m d : Nat) : Bool :=
  -262143 ≤ y && y ≤ 262142 && d ≤ monthLength y m

def ofChars (cs : List Char) : Except Refusal Timestamp := do
  let (year, cs) ← yearField cs
  let cs ← mark '-' cs
  let (month, cs) ← field 1 12 cs
  let cs ← mark '-' cs
  let (day, cs) ← field 1 31 cs
  let cs ← separator cs
  let (hour, cs) ← field 0 23 cs
  let cs ← mark ':' cs
  let (minute, cs) ← field 0 59 cs
  let cs ← mark ':' cs
  let (second, cs) ← field 0 60 cs
  let (nanos, cs) ← fraction cs
  let (seconds, cs) ← offset (Text.trimStart cs)
  if !(Text.trimStart cs).isEmpty then .error .tooLong
  else if !inCalendar year month day || seconds.natAbs ≥ 86400 then .error .outOfRange
  else
    let t : Timestamp := ⟨year, month, day, hour, minute, min second 59,
      if second = 60 then nanos + billion else nanos⟩
    let u := t.toUtc seconds
    if inCalendar u.year u.month u.day then return u else .error .impossible

def ofString (s : String) : Except String Timestamp :=
  match ofChars s.toList with
  | .ok t => .ok t
  | .error r => .error r.message

end Timestamp

end Supervisor
