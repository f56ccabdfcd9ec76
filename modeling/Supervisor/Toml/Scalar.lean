import Supervisor.Toml.Basic
import Supervisor.Decimal.Shortest
/-!
# TOML scalars

Numbers and moments are read from a run of characters that holds the whole scalar.
-/
namespace Supervisor.Toml
open Decimal

def isDigit (c : Char) : Bool := c.isDigit

def digitValue (c : Char) : Nat :=
  if c.isDigit then c.toNat - 48
  else if 'a' ≤ c && c ≤ 'f' then c.toNat - 87
  else c.toNat - 55

def isDigitOf (base : Nat) (c : Char) : Bool :=
  if c.isDigit || ('a' ≤ c && c ≤ 'f') || ('A' ≤ c && c ≤ 'F') then digitValue c < base else false

/-- Digits of a base; one underscore may stand between two digits. -/
def digits? (base : Nat) : List Char → Option (List Nat)
  | [] => none
  | [c] => if isDigitOf base c then some [digitValue c] else none
  | c :: '_' :: rest =>
    if isDigitOf base c then (digits? base rest).map (digitValue c :: ·) else none
  | c :: rest => if isDigitOf base c then (digits? base rest).map (digitValue c :: ·) else none

def ofDigits (base : Nat) (ds : List Nat) : Nat := ds.foldl (fun n d => n * base + d) 0

/-- Takes a sign off: is it a minus, and what follows. -/
def splitSign : List Char → Bool × List Char
  | '+' :: cs => (false, cs)
  | '-' :: cs => (true, cs)
  | cs => (false, cs)

/-- Decimal digits without a leading zero. -/
def wholeDigits? (cs : List Char) : Option (List Nat) :=
  (digits? 10 cs).bind fun ds =>
    if ds.head? == some 0 && 1 < ds.length then none else some ds

def inWord (z : Int) : Option Toml :=
  if -(Nat.pow 2 63 : Nat) ≤ z && z < (Nat.pow 2 63 : Nat) then some (.whole z) else none

def integer? (cs : List Char) : Option Toml :=
  match cs with
  | '0' :: 'x' :: ds => (digits? 16 ds).bind fun ds => inWord (ofDigits 16 ds)
  | '0' :: 'o' :: ds => (digits? 8 ds).bind fun ds => inWord (ofDigits 8 ds)
  | '0' :: 'b' :: ds => (digits? 2 ds).bind fun ds => inWord (ofDigits 2 ds)
  | _ =>
    let (negative, cs) := splitSign cs
    (wholeDigits? cs).bind fun ds =>
      inWord (if negative then -(ofDigits 10 ds : Int) else ofDigits 10 ds)

/-- The double nearest to a decimal; a positive one that is too large is refused. -/
def nearest (negative : Bool) (ds : List Nat) (power : Int) : Option Toml :=
  let n := ofDigits 10 ds
  let lead : Int := (Layout.digitsOf n).length + power
  if n == 0 || lead < -330 then some (.double (some (.zero negative)))
  else
    let x := if 310 < lead then none
      else Binary64.ofRatio negative (n * Nat.pow 10 power.toNat) (Nat.pow 10 (-power).toNat)
    if x.isNone && !negative then none else some (.double x)

def exponent? (cs : List Char) : Option Int :=
  let (negative, cs) := splitSign cs
  (digits? 10 cs).map fun ds => if negative then -(ofDigits 10 ds : Int) else ofDigits 10 ds

def float? (cs : List Char) : Option Toml :=
  let (negative, cs) := splitSign cs
  if cs == ['i', 'n', 'f'] || cs == ['n', 'a', 'n'] then some (.double none)
  else
    let mantissa := cs.takeWhile fun c => c != 'e' && c != 'E'
    let tail := cs.drop mantissa.length
    let whole := mantissa.takeWhile (· != '.')
    let fraction := mantissa.drop whole.length
    if tail.isEmpty && fraction.isEmpty then none
    else do
      let ws ← wholeDigits? whole
      let fs ← if fraction.isEmpty then some [] else digits? 10 fraction.tail
      let e ← if tail.isEmpty then some 0 else exponent? tail.tail
      nearest negative (ws ++ fs) (e - fs.length)

/-- A number of exactly `n` digits at the start of a text. -/
def fixed? (n : Nat) (cs : List Char) : Option (Nat × List Char) :=
  let ds := cs.take n
  if ds.length == n && ds.all isDigit then some (ofDigits 10 (ds.map digitValue), cs.drop n) else none

def expect (c : Char) : List Char → Option (List Char)
  | d :: rest => if c == d then some rest else none
  | [] => none

def isLeap (year : Nat) : Bool := (year % 4 == 0 && year % 100 != 0) || year % 400 == 0

def daysIn (year month : Nat) : Nat :=
  if month == 2 then (if isLeap year then 29 else 28)
  else if month == 4 || month == 6 || month == 9 || month == 11 then 30 else 31

def two (n : Nat) : List Char := Layout.padded 2 n

/-- A date at the start of a text, in normal form. -/
def date? (cs : List Char) : Option (List Char × List Char) := do
  let (y, cs) ← fixed? 4 cs
  let cs ← expect '-' cs
  let (m, cs) ← fixed? 2 cs
  let cs ← expect '-' cs
  let (d, cs) ← fixed? 2 cs
  if 1 ≤ m && m ≤ 12 && 1 ≤ d && d ≤ daysIn y m then
    return (Layout.padded 4 y ++ '-' :: two m ++ '-' :: two d, cs)
  else none

/-- A fraction of a second, cut to nanoseconds. -/
def fraction? : List Char → Option (List Char × List Char)
  | '.' :: cs =>
    let ds := cs.takeWhile isDigit
    if ds.isEmpty then none
    else
      let kept := ((ds.take 9).reverse.dropWhile (· == '0')).reverse
      some (if kept.isEmpty then [] else '.' :: kept, cs.drop ds.length)
  | cs => some ([], cs)

def time? (cs : List Char) : Option (List Char × List Char) := do
  let (h, cs) ← fixed? 2 cs
  let cs ← expect ':' cs
  let (m, cs) ← fixed? 2 cs
  let cs ← expect ':' cs
  let (s, cs) ← fixed? 2 cs
  let (f, cs) ← fraction? cs
  if h ≤ 23 && m ≤ 59 && s ≤ 60 then return (two h ++ ':' :: two m ++ ':' :: two s ++ f, cs)
  else none

def offset? (cs : List Char) : Option (List Char × List Char) :=
  match cs with
  | [] => some ([], [])
  | 'Z' :: rest | 'z' :: rest => some (['Z'], rest)
  | sign :: rest =>
    if sign == '+' || sign == '-' then do
      let (h, rest) ← fixed? 2 rest
      let rest ← expect ':' rest
      let (m, rest) ← fixed? 2 rest
      let sign := if h == 0 && m == 0 then '+' else sign
      if h ≤ 23 && m ≤ 59 then return (sign :: two h ++ ':' :: two m, rest) else none
    else none

def moment? (cs : List Char) : Option Toml :=
  match date? cs with
  | some (d, []) => some (.moment (String.ofList d))
  | some (d, c :: rest) =>
    if c == 'T' || c == 't' || c == ' ' then do
      let (t, rest) ← time? rest
      let (o, rest) ← offset? rest
      if rest.isEmpty then return .moment (String.ofList (d ++ 'T' :: t ++ o)) else none
    else none
  | none => do
    let (t, rest) ← time? cs
    if rest.isEmpty then return .moment (String.ofList t) else none

def scalar? (cs : List Char) : Option Toml :=
  if cs == ['t', 'r', 'u', 'e'] then some (.bool true)
  else if cs == ['f', 'a', 'l', 's', 'e'] then some (.bool false)
  else (moment? cs).or ((float? cs).or (integer? cs))

end Supervisor.Toml
