import Supervisor.Json.Basic
import Supervisor.Json.Mishap
/-!
# Numerals

The digits of a JSON number as they stand in a text, and the number they denote. A numeral without
point and exponent denotes a whole number if it fits 64 bits. In all others the leading digits that
fit 64 bits count, with a power of ten.
-/
namespace Supervisor.Json

structure Exponent where
  negative : Bool
  digits : List Nat
deriving DecidableEq, Repr

structure Numeral where
  negative : Bool
  whole : List Nat
  fraction : List Nat
  hasPoint : Bool
  exponent : Option Exponent
deriving DecidableEq, Repr

namespace Numeral

def wordLimit : Nat := Nat.pow 2 64 - 1

def exponentLimit : Nat := Nat.pow 2 31 - 1

/-- Takes digits in while the value stays within `limit`; the rest is returned. -/
def absorb (limit : Nat) : Nat → List Nat → Nat × List Nat
  | n, [] => (n, [])
  | n, d :: rest => if n * 10 + d ≤ limit then absorb limit (n * 10 + d) rest else (n, d :: rest)

/-- The leading digits as a whole number and the power of ten that goes with them. -/
def significand (n : Numeral) : Nat × Int :=
  let (s, left) := absorb wordLimit 0 n.whole
  let (t, dropped) := absorb wordLimit s n.fraction
  (t, (left.length : Int) - ((n.fraction.length : Int) - dropped.length))

def isWhole (n : Numeral) : Bool :=
  !n.hasPoint && n.exponent.isNone && (absorb wordLimit 0 n.whole).2.isEmpty

def double (negative : Bool) (digits : Nat) (power : Int) : Except Mishap Number :=
  match Decimal.Binary64.ofDecimal negative digits power with
  | some x => .ok (.double x)
  | none => .error .numberRange

def value (n : Numeral) : Except Mishap Number :=
  let (digits, power) := n.significand
  if n.isWhole then
    if !n.negative then .ok (.whole digits)
    else if digits == 0 || digits > Nat.pow 2 63 then double true digits 0
    else .ok (.whole (-digits))
  else
    match n.exponent with
    | none => double n.negative digits power
    | some e =>
      let (k, left) := absorb exponentLimit 0 e.digits
      if left.isEmpty then
        double n.negative digits (if e.negative then power - k else power + k)
      else if digits != 0 && !e.negative then .error .numberRange
      else .ok (.double (.zero n.negative))

end Numeral

end Supervisor.Json
