import Supervisor.Decimal.Shortest
/-!
# Durations

A span of time in nanoseconds, written in its largest fitting unit without trailing zeros.
-/
namespace Supervisor

structure Duration where
  nanos : Nat
deriving DecidableEq, Repr, Inhabited

namespace Duration
open Decimal.Layout (digitsOf padded)

def ofSeconds (n : Nat) : Duration := ⟨n * 1000000000⟩

def ofMillis (n : Nat) : Duration := ⟨n * 1000000⟩

def seconds (d : Duration) : Nat := d.nanos / 1000000000

def millis (d : Duration) : Nat := d.nanos / 1000000

/-- After how many milliseconds a clock that counts them finds that the time is up. -/
def ticks (d : Duration) : Nat := (d.nanos + 999999) / 1000000

theorem ticks_ofMillis (n : Nat) : (ofMillis n).ticks = n := by
  simp only [ticks, ofMillis]
  omega

def isZero (d : Duration) : Bool := d.nanos == 0

/-- `amount` in a unit of `10 ^ places`. -/
def decimalChars (amount places : Nat) : List Char :=
  let fraction := (padded places (amount % Nat.pow 10 places)).reverse.dropWhile (· == '0')
  digitsOf (amount / Nat.pow 10 places) ++ if fraction.isEmpty then [] else '.' :: fraction.reverse

def chars (d : Duration) : List Char :=
  if 1000000000 ≤ d.nanos then decimalChars d.nanos 9 ++ ['s']
  else if 1000000 ≤ d.nanos then decimalChars d.nanos 6 ++ ['m', 's']
  else if 1000 ≤ d.nanos then decimalChars d.nanos 3 ++ ['µ', 's']
  else digitsOf d.nanos ++ ['n', 's']

def text (d : Duration) : String := String.ofList d.chars

end Duration

end Supervisor
