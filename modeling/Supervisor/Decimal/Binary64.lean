/-!
# Double precision numbers

A finite double is `mantissa · 2 ^ exponent` with a sign. `ofRatio` rounds a ratio of natural
numbers to the nearest double, a half to the even neighbour, and says when the result is too large.
-/
namespace Supervisor.Decimal

/-- A finite double. The mantissa is below `2 ^ 53`, and at least `2 ^ 52` unless the exponent is
the least one, `-1074`; so equal numbers of one sign have equal fields. -/
structure Binary64 where
  negative : Bool
  mantissa : Nat
  exponent : Int
deriving DecidableEq, Repr, Inhabited

namespace Binary64

def leastExponent : Int := -1074

def greatestExponent : Int := 971

def zero (negative : Bool) : Binary64 := ⟨negative, 0, leastExponent⟩

def isZero (x : Binary64) : Bool := x.mantissa == 0

def withSign (x : Binary64) (negative : Bool) : Binary64 := { x with negative }

/-- Equality of values: the two zeros are equal. -/
def same (x y : Binary64) : Bool := x == y || (x.isZero && y.isZero)

theorem same_refl (x : Binary64) : x.same x = true := by simp [same]

theorem same_comm (x y : Binary64) : x.same y = y.same x := by
  simp [same, Bool.beq_comm, Bool.and_comm]

/-- `2 ^ q` for `q ≥ 0`, and one otherwise. -/
def scaleUp (q : Int) : Nat := Nat.pow 2 q.toNat

/-- The nearest natural number to `num / den`; a half goes to the even neighbour. -/
def roundDiv (num den : Nat) : Nat :=
  let below := num / den
  let twice := 2 * (num % den)
  if twice < den then below
  else if den < twice then below + 1
  else if below % 2 == 0 then below else below + 1

/-- The exponent at which `num / den` has 53 binary digits before the point. -/
def fittingExponent (num den : Nat) : Int :=
  let guess : Int := (num.log2 : Int) - den.log2 - 52
  let scaled := num * scaleUp (-guess) / (den * scaleUp guess)
  max leastExponent (if scaled < Nat.pow 2 52 then guess - 1 else guess)

/-- The double nearest to `num / den`, or nothing if that lies beyond the greatest double. -/
def ofRatio (negative : Bool) (num den : Nat) : Option Binary64 :=
  if num == 0 then some (zero negative)
  else
    let q := fittingExponent num den
    let m := roundDiv (num * scaleUp (-q)) (den * scaleUp q)
    let x : Binary64 := if m == Nat.pow 2 53 then ⟨negative, Nat.pow 2 52, q + 1⟩ else ⟨negative, m, q⟩
    if x.exponent > greatestExponent then none else some x

def ofNat? (negative : Bool) (n : Nat) : Option Binary64 := ofRatio negative n 1

/-- The magnitude as a ratio. -/
def numerator (x : Binary64) : Nat := x.mantissa * scaleUp x.exponent

def denominator (x : Binary64) : Nat := scaleUp (-x.exponent)

/-- The rounded power of ten for `k ≤ 308`. -/
def powerOfTen (k : Nat) : Binary64 := (ofNat? false (Nat.pow 10 k)).getD (zero false)

def mul (x y : Binary64) : Option Binary64 :=
  ofRatio (x.negative != y.negative) (x.numerator * y.numerator) (x.denominator * y.denominator)

def div (x y : Binary64) : Option Binary64 :=
  ofRatio (x.negative != y.negative) (x.numerator * y.denominator) (x.denominator * y.numerator)

/-- A decimal `digits · 10 ^ power`, rounded twice: the digits first, then the product with, or
the quotient by, a rounded power of ten. Powers beyond 308 are taken off in steps of 308. -/
def scaleByTen (x : Binary64) (power : Int) : Option Binary64 :=
  if 0 ≤ power then
    if power ≤ 308 then x.mul (powerOfTen power.toNat)
    else if x.isZero then some x else none
  else
    if -308 ≤ power then x.div (powerOfTen (-power).toNat)
    else if x.isZero then some x
    else (x.div (powerOfTen 308)).bind fun y => y.scaleByTen (power + 308)
termination_by (-power).toNat
decreasing_by omega

def ofDecimal (negative : Bool) (digits : Nat) (power : Int) : Option Binary64 :=
  ((ofNat? false digits).bind (·.scaleByTen power)).map (·.withSign negative)

end Binary64

end Supervisor.Decimal
