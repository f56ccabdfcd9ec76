import Supervisor.Decimal.Binary64
/-!
# Shortest decimal text of a double

`shortest` finds the decimal with the fewest digits that rounds to a given double, the nearest
one if several do. `Layout` says how its digits are written down.
-/
namespace Supervisor.Decimal

/-- A positive decimal `digits · 10 ^ power`. -/
structure Scaled where
  digits : Nat
  power : Int
deriving DecidableEq, Repr, Inhabited

namespace Binary64

/-- Four times the value, and the two ends of the interval that rounds to it, over one common
denominator `4 · 2 ^ -exponent`. The lower end is half as far when the mantissa is least. -/
structure Interval where
  lower : Nat
  value : Nat
  upper : Nat
  denominator : Nat
  closed : Bool

def interval (x : Binary64) : Interval :=
  let unit := scaleUp x.exponent
  let low := if x.mantissa == Nat.pow 2 52 && x.exponent != leastExponent then 1 else 2
  { lower := (4 * x.mantissa - low) * unit
    value := 4 * x.mantissa * unit
    upper := (4 * x.mantissa + 2) * unit
    denominator := 4 * scaleUp (-x.exponent)
    closed := x.mantissa % 2 == 0 }

/-- Does `digits · 10 ^ power` lie in the interval? -/
def Interval.contains (i : Interval) (s : Scaled) : Bool :=
  let point := s.digits * Nat.pow 10 s.power.toNat * i.denominator
  let unit := Nat.pow 10 (-s.power).toNat
  if i.closed then i.lower * unit ≤ point && point ≤ i.upper * unit
  else i.lower * unit < point && point < i.upper * unit

/-- The two neighbours of the value on the grid of multiples of `10 ^ power`, the nearer one
first; of two equally near ones the even one is first. -/
def Interval.neighbours (i : Interval) (power : Int) : List Scaled :=
  let num := i.value * Nat.pow 10 (-power).toNat
  let den := i.denominator * Nat.pow 10 power.toNat
  let below := num / den
  let nearest := roundDiv num den
  let other := if nearest == below then below + 1 else below
  [⟨nearest, power⟩, ⟨other, power⟩]

/-- The decimal exponent of the leading digit of `num / den`. -/
def leadingPower (num den : Nat) : Int :=
  let guess : Int := ((num.log2 : Int) - den.log2) * 30103 / 100000 - 1
  let reached (k : Int) : Bool := den * Nat.pow 10 k.toNat ≤ num * Nat.pow 10 (-k).toNat
  if reached (guess + 2) then guess + 2 else if reached (guess + 1) then guess + 1 else guess

def searchGrids (i : Interval) (top : Int) : Nat → Nat → Scaled
  | 0, _ => (i.neighbours (top - 16)).headD ⟨0, 0⟩
  | left + 1, count =>
    match (i.neighbours (top - count)).find? i.contains with
    | some s => s
    | none => searchGrids i top left (count + 1)

def dropZeros (s : Scaled) : Nat → Scaled
  | 0 => s
  | n + 1 => if s.digits % 10 == 0 && s.digits != 0 then dropZeros ⟨s.digits / 10, s.power + 1⟩ n else s

/-- The shortest decimal that reads back as the magnitude of `x`. -/
def shortest (x : Binary64) : Scaled :=
  if x.isZero then ⟨0, 0⟩
  else
    let i := x.interval
    dropZeros (searchGrids i (leadingPower i.value i.denominator) 17 0) 17

end Binary64

/-- How a decimal is written: positionally while the exponent of its leading digit lies in a
range, else with an exponent. A positional text always has a point. -/
structure Layout where
  leastPositional : Int
  greatestPositional : Int
  plusSign : Bool

namespace Layout

def zeros (n : Nat) : List Char := List.replicate n '0'

def digitsOf (n : Nat) : List Char := (Nat.toDigits 10 n)

def padded (width n : Nat) : List Char :=
  let ds := digitsOf n
  zeros (width - ds.length) ++ ds

def positional (digits : List Char) (power : Int) : List Char :=
  let whole : Int := digits.length + power
  if 0 ≤ power then digits ++ zeros power.toNat ++ ['.', '0']
  else if 0 < whole then digits.take whole.toNat ++ '.' :: digits.drop whole.toNat
  else ['0', '.'] ++ zeros (-whole).toNat ++ digits

def withExponent (l : Layout) (digits : List Char) (lead : Int) : List Char :=
  let body := match digits with
    | [] => []
    | [d] => [d]
    | d :: rest => d :: '.' :: rest
  let sign := if lead < 0 then ['-'] else if l.plusSign then ['+'] else []
  body ++ 'e' :: sign ++ digitsOf lead.natAbs

def magnitude (l : Layout) (x : Binary64) : List Char :=
  if x.isZero then ['0', '.', '0']
  else
    let s := x.shortest
    let digits := digitsOf s.digits
    let lead : Int := digits.length + s.power - 1
    if l.leastPositional ≤ lead && lead ≤ l.greatestPositional then positional digits s.power
    else l.withExponent digits lead

def write (l : Layout) (x : Binary64) : List Char :=
  if x.negative then '-' :: l.magnitude x else l.magnitude x

end Layout

end Supervisor.Decimal
