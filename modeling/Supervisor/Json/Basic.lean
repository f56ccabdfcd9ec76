import Supervisor.Decimal.Binary64
import Supervisor.Table
/-!
# JSON values

Whole numbers from `-2 ^ 63` to `2 ^ 64 - 1` are kept exactly, all others are doubles. The members
of an object that was read are in ascending order of their names, each name once; an object that a
program writes has its members in the order of writing.
-/
namespace Supervisor

inductive Json.Number
  | whole (z : Int)
  | double (x : Decimal.Binary64)
deriving DecidableEq, Repr

inductive Json
  | null
  | bool (b : Bool)
  | number (n : Json.Number)
  | string (s : String)
  | array (items : List Json)
  | object (members : List (String × Json))
deriving Repr, Inhabited

namespace Json

/-- Equality of numbers: a whole number differs from every double, and the two zeros are equal. -/
def Number.same : Number → Number → Bool
  | .whole a, .whole b => a == b
  | .double x, .double y => x.same y
  | _, _ => false

mutual

/-- Equality of values. -/
def same : Json → Json → Bool
  | .null, .null => true
  | .bool a, .bool b => a == b
  | .number a, .number b => a.same b
  | .string a, .string b => a == b
  | .array a, .array b => sameItems a b
  | .object a, .object b => sameMembers a b
  | _, _ => false

def sameItems : List Json → List Json → Bool
  | [], [] => true
  | a :: as, b :: bs => same a b && sameItems as bs
  | _, _ => false

def sameMembers : List (String × Json) → List (String × Json) → Bool
  | [], [] => true
  | (n, a) :: as, (m, b) :: bs => n == m && same a b && sameMembers as bs
  | _, _ => false

end

def int (z : Int) : Json := .number (.whole z)

def nat (n : Nat) : Json := .number (.whole n)

def isNull : Json → Bool
  | .null => true
  | _ => false

def isObject : Json → Bool
  | .object _ => true
  | _ => false

/-- The member of an object with a given name. -/
def member? (name : String) : Json → Option Json
  | .object ms => Table.find? ms name
  | _ => none

def text? : Json → Option String
  | .string s => some s
  | _ => none

/-- The value as a natural number below `2 ^ 64`. -/
def nat? : Json → Option Nat
  | .number (.whole z) => if 0 ≤ z then some z.toNat else none
  | _ => none

mutual

/-- The same value with the members of every object in ascending order, the last of a name kept. -/
def sorted : Json → Json
  | .array items => .array (sortedItems items)
  | .object ms => .object (sortedMembers ms [])
  | j => j

def sortedItems : List Json → List Json
  | [] => []
  | j :: rest => sorted j :: sortedItems rest

def sortedMembers : List (String × Json) → Table Json → Table Json
  | [], t => t
  | (n, j) :: rest, t => sortedMembers rest (t.insert n (sorted j))

end

end Json

end Supervisor
