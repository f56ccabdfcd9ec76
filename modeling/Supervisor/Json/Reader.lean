import Supervisor.Json.Outline
import Supervisor.Json.ReadError
/-!
# Reading JSON values

A value is read from an outline in the order of the text. Arrays and objects may be nested 127
deep. Of members with one name the last is kept. A value that is skipped may be nested without limit.
-/
namespace Supervisor.Json

variable {α : Type}

/-- How many levels of arrays and objects a text may open, counted down while it is read. -/
def depthLimit : Nat := 128

/-- The depth that is left inside one more array or object. -/
def enter : Nat → Except ReadError Nat
  | 0 | 1 => .error (.mishap .tooDeep)
  | d + 2 => .ok (d + 1)

def mishap (x : Except Mishap α) : Except ReadError α :=
  match x with
  | .ok a => .ok a
  | .error m => .error (.mishap m)

/-- The end of an array all of whose items are wanted. -/
def Ending.ofArray : Ending → Except ReadError Unit
  | .closed => .ok ()
  | .endOfText => .error (.mishap .endOfList)
  | .endAfterComma => .error (.mishap .endOfValue)
  | .trailingComma => .error (.mishap .trailingComma)
  | .noComma => .error (.mishap .noListComma)

/-- The end of an array of which no more items are wanted. -/
def Ending.ofFullArray : Ending → Except ReadError Unit
  | .closed => .ok ()
  | .endOfText => .error (.mishap .endOfList)
  | .trailingComma => .error (.mishap .trailingComma)
  | .endAfterComma | .noComma => .error (.mishap .trailingCharacters)

def Ending.ofObject : Ending → Except ReadError Unit
  | .closed => .ok ()
  | .endOfText => .error (.mishap .endOfObject)
  | .endAfterComma => .error (.mishap .endOfValue)
  | .trailingComma => .error (.mishap .trailingComma)
  | .noComma => .error (.mishap .noObjectComma)

/-- The end of an object after its last member. -/
def endObject (wrongName : Option Outline) (e : Ending) : Except ReadError Unit :=
  if wrongName.isSome then .error (.mishap .noKey) else e.ofObject

namespace Outline

mutual

def readAny (depth : Nat) : Outline → Except ReadError Json
  | .null => .ok .null
  | .bool b => .ok (.bool b)
  | .number n => (mishap n.value).map .number
  | .string b => (mishap b.text).map .string
  | .array items e => do
    let depth ← enter depth
    let items ← readItems depth items
    e.ofArray
    return .array items
  | .object members wrongName e => do
    let depth ← enter depth
    let members ← readMembers depth members []
    endObject wrongName e
    return .object members
  | .bad b => .error (.mishap b.wanted)
  | .missing m => .error (.mishap m)

def readItems (depth : Nat) : List Outline → Except ReadError (List Json)
  | [] => .ok []
  | o :: rest => do
    let j ← readAny depth o
    let js ← readItems depth rest
    return j :: js

def readMembers (depth : Nat) :
    List (StringBody × Outline) → Table Json → Except ReadError (Table Json)
  | [], t => .ok t
  | (b, o) :: rest, t => do
    let name ← mishap b.text
    let j ← readAny depth o
    readMembers depth rest (t.insert name j)

end

mutual

/-- Checks a value that nobody wants. -/
def skip : Outline → Except Mishap Unit
  | .null | .bool _ | .number _ => .ok ()
  | .string b => b.skip
  | .array items e => do
    skipItems items
    match e with
    | .closed => .ok ()
    | .endOfText => .error .endOfList
    | .endAfterComma => .error .endOfValue
    | .trailingComma => .error .noValue
    | .noComma => .error .noListComma
  | .object members wrongName e => do
    skipMembers members
    if wrongName.isSome then .error .noKey
    else match e with
      | .closed => .ok ()
      | .endOfText | .endAfterComma => .error .endOfObject
      | .trailingComma => .error .noKey
      | .noComma => .error .noObjectComma
  | .bad b => .error b.skipped
  | .missing m => .error m

def skipItems : List Outline → Except Mishap Unit
  | [] => .ok ()
  | o :: rest => do
    skip o
    skipItems rest

def skipMembers : List (StringBody × Outline) → Except Mishap Unit
  | [] => .ok ()
  | (b, o) :: rest => do
    b.skip
    skip o
    skipMembers rest

end

/-- What stands here, where something else is wanted. -/
def found : Outline → Except ReadError Found
  | .null => .ok .null
  | .bool b => .ok (.bool b)
  | .number n => (mishap n.value).map .number
  | .string b => (mishap b.text).map .string
  | .array _ _ => .ok .sequence
  | .object _ _ _ => .ok .map
  | .bad b => .error (.mishap b.wanted)
  | .missing m => .error (.mishap m)

def wrongType (o : Outline) (wanted : String) : Except ReadError α := do
  let f ← o.found
  .error (.wrongType f wanted)

end Outline

/-- The kind of a value. -/
def found : Json → Found
  | .null => .null
  | .bool b => .bool b
  | .number n => .number n
  | .string s => .string s
  | .array _ => .sequence
  | .object _ => .map

/-- What follows a value that was read to the end of a document. -/
def Document.finish (d : Document) (x : Except ReadError α) : Except ReadError α := do
  let a ← x
  if d.trailing then .error (.mishap .trailingCharacters) else .ok a

def Document.read (d : Document) : Except ReadError Json :=
  d.finish (d.value.readAny depthLimit)

/-- The value that a text holds. -/
def ofString (s : String) : Except ReadError Json := (Document.ofString s).read

end Supervisor.Json
