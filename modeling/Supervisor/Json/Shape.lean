import Supervisor.Json.Reader
/-!
# Shapes of typed data

A `Shape α` describes how values of type `α` stand in JSON. From one description come a reader of
texts (`readOutline`), a reader of values (`readJson`) and a writer (`write`). A record is read from
an object, where members that it does not know are skipped, or from an array with its fields in
order.
-/
namespace Supervisor.Json

/-- What a record takes for a field that is not there. -/
inductive Absent (α : Type)
  | default (a : α)
  /-- As `default` in an object; an array has to have the field. -/
  | implied (a : α)
  | required

mutual

inductive Shape : Type → Type 1
  | text : Shape String
  /-- A string that is read further. -/
  | word {α : Type} (wanted : String) (read : String → Except String α) (write : α → String) : Shape α
  | natural (wanted : String) (bits : Nat) : Shape Nat
  | integer : Shape Int
  | flag : Shape Bool
  | any : Shape Json
  | optional {α : Type} (s : Shape α) : Shape (Option α)
  | list {α : Type} (s : Shape α) : Shape (List α)
  | table {α : Type} (s : Shape α) : Shape (Table α)
  | choice {α : Type} (variants : List (String × α)) (write : α → String) : Shape α
  | record {α ρ : Type} (name : String) (fields : Fields ρ) (make : ρ → α) (parts : α → ρ) : Shape α

inductive Fields : Type → Type 1
  | nil : Fields Unit
  | cons {α ρ : Type} (name : String) (absent : Absent α) (omitted : α → Bool) (s : Shape α)
      (rest : Fields ρ) : Fields (α × ρ)

end

def Fields.size : {ρ : Type} → Fields ρ → Nat
  | _, .nil => 0
  | _, .cons _ _ _ _ rest => rest.size + 1

def recordName (name : String) : String := "struct " ++ name

def recordSize (name : String) (size : Nat) : String :=
  recordName name ++ " with " ++ toString size ++ (if size = 1 then " element" else " elements")

def readNatural (wanted : String) (bits : Nat) : Number → Except ReadError Nat
  | .whole z =>
    if 0 ≤ z && z < (Nat.pow 2 bits : Nat) then .ok z.toNat
    else .error (.wrongValue (.number (.whole z)) wanted)
  | n => .error (.wrongType (.number n) wanted)

def readInteger : Number → Except ReadError Int
  | .whole z =>
    if -(Nat.pow 2 63 : Nat) ≤ z && z < (Nat.pow 2 63 : Nat) then .ok z
    else .error (.wrongValue (.number (.whole z)) "i64")
  | n => .error (.wrongType (.number n) "i64")

def refusal {α : Type} : Except String α → Except ReadError α
  | .ok a => .ok a
  | .error reason => .error (.refused reason)

def findVariant {α : Type} (variants : List (String × α)) (name : String) : Except ReadError α :=
  match variants.lookup name with
  | some a => .ok a
  | none => .error (.unknownVariant name (variants.map (·.1)))

/-- The unit that stands beside a variant's name in an object. -/
def readUnit : Outline → Except ReadError Unit
  | .null => .ok ()
  | o => o.wrongType "unit"

/-- A variant that is written as an object with the variant's name and null. -/
def readVariantObject {α : Type} (variants : List (String × α))
    (members : List (StringBody × Outline)) (wrongName : Option Outline) (e : Ending) :
    Except ReadError α :=
  match members with
  | [] =>
    match wrongName, e with
    | some o, _ => o.wrongType "variant identifier"
    | none, .endOfText => .error (.mishap .endOfValue)
    | none, _ => .error (.mishap .noValue)
  | (b, o) :: rest => do
    let name ← mishap b.text
    let a ← findVariant variants name
    readUnit o
    if rest.isEmpty && wrongName.isNone then
      match e with
      | .closed => .ok a
      | .endOfText => .error (.mishap .endOfObject)
      | _ => .error (.mishap .noValue)
    else .error (.mishap .noValue)

/-- The values of a list of outlines, in order. -/
def readEach {α : Type} (read : Outline → Except ReadError α) : List Outline → Except ReadError (List α)
  | [] => .ok []
  | o :: rest => do
    let a ← read o
    let as ← readEach read rest
    return a :: as

def readEntries {α : Type} (read : Outline → Except ReadError α) :
    List (StringBody × Outline) → Table α → Except ReadError (Table α)
  | [], t => .ok t
  | (b, o) :: rest, t => do
    let name ← mishap b.text
    let a ← read o
    readEntries read rest (t.insert name a)

/-- Reads the members of a record in the order of the text. `check` reads the value of a member
that the record knows; the outcome is the list of the members it knows. -/
def readKnown (check : String → Option (Outline → Except ReadError Unit)) :
    List (StringBody × Outline) → List (String × Outline) → Except ReadError (List (String × Outline))
  | [], known => .ok known.reverse
  | (b, o) :: rest, known => do
    let name ← mishap b.text
    match check name with
    | none =>
      mishap o.skip
      readKnown check rest known
    | some read =>
      if (known.lookup name).isSome then .error (.duplicateField name)
      else
        read o
        readKnown check rest ((name, o) :: known)

/-- What an absent member stands for. -/
def Absent.inObject {α : Type} (name : String) : Absent α → Except ReadError α
  | .default a | .implied a => .ok a
  | .required => .error (.missingField name)

def Absent.inArray {α : Type} (wanted : String) (position : Nat) : Absent α → Except ReadError α
  | .default a => .ok a
  | .implied _ | .required => .error (.wrongLength position wanted)

mutual

def Shape.readOutline (depth : Nat) : {α : Type} → Shape α → Outline → Except ReadError α
  | _, .text, o =>
    match o with
    | .string b => mishap b.text
    | o => o.wrongType "a string"
  | _, .word wanted read _, o =>
    match o with
    | .string b => (mishap b.text).bind fun s => refusal (read s)
    | o => o.wrongType wanted
  | _, .natural wanted bits, o =>
    match o with
    | .number n => (mishap n.value).bind (readNatural wanted bits)
    | o => o.wrongType wanted
  | _, .integer, o =>
    match o with
    | .number n => (mishap n.value).bind readInteger
    | o => o.wrongType "i64"
  | _, .flag, o =>
    match o with
    | .bool b => .ok b
    | o => o.wrongType "a boolean"
  | _, .any, o => o.readAny depth
  | _, .optional s, o =>
    match o with
    | .null => .ok none
    | o => (s.readOutline depth o).map some
  | _, .list s, o =>
    match o with
    | .array items e => do
      let depth ← enter depth
      let as ← readEach (s.readOutline depth) items
      e.ofArray
      return as
    | o => o.wrongType "a sequence"
  | _, .table s, o =>
    match o with
    | .object members wrongName e => do
      let depth ← enter depth
      let t ← readEntries (s.readOutline depth) members []
      endObject wrongName e
      return t
    | o => o.wrongType "a map"
  | _, .choice variants _, o =>
    match o with
    | .string b => (mishap b.text).bind (findVariant variants)
    | .object members wrongName e => do
      let _ ← enter depth
      readVariantObject variants members wrongName e
    | .missing m => .error (.mishap m)
    | _ => .error (.mishap .noValue)
  | _, .record name fields make _, o =>
    match o with
    | .array items e => do
      let depth ← enter depth
      let (row, rest) ← fields.readRow depth (recordSize name fields.size) 0 items e
      if rest.isEmpty then e.ofFullArray else .error (.mishap .trailingCharacters)
      return make row
    | .object members wrongName e => do
      let depth ← enter depth
      let known ← readKnown (fun n => fields.check depth n) members []
      endObject wrongName e
      return make (← fields.readMembers depth known)
    | o => o.wrongType (recordName name)

/-- Reads a field by its name, for its errors. -/
def Fields.check (depth : Nat) : {ρ : Type} → Fields ρ → String →
    Option (Outline → Except ReadError Unit)
  | _, .nil, _ => none
  | _, .cons n _ _ s rest, name =>
    if n = name then some fun o => (s.readOutline depth o).map fun _ => ()
    else rest.check depth name

def Fields.readMembers (depth : Nat) : {ρ : Type} → Fields ρ → List (String × Outline) →
    Except ReadError ρ
  | _, .nil, _ => .ok ()
  | _, .cons n absent _ s rest, known => do
    let a ← match known.lookup n with
      | some o => s.readOutline depth o
      | none => absent.inObject n
    let row ← rest.readMembers depth known
    return (a, row)

/-- Reads fields from the items of an array; the items left over are returned. -/
def Fields.readRow (depth : Nat) : {ρ : Type} → Fields ρ → String → Nat → List Outline → Ending →
    Except ReadError (ρ × List Outline)
  | _, .nil, _, _, items, _ => .ok ((), items)
  | _, .cons _ absent _ s rest, wanted, position, items, e => do
    let a ← match items with
      | o :: _ => s.readOutline depth o
      | [] => e.ofArray.bind fun _ => absent.inArray wanted position
    let (row, left) ← rest.readRow depth wanted (position + 1) items.tail e
    return ((a, row), left)

end

/-- The items of a list of values. -/
def eachJson {α : Type} (read : Json → Except ReadError α) : List Json → Except ReadError (List α)
  | [] => .ok []
  | j :: rest => do
    let a ← read j
    let as ← eachJson read rest
    return a :: as

def entriesJson {α : Type} (read : Json → Except ReadError α) :
    List (String × Json) → Table α → Except ReadError (Table α)
  | [], t => .ok t
  | (n, j) :: rest, t => do
    let a ← read j
    entriesJson read rest (t.insert n a)

/-- Reads the members that a record knows, in their order, for the errors. -/
def checkKnown (check : String → Option (Json → Except ReadError Unit)) :
    List (String × Json) → Except ReadError Unit
  | [] => .ok ()
  | (n, j) :: rest => do
    match check n with
    | none => .ok ()
    | some read => read j
    checkKnown check rest

mutual

def Shape.readJson : {α : Type} → Shape α → Json → Except ReadError α
  | _, .text, j =>
    match j with
    | .string s => .ok s
    | j => .error (.wrongType (found j) "a string")
  | _, .word wanted read _, j =>
    match j with
    | .string s => refusal (read s)
    | j => .error (.wrongType (found j) wanted)
  | _, .natural wanted bits, j =>
    match j with
    | .number n => readNatural wanted bits n
    | j => .error (.wrongType (found j) wanted)
  | _, .integer, j =>
    match j with
    | .number n => readInteger n
    | j => .error (.wrongType (found j) "i64")
  | _, .flag, j =>
    match j with
    | .bool b => .ok b
    | j => .error (.wrongType (found j) "a boolean")
  | _, .any, j => .ok j
  | _, .optional s, j =>
    match j with
    | .null => .ok none
    | j => (s.readJson j).map some
  | _, .list s, j =>
    match j with
    | .array items => eachJson s.readJson items
    | j => .error (.wrongType (found j) "a sequence")
  | _, .table s, j =>
    match j with
    | .object members => entriesJson s.readJson members []
    | j => .error (.wrongType (found j) "a map")
  | _, .choice variants _, j =>
    match j with
    | .string s => findVariant variants s
    | .object [(n, v)] => do
      let a ← findVariant variants n
      if v.isNull then .ok a else .error (.wrongType (found v) "unit")
    | .object _ => .error (.wrongValue .map "map with a single key")
    | j => .error (.wrongType (found j) "string or map")
  | _, .record name fields make _, j =>
    match j with
    | .array items => do
      let row ← fields.rowJson (recordSize name fields.size) 0 items
      if items.length ≤ fields.size then return make row
      else .error (.wrongLength items.length "fewer elements in array")
    | .object members => do
      checkKnown (fun n => fields.checkJson n) members
      return make (← fields.membersJson members)
    | j => .error (.wrongType (found j) (recordName name))

def Fields.checkJson : {ρ : Type} → Fields ρ → String → Option (Json → Except ReadError Unit)
  | _, .nil, _ => none
  | _, .cons n _ _ s rest, name =>
    if n = name then some fun j => (s.readJson j).map fun _ => () else rest.checkJson name

def Fields.membersJson : {ρ : Type} → Fields ρ → List (String × Json) → Except ReadError ρ
  | _, .nil, _ => .ok ()
  | _, .cons n absent _ s rest, members => do
    let a ← match members.lookup n with
      | some j => s.readJson j
      | none => absent.inObject n
    let row ← rest.membersJson members
    return (a, row)

def Fields.rowJson : {ρ : Type} → Fields ρ → String → Nat → List Json → Except ReadError ρ
  | _, .nil, _, _, _ => .ok ()
  | _, .cons _ absent _ s rest, wanted, position, items => do
    let a ← match items with
      | j :: _ => s.readJson j
      | [] => absent.inArray wanted position
    let row ← rest.rowJson wanted (position + 1) items.tail
    return (a, row)

end

mutual

def Shape.write : {α : Type} → Shape α → α → Json
  | _, .text, s => .string s
  | _, .word _ _ write, a => .string (write a)
  | _, .natural _ _, n => .nat n
  | _, .integer, z => .int z
  | _, .flag, b => .bool b
  | _, .any, j => j
  | _, .optional s, a =>
    match a with
    | none => .null
    | some a => s.write a
  | _, .list s, as => .array (as.map s.write)
  | _, .table s, t => .object (t.map fun (n, a) => (n, s.write a))
  | _, .choice _ write, a => .string (write a)
  | _, .record _ fields _ parts, a => .object (fields.write (parts a))

/-- The members that are not omitted, in the order of the fields. -/
def Fields.write : {ρ : Type} → Fields ρ → ρ → List (String × Json)
  | _, .nil, _ => []
  | _, .cons n _ omitted s rest, (a, row) =>
    if omitted a then rest.write row else (n, s.write a) :: rest.write row

end

/-- Reads a text. -/
def Shape.ofString {α : Type} (s : Shape α) (text : String) : Except ReadError α :=
  let d := Document.ofString text
  d.finish (s.readOutline depthLimit d.value)

/-- For a field that is always written. -/
def kept {α : Type} (_ : α) : Bool := false

end Supervisor.Json
