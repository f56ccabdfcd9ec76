import Supervisor.Toml.Document
import Supervisor.Json.Shape
/-!
# Typed data in TOML

Reads values of a shape from TOML. There is no null: an optional field is there or not. Items that
an array has beyond the fields of a record do not count.
-/
namespace Supervisor

/-- The name under which a moment stands as an object. -/
def Toml.momentName : String := "$__toml_private_datetime"

namespace Toml

mutual

def toJson : Toml → Json
  | .string s => .string s
  | .whole z => .int z
  | .double (some x) => .number (.double x)
  | .double none => .null
  | .bool b => .bool b
  | .moment text => .object [(momentName, .string text)]
  | .array items => .array (itemsToJson items)
  | .table entries => .object (entriesToJson entries)

def itemsToJson : List Toml → List Json
  | [] => []
  | t :: rest => t.toJson :: itemsToJson rest

def entriesToJson : List (String × Toml) → List (String × Json)
  | [] => []
  | (n, t) :: rest => (n, t.toJson) :: entriesToJson rest

end

/-- The entries of a table; a moment is a table of one entry. -/
def entries? : Toml → Option (List (String × Toml))
  | .table entries => some entries
  | .moment text => some [(momentName, .string text)]
  | _ => none

end Toml

namespace Json

def Absent.value? {α : Type} : Absent α → Option α
  | .default a | .implied a => some a
  | .required => none

def Absent.positional? {α : Type} : Absent α → Option α
  | .default a => some a
  | .implied _ | .required => none

mutual

def Shape.readToml : {α : Type} → Shape α → Toml → Option α
  | _, .text, t =>
    match t with
    | .string s => some s
    | _ => none
  | _, .word _ read _, t =>
    match t with
    | .string s => (read s).toOption
    | _ => none
  | _, .natural wanted bits, t =>
    match t with
    | .whole z => (readNatural wanted bits (.whole z)).toOption
    | _ => none
  | _, .integer, t =>
    match t with
    | .whole z => some z
    | _ => none
  | _, .flag, t =>
    match t with
    | .bool b => some b
    | _ => none
  | _, .any, t => some t.toJson
  | _, .optional s, t => (s.readToml t).map some
  | _, .list s, t =>
    match t with
    | .array items => items.mapM s.readToml
    | _ => none
  | _, .table s, t =>
    t.entries?.bind fun es =>
      (es.mapM fun e : String × Toml => (s.readToml e.2).map fun a => (e.1, a)).map Table.ofList
  | _, .choice variants _, t =>
    match t with
    | .string s => variants.lookup s
    | _ => none
  | _, .record _ fields make _, t =>
    match t with
    | .array items => (fields.rowToml items).map make
    | t => t.entries?.bind fun es => (fields.entriesToml es).map make

def Fields.entriesToml : {ρ : Type} → Fields ρ → List (String × Toml) → Option ρ
  | _, .nil, _ => some ()
  | _, .cons n absent _ s rest, es => do
    let a ← match es.lookup n with
      | some t => s.readToml t
      | none => absent.value?
    let row ← rest.entriesToml es
    return (a, row)

def Fields.rowToml : {ρ : Type} → Fields ρ → List Toml → Option ρ
  | _, .nil, _ => some ()
  | _, .cons _ absent _ s rest, items => do
    let a ← match items with
      | t :: _ => s.readToml t
      | [] => absent.positional?
    let row ← rest.rowToml items.tail
    return (a, row)

end

end Json

end Supervisor
