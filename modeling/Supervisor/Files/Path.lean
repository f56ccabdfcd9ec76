/-!
# Paths

A path is the text it was given as. Two paths are the same if they have the same components:
repeated and final slashes do not count, nor does `.` except as the first component.
-/
namespace Supervisor

structure Path where
  text : String
deriving DecidableEq, Repr, Inhabited

namespace Path

inductive Component
  | root
  | here
  | up
  | name (s : String)
deriving DecidableEq, Repr

/-- The texts between the slashes. -/
def segments (p : Path) : List String :=
  (p.text.toList.splitOn '/').map String.ofList

def isAbsolute (p : Path) : Bool := p.text.toList.head? == some '/'

def componentsOf : List String → List Component
  | [] => []
  | s :: rest =>
    if s == "" || s == "." then componentsOf rest
    else if s == ".." then .up :: componentsOf rest
    else .name s :: componentsOf rest

def components (p : Path) : List Component :=
  if p.isAbsolute then .root :: componentsOf p.segments
  else match p.segments with
    | "." :: rest => .here :: componentsOf rest
    | segs => componentsOf segs

def Component.text : Component → String
  | .root => ""
  | .here => "."
  | .up => ".."
  | .name s => s

/-- The path with these components and nothing between them but single slashes. -/
def ofComponents : List Component → Path
  | [.root] => ⟨"/"⟩
  | cs => ⟨String.intercalate "/" (cs.map Component.text)⟩

/-- Sameness by components. -/
def same (p q : Path) : Bool := p.components == q.components

def sameOption : Option Path → Option Path → Bool
  | none, none => true
  | some p, some q => p.same q
  | _, _ => false

/-- The path of `name` below `base`; an absolute name stands for itself. -/
def join (base name : Path) : Path :=
  if name.isAbsolute then name
  else if base.text.toList.getLast? == some '/' || base.text == "" then ⟨base.text ++ name.text⟩
  else ⟨base.text ++ "/" ++ name.text⟩

def fileName? (p : Path) : Option String :=
  match p.components.getLast? with
  | some (.name s) => some s
  | _ => none

/-- What follows the last dot of the file name; a dot that starts the name does not count. -/
def extension? (p : Path) : Option String :=
  p.fileName?.bind fun name =>
    let cs := name.toList
    let after := cs.reverse.takeWhile (· != '.')
    if after.length == cs.length || after.length + 1 == cs.length then none
    else some (String.ofList after.reverse)

/-- Lower-case ASCII letters. -/
def lower (s : String) : String := s.map Char.toLower

def hasExtension (p : Path) (e : String) : Bool :=
  match p.extension? with
  | some x => lower x == lower e
  | none => false

@[simp] theorem same_refl (p : Path) : p.same p = true := by simp [same]

theorem same_comm (p q : Path) : p.same q = q.same p := by
  simp [same, Bool.beq_comm]

theorem same_trans {p q r : Path} (h : p.same q = true) (k : q.same r = true) : p.same r = true := by
  simp_all [same]

end Path

end Supervisor
