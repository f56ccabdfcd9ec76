import Supervisor.Json.Token
/-!
# Outlines

The outline of a JSON text is its tree, with every place marked where reading has to stop. It keeps
what a reader may still want to tell apart: the order of the members, names given twice, and strings
and numerals as they are written. What is wrong with a text is decided by whoever reads the outline,
in the order of the text.
-/
namespace Supervisor.Json

/-- How an array or an object ends. -/
inductive Ending
  | closed
  /-- The text ends after the opening mark or after an item. -/
  | endOfText
  | endAfterComma
  | trailingComma
  | noComma
deriving DecidableEq, Repr

inductive Outline
  | null
  | bool (b : Bool)
  | number (n : Numeral)
  | string (b : StringBody)
  | array (items : List Outline) (ending : Ending)
  /-- A member whose name is no string has `wrongName` in place of it, and ends the list. -/
  | object (members : List (StringBody × Outline)) (wrongName : Option Outline) (ending : Ending)
  /-- A token that is no value. -/
  | bad (b : Break)
  /-- The text breaks off, or goes wrong, before the value. -/
  | missing (m : Mishap)
deriving Inhabited

namespace Outline

/-- The place of a value in the text read so far. -/
inductive Frame
  | item (before : List Outline)
  | member (before : List (StringBody × Outline)) (name : StringBody)

inductive Place
  | value (fs : List Frame)
  | item (before : List Outline) (fs : List Frame)
  | afterItem (items : List Outline) (fs : List Frame)
  | name (before : List (StringBody × Outline)) (fs : List Frame)
  | afterName (before : List (StringBody × Outline)) (name : StringBody) (fs : List Frame)
  | afterMember (members : List (StringBody × Outline)) (fs : List Frame)
  | finished (o : Outline)
  | trailing (o : Outline)

/-- Puts a value that is complete, or broken off, where it belongs. Lists of items are kept in
reverse while they grow. -/
def plug (o : Outline) : List Frame → Place
  | [] => .finished o
  | .item before :: fs => .afterItem (o :: before) fs
  | .member before name :: fs => .afterMember ((name, o) :: before) fs

/-- Ends the reading at a broken place: everything around it ends there too. -/
def cutOff (o : Outline) : List Frame → Outline
  | [] => o
  | .item before :: fs => cutOff (.array (o :: before).reverse .closed) fs
  | .member before name :: fs => cutOff (.object ((name, o) :: before).reverse none .closed) fs

def cutArray (items : List Outline) (e : Ending) (fs : List Frame) : Outline :=
  cutOff (.array items.reverse e) fs

def cutObject (members : List (StringBody × Outline)) (e : Ending) (fs : List Frame) : Outline :=
  cutOff (.object members.reverse none e) fs

/-- What stands where a value is wanted: a whole value, or the start of an array or object. -/
def atValue (t : Token) (fs : List Frame) : Place ⊕ Outline :=
  match t with
  | .null => .inl (plug .null fs)
  | .bool b => .inl (plug (.bool b) fs)
  | .number n => .inl (plug (.number n) fs)
  | .string b => if b.ending = .closed then .inl (plug (.string b) fs) else .inr (cutOff (.string b) fs)
  | .openArray => .inl (.item [] fs)
  | .openObject => .inl (.name [] fs)
  | .bad b => .inr (cutOff (.bad b) fs)
  | .closeArray | .closeObject | .colon | .comma => .inr (cutOff (.bad (.both .noValue)) fs)

/-- What a token that stands in place of a name would be as a value. -/
def ofToken : Token → Outline
  | .null => .null
  | .bool b => .bool b
  | .number n => .number n
  | .string b => .string b
  | .openArray => .array [] .closed
  | .openObject => .object [] none .closed
  | .bad b => .bad b
  | .closeArray | .closeObject | .colon | .comma => .bad (.both .noValue)

/-- Takes one token: the new place, or the outline where reading ends. -/
def step (p : Place) (t : Token) : Place ⊕ Outline :=
  match p with
  | .value fs => atValue t fs
  | .item before fs =>
    if t = .closeArray then
      if before.isEmpty then .inl (plug (.array [] .closed) fs)
      else .inr (cutArray before .trailingComma fs)
    else atValue t (.item before :: fs)
  | .afterItem items fs =>
    match t with
    | .comma => .inl (.item items fs)
    | .closeArray => .inl (plug (.array items.reverse .closed) fs)
    | _ => .inr (cutArray items .noComma fs)
  | .name before fs =>
    match t with
    | .string b =>
      if b.ending = .closed then .inl (.afterName before b fs)
      else .inr (cutObject ((b, .missing .endOfString) :: before) .closed fs)
    | .closeObject =>
      if before.isEmpty then .inl (plug (.object [] none .closed) fs)
      else .inr (cutObject before .trailingComma fs)
    | t => .inr (cutOff (.object before.reverse (some (ofToken t)) .closed) fs)
  | .afterName before name fs =>
    match t with
    | .colon => .inl (.value (.member before name :: fs))
    | _ => .inr (cutObject ((name, .missing .noColon) :: before) .closed fs)
  | .afterMember members fs =>
    match t with
    | .comma => .inl (.name members fs)
    | .closeObject => .inl (plug (.object members.reverse none .closed) fs)
    | _ => .inr (cutObject members .noComma fs)
  | .finished o => .inl (.trailing o)
  | .trailing o => .inl (.trailing o)

/-- The end of the text. -/
def finish : Place → Outline
  | .value fs => cutOff (.missing .endOfValue) fs
  | .item before fs => cutArray before (if before.isEmpty then .endOfText else .endAfterComma) fs
  | .afterItem items fs => cutArray items .endOfText fs
  | .name before fs => cutObject before (if before.isEmpty then .endOfText else .endAfterComma) fs
  | .afterName before name fs => cutObject ((name, .missing .endOfObject) :: before) .closed fs
  | .afterMember members fs => cutObject members .endOfText fs
  | .finished o | .trailing o => o

def isTrailing : Place → Bool
  | .trailing _ => true
  | _ => false

def build : Place → List Token → Outline × Bool
  | p, [] => (finish p, isTrailing p)
  | p, t :: rest =>
    match step p t with
    | .inl p => build p rest
    | .inr o => (o, false)

end Outline

/-- A text as a document: the outline of its first value, and whether anything follows it. -/
structure Document where
  value : Outline
  trailing : Bool

def Document.ofGlyphs (text : List Text.Glyph) : Document :=
  let (value, trailing) := Outline.build (.value []) (tokens text)
  ⟨value, trailing⟩

def Document.ofString (s : String) : Document := .ofGlyphs (Text.glyphsOf s)

end Supervisor.Json
