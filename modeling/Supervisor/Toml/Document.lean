import Supervisor.Toml.Scalar
import Supervisor.Toml.Text
/-!
# TOML documents

A document is read line by line into a tree of tables. A table remembers whether a header named it
or only implied it, and whether a dotted key made it; that decides what may still be added to it.
-/
namespace Supervisor.Toml

/-- What a name stands for while the document is read. -/
inductive Item
  | value (v : Toml)
  | table (implied dotted : Bool) (entries : List (String × Item))
  /-- The tables under a doubled header, the last one first. -/
  | tables (ts : List Item)
deriving Inhabited

namespace Item

mutual

def toToml : Item → Toml
  | .value v => v
  | .table _ _ es => .table (entriesToToml es)
  | .tables ts => .array (tablesToToml ts).reverse

def entriesToToml : List (String × Item) → List (String × Toml)
  | [] => []
  | (n, i) :: rest => (n, i.toToml) :: entriesToToml rest

def tablesToToml : List Item → List Toml
  | [] => []
  | i :: rest => i.toToml :: tablesToToml rest

end

def emptyTable : Item := .table false false []

/-- Changes the table at a path, making the tables that are missing. A dotted key does not reach
into a table that a header named. -/
def change (dotted : Bool) (f : Item → Option Item) : List String → Item → Option Item
  | [], i => f i
  | k :: rest, .table implied d es =>
    let put (i : Item) : Item := .table implied d (Table.insert k i es)
    match Table.find? es k with
    | none => (change dotted f rest (.table true dotted [])).map put
    | some (.value _) => none
    | some (.tables []) => none
    | some (.tables (t :: ts)) => (change dotted f rest t).map fun t => put (.tables (t :: ts))
    | some (.table i d' es') =>
      if dotted && !i then none
      else (change dotted f rest (.table i d' es')).map put
  | _ :: _, _ => none

/-- What stands at a path; of an array of tables its last one is followed. -/
def find? : List String → Item → Option Item
  | [], i => some i
  | [k], .table _ _ es => Table.find? es k
  | k :: rest, .table _ _ es =>
    match Table.find? es k with
    | some (.tables (t :: _)) => find? rest t
    | some i => find? rest i
    | none => none
  | _ :: _, _ => none

/-- Puts a value under a dotted key. -/
def assign (t : Item) (path : List String) (v : Item) : Option Item :=
  change true (fun
    | .table i d es =>
      if d == (path.length ≤ 1) || Table.contains es (path.getLastD "") then none
      else some (.table i d (Table.insert (path.getLastD "") v es))
    | _ => none) path.dropLast t

end Item

/-- The characters of a number, a truth value or a moment. -/
def isScalarChar (c : Char) : Bool :=
  c.isAlphanum || c == '+' || c == '-' || c == '_' || c == '.' || c == ':'

/-- A scalar at the front of a text. A date may have its time after a space. -/
def scalarAt? (cs : List Char) : Option (Toml × Rest) :=
  let word := cs.takeWhile isScalarChar
  let rest := cs.drop word.length
  let withTime := match date? word, rest with
    | some (_, []), ' ' :: more =>
      let time := more.takeWhile isScalarChar
      if (time.head?.map isDigit).getD false then some (word ++ ' ' :: time, more.drop time.length)
      else none
    | _, _ => none
  let (word, rest) := withTime.getD (word, rest)
  (scalar? word).map fun v => (v, rest)

mutual

/-- A value at the front of a text, with `fuel` for its parts and the levels that are left. -/
def value? : Nat → Nat → List Char → Option (Toml × Rest)
  | 0, _, _ => none
  | fuel + 1, levels, cs =>
    match cs with
    | '"' :: _ | '\'' :: _ => (string? cs).map fun (s, rest) => (.string s, rest)
    | '[' :: rest =>
      if levels ≤ 1 then none
      else (items? fuel (levels - 1) [] rest).map fun (vs, rest) => (.array vs, rest)
    | '\x7b' :: rest =>
      if levels ≤ 1 then none
      else match skipGap rest with
        | '\x7d' :: rest => some (.table [], rest)
        | rest => (pairs? fuel (levels - 1) Item.emptyTable rest).map fun (t, rest) => (t.toToml, rest)
    | cs => scalarAt? cs

/-- The items of an array after its opening mark or a comma. -/
def items? : Nat → Nat → List Toml → List Char → Option (List Toml × Rest)
  | 0, _, _, _ => none
  | fuel + 1, levels, acc, cs =>
    match skipLines cs cs.length with
    | ']' :: rest => some (acc.reverse, rest)
    | cs => do
      let (v, cs) ← value? fuel levels cs
      match skipLines cs cs.length with
      | ',' :: rest => items? fuel levels (v :: acc) rest
      | ']' :: rest => some ((v :: acc).reverse, rest)
      | _ => none

/-- The pairs of a table on one line. -/
def pairs? : Nat → Nat → Item → List Char → Option (Item × Rest)
  | 0, _, _, _ => none
  | fuel + 1, levels, t, cs => do
    let (path, cs) ← key? (fuel + 1) cs
    let cs ← expect '=' cs
    let (v, cs) ← value? fuel levels (skipGap cs)
    if nestingLimit ≤ path.length then none
    else
      let t ← t.assign path (.value v)
      match skipGap cs with
      | ',' :: rest => pairs? fuel levels t rest
      | '\x7d' :: rest => some (t, rest)
      | _ => none

end

/-- A document as far as it has been read. The table under the last header is kept apart until the
next header. -/
structure Reading where
  root : Item
  current : Item
  path : List String
  inArray : Bool

namespace Reading

def start : Reading := ⟨Item.emptyTable, Item.emptyTable, [], false⟩

/-- Puts the current table where its header says. -/
def settle (r : Reading) : Option Item :=
  if r.path.isEmpty then some r.current
  else
    let name := r.path.getLastD ""
    Item.change false (fun
      | .table i d es =>
        if r.inArray then
          match Table.find? es name with
          | some (.tables ts) => some (.table i d (Table.insert name (.tables (r.current :: ts)) es))
          | none => some (.table i d (Table.insert name (.tables [r.current]) es))
          | _ => none
        else some (.table i d (Table.insert name r.current es))
      | _ => none) r.path.dropLast r.root

/-- A header for one table. A table that was only implied so far keeps what is in it. -/
def header (r : Reading) (path : List String) : Option Reading := do
  let root ← r.settle
  let name := path.getLastD ""
  let parent ← Item.change false some path.dropLast root
  match Item.find? path parent with
  | none => return ⟨parent, Item.emptyTable, path, false⟩
  | some (.table true false es) =>
    let removed ← Item.change false (fun
      | .table i d es => some (.table i d (Table.erase name es))
      | _ => none) path.dropLast parent
    return ⟨removed, .table false false es, path, false⟩
  | some _ => none

/-- A header for one more table of an array. -/
def arrayHeader (r : Reading) (path : List String) : Option Reading := do
  let root ← r.settle
  let parent ← Item.change false some path.dropLast root
  match Item.find? path parent with
  | none | some (.tables _) => return ⟨parent, Item.emptyTable, path, true⟩
  | some _ => none

def keyValue (r : Reading) (path : List String) (v : Toml) : Option Reading := do
  let current ← r.current.assign path (.value v)
  return { r with current }

end Reading

/-- A key of a header or pair that is not nested too deep. -/
def boundedKey? (cs : List Char) : Option (List String × Rest) := do
  let (path, cs) ← key? (cs.length + 1) cs
  if nestingLimit ≤ path.length then none else return (path, cs)

/-- One line, from its first character that is no blank. -/
def line? (r : Reading) (cs : List Char) : Option (Reading × Rest) :=
  match cs with
  | '[' :: '[' :: cs => do
    let (path, cs) ← boundedKey? cs
    let cs ← expect ']' cs
    let cs ← expect ']' cs
    let cs ← lineEnd? cs
    return (← r.arrayHeader path, cs)
  | '[' :: cs => do
    let (path, cs) ← boundedKey? cs
    let cs ← expect ']' cs
    let cs ← lineEnd? cs
    return (← r.header path, cs)
  | cs => do
    let (path, cs) ← boundedKey? cs
    let cs ← expect '=' cs
    let (v, cs) ← value? (cs.length + 1) nestingLimit (skipGap cs)
    let cs ← lineEnd? cs
    return (← r.keyValue path v, cs)

def lines? : Nat → Reading → List Char → Option Reading
  | 0, _, _ => none
  | fuel + 1, r, cs =>
    match lineEnd? cs with
    | some [] => some r
    | some rest => lines? fuel r rest
    | none => (line? r (skipGap cs)).bind fun (r, rest) => if rest.isEmpty then some r else lines? fuel r rest

/-- The table that a text holds. A byte order mark may come first. -/
def ofString? (s : String) : Option Toml := do
  let cs := match s.toList with
    | '\uFEFF' :: cs => cs
    | cs => cs
  let r ← lines? (cs.length + 1) .start cs
  return (← r.settle).toToml

end Supervisor.Toml
