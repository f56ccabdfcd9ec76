import Supervisor.Toml.Basic
/-!
# TOML strings, keys and comments

Each reader takes what it reads off the front of a text, or refuses.
-/
namespace Supervisor.Toml

abbrev Rest := List Char

def isGap (c : Char) : Bool := c == ' ' || c == '\t'

def skipGap (cs : List Char) : Rest := cs.dropWhile isGap

/-- May the character stand in a comment or in a string on one line? -/
def isPlain (c : Char) : Bool := c == '\t' || (0x20 ≤ c.toNat && c.toNat != 0x7F)

def newLine? : List Char → Option Rest
  | '\n' :: cs => some cs
  | '\r' :: '\n' :: cs => some cs
  | _ => none

def skipComment (cs : List Char) : Rest :=
  match cs with
  | '#' :: cs => cs.dropWhile isPlain
  | cs => cs

/-- The end of a line: blanks, a comment, and a line break or the end of the text. -/
def lineEnd? (cs : List Char) : Option Rest :=
  match skipComment (skipGap cs) with
  | [] => some []
  | cs => newLine? cs

/-- Blanks, comments and line breaks between the items of an array. -/
def skipLines (cs : List Char) : Nat → Rest
  | 0 => cs
  | fuel + 1 =>
    let next := skipComment (skipGap cs)
    match newLine? next with
    | some rest => skipLines rest fuel
    | none => next

def hexValue? (cs : List Char) : Option Nat :=
  cs.foldl (fun n c => n.bind fun n =>
    if c.isDigit then some (n * 16 + (c.toNat - 48))
    else if 'a' ≤ c && c ≤ 'f' then some (n * 16 + (c.toNat - 87))
    else if 'A' ≤ c && c ≤ 'F' then some (n * 16 + (c.toNat - 55))
    else none) (some 0)

/-- A character given by `n` hexadecimal digits. -/
def byNumber? (n : Nat) (cs : List Char) : Option (Char × Rest) := do
  let ds := cs.take n
  if ds.length != n then none
  else
    let v ← hexValue? ds
    if v < 0xD800 || (0xE000 ≤ v && v < 0x110000) then return (Char.ofNat v, cs.drop n) else none

/-- What follows a backslash. -/
def escape? : List Char → Option (Char × Rest)
  | 'b' :: cs => some ('\x08', cs)
  | 't' :: cs => some ('\t', cs)
  | 'n' :: cs => some ('\n', cs)
  | 'f' :: cs => some ('\x0c', cs)
  | 'r' :: cs => some ('\r', cs)
  | '"' :: cs => some ('"', cs)
  | '\\' :: cs => some ('\\', cs)
  | 'u' :: cs => byNumber? 4 cs
  | 'U' :: cs => byNumber? 8 cs
  | _ => none

/-- A basic string after its opening quote. -/
def basic? : Nat → List Char → List Char → Option (String × Rest)
  | 0, _, _ => none
  | _, _, [] => none
  | fuel + 1, acc, c :: cs =>
    if c == '"' then some (String.ofList acc.reverse, cs)
    else if c == '\\' then (escape? cs).bind fun (d, rest) => basic? fuel (d :: acc) rest
    else if isPlain c then basic? fuel (c :: acc) cs
    else none

def literal? (cs : List Char) : Option (String × Rest) :=
  let body := cs.takeWhile fun c => isPlain c && c != '\''
  match cs.drop body.length with
  | '\'' :: rest => some (String.ofList body, rest)
  | _ => none

/-- Blanks and line breaks. -/
def skipBreaks (cs : List Char) : Nat → Rest
  | 0 => cs
  | fuel + 1 =>
    match newLine? (skipGap cs) with
    | some rest => skipBreaks rest fuel
    | none => skipGap cs

/-- What is skipped after a backslash at the end of a line; there is at least one line break. -/
def continuation? (cs : List Char) : Option Rest :=
  (newLine? (skipGap cs)).map fun rest => skipBreaks rest rest.length

/-- How many quotes stand at the front. -/
def countQuotes (q : Char) (cs : List Char) : Nat := (cs.takeWhile (· == q)).length

/-- A run of `n` quotes inside a string of several lines: fewer than three are text, three to five
end the string, with the first ones as text. -/
def quoteRun (q : Char) (acc : List Char) (n : Nat) : Option (List Char) :=
  if n ≤ 5 then some (List.replicate (n - 3) q ++ acc) else none

def longBasic? : Nat → List Char → List Char → Option (String × Rest)
  | 0, _, _ => none
  | _, _, [] => none
  | fuel + 1, acc, c :: cs =>
    if c == '"' then
      let n := countQuotes '"' (c :: cs)
      if n < 3 then longBasic? fuel (List.replicate n '"' ++ acc) (cs.drop (n - 1))
      else (quoteRun '"' acc n).map fun acc => (String.ofList acc.reverse, cs.drop (n - 1))
    else if c == '\\' then
      match continuation? cs with
      | some rest => longBasic? fuel acc rest
      | none => (escape? cs).bind fun (d, rest) => longBasic? fuel (d :: acc) rest
    else match newLine? (c :: cs) with
      | some rest => longBasic? fuel ('\n' :: acc) rest
      | none => if isPlain c then longBasic? fuel (c :: acc) cs else none

def longLiteral? : Nat → List Char → List Char → Option (String × Rest)
  | 0, _, _ => none
  | _, _, [] => none
  | fuel + 1, acc, c :: cs =>
    if c == '\'' then
      let n := countQuotes '\'' (c :: cs)
      if n < 3 then longLiteral? fuel (List.replicate n '\'' ++ acc) (cs.drop (n - 1))
      else (quoteRun '\'' acc n).map fun acc => (String.ofList acc.reverse, cs.drop (n - 1))
    else match newLine? (c :: cs) with
      | some rest => longLiteral? fuel ('\n' :: acc) rest
      | none => if isPlain c then longLiteral? fuel (c :: acc) cs else none

def afterFirstBreak (cs : List Char) : Rest := (newLine? cs).getD cs

/-- A string of any kind, on one line or on several. -/
def string? (cs : List Char) : Option (String × Rest) :=
  match cs with
  | '"' :: '"' :: '"' :: rest => longBasic? (rest.length + 1) [] (afterFirstBreak rest)
  | '"' :: rest => basic? (rest.length + 1) [] rest
  | '\'' :: '\'' :: '\'' :: rest => longLiteral? (rest.length + 1) [] (afterFirstBreak rest)
  | '\'' :: rest => literal? rest
  | _ => none

def isBare (c : Char) : Bool := c.isAlphanum || c == '-' || c == '_'

def simpleKey? (cs : List Char) : Option (String × Rest) :=
  match cs with
  | '"' :: rest => basic? (rest.length + 1) [] rest
  | '\'' :: rest => literal? rest
  | cs =>
    let name := cs.takeWhile isBare
    if name.isEmpty then none else some (String.ofList name, cs.drop name.length)

/-- A key of one or more parts with dots between them. -/
def key? : Nat → List Char → Option (List String × Rest)
  | 0, _ => none
  | fuel + 1, cs => do
    let (name, cs) ← simpleKey? (skipGap cs)
    match skipGap cs with
    | '.' :: rest => do
      let (names, rest) ← key? fuel rest
      return (name :: names, rest)
    | rest => return ([name], rest)

/-- How deep keys and values may be nested. -/
def nestingLimit : Nat := 80

end Supervisor.Toml
