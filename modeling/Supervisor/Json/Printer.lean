import Supervisor.Json.Basic
import Supervisor.Decimal.Shortest
/-!
# Writing JSON

Two forms: `compact` without any blanks, and `pretty` with one item a line, indented by two spaces
a level, where empty arrays and objects stay on one line. Members are written in the order in which
the value holds them.
-/
namespace Supervisor.Json

/-- Doubles are written positionally from `1e-5` up to below `1e16`, else with a signed exponent. -/
def doubleLayout : Decimal.Layout := ⟨-5, 15, true⟩

def wholeChars (z : Int) : List Char :=
  if z < 0 then '-' :: Decimal.Layout.digitsOf z.natAbs else Decimal.Layout.digitsOf z.natAbs

def Number.chars : Number → List Char
  | .whole z => wholeChars z
  | .double x => doubleLayout.write x

def escapeChar (c : Char) : List Char :=
  if c == '"' then ['\\', '"']
  else if c == '\\' then ['\\', '\\']
  else if c == '\n' then ['\\', 'n']
  else if c == '\r' then ['\\', 'r']
  else if c == '\t' then ['\\', 't']
  else if c == '\x08' then ['\\', 'b']
  else if c == '\x0c' then ['\\', 'f']
  else if c.toNat < 0x20 then
    ['\\', 'u', '0', '0', Nat.digitChar (c.toNat / 16), Nat.digitChar (c.toNat % 16)]
  else [c]

def stringChars (s : String) : List Char :=
  '"' :: s.toList.flatMap escapeChar ++ ['"']

mutual

def compactChars : Json → List Char
  | .null => ['n', 'u', 'l', 'l']
  | .bool true => ['t', 'r', 'u', 'e']
  | .bool false => ['f', 'a', 'l', 's', 'e']
  | .number n => n.chars
  | .string s => stringChars s
  | .array [] => ['[', ']']
  | .array (j :: rest) => '[' :: compactChars j ++ compactItems rest
  | .object [] => ['\x7b', '\x7d']
  | .object ((n, j) :: rest) => '\x7b' :: stringChars n ++ ':' :: compactChars j ++ compactMembers rest

def compactItems : List Json → List Char
  | [] => [']']
  | j :: rest => ',' :: compactChars j ++ compactItems rest

def compactMembers : List (String × Json) → List Char
  | [] => ['\x7d']
  | (n, j) :: rest => ',' :: stringChars n ++ ':' :: compactChars j ++ compactMembers rest

end

def newLine (level : Nat) : List Char := '\n' :: List.replicate (2 * level) ' '

mutual

def prettyChars (level : Nat) : Json → List Char
  | .array [] => ['[', ']']
  | .array (j :: rest) =>
    '[' :: newLine (level + 1) ++ prettyChars (level + 1) j ++ prettyItems level rest
  | .object [] => ['\x7b', '\x7d']
  | .object ((n, j) :: rest) =>
    '\x7b' :: newLine (level + 1) ++ stringChars n ++ ':' :: ' ' :: prettyChars (level + 1) j
      ++ prettyMembers level rest
  | .null => ['n', 'u', 'l', 'l']
  | .bool true => ['t', 'r', 'u', 'e']
  | .bool false => ['f', 'a', 'l', 's', 'e']
  | .number n => n.chars
  | .string s => stringChars s

def prettyItems (level : Nat) : List Json → List Char
  | [] => newLine level ++ [']']
  | j :: rest => ',' :: newLine (level + 1) ++ prettyChars (level + 1) j ++ prettyItems level rest

def prettyMembers (level : Nat) : List (String × Json) → List Char
  | [] => newLine level ++ ['\x7d']
  | (n, j) :: rest =>
    ',' :: newLine (level + 1) ++ stringChars n ++ ':' :: ' ' :: prettyChars (level + 1) j
      ++ prettyMembers level rest

end

def compact (j : Json) : String := String.ofList (compactChars j)

def pretty (j : Json) : String := String.ofList (prettyChars 0 j)

end Supervisor.Json
