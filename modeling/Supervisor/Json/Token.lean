import Supervisor.Json.Numeral
import Supervisor.Json.StringBody
import Supervisor.Text.Utf8
/-!
# JSON tokens

The text of a JSON document as a list of tokens. A place where no token can be read becomes a `bad`
token, and nothing after it is read. `tokens` takes one glyph at a time through a `Mode`, which holds
the token that is being read.
-/
namespace Supervisor.Json

inductive Token
  | openArray
  | closeArray
  | openObject
  | closeObject
  | colon
  | comma
  | null
  | bool (b : Bool)
  | number (n : Numeral)
  | string (b : StringBody)
  | bad (b : Break)
deriving DecidableEq, Repr

namespace Token
open Text

/-- How far a numeral has been read. -/
inductive Stage
  | sign
  | zero
  | whole
  | point
  | fraction
  | mark
  | markSign
  | exponent
deriving DecidableEq

inductive Mode
  | between
  | word (rest : List Char) (t : Token)
  | string (pieces : List Piece)
  | escape (pieces : List Piece)
  | hex (pieces : List Piece) (bytes : Nat) (value : Option Nat)
  | numeral (n : Numeral) (s : Stage)
  | stopped

def isSpace (c : Char) : Bool := c == ' ' || c == '\t' || c == '\n' || c == '\r'

def digit? (c : Char) : Option Nat := if c.isDigit then some (c.toNat - 48) else none

def hexDigit? (c : Char) : Option Nat :=
  if c.isDigit then some (c.toNat - 48)
  else if 'a' ≤ c && c ≤ 'f' then some (c.toNat - 87)
  else if 'A' ≤ c && c ≤ 'F' then some (c.toNat - 55)
  else none

def emptyNumeral (negative : Bool) : Numeral := ⟨negative, [], [], false, none⟩

/-- Starts a token at a glyph. -/
def start : Glyph → List Token × Mode
  | none => ([.bad (.both .noValue)], .stopped)
  | some c =>
    if isSpace c then ([], .between)
    else match c with
      | '[' => ([.openArray], .between)
      | ']' => ([.closeArray], .between)
      | '\x7b' => ([.openObject], .between)
      | '\x7d' => ([.closeObject], .between)
      | ':' => ([.colon], .between)
      | ',' => ([.comma], .between)
      | '"' => ([], .string [])
      | 'n' => ([], .word ['u', 'l', 'l'] .null)
      | 't' => ([], .word ['r', 'u', 'e'] (.bool true))
      | 'f' => ([], .word ['a', 'l', 's', 'e'] (.bool false))
      | '-' => ([], .numeral (emptyNumeral true) .sign)
      | '0' => ([], .numeral { emptyNumeral false with whole := [0] } .zero)
      | c =>
        match digit? c with
        | some d => ([], .numeral { emptyNumeral false with whole := [d] } .whole)
        | none => ([.bad (.both .noValue)], .stopped)

def addExponentDigit (n : Numeral) (d : Nat) : Numeral :=
  { n with exponent := n.exponent.map fun e => { e with digits := e.digits ++ [d] } }

/-- Takes one more character into a numeral, if it belongs there. -/
def extend (n : Numeral) (s : Stage) (c : Char) : Option (Numeral × Stage) :=
  match s, digit? c with
  | .sign, some d => some ({ n with whole := [d] }, if d == 0 then .zero else .whole)
  | .whole, some d => some ({ n with whole := n.whole ++ [d] }, .whole)
  | .point, some d | .fraction, some d => some ({ n with fraction := n.fraction ++ [d] }, .fraction)
  | .mark, some d | .markSign, some d | .exponent, some d => some (addExponentDigit n d, .exponent)
  | .zero, none | .whole, none =>
    if c == '.' then some ({ n with hasPoint := true }, .point)
    else if c == 'e' || c == 'E' then some ({ n with exponent := some ⟨false, []⟩ }, .mark)
    else none
  | .fraction, none =>
    if c == 'e' || c == 'E' then some ({ n with exponent := some ⟨false, []⟩ }, .mark) else none
  | .mark, none =>
    if c == '+' then some (n, .markSign)
    else if c == '-' then some ({ n with exponent := some ⟨true, []⟩ }, .markSign)
    else none
  | _, _ => none

/-- The token of a numeral that is not extended by the next glyph; `next` is absent at the end of
the text. -/
def close (n : Numeral) (s : Stage) (next : Option Glyph) : Token :=
  match s, next with
  | .zero, some (some c) => if c.isDigit then .bad (.both .badNumber) else .number n
  | .zero, _ | .whole, _ | .fraction, _ | .exponent, _ => .number n
  | _, none => .bad ⟨.endOfValue, .badNumber⟩
  | _, some _ => .bad (.both .badNumber)

def closeBody (pieces : List Piece) (ending : BodyEnd) : Token := .string ⟨pieces.reverse, ending⟩

def glyphSize : Glyph → Nat
  | some c => c.utf8Size
  | none => 1

def escaped? : Char → Option Char
  | '"' => some '"'
  | '\\' => some '\\'
  | '/' => some '/'
  | 'b' => some '\x08'
  | 'f' => some '\x0c'
  | 'n' => some '\n'
  | 'r' => some '\r'
  | 't' => some '\t'
  | _ => none

/-- Takes one more glyph of an escape by number. Four bytes are looked at, whatever they hold. -/
def hexStep (pieces : List Piece) (bytes : Nat) (value : Option Nat) (g : Glyph) : List Token × Mode :=
  let bytes := bytes + glyphSize g
  let value := match value, g.bind hexDigit? with
    | some v, some d => some (v * 16 + d)
    | _, _ => none
  if bytes < 4 then ([], .hex pieces bytes value)
  else match value with
    | some v => ([], .string (.unit v :: pieces))
    | none => ([closeBody pieces .badDigits], .stopped)

def step : Mode → Glyph → List Token × Mode
  | .between, g => start g
  | .word [] t, g =>
    let (ts, m) := start g
    (t :: ts, m)
  | .word (c :: rest) t, g =>
    if g == some c then ([], .word rest t) else ([.bad (.both .noWord)], .stopped)
  | .string pieces, none => ([], .string (.stray :: pieces))
  | .string pieces, some c =>
    if c == '"' then ([closeBody pieces .closed], .between)
    else if c == '\\' then ([], .escape pieces)
    else if c.toNat < 0x20 then ([closeBody pieces .control], .stopped)
    else ([], .string (.char c :: pieces))
  | .escape pieces, g =>
    if g == some 'u' then ([], .hex pieces 0 (some 0))
    else match g.bind escaped? with
      | some c => ([], .string (.char c :: pieces))
      | none => ([closeBody pieces .badEscape], .stopped)
  | .hex pieces bytes value, g => hexStep pieces bytes value g
  | .numeral n s, g =>
    match g.bind (extend n s) with
    | some (n, s) => ([], .numeral n s)
    | none =>
      match close n s (some g) with
      | .number n =>
        let (ts, m) := start g
        (.number n :: ts, m)
      | t => ([t], .stopped)
  | .stopped, _ => ([], .stopped)

/-- What the end of the text makes of a token that is being read. -/
def finish : Mode → List Token
  | .between | .stopped => []
  | .word [] t => [t]
  | .word (_ :: _) _ => [.bad (.both .endOfValue)]
  | .string pieces | .escape pieces | .hex pieces _ _ => [closeBody pieces .endOfText]
  | .numeral n s => [close n s none]

def read : Mode → List Glyph → List Token
  | m, [] => finish m
  | m, g :: rest =>
    let (ts, next) := step m g
    ts ++ read next rest

end Token

def tokens (text : List Text.Glyph) : List Token := Token.read .between text

end Supervisor.Json
