import Supervisor.Json.Mishap
/-!
# String bodies

What stands between the quotes of a JSON string, before its escapes are put together: characters,
units of UTF-16 given by number, and stretches of bytes that are no text.
-/
namespace Supervisor.Json

inductive Piece
  | char (c : Char)
  | unit (n : Nat)
  | stray
deriving DecidableEq, Repr

inductive BodyEnd
  | closed
  | endOfText
  | control
  | badEscape
  | badDigits
deriving DecidableEq, Repr

structure StringBody where
  pieces : List Piece
  ending : BodyEnd
deriving DecidableEq, Repr

/-- The mishap of a body that does not end with a quote. -/
def BodyEnd.mishap? : BodyEnd → Option Mishap
  | .closed => none
  | .endOfText => some .endOfString
  | .control => some .controlCharacter
  | .badEscape | .badDigits => some .badEscape

namespace StringBody

def isLeading (n : Nat) : Bool := 0xD800 ≤ n && n ≤ 0xDBFF

def isTrailing (n : Nat) : Bool := 0xDC00 ≤ n && n ≤ 0xDFFF

def pair (high low : Nat) : Char := Char.ofNat ((high - 0xD800) * 0x400 + (low - 0xDC00) + 0x10000)

/-- What is reported where a leading surrogate is the last piece. -/
def afterLeading : BodyEnd → Mishap
  | .endOfText => .endOfString
  | .badDigits => .badEscape
  | _ => .brokenPair

/-- Puts surrogate pairs together; `none` stands for a stray stretch. -/
def join (ending : BodyEnd) : List Piece → Except Mishap (List (Option Char))
  | [] =>
    match ending.mishap? with
    | none => .ok []
    | some m => .error m
  | .char c :: rest => (join ending rest).map (some c :: ·)
  | .stray :: rest => (join ending rest).map (none :: ·)
  | [.unit n] =>
    if isTrailing n then .error .loneSurrogate
    else if isLeading n then .error (afterLeading ending)
    else (join ending []).map (some (Char.ofNat n) :: ·)
  | .unit n :: .unit m :: rest =>
    if isTrailing n then .error .loneSurrogate
    else if isLeading n then
      if isTrailing m then (join ending rest).map (some (pair n m) :: ·)
      else .error .loneSurrogate
    else (join ending (.unit m :: rest)).map (some (Char.ofNat n) :: ·)
  | .unit n :: p :: rest =>
    if isTrailing n then .error .loneSurrogate
    else if isLeading n then .error .brokenPair
    else (join ending (p :: rest)).map (some (Char.ofNat n) :: ·)

/-- The text of the body. -/
def text (b : StringBody) : Except Mishap String :=
  (join b.ending b.pieces).bind fun cs =>
    match cs.mapM id with
    | some cs => .ok (String.ofList cs)
    | none => .error .badCodePoint

/-- What is reported when the string is skipped: surrogates and stray bytes pass. -/
def skip (b : StringBody) : Except Mishap Unit :=
  match b.ending.mishap? with
  | none => .ok ()
  | some m => .error m

end StringBody

end Supervisor.Json
