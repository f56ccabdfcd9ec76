import Supervisor.Text.Blank
import Supervisor.Text.Utf8
/-!
# Frames

A message travels as a header with the length of its body in bytes, a blank line, and the body. A
`FrameReader` takes a stream of bytes one at a time, so it does not matter in which portions the
bytes arrive.
-/
namespace Supervisor.Lsp

def frame (body : String) : String :=
  "Content-Length: " ++ toString body.utf8ByteSize ++ "\r\n\r\n" ++ body

/-- The longest body that is read, in bytes. -/
def lengthLimit : Nat := 64 * 1024 * 1024

/-- Lengths are numbers of 64 bits. -/
def wordLimit : Nat := Nat.pow 2 64

/-- A decimal number that may have a plus sign. -/
def unsigned? (cs : List Char) : Option Nat :=
  let ds := match cs with
    | '+' :: rest => rest
    | cs => cs
  if ds.isEmpty || !ds.all Char.isDigit then none
  else
    let n := ds.foldl (fun n c => n * 10 + (c.toNat - 48)) 0
    if n < wordLimit then some n else none

def isLengthName (cs : List Char) : Bool :=
  String.ofList ((Text.trim cs).map Char.toLower) == "content-length"

/-- The length in a header line, if the line gives one. -/
def headerLength? (line : List Char) : Option Nat :=
  let name := line.takeWhile (· != ':')
  match line.drop name.length with
  | _ :: value => if isLengthName name then unsigned? (Text.trim value) else none
  | [] => none

def tooLongMessage (n : Nat) : String :=
  "Content-Length " ++ toString n ++ " exceeds limit of " ++ toString lengthLimit ++ " bytes"

def checkLength (n : Nat) : Except String Nat :=
  if lengthLimit < n then .error (tooLongMessage n) else .ok n

/-- Why reading ended. -/
inductive ReadEnd
  | terminated
  | notText (f : Text.Flaw)
  | tooLong (n : Nat)
  | cutOff
deriving DecidableEq, Repr

def ReadEnd.message : ReadEnd → String
  | .terminated => "server terminated"
  | .notText f => "read error: " ++ f.message
  | .tooLong n => "read error: " ++ tooLongMessage n
  | .cutOff => "read error: early eof"

inductive FrameReader
  /-- Inside a header: the bytes of the current line, the last one first, and the length so far. -/
  | header (line : List UInt8) (length : Nat)
  /-- Inside a body: how many bytes are missing, and those that are there, the last one first. -/
  | body (missing : Nat) (bytes : List UInt8)
  | ended (why : ReadEnd)
deriving Repr

namespace FrameReader

def start : FrameReader := .header [] 0

/-- What a whole line of the header leads to. -/
def endLine (line : List UInt8) (length : Nat) : FrameReader :=
  match Text.flaw? line with
  | some f => .ended (.notText f)
  | none =>
    let text := Text.decodeLossy line
    if text = "\n" ∨ text = "\r\n" then
      if length = 0 then .header [] 0
      else if lengthLimit < length then .ended (.tooLong length)
      else .body length []
    else .header [] ((headerLength? text.toList).getD length)

/-- Takes one byte; the body that it completes, if any. -/
def step : FrameReader → UInt8 → FrameReader × Option (List UInt8)
  | .header line length, b =>
    if b = 10 then (endLine (b :: line).reverse length, none) else (.header (b :: line) length, none)
  | .body missing bytes, b =>
    if missing ≤ 1 then (.header [] 0, some (b :: bytes).reverse)
    else (.body (missing - 1) (b :: bytes), none)
  | .ended why, _ => (.ended why, none)

/-- Takes bytes, and gives the bodies that they complete. -/
def feed : FrameReader → List UInt8 → FrameReader × List (List UInt8)
  | r, [] => (r, [])
  | r, b :: rest => ((feed (step r b).1 rest).1, (step r b).2.toList ++ (feed (step r b).1 rest).2)

/-- Why reading ends when the stream does. -/
def close : FrameReader → ReadEnd
  | .header line _ =>
    match Text.flaw? line.reverse with
    | some f => .notText f
    | none => .terminated
  | .body _ _ => .cutOff
  | .ended why => why

/-- It does not matter in which portions the bytes arrive. -/
theorem feed_append (r : FrameReader) (xs ys : List UInt8) :
    r.feed (xs ++ ys) = (((r.feed xs).1.feed ys).1, (r.feed xs).2 ++ ((r.feed xs).1.feed ys).2) := by
  induction xs generalizing r with
  | nil => simp [feed]
  | cons b rest ih => simp [feed, ih]

end FrameReader

end Supervisor.Lsp
