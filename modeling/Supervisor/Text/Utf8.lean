/-!
# Reading UTF-8

Bytes are read into glyphs. A glyph is a character, or nothing for a run of bytes that belongs to no
character: the longest beginning of a well-formed sequence that does not go on, or a single byte.
-/
namespace Supervisor.Text

abbrev Glyph := Option Char

/-- A sequence whose lead byte has been read: how many bytes are still missing, the bits read so
far, and the bounds of the next byte. -/
structure Partial where
  missing : Nat
  bits : Nat
  low : Nat
  high : Nat

inductive Utf8State
  | idle
  | inside (p : Partial)

def startByte (b : Nat) : List Glyph × Utf8State :=
  if b < 0x80 then ([some (Char.ofNat b)], .idle)
  else if 0xC2 ≤ b && b ≤ 0xDF then ([], .inside ⟨1, b - 0xC0, 0x80, 0xBF⟩)
  else if 0xE0 ≤ b && b ≤ 0xEF then
    ([], .inside ⟨2, b - 0xE0, if b == 0xE0 then 0xA0 else 0x80, if b == 0xED then 0x9F else 0xBF⟩)
  else if 0xF0 ≤ b && b ≤ 0xF4 then
    ([], .inside ⟨3, b - 0xF0, if b == 0xF0 then 0x90 else 0x80, if b == 0xF4 then 0x8F else 0xBF⟩)
  else ([none], .idle)

def nextByte : Utf8State → Nat → List Glyph × Utf8State
  | .idle, b => startByte b
  | .inside p, b =>
    if p.low ≤ b && b ≤ p.high then
      let bits := p.bits * 64 + (b - 0x80)
      if p.missing ≤ 1 then ([some (Char.ofNat bits)], .idle)
      else ([], .inside ⟨p.missing - 1, bits, 0x80, 0xBF⟩)
    else
      let (gs, st) := startByte b
      (none :: gs, st)

def readGlyphs : Utf8State → List UInt8 → List Glyph
  | .idle, [] => []
  | .inside _, [] => [none]
  | st, b :: rest =>
    let (gs, next) := nextByte st b.toNat
    gs ++ readGlyphs next rest

def glyphs (bytes : List UInt8) : List Glyph := readGlyphs .idle bytes

/-- The text of the bytes, with U+FFFD for each run that belongs to no character. -/
def decodeLossy (bytes : List UInt8) : String :=
  String.ofList ((glyphs bytes).map (·.getD '\uFFFD'))

/-- A run of bytes that belongs to no character: where it begins, and how long it is; no length if
the bytes end in the middle of a sequence. -/
structure Flaw where
  start : Nat
  length : Option Nat
deriving DecidableEq, Repr

/-- The first flaw from position `pos` on; the sequence that is being read begins at `start`. -/
def findFlaw : Utf8State → Nat → Nat → List UInt8 → Option Flaw
  | .idle, _, _, [] => none
  | .inside _, start, _, [] => some ⟨start, none⟩
  | .idle, _, pos, b :: rest =>
    match startByte b.toNat with
    | (none :: _, _) => some ⟨pos, some 1⟩
    | (_, st) => findFlaw st pos (pos + 1) rest
  | .inside p, start, pos, b :: rest =>
    match nextByte (.inside p) b.toNat with
    | (none :: _, _) => some ⟨start, some (pos - start)⟩
    | (_, st) => findFlaw st start (pos + 1) rest

def flaw? (bytes : List UInt8) : Option Flaw := findFlaw .idle 0 0 bytes

def Flaw.message (f : Flaw) : String :=
  match f.length with
  | some n =>
    "invalid utf-8 sequence of " ++ toString n ++ " bytes from index " ++ toString f.start
  | none => "incomplete utf-8 byte sequence from index " ++ toString f.start

def encode (s : String) : List UInt8 := s.toUTF8.toList

def glyphsOf (s : String) : List Glyph := s.toList.map some

end Supervisor.Text
