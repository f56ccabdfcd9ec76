/-!
# What can be wrong with a JSON text

A `Mishap` is one fault of the text itself. Where a reader skips a value it does not want, it checks
less, so some places of a text give one mishap when read and another when skipped.
-/
namespace Supervisor.Json

inductive Mishap
  | endOfValue
  | endOfList
  | endOfObject
  | endOfString
  | noValue
  | noWord
  | noColon
  | noListComma
  | noObjectComma
  | noKey
  | trailingComma
  | trailingCharacters
  | badNumber
  | numberRange
  | badEscape
  | loneSurrogate
  | brokenPair
  | badCodePoint
  | controlCharacter
  | tooDeep
deriving DecidableEq, Repr

def Mishap.message : Mishap → String
  | .endOfValue => "EOF while parsing a value"
  | .endOfList => "EOF while parsing a list"
  | .endOfObject => "EOF while parsing an object"
  | .endOfString => "EOF while parsing a string"
  | .noValue => "expected value"
  | .noWord => "expected ident"
  | .noColon => "expected `:`"
  | .noListComma => "expected `,` or `]`"
  | .noObjectComma => "expected `,` or `\x7d`"
  | .noKey => "key must be a string"
  | .trailingComma => "trailing comma"
  | .trailingCharacters => "trailing characters"
  | .badNumber => "invalid number"
  | .numberRange => "number out of range"
  | .badEscape => "invalid escape"
  | .loneSurrogate => "lone leading surrogate in hex escape"
  | .brokenPair => "unexpected end of hex escape"
  | .badCodePoint => "invalid unicode code point"
  | .controlCharacter => "control character (\\u0000-\\u001F) found while parsing a string"
  | .tooDeep => "recursion limit exceeded"

/-- A place where no value can be read: what is reported if the value is wanted, and if it is
skipped. -/
structure Break where
  wanted : Mishap
  skipped : Mishap
deriving DecidableEq, Repr

def Break.both (m : Mishap) : Break := ⟨m, m⟩

end Supervisor.Json
