import Supervisor.Proofs.Json.RoundTrip
/-!
# Texts without blanks

A value that is written without any blanks is scanned as the same tokens as one that is written line
by line, so typed data come back from it as well.
-/
namespace Supervisor.Json

open Text (Glyph)

namespace Token

theorem bounded_compactItems (items : List Json) (rest : List Glyph) :
    Bounded ((compactItems items).map some ++ rest) := by
  cases items with
  | nil =>
    intro g h
    exact .inr (.inr (.inl (Option.some.inj h).symm))
  | cons j items => exact bounded_comma _

theorem bounded_compactMembers (ms : List (String × Json)) (rest : List Glyph) :
    Bounded ((compactMembers ms).map some ++ rest) := by
  cases ms with
  | nil =>
    intro g h
    exact .inr (.inr (.inr (Option.some.inj h).symm))
  | cons e ms => exact bounded_comma _

/-- The name of a member, up to its value. -/
theorem read_tightName (n : String) (rest : List Glyph) :
    read .between ((stringChars n ++ [':']).map some ++ rest) =
      .string (.ofString n) :: .colon :: read .between rest := by
  rw [List.map_append, List.append_assoc, read_stringChars]
  rfl

mutual

/-- The text of a value is scanned as its tokens. -/
theorem read_compactChars : ∀ (j : Json) {rest : List Glyph}, j.Every Whole → Bounded rest →
    read .between ((compactChars j).map some ++ rest) = lexemes j ++ read .between rest
  | .null, rest, _, _ => read_word .null rest
  | .bool true, rest, _, _ => read_word (.bool true) rest
  | .bool false, rest, _, _ => read_word (.bool false) rest
  | .number (.whole z), rest, _, hrest => read_wholeChars z hrest
  | .number (.double x), _, h, _ => h.here.elim
  | .string s, rest, _, _ => read_stringChars s rest
  | .array [], _, _, _ => rfl
  | .array (j :: items), rest, h, hrest => by
    obtain ⟨-, hj, hitems⟩ := h
    have hopen : read .between ((compactChars (.array (j :: items))).map some ++ rest) =
        .openArray :: read .between ((compactChars j).map some ++
          ((compactItems items).map some ++ rest)) := by
      simp [compactChars, read, step, start, isSpace]
    rw [hopen, read_compactChars j hj (bounded_compactItems items rest),
      read_compactItems items hitems]
    simp [lexemes]
  | .object [], _, _, _ => rfl
  | .object ((n, j) :: ms), rest, h, hrest => by
    obtain ⟨-, hj, hms⟩ := h
    have hopen : read .between ((compactChars (.object ((n, j) :: ms))).map some ++ rest) =
        .openObject :: read .between ((stringChars n ++ [':']).map some ++
          ((compactChars j).map some ++ ((compactMembers ms).map some ++ rest))) := by
      simp [compactChars, read, step, start, isSpace]
    rw [hopen, read_tightName, read_compactChars j hj (bounded_compactMembers ms rest),
      read_compactMembers ms hms]
    simp [lexemes]

theorem read_compactItems : ∀ (items : List Json) {rest : List Glyph}, EveryItem Whole items →
    read .between ((compactItems items).map some ++ rest) = itemLexemes items ++ read .between rest
  | [], _, _ => rfl
  | j :: items, rest, h => by
    obtain ⟨hj, hitems⟩ := h
    have hcomma : read .between ((compactItems (j :: items)).map some ++ rest) =
        .comma :: read .between ((compactChars j).map some ++
          ((compactItems items).map some ++ rest)) := by
      simp [compactItems, read, step, start, isSpace]
    rw [hcomma, read_compactChars j hj (bounded_compactItems items rest),
      read_compactItems items hitems]
    simp [itemLexemes]

theorem read_compactMembers : ∀ (ms : List (String × Json)) {rest : List Glyph},
    EveryMember Whole ms →
    read .between ((compactMembers ms).map some ++ rest) = memberLexemes ms ++ read .between rest
  | [], _, _ => rfl
  | (n, j) :: ms, rest, h => by
    obtain ⟨hj, hms⟩ := h
    have hcomma : read .between ((compactMembers ((n, j) :: ms)).map some ++ rest) =
        .comma :: read .between ((stringChars n ++ [':']).map some ++
          ((compactChars j).map some ++ ((compactMembers ms).map some ++ rest))) := by
      simp [compactMembers, read, step, start, isSpace]
    rw [hcomma, read_tightName, read_compactChars j hj (bounded_compactMembers ms rest),
      read_compactMembers ms hms]
    simp [memberLexemes]

end

end Token

theorem tokens_compact {j : Json} (h : j.Every Whole) :
    tokens (Text.glyphsOf j.compact) = lexemes j := by
  have hread := Token.read_compactChars j h Token.bounded_nil
  simpa [tokens, Text.glyphsOf, compact, Token.read, Token.finish] using hread

/-- The two forms of writing differ in blanks only. -/
theorem Document.ofString_compact {j : Json} (h : j.Every Whole) :
    Document.ofString j.compact = Document.ofString j.pretty := by
  rw [Document.ofString, Document.ofString, Document.ofGlyphs, Document.ofGlyphs, tokens_compact h,
    tokens_pretty h]

/-- Data that fit a shape come back from the text that is written of them, in either form. -/
theorem Shape.ofString_compact {α : Type} (s : Shape α) {a : α} (hs : s.Lawful) (ha : s.Fits a)
    (hw : (s.write a).Every Whole) (hd : (s.write a).nesting < depthLimit) :
    s.ofString (s.write a).compact = .ok a := by
  rw [Shape.ofString, Document.ofString_compact hw]
  exact s.ofString_write hs ha hw hd

end Supervisor.Json
