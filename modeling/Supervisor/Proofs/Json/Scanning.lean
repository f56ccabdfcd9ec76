import Supervisor.Json.Printer
import Supervisor.Proofs.Json.Inside
/-!
# Scanning what was written

The text of a value is scanned as the tokens that the value stands for. Doubles are left out: whether
their digits are read back as the same double is a question about decimals and not about tokens.
-/
namespace Supervisor.Json

open Text (Glyph)

/-! ## Numerals -/

namespace Numeral

def ofInt (z : Int) : Numeral :=
  ⟨z < 0, (Nat.toDigits 10 z.natAbs).map fun c => c.toNat - 48, [], false, none⟩

theorem le_ofDigitChars (ds : List Char) (n : Nat) : n ≤ Nat.ofDigitChars 10 ds n := by
  induction ds generalizing n with
  | nil => simp [Nat.ofDigitChars]
  | cons d ds ih =>
    rw [Nat.ofDigitChars_cons]
    have h := ih (10 * n + (d.toNat - '0'.toNat))
    omega

/-- All digits are taken in if the number that they make fits. -/
theorem absorb_digits {limit : Nat} {ds : List Char} {n : Nat}
    (h : Nat.ofDigitChars 10 ds n ≤ limit) :
    absorb limit n (ds.map fun c => c.toNat - 48) = (Nat.ofDigitChars 10 ds n, []) := by
  induction ds generalizing n with
  | nil => simp [absorb, Nat.ofDigitChars]
  | cons d ds ih =>
    have hzero : '0'.toNat = 48 := rfl
    rw [Nat.ofDigitChars_cons, hzero, Nat.mul_comm] at h ⊢
    have hfits : n * 10 + (d.toNat - 48) ≤ limit := Nat.le_trans (le_ofDigitChars ds _) h
    simp only [List.map_cons, absorb, hfits, if_true]
    exact ih h

/-- A whole number that fits 64 bits is the value of its numeral. -/
theorem value_ofInt {z : Int} (hl : -(Nat.pow 2 63 : Nat) ≤ z) (hu : z < (Nat.pow 2 64 : Nat)) :
    (ofInt z).value = .ok (.whole z) := by
  have hpow : Nat.pow 2 63 = 9223372036854775808 := rfl
  have hpow' : Nat.pow 2 64 = 18446744073709551616 := rfl
  have hlimit : wordLimit = 18446744073709551615 := rfl
  have hfits : Nat.ofDigitChars 10 (Nat.toDigits 10 z.natAbs) 0 ≤ wordLimit := by
    rw [Nat.ofDigitChars_ten_toDigits]
    omega
  have hdigits := absorb_digits hfits
  rw [Nat.ofDigitChars_ten_toDigits] at hdigits
  have hwhole : (ofInt z).isWhole = true := by simp [isWhole, ofInt, hdigits]
  have hsig : (ofInt z).significand = (z.natAbs, 0) := by
    simp [significand, ofInt, hdigits, absorb]
  unfold value
  rw [hsig, hwhole]
  by_cases hneg : z < 0
  · have hsign : (ofInt z).negative = true := decide_eq_true hneg
    have hpos : (z.natAbs == 0) = false := beq_eq_false_iff_ne.mpr (by omega)
    have hsmall : ¬ z.natAbs > Nat.pow 2 63 := by omega
    have hback : -(z.natAbs : Int) = z := by omega
    simp only [hsign, hpos, hsmall, hback, Bool.not_true, Bool.false_eq_true, if_true, if_false,
      decide_false, Bool.or_false]
  · have hsign : (ofInt z).negative = false := decide_eq_false hneg
    have hback : (z.natAbs : Int) = z := by omega
    simp only [hsign, hback, Bool.not_false, if_true]

end Numeral

/-- The numeral of a whole number. There is none to tell for a double. -/
def Number.numeral : Number → Numeral
  | .whole z => .ofInt z
  | .double x => Token.emptyNumeral x.negative

namespace Token

/-- What may follow a value in a written text: a comma, the next line, a closing bracket or the end. -/
def Bounded (rest : List Glyph) : Prop :=
  ∀ g, rest.head? = some g → g = some ',' ∨ g = some '\n' ∨ g = some ']' ∨ g = some '\x7d'

theorem bounded_nil : Bounded [] := by
  intro g h
  cases h

theorem bounded_comma (rest : List Glyph) : Bounded (some ',' :: rest) := by
  intro g h
  exact .inl (Option.some.inj h).symm

theorem bounded_newLine (level : Nat) (rest : List Glyph) :
    Bounded ((newLine level).map some ++ rest) := by
  intro g h
  exact .inr (.inl (Option.some.inj h).symm)

theorem digit?_of_isDigit {c : Char} (h : c.isDigit = true) : digit? c = some (c.toNat - 48) := by
  simp [digit?, h]

theorem start_digit {c : Char} (h : c.isDigit = true) (h0 : c ≠ '0') :
    start (some c) = ([], .numeral { emptyNumeral false with whole := [c.toNat - 48] } .whole) := by
  have hspace : isSpace c = false := by
    simp only [isSpace, Bool.or_eq_false_iff, beq_eq_false_iff_ne]
    refine ⟨⟨⟨?_, ?_⟩, ?_⟩, ?_⟩ <;> rintro rfl <;> simp [Char.isDigit] at h
  simp only [start, hspace, Bool.false_eq_true, if_false]
  split
  case h_12 => exact (h0 rfl).elim
  case h_13 => simp [digit?_of_isDigit h]
  all_goals simp [Char.isDigit] at h

theorem read_digits {ds : List Char} (hds : ∀ c ∈ ds, c.isDigit = true) (n : Numeral)
    (rest : List Glyph) : read (.numeral n .whole) (ds.map some ++ rest) =
      read (.numeral { n with whole := n.whole ++ ds.map fun c => c.toNat - 48 } .whole) rest := by
  induction ds generalizing n with
  | nil => simp
  | cons d ds ih =>
    have hd := digit?_of_isDigit (hds d List.mem_cons_self)
    have hmore := ih (fun c hc => hds c (List.mem_cons_of_mem _ hc))
      { n with whole := n.whole ++ [d.toNat - 48] }
    simpa [read, step, extend, hd] using hmore

/-- A numeral ends where nothing follows that belongs to it. -/
theorem read_numeral_end {s : Stage} (hs : s = .zero ∨ s = .whole) (n : Numeral) {rest : List Glyph}
    (hrest : Bounded rest) :
    read (.numeral n s) rest = .number n :: read .between rest := by
  cases rest with
  | nil => rcases hs with rfl | rfl <;> rfl
  | cons g rest =>
    rcases hrest g rfl with rfl | rfl | rfl | rfl <;> rcases hs with rfl | rfl <;> rfl

theorem toDigits_cons {n : Nat} (hn : 0 < n) : ∃ d ds, Nat.toDigits 10 n = d :: ds ∧ d ≠ '0' := by
  induction n using Nat.strongRecOn with
  | ind n ih =>
    rw [Nat.toDigits_eq_if (by decide)]
    split
    · next hlt =>
      refine ⟨n.digitChar, [], rfl, ?_⟩
      have hall : ∀ m < 10, 0 < m → Nat.digitChar m ≠ '0' := by decide
      exact hall n hlt hn
    · next hge =>
      obtain ⟨d, ds, h, hd⟩ := ih (n / 10) (by omega) (by omega)
      exact ⟨d, ds ++ [(n % 10).digitChar], by rw [h]; rfl, hd⟩

/-- The text of a whole number is scanned as its numeral. -/
theorem read_wholeChars (z : Int) {rest : List Glyph} (hrest : Bounded rest) :
    read .between ((wholeChars z).map some ++ rest) =
      .number (.ofInt z) :: read .between rest := by
  have hall : ∀ c ∈ Nat.toDigits 10 z.natAbs, c.isDigit = true :=
    fun c hc => Nat.isDigit_of_mem_toDigits (by decide) (by decide) hc
  unfold wholeChars Decimal.Layout.digitsOf Numeral.ofInt
  by_cases hz : z = 0
  · subst hz
    exact read_numeral_end (.inl rfl) _ hrest
  have hpos : 0 < z.natAbs := by omega
  obtain ⟨d, ds, hdigits, hd⟩ := toDigits_cons hpos
  rw [hdigits] at hall ⊢
  have hdigit := hall d List.mem_cons_self
  have hds : ∀ c ∈ ds, c.isDigit = true := fun c hc => hall c (List.mem_cons_of_mem _ hc)
  split
  · next hneg =>
    have hfirst : d.toNat - 48 ≠ 0 := by
      intro h
      have hrange : 48 ≤ d.toNat ∧ d.toNat ≤ 57 := Char.isDigit_iff_toNat.mp hdigit
      have heq : d.toNat = 48 := by omega
      exact hd (Char.toNat_inj.mp heq)
    have hsign : read .between ((('-' :: d :: ds).map some) ++ rest) =
        read (.numeral { emptyNumeral true with whole := [d.toNat - 48] } .whole)
          (ds.map some ++ rest) := by
      simp [read, step, start, isSpace, extend, digit?_of_isDigit hdigit, hfirst]
    rw [hsign, read_digits hds, read_numeral_end (.inr rfl) _ hrest]
    simp [emptyNumeral, hneg]
  · next hneg =>
    have hfirst : read .between ((d :: ds).map some ++ rest) =
        read (.numeral { emptyNumeral false with whole := [d.toNat - 48] } .whole)
          (ds.map some ++ rest) := by
      simp [read, step, start_digit hdigit hd]
    rw [hfirst, read_digits hds, read_numeral_end (.inr rfl) _ hrest]
    simp [emptyNumeral, hneg]

end Token

/-! ## Strings -/

/-- Is the character written by its number? -/
def byNumber (c : Char) : Bool :=
  c.toNat < 0x20 && !(['\n', '\r', '\t', '\x08', '\x0c'].contains c)

def Piece.ofChar (c : Char) : Piece := if byNumber c then .unit c.toNat else .char c

namespace StringBody

def ofString (s : String) : StringBody := ⟨s.toList.map Piece.ofChar, .closed⟩

theorem join_unit {n : Nat} (hn : n < 0x20) (ending : BodyEnd) (rest : List Piece) :
    join ending (.unit n :: rest) = (join ending rest).map (some (Char.ofNat n) :: ·) := by
  have hlead : isLeading n = false := by simp [isLeading]; omega
  have htrail : isTrailing n = false := by simp [isTrailing]; omega
  cases rest with
  | nil => simp [join, hlead, htrail]
  | cons p rest => cases p <;> simp [join, hlead, htrail]

theorem join_ofChar (c : Char) (ending : BodyEnd) (rest : List Piece) :
    join ending (Piece.ofChar c :: rest) = (join ending rest).map (some c :: ·) := by
  unfold Piece.ofChar
  split
  · next h =>
    have hsmall : c.toNat < 0x20 := by
      simp only [byNumber, Bool.and_eq_true, decide_eq_true_eq] at h
      exact h.1
    rw [join_unit hsmall, Char.ofNat_toNat]
  · rfl

theorem join_chars (cs : List Char) : join .closed (cs.map Piece.ofChar) = .ok (cs.map some) := by
  induction cs with
  | nil => rfl
  | cons c cs ih => simp [join_ofChar, ih, Except.map]

theorem text_ofString (s : String) : (ofString s).text = .ok s := by
  have hall : ∀ cs : List Char, (cs.map some).mapM id = some cs := by
    intro cs
    induction cs with
    | nil => rfl
    | cons c cs ih => simp [ih]
  simp [text, ofString, join_chars, Except.bind, hall]

end StringBody

namespace Token

theorem hexDigit?_digitChar {d : Nat} (hd : d < 16) :
    hexDigit? (Nat.digitChar d) = some d ∧ (Nat.digitChar d).utf8Size = 1 := by
  have hall : ∀ d < 16, hexDigit? (Nat.digitChar d) = some d ∧ (Nat.digitChar d).utf8Size = 1 := by
    decide
  exact hall d hd

/-- A character that is written by number. -/
theorem read_unit {n : Nat} (hn : n < 0x20) (pieces : List Piece) (rest : List Glyph) :
    read (.string pieces) (['\\', 'u', '0', '0', Nat.digitChar (n / 16),
      Nat.digitChar (n % 16)].map some ++ rest) = read (.string (.unit n :: pieces)) rest := by
  obtain ⟨hhigh, hhigh'⟩ := hexDigit?_digitChar (d := n / 16) (by omega)
  obtain ⟨hlow, hlow'⟩ := hexDigit?_digitChar (d := n % 16) (by omega)
  have hzero : hexDigit? '0' = some 0 := rfl
  have hsize : '0'.utf8Size = 1 := rfl
  have hn' : n / 16 * 16 + n % 16 = n := by omega
  simp [read, step, hexStep, glyphSize, hzero, hsize, hhigh, hhigh', hlow, hlow', hn']

theorem read_escapeChar (c : Char) (pieces : List Piece) (rest : List Glyph) :
    read (.string pieces) ((escapeChar c).map some ++ rest) =
      read (.string (Piece.ofChar c :: pieces)) rest := by
  unfold escapeChar
  simp only [beq_iff_eq]
  split_ifs with h₁ h₂ h₃ h₄ h₅ h₆ h₇ h₈
  · subst h₁; rfl
  · subst h₂; rfl
  · subst h₃; rfl
  · subst h₄; rfl
  · subst h₅; rfl
  · subst h₆; rfl
  · subst h₇; rfl
  · have hnumber : byNumber c = true := by simp [byNumber, h₈, h₃, h₄, h₅, h₆, h₇]
    rw [read_unit h₈]
    simp [Piece.ofChar, hnumber]
  · have hnumber : byNumber c = false := by simp [byNumber, h₈]
    simp [read, step, h₁, h₂, h₈, Piece.ofChar, hnumber]

theorem read_escaped (cs : List Char) (pieces : List Piece) (rest : List Glyph) :
    read (.string pieces) ((cs.flatMap escapeChar).map some ++ rest) =
      read (.string ((cs.map Piece.ofChar).reverse ++ pieces)) rest := by
  induction cs generalizing pieces with
  | nil => rfl
  | cons c cs ih =>
    rw [List.flatMap_cons, List.map_append, List.append_assoc, read_escapeChar, ih]
    simp

/-- The text of a string is scanned as its body. -/
theorem read_stringChars (s : String) (rest : List Glyph) :
    read .between ((stringChars s).map some ++ rest) =
      .string (.ofString s) :: read .between rest := by
  have hopen : read .between ((stringChars s).map some ++ rest) =
      read (.string []) ((s.toList.flatMap escapeChar).map some ++ some '"' :: rest) := by
    simp [stringChars, read, step, start, isSpace]
  rw [hopen, read_escaped]
  simp [read, step, closeBody, StringBody.ofString]

end Token

/-! ## Values -/

mutual

/-- The tokens of a value. -/
def lexemes : Json → List Token
  | .null => [.null]
  | .bool b => [.bool b]
  | .number n => [.number n.numeral]
  | .string s => [.string (.ofString s)]
  | .array [] => [.openArray, .closeArray]
  | .array (j :: rest) => .openArray :: (lexemes j ++ itemLexemes rest)
  | .object [] => [.openObject, .closeObject]
  | .object ((n, j) :: rest) =>
    .openObject :: .string (.ofString n) :: .colon :: (lexemes j ++ memberLexemes rest)

def itemLexemes : List Json → List Token
  | [] => [.closeArray]
  | j :: rest => .comma :: (lexemes j ++ itemLexemes rest)

def memberLexemes : List (String × Json) → List Token
  | [] => [.closeObject]
  | (n, j) :: rest =>
    .comma :: .string (.ofString n) :: .colon :: (lexemes j ++ memberLexemes rest)

end

namespace Token

theorem read_newLine (level : Nat) (rest : List Glyph) :
    read .between ((newLine level).map some ++ rest) = read .between rest := by
  have hspaces : ∀ k, read .between ((List.replicate k ' ').map some ++ rest) = read .between rest := by
    intro k
    induction k with
    | zero => rfl
    | succ k ih => simpa [List.replicate_succ, read, step, start, isSpace] using ih
  simpa [newLine, read, step, start, isSpace] using hspaces (2 * level)

theorem read_word (t : Token) (rest : List Glyph) : read (.word [] t) rest = t :: read .between rest := by
  cases rest <;> rfl

/-- The name of a member, up to its value. -/
theorem read_name (level : Nat) (n : String) (rest : List Glyph) :
    read .between ((newLine level ++ stringChars n ++ [':', ' ']).map some ++ rest) =
      .string (.ofString n) :: .colon :: read .between rest := by
  simp only [List.map_append, List.append_assoc]
  rw [read_newLine, read_stringChars]
  rfl

theorem bounded_prettyItems (level : Nat) (items : List Json) (rest : List Glyph) :
    Bounded ((prettyItems level items).map some ++ rest) := by
  cases items with
  | nil =>
    rw [prettyItems, List.map_append, List.append_assoc]
    exact bounded_newLine level _
  | cons j items => exact bounded_comma _

theorem bounded_prettyMembers (level : Nat) (ms : List (String × Json)) (rest : List Glyph) :
    Bounded ((prettyMembers level ms).map some ++ rest) := by
  cases ms with
  | nil =>
    rw [prettyMembers, List.map_append, List.append_assoc]
    exact bounded_newLine level _
  | cons e ms => exact bounded_comma _

mutual

/-- The text of a value is scanned as its tokens, on whatever level it stands. -/
theorem read_prettyChars : ∀ (j : Json) (level : Nat) {rest : List Glyph}, j.Every Whole →
    Bounded rest →
    read .between ((prettyChars level j).map some ++ rest) = lexemes j ++ read .between rest
  | .null, _, rest, _, _ => read_word .null rest
  | .bool true, _, rest, _, _ => read_word (.bool true) rest
  | .bool false, _, rest, _, _ => read_word (.bool false) rest
  | .number (.whole z), _, rest, _, hrest => read_wholeChars z hrest
  | .number (.double x), _, _, h, _ => h.here.elim
  | .string s, _, rest, _, _ => read_stringChars s rest
  | .array [], _, _, _, _ => rfl
  | .array (j :: items), level, rest, h, hrest => by
    obtain ⟨-, hj, hrest'⟩ := h
    have hopen : read .between ((prettyChars level (.array (j :: items))).map some ++ rest) =
        .openArray :: read .between ((newLine (level + 1)).map some ++
          ((prettyChars (level + 1) j).map some ++ ((prettyItems level items).map some ++ rest))) := by
      simp [prettyChars, read, step, start, isSpace]
    rw [hopen, read_newLine, read_prettyChars j _ hj (bounded_prettyItems level items rest),
      read_prettyItems items level hrest']
    simp [lexemes]
  | .object [], _, _, _, _ => rfl
  | .object ((n, j) :: ms), level, rest, h, hrest => by
    obtain ⟨-, hj, hrest'⟩ := h
    have hopen : read .between ((prettyChars level (.object ((n, j) :: ms))).map some ++ rest) =
        .openObject :: read .between ((newLine (level + 1) ++ stringChars n ++ [':', ' ']).map some ++
          ((prettyChars (level + 1) j).map some ++ ((prettyMembers level ms).map some ++ rest))) := by
      simp [prettyChars, read, step, start, isSpace]
    rw [hopen, read_name, read_prettyChars j _ hj (bounded_prettyMembers level ms rest),
      read_prettyMembers ms level hrest']
    simp [lexemes]

theorem read_prettyItems : ∀ (items : List Json) (level : Nat) {rest : List Glyph},
    EveryItem Whole items →
    read .between ((prettyItems level items).map some ++ rest) =
      itemLexemes items ++ read .between rest
  | [], level, rest, _ => by
    simp only [prettyItems, List.map_append, List.append_assoc]
    rw [read_newLine]
    rfl
  | j :: items, level, rest, h => by
    obtain ⟨hj, hrest'⟩ := h
    have hcomma : read .between ((prettyItems level (j :: items)).map some ++ rest) =
        .comma :: read .between ((newLine (level + 1)).map some ++
          ((prettyChars (level + 1) j).map some ++ ((prettyItems level items).map some ++ rest))) := by
      simp [prettyItems, read, step, start, isSpace]
    rw [hcomma, read_newLine, read_prettyChars j _ hj (bounded_prettyItems level items rest),
      read_prettyItems items level hrest']
    simp [itemLexemes]

theorem read_prettyMembers : ∀ (ms : List (String × Json)) (level : Nat) {rest : List Glyph},
    EveryMember Whole ms →
    read .between ((prettyMembers level ms).map some ++ rest) =
      memberLexemes ms ++ read .between rest
  | [], level, rest, _ => by
    simp only [prettyMembers, List.map_append, List.append_assoc]
    rw [read_newLine]
    rfl
  | (n, j) :: ms, level, rest, h => by
    obtain ⟨hj, hrest'⟩ := h
    have hcomma : read .between ((prettyMembers level ((n, j) :: ms)).map some ++ rest) =
        .comma :: read .between ((newLine (level + 1) ++ stringChars n ++ [':', ' ']).map some ++
          ((prettyChars (level + 1) j).map some ++ ((prettyMembers level ms).map some ++ rest))) := by
      simp [prettyMembers, read, step, start, isSpace]
    rw [hcomma, read_name, read_prettyChars j _ hj (bounded_prettyMembers level ms rest),
      read_prettyMembers ms level hrest']
    simp [memberLexemes]

end

end Token

theorem tokens_pretty {j : Json} (h : j.Every Whole) :
    tokens (Text.glyphsOf j.pretty) = lexemes j := by
  have hread := Token.read_prettyChars j 0 h Token.bounded_nil
  simpa [tokens, Text.glyphsOf, pretty, Token.read, Token.finish] using hread

end Supervisor.Json
