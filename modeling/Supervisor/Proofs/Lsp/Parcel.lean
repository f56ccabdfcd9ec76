import Mathlib
import Supervisor.Proofs.Lsp.Reading
import Supervisor.Proofs.Text.Trimming
import Supervisor.Proofs.Text.Utf8
/-!
# Parcels

A parcel is a body with the header that a writer has put before it: one line with the length of the
body, and other lines around it. Whatever is in the bodies, a stream of parcels is read as its bodies.
-/
namespace Supervisor.Lsp

open Text (IsGap IsSolid utf8)

theorem ofList_eq_iff {cs : List Char} {text : String} : String.ofList cs = text ↔ cs = text.toList := by
  constructor
  · intro h
    rw [← h, String.toList_ofList]
  · intro h
    rw [h, String.ofList_toList]

theorem ne_colon_of_not_mem {cs : List Char} (hn : ':' ∉ cs) : ∀ c ∈ cs, (c != ':') = true := by
  intro c hc
  have hne : c ≠ ':' := fun h => hn (h ▸ hc)
  simpa using hne

/-! ## Names and numbers in a header -/

/-- The name of the length, in any letter case and with any blanks around it. -/
def NamesLength (name : List Char) : Prop :=
  ∃ before word after, IsGap before ∧ IsGap after ∧ name = before ++ word ++ after ∧
    word.map Char.toLower = "content-length".toList

theorem toLower_of_blank {c : Char} (hc : Text.isBlank c = true) : c.toLower = c := by
  have hn : ¬ (c.val ≥ 'A'.val ∧ c.val ≤ 'Z'.val) := by
    rintro ⟨hl, hh⟩
    have hl' : 65 ≤ c.toNat := UInt32.le_iff_toNat_le.mp hl
    have hh' : c.toNat ≤ 90 := UInt32.le_iff_toNat_le.mp hh
    simp only [Text.isBlank, Bool.or_eq_true, Bool.and_eq_true, decide_eq_true_eq,
      beq_iff_eq] at hc
    omega
  simp only [Char.toLower, dif_neg hn]

/-- A character without case that is not in the name of the length is in no spelling of it. -/
theorem not_mem_of_map_toLower {word : List Char} {c : Char}
    (hw : word.map Char.toLower = "content-length".toList) (hlow : c.toLower = c)
    (hc : c ∉ "content-length".toList) : c ∉ word := by
  intro hm
  have hl := List.mem_map_of_mem (f := Char.toLower) hm
  rw [hw, hlow] at hl
  exact hc hl

theorem solid_of_map_toLower {word : List Char}
    (hw : word.map Char.toLower = "content-length".toList) : IsSolid word := by
  intro c hm
  by_contra hb
  have hblank : Text.isBlank c = true := by simpa using hb
  have hn : c ∉ "content-length".toList := by
    intro hmem
    have hall : "content-length".toList.all (fun c => !Text.isBlank c) = true := rfl
    have hc := List.all_eq_true.mp hall c hmem
    simp [hblank] at hc
  exact not_mem_of_map_toLower hw (toLower_of_blank hblank) hn hm

theorem isLengthName_iff {name : List Char} : isLengthName name = true ↔ NamesLength name := by
  simp only [isLengthName, beq_iff_eq, ofList_eq_iff]
  constructor
  · intro hw
    obtain ⟨before, after, hb, ha, hname⟩ := Text.exists_trim name
    exact ⟨before, Text.trim name, after, hb, ha, hname, hw⟩
  · rintro ⟨before, word, after, hb, ha, rfl, hw⟩
    rw [Text.trim_around hb (solid_of_map_toLower hw) ha]
    exact hw

theorem headerLength?_of_colon {name : List Char} (hn : ':' ∉ name) (value : List Char) :
    headerLength? (name ++ ':' :: value) =
      if isLengthName name then unsigned? (Text.trim value) else none := by
  have hall := ne_colon_of_not_mem hn
  have htake : (name ++ ':' :: value).takeWhile (· != ':') = name := by
    rw [List.takeWhile_append_of_pos hall]
    simp
  simp only [headerLength?, htake, List.drop_left]

theorem headerLength?_of_no_colon {line : List Char} (hn : ':' ∉ line) : headerLength? line = none := by
  have hall := ne_colon_of_not_mem hn
  have htake : line.takeWhile (· != ':') = line := List.takeWhile_eq_self_iff.mpr hall
  simp [headerLength?, htake]

/-- A number as it can stand in a header: with a plus sign or without, and with any zeros before it. -/
def numeral (plus : Bool) (zeros n : Nat) : List Char :=
  (if plus then ['+'] else []) ++ (List.replicate zeros '0' ++ Nat.toDigits 10 n)

theorem isDigit_of_mem {zeros n : Nat} {c : Char}
    (hc : c ∈ List.replicate zeros '0' ++ Nat.toDigits 10 n) : c.isDigit = true := by
  rcases List.mem_append.mp hc with h | h
  · rw [List.eq_of_mem_replicate h]
    rfl
  · exact Nat.isDigit_of_mem_toDigits (by decide) (by decide) h

theorem solid_numeral (plus : Bool) (zeros n : Nat) : IsSolid (numeral plus zeros n) := by
  intro c hc
  rcases List.mem_append.mp hc with h | h
  · cases plus with
    | true =>
      rw [List.mem_singleton.mp h]
      decide
    | false => simp at h
  · exact Text.isBlank_of_isDigit (isDigit_of_mem h)

theorem unsigned?_of_digits {digits : List Char} {n : Nat} (hne : digits ≠ [])
    (hall : ∀ c ∈ digits, c.isDigit = true) (hv : Nat.ofDigitChars 10 digits 0 = n) (plus : Bool) :
    unsigned? ((if plus then ['+'] else []) ++ digits) = if n < wordLimit then some n else none := by
  have he : digits.isEmpty = false := by simpa using hne
  have hall' : digits.all Char.isDigit = true := List.all_eq_true.mpr hall
  have hv' : digits.foldl (fun n c => n * 10 + (c.toNat - 48)) 0 = n := by
    have h48 : ('0' : Char).toNat = 48 := rfl
    simpa only [Nat.ofDigitChars_eq_foldl, Nat.mul_comm, h48] using hv
  cases plus with
  | true =>
    simp only [unsigned?, if_true, List.singleton_append, he, hall', hv']
    simp
  | false =>
    simp only [unsigned?, Bool.false_eq_true, if_false, List.nil_append]
    split
    · -- Without a sign the first character is a digit.
      have hd := hall '+' (by simp)
      simp at hd
    · simp only [he, hall', hv']
      simp

theorem unsigned?_numeral (plus : Bool) (zeros n : Nat) :
    unsigned? (numeral plus zeros n) = if n < wordLimit then some n else none := by
  refine unsigned?_of_digits ?_ (fun c hc => isDigit_of_mem hc) ?_ plus
  · simp [Nat.toDigits_ne_nil]
  · rw [Nat.ofDigitChars_append, Nat.ofDigitChars_replicate_zero, Nat.mul_zero,
      Nat.ofDigitChars_ten_toDigits]

/-! ## Lines of a header -/

inductive LineEnd
  | lf
  | crlf
deriving DecidableEq, Repr

namespace LineEnd

def lead : LineEnd → List Char
  | .lf => []
  | .crlf => ['\r']

def chars (e : LineEnd) : List Char := e.lead ++ ['\n']

theorem lead_gap (e : LineEnd) : IsGap e.lead := by
  cases e with
  | lf => simp [lead, IsGap]
  | crlf =>
    simp only [lead, IsGap, List.mem_singleton, forall_eq]
    decide

theorem chars_gap (e : LineEnd) : IsGap e.chars := by
  refine e.lead_gap.append ?_
  simp only [IsGap, List.mem_singleton, forall_eq]
  decide

theorem lineFeed_not_mem_lead (e : LineEnd) : '\n' ∉ e.lead := by
  cases e <;> decide

end LineEnd

theorem spells_utf8 (cs : List Char) : Spells (utf8 cs) (String.ofList cs) :=
  ⟨Text.flaw?_utf8 cs, Text.decodeLossy_utf8 cs⟩

theorem isBlankLine_ofList {cs : List Char} :
    IsBlankLine (String.ofList cs) ↔ ∃ e : LineEnd, cs = e.chars := by
  simp only [IsBlankLine, ofList_eq_iff]
  constructor
  · rintro (h | h)
    · exact ⟨.lf, h⟩
    · exact ⟨.crlf, h⟩
  · rintro ⟨e | e, h⟩
    · exact .inl h
    · exact .inr h

section
variable {n : Nat} {rest : List UInt8} {bodies : List (List UInt8)} {why : ReadEnd}

theorem utf8_line (cs : List Char) (e : LineEnd) (rest : List UInt8) :
    utf8 (cs ++ e.chars) ++ rest = utf8 (cs ++ e.lead) ++ 10 :: rest := by
  have hf : utf8 ['\n'] = [10] := by decide
  simp [LineEnd.chars, hf]

theorem spells_line (cs : List Char) (e : LineEnd) :
    Spells (utf8 (cs ++ e.lead) ++ [10]) (String.ofList (cs ++ e.chars)) := by
  rw [← utf8_line cs e [], List.append_nil]
  exact spells_utf8 _

theorem lineFeed_not_mem_line {cs : List Char} (hcs : '\n' ∉ cs) (e : LineEnd) :
    10 ∉ utf8 (cs ++ e.lead) := by
  refine Text.lineFeed_not_mem_utf8 ?_
  intro hm
  rcases List.mem_append.mp hm with h | h
  · exact hcs h
  · exact e.lineFeed_not_mem_lead h

theorem Reads.header {cs : List Char} {e : LineEnd} (hcs : '\n' ∉ cs)
    (hb : ∀ e' : LineEnd, cs ++ e.chars ≠ e'.chars)
    (h : Reads ((headerLength? (cs ++ e.chars)).getD n) rest bodies why) :
    Reads n (utf8 (cs ++ e.chars) ++ rest) bodies why := by
  rw [utf8_line]
  refine .field (lineFeed_not_mem_line hcs e) (spells_line cs e) ?_ ?_
  · intro hblank
    obtain ⟨e', he⟩ := isBlankLine_ofList.mp hblank
    exact hb e' he
  · rw [String.toList_ofList]
    exact h

end

/-- A line of a header that is neither blank nor gives a length. -/
structure Aside where
  text : List Char
  ending : LineEnd
  oneLine : '\n' ∉ text
  notBlank : ∀ e : LineEnd, text ++ ending.chars ≠ e.chars
  noLength : ∀ name value, text = name ++ ':' :: value → ':' ∉ name → ¬ NamesLength name

namespace Aside

def chars (a : Aside) : List Char := a.text ++ a.ending.chars

theorem headerLength?_chars (a : Aside) : headerLength? a.chars = none := by
  by_cases hc : ':' ∈ a.text
  · obtain ⟨name, value, htext, hname⟩ := List.eq_append_cons_of_mem hc
    have hn : ¬ isLengthName name = true := by
      rw [isLengthName_iff]
      exact a.noLength name value htext hname
    rw [chars, htext, List.append_assoc, List.cons_append, headerLength?_of_colon hname, if_neg hn]
  · refine headerLength?_of_no_colon ?_
    intro hm
    rcases List.mem_append.mp hm with h | h
    · exact hc h
    · exact absurd (a.ending.chars_gap ':' h) (by decide)

theorem reads (a : Aside) {n : Nat} {rest : List UInt8} {bodies : List (List UInt8)} {why : ReadEnd}
    (h : Reads n rest bodies why) : Reads n (utf8 a.chars ++ rest) bodies why := by
  refine .header a.oneLine a.notBlank ?_
  have hn := a.headerLength?_chars
  rw [chars] at hn
  rw [hn]
  exact h

end Aside

structure LengthLine (n : Nat) where
  before : List Char := []
  name : List Char := "Content-Length".toList
  after : List Char := []
  gap : List Char := []
  plus : Bool := false
  zeros : Nat := 0
  trail : List Char := []
  ending : LineEnd := .crlf
  named : name.map Char.toLower = "content-length".toList := by decide
  gaps : ∀ cs ∈ [before, after, gap, trail], IsGap cs ∧ '\n' ∉ cs

namespace LengthLine
variable {n : Nat}

def label (l : LengthLine n) : List Char := l.before ++ l.name ++ l.after

def number (l : LengthLine n) : List Char := l.gap ++ numeral l.plus l.zeros n ++ l.trail

def chars (l : LengthLine n) : List Char := l.label ++ ':' :: l.number ++ l.ending.chars

theorem colon_not_mem_label (l : LengthLine n) : ':' ∉ l.label := by
  have hgap : ∀ cs ∈ [l.before, l.after, l.gap, l.trail], ':' ∉ cs := by
    intro cs hcs hm
    exact absurd ((l.gaps cs hcs).1 ':' hm) (by decide)
  simp only [label, List.mem_append, not_or]
  exact ⟨⟨hgap _ (by simp), not_mem_of_map_toLower l.named (by decide) (by decide)⟩, hgap _ (by simp)⟩

theorem lineFeed_not_mem (l : LengthLine n) : '\n' ∉ l.label ++ ':' :: l.number := by
  have hgap : ∀ cs ∈ [l.before, l.after, l.gap, l.trail], '\n' ∉ cs := fun cs hcs => (l.gaps cs hcs).2
  have hname : '\n' ∉ l.name := not_mem_of_map_toLower l.named (by decide) (by decide)
  -- The name and the number have no blanks, and a line feed is one.
  have hnum : '\n' ∉ numeral l.plus l.zeros n := (solid_numeral _ _ _).not_mem (by decide)
  simp only [label, number, List.mem_append, List.mem_cons, not_or]
  exact ⟨⟨⟨hgap _ (by simp), hname⟩, hgap _ (by simp)⟩, by decide,
    ⟨hgap _ (by simp), hnum⟩, hgap _ (by simp)⟩

theorem headerLength?_chars (l : LengthLine n) :
    headerLength? l.chars = if n < wordLimit then some n else none := by
  have hlabel : isLengthName l.label = true :=
    isLengthName_iff.mpr ⟨_, _, _, (l.gaps _ (by simp)).1, (l.gaps _ (by simp)).1, rfl, l.named⟩
  have htrim : Text.trim (l.number ++ l.ending.chars) = numeral l.plus l.zeros n := by
    rw [number, List.append_assoc]
    exact Text.trim_around (l.gaps _ (by simp)).1 (solid_numeral _ _ _)
      ((l.gaps l.trail (by simp)).1.append l.ending.chars_gap)
  rw [chars, List.append_assoc, List.cons_append, headerLength?_of_colon l.colon_not_mem_label,
    if_pos hlabel, htrim]
  exact unsigned?_numeral _ _ _

theorem notBlank (l : LengthLine n) (e : LineEnd) : l.chars ≠ e.chars := by
  intro h
  have hm : ':' ∈ l.chars := by simp [chars]
  rw [h] at hm
  exact absurd (e.chars_gap ':' hm) (by decide)

theorem reads (l : LengthLine n) (hn : n < wordLimit) {k : Nat} {rest : List UInt8}
    {bodies : List (List UInt8)} {why : ReadEnd} (h : Reads n rest bodies why) :
    Reads k (utf8 l.chars ++ rest) bodies why := by
  refine .header l.lineFeed_not_mem l.notBlank ?_
  have hl := l.headerLength?_chars
  rw [chars, if_pos hn] at hl
  rw [hl]
  exact h

/-- The line as the supervisor itself writes it. -/
def plain (n : Nat) : LengthLine n where
  gap := [' ']
  gaps := by
    simp [IsGap]
    decide

theorem chars_plain (n : Nat) :
    (plain n).chars = "Content-Length: ".toList ++ Nat.toDigits 10 n ++ LineEnd.crlf.chars := by
  simp [plain, chars, label, number, numeral]

end LengthLine

/-! ## Parcels -/

structure Parcel where
  above : List Aside := []
  body : List UInt8
  length : LengthLine body.length
  below : List Aside := []
  ending : LineEnd := .crlf
  nonempty : 0 < body.length
  fits : body.length ≤ lengthLimit

namespace Parcel

def head (p : Parcel) : List Char :=
  p.above.flatMap Aside.chars ++ (p.length.chars ++ (p.below.flatMap Aside.chars ++ p.ending.chars))

def bytes (p : Parcel) : List UInt8 := utf8 p.head ++ p.body

theorem reads_asides (as : List Aside) {n : Nat} {rest : List UInt8} {bodies : List (List UInt8)}
    {why : ReadEnd} (h : Reads n rest bodies why) :
    Reads n (utf8 (as.flatMap Aside.chars) ++ rest) bodies why := by
  induction as with
  | nil => exact h
  | cons a as ih =>
    rw [List.flatMap_cons, Text.utf8_append, List.append_assoc]
    exact a.reads ih

theorem reads_body (p : Parcel) {rest : List UInt8} {bodies : List (List UInt8)} {why : ReadEnd}
    (h : Reads 0 rest bodies why) :
    Reads p.body.length (utf8 p.ending.chars ++ (p.body ++ rest)) (p.body :: bodies) why := by
  rw [← List.nil_append p.ending.chars, utf8_line]
  refine .body (lineFeed_not_mem_line (by simp) _) (spells_line [] _) ?_ p.nonempty p.fits h
  exact isBlankLine_ofList.mpr ⟨p.ending, rfl⟩

theorem reads (p : Parcel) {rest : List UInt8} {bodies : List (List UInt8)} {why : ReadEnd}
    (h : Reads 0 rest bodies why) : Reads 0 (p.bytes ++ rest) (p.body :: bodies) why := by
  have hn : p.body.length < wordLimit := Nat.lt_of_le_of_lt p.fits (by decide)
  simp only [bytes, head, Text.utf8_append, List.append_assoc]
  exact reads_asides _ (p.length.reads hn (reads_asides _ (p.reads_body h)))

theorem reads_all (ps : List Parcel) : Reads 0 (ps.flatMap bytes) (ps.map body) .terminated := by
  induction ps with
  | nil => exact .hangUp (by simp) rfl
  | cons p ps ih => exact p.reads ih

def ofText (text : String) (hpos : 0 < text.utf8ByteSize) (hfits : text.utf8ByteSize ≤ lengthLimit) :
    Parcel where
  body := Text.encode text
  length := .plain _
  nonempty := by rwa [Text.length_encode]
  fits := by rwa [Text.length_encode]

theorem head_ofText {text : String} (hpos : 0 < text.utf8ByteSize)
    (hfits : text.utf8ByteSize ≤ lengthLimit) :
    (ofText text hpos hfits).head =
      ("Content-Length: " ++ toString text.utf8ByteSize ++ "\r\n\r\n").toList := by
  have hdigits : (toString text.utf8ByteSize).toList = Nat.toDigits 10 text.utf8ByteSize := by
    rw [Nat.toString_eq_repr, Nat.toList_repr]
  have hline : (ofText text hpos hfits).head =
      [] ++ ((LengthLine.plain (Text.encode text).length).chars ++ ([] ++ LineEnd.crlf.chars)) := rfl
  rw [hline, LengthLine.chars_plain, Text.length_encode, String.toList_append, String.toList_append,
    hdigits]
  simp [LineEnd.chars, LineEnd.lead]

theorem bytes_ofText {text : String} (hpos : 0 < text.utf8ByteSize)
    (hfits : text.utf8ByteSize ≤ lengthLimit) :
    (ofText text hpos hfits).bytes = Text.encode (frame text) := by
  have hbody : (ofText text hpos hfits).body = utf8 text.toList := Text.encode_eq_utf8 text
  have hframe : (frame text).toList =
      ("Content-Length: " ++ toString text.utf8ByteSize ++ "\r\n\r\n").toList ++ text.toList :=
    String.toList_append
  rw [bytes, head_ofText, hbody, ← Text.utf8_append, Text.encode_eq_utf8 (frame text), hframe]

end Parcel

/-- A reader takes the bodies from a stream, and then nothing but the end of the stream. -/
def ReadsBack (stream : List UInt8) (bodies : List (List UInt8)) : Prop :=
  (FrameReader.start.feed stream).2 = bodies ∧
    (FrameReader.start.feed stream).1.close.message = "server terminated"

theorem Reads.readsBack {stream : List UInt8} {bodies : List (List UInt8)}
    (h : Reads 0 stream bodies .terminated) : ReadsBack stream bodies := by
  obtain ⟨hb, hw⟩ := FrameReader.yields_of_reads h
  refine ⟨hb, ?_⟩
  have hclose : (FrameReader.start.feed stream).1.close = .terminated := hw
  rw [hclose]
  rfl

/-- Texts that were framed are read back, and so are the bodies of all other parcels, whatever lines
stand in their headers. -/
theorem bodies_read_back :
    (∀ texts : List String, (∀ t ∈ texts, 0 < t.utf8ByteSize ∧ t.utf8ByteSize ≤ lengthLimit) →
      ReadsBack (texts.flatMap fun t => Text.encode (frame t)) (texts.map Text.encode)) ∧
    ∀ parcels : List Parcel, ReadsBack (parcels.flatMap Parcel.bytes) (parcels.map Parcel.body) := by
  constructor
  · intro texts htexts
    have hreads : Reads 0 (texts.flatMap fun t => Text.encode (frame t)) (texts.map Text.encode)
        .terminated := by
      induction texts with
      | nil => exact .hangUp (by simp) rfl
      | cons t texts ih =>
        obtain ⟨hpos, hfits⟩ := htexts t (by simp)
        rw [List.flatMap_cons, ← Parcel.bytes_ofText hpos hfits]
        exact (Parcel.ofText t hpos hfits).reads (ih fun x hx => htexts x (by simp [hx]))
    exact hreads.readsBack
  · intro parcels
    exact (Parcel.reads_all parcels).readsBack

/-- A parcel as some other program may write it. -/
def Parcel.foreign : Parcel where
  above := [{
    text := "content-length".toList
    ending := .lf
    oneLine := by decide
    notBlank := by
      rintro (e | e) <;> decide
    noLength := by
      intro name value h _
      have hm : ':' ∈ "content-length".toList := by simp [h]
      exact absurd hm (by decide) }]
  body := [10, 13, 10, 255]
  length := {
    before := ['\t']
    name := "CONTENT-length".toList
    after := [' ']
    plus := true
    zeros := 2
    ending := .lf
    gaps := by
      simp [IsGap]
      decide }
  nonempty := by decide
  fits := by decide

/-- Two texts, of which one looks like a header, and a parcel whose body is no text. -/
theorem bodies_read_back_texts :
    (∀ t ∈ ["é\n", "Content-Length: 9\r\n\r\n"], 0 < t.utf8ByteSize ∧ t.utf8ByteSize ≤ lengthLimit) ∧
    ReadsBack (["é\n", "Content-Length: 9\r\n\r\n"].flatMap fun t => Text.encode (frame t))
      (["é\n", "Content-Length: 9\r\n\r\n"].map Text.encode) ∧
    Parcel.foreign.bytes = utf8 "content-length\n\tCONTENT-length :+004\n\r\n\n\r\n".toList ++ [255] ∧
    ReadsBack Parcel.foreign.bytes [[10, 13, 10, 255]] := by
  have hfit : ∀ t ∈ ["é\n", "Content-Length: 9\r\n\r\n"],
      0 < t.utf8ByteSize ∧ t.utf8ByteSize ≤ lengthLimit := by decide
  have hforeign := bodies_read_back.2 [Parcel.foreign]
  rw [List.flatMap_singleton] at hforeign
  exact ⟨hfit, bodies_read_back.1 _ hfit, rfl, hforeign⟩

end Supervisor.Lsp
