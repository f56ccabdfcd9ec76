import Supervisor.Lsp.Frame
/-!
# Reading a stream

What is read from a whole stream, line by line and body by body: `Reads` says it without any state
in the middle of a line or of a body. Every stream is read in one way, and a `FrameReader`, which
takes it byte by byte, reads it so.
-/
namespace Supervisor.Lsp

/-- The bytes of a line have no flaw, and this is its text. -/
structure Spells (line : List UInt8) (text : String) : Prop where
  sound : Text.flaw? line = none
  decoded : Text.decodeLossy line = text

def IsBlankLine (text : String) : Prop := text = "\n" ∨ text = "\r\n"

/-- What is read from the beginning of a header line on, when this length has been given: the bodies,
and why reading ends. -/
inductive Reads : Nat → List UInt8 → List (List UInt8) → ReadEnd → Prop
  /-- The stream ends in a header; its last line is not complete. -/
  | hangUp {n : Nat} {line : List UInt8} (hl : 10 ∉ line) (hf : Text.flaw? line = none) :
    Reads n line [] .terminated
  | garbledEnd {n : Nat} {line : List UInt8} {f : Text.Flaw} (hl : 10 ∉ line)
      (hf : Text.flaw? line = some f) : Reads n line [] (.notText f)
  | garbled {n : Nat} {line rest : List UInt8} {f : Text.Flaw} (hl : 10 ∉ line)
      (hf : Text.flaw? (line ++ [10]) = some f) : Reads n (line ++ 10 :: rest) [] (.notText f)
  /-- A line gives a length, or it leaves the length as it was. -/
  | field {n : Nat} {line rest : List UInt8} {text : String} {bodies : List (List UInt8)}
      {why : ReadEnd} (hl : 10 ∉ line) (ht : Spells (line ++ [10]) text) (hb : ¬ IsBlankLine text)
      (h : Reads ((headerLength? text.toList).getD n) rest bodies why) :
    Reads n (line ++ 10 :: rest) bodies why
  /-- A header without a length, or with length 0, has no body. -/
  | bodiless {line rest : List UInt8} {text : String} {bodies : List (List UInt8)} {why : ReadEnd}
      (hl : 10 ∉ line) (ht : Spells (line ++ [10]) text) (hb : IsBlankLine text)
      (h : Reads 0 rest bodies why) : Reads 0 (line ++ 10 :: rest) bodies why
  | tooLong {n : Nat} {line rest : List UInt8} {text : String} (hl : 10 ∉ line)
      (ht : Spells (line ++ [10]) text) (hb : IsBlankLine text) (hn : lengthLimit < n) :
    Reads n (line ++ 10 :: rest) [] (.tooLong n)
  | cutOff {n : Nat} {line rest : List UInt8} {text : String} (hl : 10 ∉ line)
      (ht : Spells (line ++ [10]) text) (hb : IsBlankLine text) (hn : n ≤ lengthLimit)
      (hr : rest.length < n) : Reads n (line ++ 10 :: rest) [] .cutOff
  | body {line rest b : List UInt8} {text : String} {bodies : List (List UInt8)} {why : ReadEnd}
      (hl : 10 ∉ line) (ht : Spells (line ++ [10]) text) (hb : IsBlankLine text)
      (hpos : 0 < b.length) (hn : b.length ≤ lengthLimit) (h : Reads 0 rest bodies why) :
    Reads b.length (line ++ 10 :: (b ++ rest)) (b :: bodies) why

namespace FrameReader

def Yields (r : FrameReader) (bytes : List UInt8) (bodies : List (List UInt8)) (why : ReadEnd) : Prop :=
  (r.feed bytes).2 = bodies ∧ (r.feed bytes).1.close = why

@[simp] theorem feed_ended (why : ReadEnd) (bytes : List UInt8) :
    (FrameReader.ended why).feed bytes = (.ended why, []) := by
  induction bytes with
  | nil => rfl
  | cons b rest ih => simp [feed, step, ih]

theorem yields_ended (why : ReadEnd) (bytes : List UInt8) :
    (FrameReader.ended why).Yields bytes [] why := by
  simp [Yields, close]

/-- Bytes without a line feed make the current line longer. -/
theorem feed_open {line : List UInt8} (hl : 10 ∉ line) (before : List UInt8) (n : Nat) :
    (FrameReader.header before n).feed line = (.header (line.reverse ++ before) n, []) := by
  induction line generalizing before with
  | nil => rfl
  | cons b line ih =>
    simp only [List.mem_cons, not_or] at hl
    have hb : b ≠ 10 := fun h => hl.1 h.symm
    simp [feed, step, hb, ih hl.2]

theorem feed_line {line : List UInt8} (hl : 10 ∉ line) (n : Nat) (rest : List UInt8) :
    (FrameReader.header [] n).feed (line ++ 10 :: rest) = (endLine (line ++ [10]) n).feed rest := by
  rw [feed_append, feed_open hl]
  simp [feed, step]

theorem feed_inside {bytes : List UInt8} {missing : Nat} (hb : bytes.length < missing)
    (before : List UInt8) :
    (FrameReader.body missing before).feed bytes =
      (.body (missing - bytes.length) (bytes.reverse ++ before), []) := by
  induction bytes generalizing missing before with
  | nil => rfl
  | cons b bytes ih =>
    simp only [List.length_cons] at hb
    have hm : ¬ missing ≤ 1 := by omega
    have hlen : missing - 1 - bytes.length = missing - (bytes.length + 1) := by omega
    simp [feed, step, hm, ih (show bytes.length < missing - 1 by omega), hlen]

theorem feed_body {b : List UInt8} (hpos : 0 < b.length) (rest : List UInt8) :
    (FrameReader.body b.length []).feed (b ++ rest) =
      ((start.feed rest).1, b :: (start.feed rest).2) := by
  obtain ⟨init, last, rfl⟩ : ∃ init last, b = init ++ [last] :=
    ⟨b.dropLast, b.getLast (List.length_pos_iff.mp hpos), (List.dropLast_concat_getLast _).symm⟩
  have hinit : init.length < (init ++ [last]).length := by simp
  rw [List.append_assoc, feed_append, feed_inside hinit]
  simp [feed, step, start]

theorem endLine_of_flaw {line : List UInt8} {f : Text.Flaw} (hf : Text.flaw? line = some f) (n : Nat) :
    endLine line n = .ended (.notText f) := by
  simp [endLine, hf]

theorem endLine_field {line : List UInt8} {text : String} (ht : Spells line text)
    (hb : ¬ IsBlankLine text) (n : Nat) :
    endLine line n = .header [] ((headerLength? text.toList).getD n) := by
  have hb' : ¬ (text = "\n" ∨ text = "\r\n") := hb
  simp only [endLine, ht.sound, ht.decoded, hb', if_false]

theorem endLine_blank {line : List UInt8} {text : String} (ht : Spells line text)
    (hb : IsBlankLine text) (n : Nat) :
    endLine line n =
      if n = 0 then .header [] 0 else if lengthLimit < n then .ended (.tooLong n) else .body n [] := by
  have hb' : text = "\n" ∨ text = "\r\n" := hb
  simp only [endLine, ht.sound, ht.decoded, hb', if_true]

theorem yields_of_reads {n : Nat} {bytes : List UInt8} {bodies : List (List UInt8)} {why : ReadEnd}
    (h : Reads n bytes bodies why) : (FrameReader.header [] n).Yields bytes bodies why := by
  induction h with
  | hangUp hl hf => simp [Yields, feed_open hl, close, hf]
  | garbledEnd hl hf => simp [Yields, feed_open hl, close, hf]
  | garbled hl hf =>
    rw [Yields, feed_line hl, endLine_of_flaw hf]
    exact yields_ended _ _
  | field hl ht hb _ ih =>
    rw [Yields, feed_line hl, endLine_field ht hb]
    exact ih
  | bodiless hl ht hb _ ih =>
    rw [Yields, feed_line hl, endLine_blank ht hb]
    exact ih
  | @tooLong n _ _ _ hl ht hb hn =>
    have hz : n ≠ 0 := by omega
    rw [Yields, feed_line hl, endLine_blank ht hb, if_neg hz, if_pos hn]
    exact yields_ended _ _
  | @cutOff n _ rest _ hl ht hb hn hr =>
    have hz : n ≠ 0 := by omega
    rw [Yields, feed_line hl, endLine_blank ht hb, if_neg hz, if_neg (Nat.not_lt.mpr hn),
      feed_inside hr]
    exact ⟨rfl, rfl⟩
  | @body _ rest b _ _ _ hl ht hb hpos hn _ ih =>
    have hz : b.length ≠ 0 := by omega
    rw [Yields, feed_line hl, endLine_blank ht hb, if_neg hz, if_neg (Nat.not_lt.mpr hn),
      feed_body hpos]
    exact ⟨congrArg _ ih.1, ih.2⟩

end FrameReader

/-! ## Every stream is read in one way -/

/-- Whatever comes, the reading goes on with fewer bytes or ends. -/
theorem exists_reads (n : Nat) (bytes : List UInt8) : ∃ bodies why, Reads n bytes bodies why := by
  by_cases hm : 10 ∈ bytes
  · obtain ⟨line, rest, hbytes, hl⟩ := List.eq_append_cons_of_mem hm
    have hless : rest.length < bytes.length := by
      simp only [hbytes, List.length_append, List.length_cons]
      omega
    rw [hbytes]
    cases hf : Text.flaw? (line ++ [10]) with
    | some f => exact ⟨[], .notText f, .garbled hl hf⟩
    | none =>
      have ht : Spells (line ++ [10]) (Text.decodeLossy (line ++ [10])) := ⟨hf, rfl⟩
      by_cases hb : IsBlankLine (Text.decodeLossy (line ++ [10]))
      · rcases Nat.eq_zero_or_pos n with rfl | hpos
        · obtain ⟨bodies, why, h⟩ := exists_reads 0 rest
          exact ⟨bodies, why, .bodiless hl ht hb h⟩
        by_cases hlong : lengthLimit < n
        · exact ⟨[], .tooLong n, .tooLong hl ht hb hlong⟩
        by_cases hcut : rest.length < n
        · exact ⟨[], .cutOff, .cutOff hl ht hb (Nat.not_lt.mp hlong) hcut⟩
        have hn : (rest.take n).length = n := List.length_take_of_le (Nat.not_lt.mp hcut)
        obtain ⟨bodies, why, h⟩ := exists_reads 0 (rest.drop n)
        have hbody := Reads.body hl ht hb (hn.symm ▸ hpos) (by omega) h
        rw [hn, List.take_append_drop] at hbody
        exact ⟨_, why, hbody⟩
      · obtain ⟨bodies, why, h⟩ := exists_reads
          ((headerLength? (Text.decodeLossy (line ++ [10])).toList).getD n) rest
        exact ⟨bodies, why, .field hl ht hb h⟩
  · cases hf : Text.flaw? bytes with
    | none => exact ⟨[], .terminated, .hangUp hm hf⟩
    | some f => exact ⟨[], .notText f, .garbledEnd hm hf⟩
termination_by bytes.length
decreasing_by
  -- Each line takes at least its line feed from the stream, with a body or without one.
  · exact hless
  · simp only [List.length_drop]
    omega
  · exact hless

theorem FrameReader.yields_iff {n : Nat} {bytes : List UInt8} {bodies : List (List UInt8)}
    {why : ReadEnd} : (FrameReader.header [] n).Yields bytes bodies why ↔ Reads n bytes bodies why := by
  constructor
  · rintro ⟨rfl, rfl⟩
    obtain ⟨bodies, why, h⟩ := exists_reads n bytes
    obtain ⟨hb, hw⟩ := yields_of_reads h
    rw [hb, hw]
    exact h
  · exact yields_of_reads

end Supervisor.Lsp
