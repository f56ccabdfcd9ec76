import Supervisor.Proofs.Lsp.Parcel
import Supervisor.Proofs.Lsp.Answers
/-!
# Lengths beyond the limit

What a reader makes of a header, by the number that is given as the length: it takes a body of this
length, or it ends. A number that does not fit into a word counts as no length at all, and what
comes after such a header is read as if the header were not there.
-/
namespace Supervisor.Lsp

open Text (utf8)

/-- A header with one line for the length, and other lines around it. -/
structure Heading (n : Nat) where
  above : List Aside := []
  length : LengthLine n
  below : List Aside := []
  ending : LineEnd := .crlf

namespace Heading

def chars {n : Nat} (h : Heading n) : List Char :=
  h.above.flatMap Aside.chars ++ (h.length.chars ++ (h.below.flatMap Aside.chars ++ h.ending.chars))

def bytes {n : Nat} (h : Heading n) : List UInt8 := utf8 h.chars

end Heading

/-! ## Headers line by line -/

namespace FrameReader
variable {k n : Nat} {cs : List Char} {e : LineEnd}

theorem feed_field (hcs : '\n' ∉ cs) (hb : ∀ e' : LineEnd, cs ++ e.chars ≠ e'.chars)
    (rest : List UInt8) :
    (FrameReader.header [] k).feed (utf8 (cs ++ e.chars) ++ rest) =
      (FrameReader.header [] ((headerLength? (cs ++ e.chars)).getD k)).feed rest := by
  have hblank : ¬ IsBlankLine (String.ofList (cs ++ e.chars)) := by
    intro h
    obtain ⟨e', he⟩ := isBlankLine_ofList.mp h
    exact hb e' he
  rw [utf8_line, feed_line (lineFeed_not_mem_line hcs e), endLine_field (spells_line cs e) hblank,
    String.toList_ofList]

theorem feed_aside (a : Aside) (rest : List UInt8) :
    (FrameReader.header [] k).feed (utf8 a.chars ++ rest) = (FrameReader.header [] k).feed rest := by
  have hn := a.headerLength?_chars
  rw [Aside.chars] at hn ⊢
  rw [feed_field a.oneLine a.notBlank, hn]
  rfl

theorem feed_asides (as : List Aside) (rest : List UInt8) :
    (FrameReader.header [] k).feed (utf8 (as.flatMap Aside.chars) ++ rest) =
      (FrameReader.header [] k).feed rest := by
  induction as with
  | nil => rfl
  | cons a as ih => rw [List.flatMap_cons, Text.utf8_append, List.append_assoc, feed_aside, ih]

theorem feed_lengthLine (l : LengthLine n) (rest : List UInt8) :
    (FrameReader.header [] k).feed (utf8 l.chars ++ rest) =
      (FrameReader.header [] (if n < wordLimit then n else k)).feed rest := by
  have hl := l.headerLength?_chars
  have hb := l.notBlank
  rw [LengthLine.chars] at hl hb ⊢
  rw [feed_field l.lineFeed_not_mem hb, hl]
  split <;> rfl

/-- Where a reader is after a header that gives this length. -/
def announced (n : Nat) : FrameReader :=
  if n = 0 then start else if lengthLimit < n then .ended (.tooLong n) else .body n []

theorem feed_blank (e : LineEnd) (rest : List UInt8) :
    (FrameReader.header [] n).feed (utf8 e.chars ++ rest) = (announced n).feed rest := by
  rw [← List.nil_append e.chars, utf8_line, feed_line (lineFeed_not_mem_line (by simp) e),
    endLine_blank (spells_line [] e) (isBlankLine_ofList.mpr ⟨e, rfl⟩)]
  rfl

theorem feed_heading (h : Heading n) (rest : List UInt8) :
    start.feed (h.bytes ++ rest) = (announced (if n < wordLimit then n else 0)).feed rest := by
  simp only [Heading.bytes, Heading.chars, Text.utf8_append, List.append_assoc, start]
  rw [feed_asides, feed_lengthLine, feed_asides, feed_blank]

theorem announced_of_tooLong (hn : lengthLimit < n) : announced n = .ended (.tooLong n) := by
  have hz : n ≠ 0 := by omega
  rw [announced, if_neg hz, if_pos hn]

/-- A reader takes so many bytes as a body, as far as they are there, and then it begins anew. -/
theorem feed_announced (hz : 0 < n) (hn : n ≤ lengthLimit) (rest : List UInt8) :
    (announced n).feed rest =
      if n ≤ rest.length then
        ((start.feed (rest.drop n)).1, rest.take n :: (start.feed (rest.drop n)).2)
      else (.body (n - rest.length) rest.reverse, []) := by
  have hbody : announced n = .body n [] := by
    rw [announced, if_neg (Nat.ne_of_gt hz), if_neg (Nat.not_lt.mpr hn)]
  rw [hbody]
  by_cases hr : n ≤ rest.length
  · rw [if_pos hr]
    have hlen : (rest.take n).length = n := List.length_take_of_le hr
    have hfed := feed_body (hlen.symm ▸ hz) (rest.drop n)
    rwa [hlen, List.take_append_drop] at hfed
  · rw [if_neg hr, feed_inside (Nat.not_le.mp hr), List.append_nil]

/-! ## Readers that never come to a body -/

/-- Inside a body a reader stays there until the body is complete. -/
theorem feed_of_incomplete {missing : Nat} {before bytes : List UInt8}
    (h : ((FrameReader.body missing before).feed bytes).2 = []) :
    ∃ missing' before', ((FrameReader.body missing before).feed bytes).1 = .body missing' before' := by
  induction bytes generalizing missing before with
  | nil => exact ⟨missing, before, rfl⟩
  | cons b bytes ih =>
    by_cases hm : missing ≤ 1
    · simp [feed, step, hm] at h
    · simp only [feed, step, hm, if_false, Option.toList_none, List.nil_append] at h ⊢
      exact ih h

theorem not_body_of_ended {r : FrameReader} {seen more : List UInt8} {why : ReadEnd}
    (h : r.feed (seen ++ more) = (.ended why, [])) (missing : Nat) (before : List UInt8) :
    (r.feed seen).1 ≠ .body missing before := by
  intro hb
  rw [feed_append, hb, Prod.mk.injEq, List.append_eq_nil_iff] at h
  obtain ⟨hended, -, hnone⟩ := h
  obtain ⟨_, _, hstays⟩ := feed_of_incomplete hnone
  rw [hended] at hstays
  cases hstays

end FrameReader

/-! ## Clients that give up -/

/-- A client that has given up on a server because of a length: in what it has heard, no body was
begun and nothing was taken after the header, and whoever waited has been told. -/
structure Client.GivesUp (c : Client) (steps : List Client.Step) (n : Nat) : Prop where
  bodiless : ∀ seen more, Client.heard steps = seen ++ more →
    ∀ missing before, (c.reader.feed seen).1 ≠ .body missing before
  reader : (c.afterAll steps).1.reader = .ended (.tooLong n)
  outstanding : (c.afterAll steps).1.outstanding = []
  results : ∀ m, resultsFor m (c.afterAll steps).2 =
    if m ∈ c.outstanding then [leftOver (.tooLong n) m] else []
  replies : written (c.afterAll steps).2 = []
  state : if c.state.isStopping ∨ steps.any Client.Step.stops then
      (c.afterAll steps).1.state.isStopping = true
    else (c.afterAll steps).1.state = .crashed

/-- Before anything is heard. -/
theorem Client.abreast_start {c : Client} (hr : c.reader = .start) :
    Abreast c.outstanding [] c.state.isStopping c [] := by
  have hempty : outcome? [] none = fun _ => none := rfl
  have hend : c.reader.end? = none := by rw [hr]; rfl
  refine ⟨hr, ?_, rfl, fun h => by simp [hend] at h⟩
  rw [hend]
  refine ⟨?_, fun n => ?_, rfl⟩
  · exact (List.filter_eq_self.mpr fun _ _ => rfl).symm
  · simp [FrameReader.feed, hempty]

theorem Client.givesUp_of_ended {c : Client} {steps : List Client.Step} {n : Nat}
    (hr : c.reader = .start) (ho : c.outstanding.Nodup)
    (hfed : FrameReader.start.feed (Client.heard steps) = (.ended (.tooLong n), [])) :
    c.GivesUp steps n := by
  have hall := Client.afterAll_abreast ho (Client.abreast_start hr) steps
  rw [List.nil_append, List.nil_append] at hall
  have hreader : (c.afterAll steps).1.reader = .ended (.tooLong n) := by rw [hall.reader, hfed]
  have hanswered := hall.answered
  rw [hreader, hfed] at hanswered
  refine ⟨?_, hreader, ?_, fun m => ?_, hanswered.replies, ?_⟩
  · intro seen more hseen
    rw [hr]
    exact FrameReader.not_body_of_ended (hseen ▸ hfed)
  · refine hanswered.outstanding.trans (List.filter_eq_nil_iff.mpr fun m _ => ?_)
    simp [FrameReader.end?, outcome?_some]
  · exact (hanswered.results m).trans (by simp [FrameReader.end?, outcome?_some, outcome])
  · by_cases hs : c.state.isStopping ∨ steps.any Client.Step.stops
    · rw [if_pos hs]
      exact hall.stops.trans (by simpa using hs)
    · rw [if_neg hs]
      exact hall.crashed (by rw [hreader]; rfl) (by simpa using hs)

/-- After a header with a length over the limit, a client gives up whatever else it hears, exactly if
the length fits into a word. If it does not, the header is passed over; and a length within the limit
says how many of the bytes after the header are the body. -/
theorem gives_up_iff {n : Nat} (h : Heading n) :
    (lengthLimit < n →
      ((∀ (c : Client) (steps : List Client.Step) (rest : List UInt8), c.reader = .start →
        c.outstanding.Nodup → Client.heard steps = h.bytes ++ rest → c.GivesUp steps n) ↔
          n < wordLimit)) ∧
    (wordLimit ≤ n → ∀ rest,
      FrameReader.start.feed (h.bytes ++ rest) = FrameReader.start.feed rest) ∧
    (0 < n → n ≤ lengthLimit → ∀ rest, FrameReader.start.feed (h.bytes ++ rest) =
      if n ≤ rest.length then
        ((FrameReader.start.feed (rest.drop n)).1,
          rest.take n :: (FrameReader.start.feed (rest.drop n)).2)
      else (.body (n - rest.length) rest.reverse, [])) := by
  have hover : wordLimit ≤ n → ∀ rest,
      FrameReader.start.feed (h.bytes ++ rest) = FrameReader.start.feed rest := by
    intro hn rest
    rw [FrameReader.feed_heading, if_neg (Nat.not_lt.mpr hn)]
    rfl
  refine ⟨fun hlong => ⟨fun hall => ?_, fun hn => ?_⟩, hover, fun hz hn rest => ?_⟩
  · by_contra hn
    -- A client that hears nothing but this header goes on reading.
    let c : Client := { id := "server" }
    have hgives := hall c [.hear h.bytes] [] rfl .nil (by simp [Client.heard, Client.Step.bytes])
    have hstart : Client.Abreast c.outstanding [] c.state.isStopping c [] := Client.abreast_start rfl
    have hall' := Client.afterAll_abreast .nil hstart [.hear h.bytes]
    have hheard : [] ++ Client.heard [.hear h.bytes] = h.bytes ++ [] := by
      simp [Client.heard, Client.Step.bytes]
    have hreader := hall'.reader
    rw [hheard, hover (Nat.not_lt.mp hn), hgives.reader] at hreader
    cases hreader
  · intro c steps rest hr ho hheard
    refine Client.givesUp_of_ended hr ho ?_
    rw [hheard, FrameReader.feed_heading, if_pos hn, FrameReader.announced_of_tooLong hlong,
      FrameReader.feed_ended]
  · have hword : n < wordLimit := Nat.lt_of_le_of_lt hn (by decide)
    rw [FrameReader.feed_heading, if_pos hword, FrameReader.feed_announced hz hn]

/-- A length over the limit, in a header that comes in two portions, with a request outstanding, and
a length beyond a word, after which a message comes. -/
theorem gives_up_iff_two_lengths :
    let c : Client := { id := "server", outstanding := [0] }
    let steps : List Client.Step :=
      [.hear (utf8 "Content-Length: 1000".toList), .hear (utf8 "00000\r\n\r\nContent".toList)]
    let message := utf8 "Content-Length: 2\r\n\r\n\x7b\x7d".toList
    c.GivesUp steps 100000000 ∧
      resultsFor 0 (c.afterAll steps).2 = [.error (.request
        "read error: Content-Length 100000000 exceeds limit of 67108864 bytes (request 0)")] ∧
      (FrameReader.start.feed
        (utf8 "Content-Length: 18446744073709551616\r\n\r\n".toList ++ message)).2 =
          [utf8 "\x7b\x7d".toList] := by
  intro c steps message
  have hheard : Client.heard steps =
      Heading.bytes ⟨[], .plain 100000000, [], .crlf⟩ ++ utf8 "Content".toList := by decide
  have hgives : c.GivesUp steps 100000000 :=
    ((gives_up_iff ⟨[], .plain 100000000, [], .crlf⟩).1 (by decide)).mpr (by decide) c steps
      (utf8 "Content".toList) rfl (by decide) hheard
  have hbeyond := (gives_up_iff ⟨[], .plain 18446744073709551616, [], .crlf⟩).2.1 (by decide) message
  have hbytes : Heading.bytes ⟨[], .plain 18446744073709551616, [], .crlf⟩ =
      utf8 "Content-Length: 18446744073709551616\r\n\r\n".toList := by decide
  refine ⟨hgives, ?_, ?_⟩
  · exact hgives.results 0
  · rw [← hbytes, hbeyond]
    rfl

end Supervisor.Lsp
