import Supervisor.Proofs.Lsp.Bodies
import Supervisor.Proofs.Lsp.Reading
/-!
# Answers to requests

What becomes of the requests that are outstanding when a client reads a stream to its end: each has
one result, which is the first answer in the stream, or the reason why reading ended. Requests of the
server get one reply each, and everything else in the stream has no effect.
-/
namespace Supervisor.Lsp

/-! ## What a body brings about -/

def FrameReader.end? : FrameReader → Option ReadEnd
  | .ended why => some why
  | _ => none

def resultsFor (n : Nat) (ds : List Deed) : List (Except Fault Json) :=
  ds.filterMap fun
    | .resolve m r => if m = n then some r else none
    | .write _ => none

def written (ds : List Deed) : List Json :=
  ds.filterMap fun
    | .write j => some j
    | .resolve _ _ => none

@[simp] theorem resultsFor_append (n : Nat) (ds ds' : List Deed) :
    resultsFor n (ds ++ ds') = resultsFor n ds ++ resultsFor n ds' :=
  List.filterMap_append

@[simp] theorem written_append (ds ds' : List Deed) : written (ds ++ ds') = written ds ++ written ds' :=
  List.filterMap_append

@[simp] theorem resultsFor_write (n : Nat) (j : Json) : resultsFor n [.write j] = [] := rfl

@[simp] theorem resultsFor_resolve (n m : Nat) (r : Except Fault Json) :
    resultsFor n [.resolve m r] = if m = n then [r] else [] := by
  by_cases h : m = n <;> simp [resultsFor, h]

@[simp] theorem written_write (j : Json) : written [.write j] = [j] := rfl

@[simp] theorem written_resolve (n : Nat) (r : Except Fault Json) : written [.resolve n r] = [] := rfl

@[simp] theorem resultsFor_nil (n : Nat) : resultsFor n [] = [] := rfl

@[simp] theorem written_nil : written [] = [] := rfl

/-- The error of a request that was not answered before reading ended. -/
def leftOver (why : ReadEnd) (n : Nat) : Except Fault Json :=
  .error (.request (why.message ++ " (request " ++ toString n ++ ")"))

/-- What a request has from these bodies, and from the end of reading if it has come. -/
def outcome? (bodies : List (List UInt8)) (ending : Option ReadEnd) (n : Nat) :
    Option (Except Fault Json) :=
  (bodies.findSome? (answer? n)).or (ending.map fun why => leftOver why n)

/-- What becomes of a request of which these bodies are read before the end of reading. -/
def outcome (bodies : List (List UInt8)) (why : ReadEnd) (n : Nat) : Except Fault Json :=
  (bodies.findSome? (answer? n)).getD (leftOver why n)

theorem outcome?_some (bodies : List (List UInt8)) (why : ReadEnd) (n : Nat) :
    outcome? bodies (some why) n = some (outcome bodies why n) := by
  cases h : bodies.findSome? (answer? n) <;> simp [outcome?, outcome, h]

theorem resultsFor_leftOver {ms : List Nat} (hm : ms.Nodup) (why : ReadEnd) (n : Nat) :
    resultsFor n (ms.map fun m => .resolve m (leftOver why m)) =
      if n ∈ ms then [leftOver why n] else [] := by
  induction ms with
  | nil => rfl
  | cons m ms ih =>
    obtain ⟨hnot, hm⟩ := List.nodup_cons.mp hm
    rw [List.map_cons, ← List.singleton_append, resultsFor_append, ih hm, resultsFor_resolve]
    by_cases h : m = n
    · subst h
      simp [hnot]
    · simp [h, Ne.symm h]

namespace Client

/-- How far a client has come that began with these requests: each has the result that is due by now,
or it is still outstanding, and the requests of the server have their replies. -/
structure Answered (waiting : List Nat) (bodies : List (List UInt8)) (ending : Option ReadEnd)
    (c : Client) (ds : List Deed) : Prop where
  outstanding : c.outstanding = waiting.filter fun n => (outcome? bodies ending n).isNone
  results (n : Nat) : resultsFor n ds = if n ∈ waiting then (outcome? bodies ending n).toList else []
  replies : written ds = (bodies.filterMap asked?).map emptyReply

theorem outcome?_concat (bodies : List (List UInt8)) (body : List UInt8) (n : Nat) :
    outcome? (bodies ++ [body]) none n = (outcome? bodies none n).or (answer? n body) := by
  simp [outcome?, List.findSome?_append]

theorem outcome?_of_no_answer {body : List UInt8} (hno : ∀ n, answer? n body = none)
    (bodies : List (List UInt8)) : outcome? (bodies ++ [body]) none = outcome? bodies none := by
  funext n
  rw [outcome?_concat, hno, Option.or_none]

theorem take_answered {waiting : List Nat} {bodies : List (List UInt8)} {c : Client} {ds : List Deed}
    (h : Answered waiting bodies none c ds) (body : List UInt8) :
    Answered waiting (bodies ++ [body]) none (c.take body).1 (ds ++ (c.take body).2) := by
  obtain ⟨n, r, hr, hother, hasked, htake⟩ | ⟨id, hno, hasked, htake⟩ | ⟨hno, hasked, htake⟩ :=
    c.take_cases body
  · rw [htake]
    refine ⟨?_, fun m => ?_, ?_⟩
    · simp only [h.outstanding, List.filter_filter]
      apply List.filter_congr
      intro m _
      by_cases hm : m = n
      · simp [outcome?_concat, hm, hr]
      · simp [outcome?_concat, hm, hother m hm]
    · by_cases hm : m = n
      · -- The first answer counts; the request is not outstanding when another one comes.
        subst m
        by_cases hw : n ∈ waiting <;> cases hb : outcome? bodies none n <;>
          simp [outcome?_concat, h.results, h.outstanding, hr, hw, hb]
      · by_cases hn : n ∈ c.outstanding <;>
          simp [outcome?_concat, h.results, hother m hm, hn, Ne.symm hm]
    · by_cases hn : n ∈ c.outstanding <;> simp [h.replies, hasked, hn]
  · rw [htake]
    exact ⟨by rw [outcome?_of_no_answer hno]; exact h.outstanding,
      fun m => by simp [outcome?_of_no_answer hno, h.results],
      by simp [h.replies, hasked]⟩
  · rw [htake]
    exact ⟨by rw [outcome?_of_no_answer hno]; exact h.outstanding,
      fun m => by simp [outcome?_of_no_answer hno, h.results],
      by simp [h.replies, hasked]⟩

theorem takeAll_answered {waiting : List Nat} {bodies : List (List UInt8)} {c : Client} {ds : List Deed}
    (h : Answered waiting bodies none c ds) (more : List (List UInt8)) :
    Answered waiting (bodies ++ more) none (c.takeAll more).1 (ds ++ (c.takeAll more).2) := by
  induction more generalizing bodies c ds with
  | nil => simpa [takeAll] using h
  | cons body more ih => simpa [takeAll] using ih (take_answered h body)

theorem endReading_answered {waiting : List Nat} {bodies : List (List UInt8)} {c : Client}
    {ds : List Deed} (hw : waiting.Nodup) (h : Answered waiting bodies none c ds) (why : ReadEnd) :
    Answered waiting bodies (some why) (c.endReading why).1 (ds ++ (c.endReading why).2) := by
  have hc : c.outstanding.Nodup := h.outstanding ▸ hw.filter _
  refine ⟨?_, fun n => ?_, ?_⟩
  · simp [endReading, outcome?_some]
  · have hmem : n ∈ c.outstanding ↔ n ∈ waiting ∧ outcome? bodies none n = none := by
      simp [h.outstanding]
    have hdrained : resultsFor n (c.endReading why).2 =
        if n ∈ c.outstanding then [leftOver why n] else [] := resultsFor_leftOver hc why n
    rw [resultsFor_append, h.results, hdrained]
    by_cases hn : n ∈ waiting
    · cases hb : bodies.findSome? (answer? n) <;> simp [hmem, outcome?, hn, hb]
    · simp [hmem, hn]
  · have hnone : written (c.endReading why).2 = [] := by simp [endReading, written]
    rw [written_append, hnone, List.append_nil, h.replies]

/-! ## From now on until the stream is over -/

inductive Step
  | hear (bytes : List UInt8)
  | takeSignal
  | becomeReady (result : Except Fault Json)
  | beginStop
  | closeChannel
  | endStop

/-- The client after a step, and what its reader does for others. -/
def after (c : Client) : Step → Client × List Deed
  | .hear bytes => c.hear bytes
  | .takeSignal => (c.takeSignal.2, [])
  | .becomeReady result => ((c.becomeReady result).2.1, [])
  | .beginStop => (c.beginStop.2, [])
  | .closeChannel => (c.closeChannel, [])
  | .endStop => (c.endStop, [])

def afterAll : Client → List Step → Client × List Deed
  | c, [] => (c, [])
  | c, s :: rest => (((c.after s).1.afterAll rest).1, (c.after s).2 ++ ((c.after s).1.afterAll rest).2)

/-- The client when the steps are over and the server has closed its output. -/
def atLast (c : Client) (steps : List Step) : Client × List Deed :=
  ((c.afterAll steps).1.hangUp.1, (c.afterAll steps).2 ++ (c.afterAll steps).1.hangUp.2)

def Step.bytes : Step → List UInt8
  | .hear bytes => bytes
  | _ => []

def heard (steps : List Step) : List UInt8 := steps.flatMap Step.bytes

def Step.stops : Step → Bool
  | .beginStop | .endStop => true
  | _ => false

theorem take_fst (c : Client) (body : List UInt8) :
    ∃ ms, (c.take body).1 = { c with outstanding := ms } := by
  obtain ⟨n, r, _, _, _, h⟩ | ⟨_, _, _, h⟩ | ⟨_, _, h⟩ := c.take_cases body <;>
    exact ⟨_, congrArg Prod.fst h⟩

theorem takeAll_fst (c : Client) (bodies : List (List UInt8)) :
    ∃ ms, (c.takeAll bodies).1 = { c with outstanding := ms } := by
  induction bodies generalizing c with
  | nil => exact ⟨c.outstanding, rfl⟩
  | cons body bodies ih =>
    obtain ⟨ms, h⟩ := c.take_fst body
    obtain ⟨ms', h'⟩ := ih (c.take body).1
    refine ⟨ms', ?_⟩
    simp only [takeAll]
    rw [h', h]

/-- Takes all that these bytes complete, before it matters whether they end the reading. -/
def takeIn (c : Client) (bytes : List UInt8) : Client × List Deed :=
  takeAll { c with reader := (c.reader.feed bytes).1 } (c.reader.feed bytes).2

theorem reader_takeIn (c : Client) (bytes : List UInt8) :
    (c.takeIn bytes).1.reader = (c.reader.feed bytes).1 := by
  obtain ⟨ms, h⟩ := takeAll_fst { c with reader := (c.reader.feed bytes).1 } (c.reader.feed bytes).2
  rw [takeIn, h]

theorem state_takeIn (c : Client) (bytes : List UInt8) : (c.takeIn bytes).1.state = c.state := by
  obtain ⟨ms, h⟩ := takeAll_fst { c with reader := (c.reader.feed bytes).1 } (c.reader.feed bytes).2
  rw [takeIn, h]

theorem takeIn_answered {waiting : List Nat} {bodies : List (List UInt8)} {c : Client} {ds : List Deed}
    (h : Answered waiting bodies none c ds) (bytes : List UInt8) :
    Answered waiting (bodies ++ (c.reader.feed bytes).2) none (c.takeIn bytes).1
      (ds ++ (c.takeIn bytes).2) :=
  takeAll_answered (c := { c with reader := (c.reader.feed bytes).1 })
    ⟨h.outstanding, h.results, h.replies⟩ _

theorem hear_of_reading {c : Client} (hr : c.reader.end? = none) (bytes : List UInt8) :
    c.hear bytes = match (c.reader.feed bytes).1.end? with
      | some why => (((c.takeIn bytes).1.endReading why).1,
          (c.takeIn bytes).2 ++ ((c.takeIn bytes).1.endReading why).2)
      | none => c.takeIn bytes := by
  cases h : c.reader with
  | ended why => simp [h, FrameReader.end?] at hr
  | header line length =>
    simp only [hear, takeIn, h]
    cases (FrameReader.feed (.header line length) bytes).1 <;> rfl
  | body missing before =>
    simp only [hear, takeIn, h]
    cases (FrameReader.feed (.body missing before) bytes).1 <;> rfl

theorem end?_eq_some {r : FrameReader} {why : ReadEnd} (h : r.end? = some why) : r = .ended why := by
  cases r with
  | ended _ => exact congrArg FrameReader.ended (Option.some.inj h)
  | header _ _ => cases h
  | body _ _ => cases h

/-- A client that has come this far in the stream, and whether a stop has begun. -/
structure Abreast (waiting : List Nat) (bytes : List UInt8) (stopping : Bool) (c : Client)
    (ds : List Deed) : Prop where
  reader : c.reader = (FrameReader.start.feed bytes).1
  answered : Answered waiting (FrameReader.start.feed bytes).2 c.reader.end? c ds
  stops : c.state.isStopping = stopping
  crashed : c.reader.end?.isSome → stopping = false → c.state = .crashed

theorem isStopping_endReading (c : Client) (why : ReadEnd) :
    (c.endReading why).1.state.isStopping = c.state.isStopping := by
  cases h : c.state.isStopping <;> simp only [endReading, h] <;> first | rfl | exact h

theorem state_endReading {c : Client} (h : c.state.isStopping = false) (why : ReadEnd) :
    (c.endReading why).1.state = .crashed := by
  simp [endReading, h]

theorem hear_abreast {waiting : List Nat} {bytes : List UInt8} {stopping : Bool} {c : Client}
    {ds : List Deed} (hw : waiting.Nodup) (h : Abreast waiting bytes stopping c ds)
    (more : List UInt8) :
    Abreast waiting (bytes ++ more) stopping (c.hear more).1 (ds ++ (c.hear more).2) := by
  have hfed := FrameReader.start.feed_append bytes more
  rw [← h.reader] at hfed
  cases he : c.reader.end? with
  | some why =>
    -- A reader that has ended passes over what comes.
    have hr := end?_eq_some he
    have hquiet : c.hear more = (c, []) := by simp only [hear, hr]
    rw [hr, FrameReader.feed_ended, List.append_nil, ← hr] at hfed
    rw [hquiet, List.append_nil]
    exact ⟨by rw [hfed], by rw [hfed]; exact h.answered, h.stops, h.crashed⟩
  | none =>
    -- The bodies count that these bytes complete, even if the rest of them ends the reading.
    have htaken := takeIn_answered (he ▸ h.answered) more
    have hreader := c.reader_takeIn more
    have hstops : (c.takeIn more).1.state.isStopping = stopping := c.state_takeIn more ▸ h.stops
    rw [hear_of_reading he]
    cases hf : (c.reader.feed more).1.end? with
    | none =>
      refine ⟨by rw [hfed, hreader], ?_, hstops, ?_⟩
      · rw [hfed, hreader, hf]
        exact htaken
      · simp [hreader, hf]
    | some why =>
      refine ⟨by rw [hfed, end?_eq_some hf]; rfl, ?_, (isStopping_endReading _ why).trans hstops,
        fun _ hs => state_endReading (hstops.trans hs) why⟩
      rw [hfed, ← List.append_assoc]
      exact endReading_answered hw htaken why

/-- A step that has nothing to do with the stream and lets the client be ready at most. -/
theorem Abreast.aside {waiting : List Nat} {bytes : List UInt8} {stopping : Bool} {c c' : Client}
    {ds : List Deed} (h : Abreast waiting bytes stopping c ds) (hr : c'.reader = c.reader)
    (ho : c'.outstanding = c.outstanding)
    (hs : c'.state = c.state ∨ c.state = .initializing ∧ c'.state = .ready) :
    Abreast waiting bytes stopping c' ds := by
  refine ⟨hr.trans h.reader, ?_, ?_, ?_⟩
  · rw [hr]
    exact ⟨ho.trans h.answered.outstanding, h.answered.results, h.answered.replies⟩
  · obtain hs | ⟨hi, hs⟩ := hs
    · rw [hs]
      exact h.stops
    · rw [hs, ← h.stops, hi]
      rfl
  · intro he hstop
    have hc := h.crashed (hr ▸ he) hstop
    obtain hs | ⟨hi, _⟩ := hs
    · rw [hs]
      exact hc
    · cases hi.symm.trans hc

theorem Abreast.stop {waiting : List Nat} {bytes : List UInt8} {stopping : Bool} {c c' : Client}
    {ds : List Deed} (h : Abreast waiting bytes stopping c ds) (hr : c'.reader = c.reader)
    (ho : c'.outstanding = c.outstanding) (hs : c'.state.isStopping) :
    Abreast waiting bytes true c' ds := by
  refine ⟨hr.trans h.reader, ?_, hs, fun _ h => by cases h⟩
  rw [hr]
  exact ⟨ho.trans h.answered.outstanding, h.answered.results, h.answered.replies⟩

theorem becomeReady_cases (c : Client) (result : Except Fault Json) :
    (∃ capabilities, (c.becomeReady result).2.1 = { c with capabilities }) ∨
      c.state = .initializing ∧
        ∃ capabilities, (c.becomeReady result).2.1 = { c with capabilities, state := .ready } := by
  cases result with
  | error f => exact .inl ⟨c.capabilities, rfl⟩
  | ok answer =>
    simp only [becomeReady]
    split
    · exact .inl ⟨(c.adopt answer).capabilities, rfl⟩
    · simp only [enterReady]
      by_cases hi : c.state = .initializing
      · refine .inr ⟨hi, (c.adopt answer).capabilities, ?_⟩
        rw [if_pos (show (c.adopt answer).state = .initializing from hi)]
        rfl
      · refine .inl ⟨(c.adopt answer).capabilities, ?_⟩
        rw [if_neg (show (c.adopt answer).state ≠ .initializing from hi)]
        rfl

theorem after_abreast {waiting : List Nat} {bytes : List UInt8} {stopping : Bool} {c : Client}
    {ds : List Deed} (hw : waiting.Nodup) (h : Abreast waiting bytes stopping c ds) (s : Step) :
    Abreast waiting (bytes ++ s.bytes) (stopping || s.stops) (c.after s).1 (ds ++ (c.after s).2) := by
  cases s with
  | hear more =>
    simp only [Step.stops, Bool.or_false]
    exact hear_abreast hw h more
  | takeSignal =>
    simp only [Step.bytes, Step.stops, Bool.or_false, List.append_nil, after, takeSignal]
    cases c.signal with
    | none => exact h
    | some n => exact h.aside rfl rfl (.inl rfl)
  | becomeReady result =>
    simp only [Step.bytes, Step.stops, Bool.or_false, List.append_nil, after]
    obtain ⟨_, hc⟩ | ⟨hi, _, hc⟩ := c.becomeReady_cases result
    · rw [hc]
      exact h.aside rfl rfl (.inl rfl)
    · rw [hc]
      exact h.aside rfl rfl (.inr ⟨hi, rfl⟩)
  | beginStop =>
    simp only [Step.bytes, Step.stops, Bool.or_true, List.append_nil, after, beginStop]
    by_cases hs : c.state.isStopping
    · rw [if_pos hs]
      exact h.stop rfl rfl hs
    · rw [if_neg hs]
      exact h.stop rfl rfl rfl
  | closeChannel =>
    simp only [Step.bytes, Step.stops, Bool.or_false, List.append_nil, after]
    exact h.aside rfl rfl (.inl rfl)
  | endStop =>
    simp only [Step.bytes, Step.stops, Bool.or_true, List.append_nil, after]
    exact h.stop rfl rfl rfl

theorem afterAll_abreast {waiting : List Nat} {bytes : List UInt8} {stopping : Bool} {c : Client}
    {ds : List Deed} (hw : waiting.Nodup) (h : Abreast waiting bytes stopping c ds) (steps : List Step) :
    Abreast waiting (bytes ++ heard steps) (stopping || steps.any Step.stops) (c.afterAll steps).1
      (ds ++ (c.afterAll steps).2) := by
  induction steps generalizing bytes stopping c ds with
  | nil => simpa [heard, afterAll] using h
  | cons s rest ih =>
    have hs := ih (after_abreast hw h s)
    simpa [heard, afterAll, Bool.or_assoc] using hs

theorem hangUp_ends {waiting : List Nat} {bytes : List UInt8} {stopping : Bool} {c : Client}
    {ds : List Deed} (hw : waiting.Nodup) (h : Abreast waiting bytes stopping c ds) :
    c.hangUp.1.reader = .ended c.reader.close ∧
      Answered waiting (FrameReader.start.feed bytes).2 (some c.reader.close) c.hangUp.1
        (ds ++ c.hangUp.2) ∧
      c.hangUp.1.state.isStopping = stopping ∧ (stopping = false → c.hangUp.1.state = .crashed) := by
  cases he : c.reader.end? with
  | some why =>
    have hr := end?_eq_some he
    have hquiet : c.hangUp = (c, []) := by simp only [hangUp, hr]
    have hclose : c.reader.close = why := by rw [hr, FrameReader.close]
    rw [hquiet, List.append_nil, hclose]
    exact ⟨hr, he ▸ h.answered, h.stops, h.crashed (by simp [he])⟩
  | none =>
    have hend : c.hangUp = c.endReading c.reader.close := by
      cases hr : c.reader with
      | ended why => simp [hr, FrameReader.end?] at he
      | header line length => simp only [hangUp, hr]
      | body missing before => simp only [hangUp, hr]
    rw [hend]
    exact ⟨rfl, endReading_answered hw (he ▸ h.answered) _, (isStopping_endReading c _).trans h.stops,
      fun hs => state_endReading (h.stops.trans hs) _⟩

end Client

/-- Whatever a server sends, in whatever portions, and whatever else happens to the client meanwhile,
each request that is outstanding gets one result: what the first body says that answers it, or the
reason why reading ended. Each request of the server gets one reply, in order; whoever writes to the
server goes on taking what is handed over. -/
theorem requests_settled {c : Client} (hr : c.reader = .start) (hn : c.outstanding.Nodup)
    (steps : List Client.Step) :
    ∃ bodies why, Reads 0 (Client.heard steps) bodies why ∧
      (c.atLast steps).1.reader = .ended why ∧
      (c.atLast steps).1.outstanding = [] ∧
      (∀ n, resultsFor n (c.atLast steps).2 =
        if n ∈ c.outstanding then [outcome bodies why n] else []) ∧
      written (c.atLast steps).2 = (bodies.filterMap asked?).map (fun id =>
        .object [("jsonrpc", .string "2.0"), ("id", id), ("result", .null)]) ∧
      (if c.state.isStopping ∨ steps.any Client.Step.stops then
        (c.atLast steps).1.state.isStopping = true
      else (c.atLast steps).1.state = .crashed) := by
  have hstart : Client.Abreast c.outstanding [] c.state.isStopping c [] := by
    have hempty : outcome? [] none = fun _ => none := rfl
    have hend : c.reader.end? = none := by rw [hr]; rfl
    refine ⟨hr, ?_, rfl, fun h => by simp [hend] at h⟩
    rw [hend]
    refine ⟨?_, fun n => ?_, rfl⟩
    · exact (List.filter_eq_self.mpr fun _ _ => rfl).symm
    · simp [FrameReader.feed, hempty]
  have hall := Client.afterAll_abreast hn hstart steps
  rw [List.nil_append, List.nil_append] at hall
  obtain ⟨hended, hanswered, hstops, hcrashed⟩ := Client.hangUp_ends hn hall
  have hreads : Reads 0 (Client.heard steps) (FrameReader.start.feed (Client.heard steps)).2
      (c.afterAll steps).1.reader.close :=
    FrameReader.yields_iff.mp ⟨rfl, by rw [hall.reader, FrameReader.start]⟩
  refine ⟨_, _, hreads, hended, ?_, fun n => ?_, hanswered.replies, ?_⟩
  · refine hanswered.outstanding.trans (List.filter_eq_nil_iff.mpr fun n _ => ?_)
    simp [outcome?_some]
  · refine (hanswered.results n).trans ?_
    rw [outcome?_some, Option.toList_some]
  · by_cases hs : c.state.isStopping ∨ steps.any Client.Step.stops
    · rw [if_pos hs]
      exact hstops.trans (by simpa using hs)
    · rw [if_neg hs]
      exact hcrashed (by simpa using hs)

/-! A server answers with a result and with an error, and it asks for something itself under a number
that is open; then it breaks off. -/

def resultBody : String := "\x7b\"id\":0,\"result\":7\x7d"

def errorBody : String := "\x7b\"id\":1,\"error\":\x7b\"code\":-32601,\"message\":\"no method\"\x7d\x7d"

def requestBody : String := "\x7b\"id\":2,\"method\":\"ask\"\x7d"

def brokenBody : String := "\x7b\"id\":2"

theorem content?_resultBody : content? (Text.utf8 resultBody.toList) =
    some ⟨some (.number (.whole 0)), none, some (.number (.whole 7)), none⟩ := by
  have htokens : Json.tokens (resultBody.toList.map some) =
      [.openObject, .string (.ofString "id"), .colon, .number (.ofInt 0), .comma,
        .string (.ofString "result"), .colon, .number (.ofInt 7), .closeObject] := by decide +kernel
  simp only [content?, Text.glyphs_utf8, Json.Document.ofGlyphs, htokens]
  rfl

theorem content?_errorBody : content? (Text.utf8 errorBody.toList) =
    some ⟨some (.number (.whole 1)), none, none, some (-32601, "no method")⟩ := by
  have htokens : Json.tokens (errorBody.toList.map some) =
      [.openObject, .string (.ofString "id"), .colon, .number (.ofInt 1), .comma,
        .string (.ofString "error"), .colon, .openObject, .string (.ofString "code"), .colon,
        .number (.ofInt (-32601)), .comma, .string (.ofString "message"), .colon,
        .string (.ofString "no method"), .closeObject, .closeObject] := by decide +kernel
  simp only [content?, Text.glyphs_utf8, Json.Document.ofGlyphs, htokens]
  rfl

theorem content?_requestBody : content? (Text.utf8 requestBody.toList) =
    some ⟨some (.number (.whole 2)), some "ask", none, none⟩ := by
  have htokens : Json.tokens (requestBody.toList.map some) =
      [.openObject, .string (.ofString "id"), .colon, .number (.ofInt 2), .comma,
        .string (.ofString "method"), .colon, .string (.ofString "ask"), .closeObject] := by decide +kernel
  simp only [content?, Text.glyphs_utf8, Json.Document.ofGlyphs, htokens]
  rfl

theorem content?_brokenBody : content? (Text.utf8 brokenBody.toList) = none := by
  have htokens : Json.tokens (brokenBody.toList.map some) =
      [.openObject, .string (.ofString "id"), .colon, .number (.ofInt 2)] := by decide +kernel
  simp only [content?, Text.glyphs_utf8, Json.Document.ofGlyphs, htokens]
  rfl

def fourBodies : List String := [brokenBody, resultBody, requestBody, errorBody]

/-- The server answers two of three requests and asks for something itself, and then it is stopped. -/
theorem requests_settled_each_kind :
    let c : Client := { id := "server", outstanding := [0, 1, 2] }
    let steps : List Client.Step :=
      [.hear (fourBodies.flatMap fun body => Text.utf8 (frame body).toList), .beginStop]
    (c.reader = .start ∧ c.outstanding.Nodup) ∧
      resultsFor 0 (c.atLast steps).2 = [.ok (.number (.whole 7))] ∧
      resultsFor 1 (c.atLast steps).2 = [.error (.request "LSP error -32601: no method")] ∧
      resultsFor 2 (c.atLast steps).2 = [.error (.request "server terminated (request 2)")] ∧
      written (c.atLast steps).2 =
        [.object [("jsonrpc", .string "2.0"), ("id", .number (.whole 2)), ("result", .null)]] ∧
      (c.atLast steps).1.state.isStopping = true := by
  intro c steps
  have hn : c.outstanding.Nodup := by decide
  obtain ⟨bodies, why, hreads, _, _, hresults, hwritten, hstate⟩ := requests_settled rfl hn steps
  obtain ⟨hbodies, hwhy⟩ := FrameReader.yields_iff.mpr hreads
  have hfour : ((FrameReader.header [] 0).feed (Client.heard steps)).2 =
      fourBodies.map fun body => Text.utf8 body.toList := by decide +kernel
  have hover : ((FrameReader.header [] 0).feed (Client.heard steps)).1.close = .terminated := by
    decide +kernel
  rw [hfour] at hbodies
  rw [hover] at hwhy
  subst hwhy
  have hfirst (n : Nat) : outcome bodies .terminated n =
      ((answer? n (Text.utf8 resultBody.toList)).or (answer? n (Text.utf8 errorBody.toList))).getD
        (leftOver .terminated n) := by
    have hbroken : answer? n (Text.utf8 brokenBody.toList) = none := by
      simp only [answer?, content?_brokenBody]
    have hrequest : answer? n (Text.utf8 requestBody.toList) = none := by
      simp only [answer?, content?_requestBody]
    rw [outcome, ← hbodies]
    cases hresult : answer? n (Text.utf8 resultBody.toList) <;>
      cases herror : answer? n (Text.utf8 errorBody.toList) <;>
        simp [fourBodies, hbroken, hrequest, hresult, herror]
  refine ⟨⟨rfl, hn⟩, ?_, ?_, ?_, ?_, hstate⟩
  · simp [hresults, c, hfirst, answer?, content?_resultBody]
  · simp [hresults, c, hfirst, answer?, content?_resultBody, content?_errorBody]
    rfl
  · simp [hresults, c, hfirst, answer?, content?_resultBody, content?_errorBody, leftOver]
    rfl
  · simp [hwritten, ← hbodies, fourBodies, asked?, content?_brokenBody, content?_resultBody,
      content?_requestBody, content?_errorBody]

end Supervisor.Lsp
