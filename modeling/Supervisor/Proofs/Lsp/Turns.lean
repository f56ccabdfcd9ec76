import Supervisor.Lsp.Talk
import Supervisor.Proofs.Lsp.Answers
/-!
# The turns of a talk

What one step can do to a client and to the call that makes it, case by case; how a server is started
before anyone can use it; and what becomes of a call while nothing else happens.
-/
namespace Supervisor.Lsp

/-! ## What can happen to a client -/

/-- What does not come from the calls: the reader notes which requests are answered, or that the server
has crashed, and the server does not take messages any more. -/
structure Client.Stirs (c c' : Client) : Prop where
  state : c'.state = c.state ∨ c.state.isStopping = false ∧ c'.state = .crashed
  nextId : c'.nextId = c.nextId
  signal : c'.signal = c.signal
  channel : c.channel ≠ .intact → c'.channel ≠ .intact

namespace Client

theorem Stirs.refl (c : Client) : c.Stirs c := ⟨.inl rfl, rfl, rfl, fun h => h⟩

theorem endReading_stirs (c : Client) (why : ReadEnd) : c.Stirs (c.endReading why).1 := by
  refine ⟨?_, rfl, rfl, fun h => h⟩
  cases h : c.state.isStopping with
  | true => exact .inl (by simp only [endReading, h, if_true])
  | false => exact .inr ⟨rfl, state_endReading h why⟩

theorem takeIn_stirs (c : Client) (bytes : List UInt8) : c.Stirs (c.takeIn bytes).1 := by
  obtain ⟨ms, h⟩ := takeAll_fst { c with reader := (c.reader.feed bytes).1 } (c.reader.feed bytes).2
  rw [takeIn, h]
  exact ⟨.inl rfl, rfl, rfl, fun h => h⟩

theorem hear_stirs (c : Client) (bytes : List UInt8) : c.Stirs (c.hear bytes).1 := by
  cases he : c.reader.end? with
  | some why =>
    have hquiet : c.hear bytes = (c, []) := by simp only [hear, end?_eq_some he]
    rw [hquiet]
    exact .refl c
  | none =>
    have hin := c.takeIn_stirs bytes
    rw [hear_of_reading he]
    cases (c.reader.feed bytes).1.end? with
    | none => exact hin
    | some why =>
      have hend := (c.takeIn bytes).1.endReading_stirs why
      refine ⟨?_, hend.nextId.trans hin.nextId, hend.signal.trans hin.signal, hend.channel ∘ hin.channel⟩
      rw [← c.state_takeIn bytes]
      exact hend.state

theorem hangUp_stirs (c : Client) : c.Stirs c.hangUp.1 := by
  unfold hangUp
  split
  · exact .refl c
  · exact c.endReading_stirs _

theorem breakChannel_stirs (c : Client) : c.Stirs c.breakChannel := by
  refine ⟨.inl rfl, rfl, rfl, fun _ => ?_⟩
  unfold breakChannel
  split <;> intro h <;> cases h

end Client

/-! ## What a step of a call can do -/

section
variable (method : String) (params : Option Json) (c : Client)

inductive Sending.Goes : Sending → Sending → Client → Prop
  | count : Goes .count (.enroll c.nextId) c.count
  | enroll (n : Nat) : Goes (.enroll n) (.check n) (c.enroll n)
  | crashed (n : Nat) (h : c.state = .crashed) : Goes (.check n) (.withdraw n c.terminatedFault) c
  | checked (n : Nat) : Goes (.check n) (.post n) c
  | stuck (n : Nat) (f : Fault) (h : c.channel ≠ .intact) : Goes (.post n) (.withdraw n f) c

inductive Sending.Ends : Sending → Except Fault Nat → Effect → Prop
  | posted (n : Nat) (h : c.channel = .intact) :
    Ends (.post n) (.ok n) (c, some (.request n method params))
  | withdrawn (n : Nat) (f : Fault) : Ends (.withdraw n f) (.error f) (c.withdraw n, none)

variable {method params c}

/-- The number of the request, once it has one. -/
def Sending.number? : Sending → Option Nat
  | .count => none
  | .enroll n | .check n | .post n | .withdraw n _ => some n

/-- A request gets the next number and keeps it. -/
theorem Sending.Goes.numbered {s s' : Sending} {c' : Client} (h : s.Goes c s' c') :
    ∃ n, s'.number? = some n ∧
      (s.number? = some n ∧ c'.nextId = c.nextId ∨ s.number? = none ∧ c.nextId = n ∧ c'.nextId = n + 1) := by
  cases h with
  | count => exact ⟨c.nextId, rfl, .inr ⟨rfl, rfl, rfl⟩⟩
  | enroll n | crashed n _ | checked n | stuck n _ _ => exact ⟨n, rfl, .inl ⟨rfl, rfl⟩⟩

theorem Sending.Goes.rest {s s' : Sending} {c' : Client} (h : s.Goes c s' c') :
    c'.state = c.state ∧ c'.signal = c.signal ∧ c'.channel = c.channel := by
  cases h <;> exact ⟨rfl, rfl, rfl⟩

theorem Sending.Ends.rest {s : Sending} {r : Except Fault Nat} {e : Effect}
    (h : s.Ends method params c r e) :
    e.1.state = c.state ∧ e.1.signal = c.signal ∧ e.1.channel = c.channel ∧ e.1.nextId = c.nextId := by
  cases h <;> exact ⟨rfl, rfl, rfl, rfl⟩

variable (method params c)

theorem Client.post_cases :
    c.channel = .intact ∧ c.post = .ok () ∨ c.channel ≠ .intact ∧ ∃ f, c.post = .error f := by
  cases h : c.channel <;> simp [post, h]

theorem Sending.step_cases (s : Sending) :
    (∃ s' c', s.step method params c = (.inl s', c', none) ∧ s.Goes c s' c') ∨
      ∃ r e, s.step method params c = (.inr r, e) ∧ s.Ends method params c r e := by
  cases s with
  | count => exact .inl ⟨_, _, rfl, .count⟩
  | enroll n => exact .inl ⟨_, _, rfl, .enroll n⟩
  | check n =>
    by_cases h : c.state = .crashed
    · exact .inl ⟨_, _, by simp only [step, if_pos h], .crashed n h⟩
    · exact .inl ⟨_, _, by simp only [step, if_neg h], .checked n⟩
  | post n =>
    obtain ⟨h, hp⟩ | ⟨h, f, hp⟩ := c.post_cases
    · exact .inr ⟨_, _, by simp only [step, hp], .posted n h⟩
    · exact .inl ⟨_, _, by simp only [step, hp], .stuck n f h⟩
  | withdraw n f => exact .inr ⟨_, _, rfl, .withdrawn n f⟩

end

section
variable (result? : Nat → Option (Except Fault Json)) (c : Client)

inductive Spawning.Turns (command : String) (params : Json) : Spawning → Spawning → Effect → Prop
  | goes {s s' : Sending} {c' : Client} (h : s.Goes c s' c') :
    Turns command params (.sending s) (.sending s') (c', none)
  | sent {s : Sending} {r : Except Fault Nat} {e : Effect} (h : s.Ends "initialize" (some params) c r e) :
    Turns command params (.sending s) (sent command r) e
  | arm (n : Nat) : Turns command params (.arm n) (.ended (.ok ())) ({ c with signal := some n }, none)

inductive Readying.Turns : Readying → Readying → Effect → Prop
  | signal (n : Nat) (h : c.signal = some n) :
    Turns .begin (.await n) ({ c with signal := none }, none)
  | ready (h : c.state = .ready) : Turns .begin (.ended (.ok ())) (c, none)
  | noSignal (f : Fault) : Turns .begin (.ended (.error f)) (c, none)
  | answered (n : Nat) (answer : Json) (h : result? n = some (.ok answer)) :
    Turns (.await n) .greet (c.adopt answer, none)
  | refused (n : Nat) (f : Fault) : Turns (.await n) (.ended (.error f)) (c, none)
  | greet : Turns .greet .enter (c, some greeting)
  | stuck (f : Fault) : Turns .greet (.ended (.error f)) (c, none)
  | enter (h : c.state = .initializing) :
    Turns .enter (.ended (.ok ())) ({ c with state := .ready }, none)
  | leftEarly (f : Fault) : Turns .enter (.ended (.error f)) (c, none)

inductive Requesting.Turns (method : String) (params : Option Json) :
    Requesting → Requesting → Effect → Prop
  | admitted (h : c.state = .ready) : Turns method params .begin (.sending .count) (c, none)
  | refused (h : c.state ≠ .ready) :
    Turns method params .begin (.ended (.error c.notReadyFault)) (c, none)
  | goes {s s' : Sending} {c' : Client} (h : s.Goes c s' c') :
    Turns method params (.sending s) (.sending s') (c', none)
  | sent {s : Sending} {r : Except Fault Nat} {e : Effect} (h : s.Ends method params c r e) :
    Turns method params (.sending s) (sent r) e
  | answered (n : Nat) (r : Except Fault Json) : Turns method params (.await n) (.ended r) (c, none)

inductive Stopping.Turns : Stopping → Stopping → Effect → Prop
  | atWork (h : c.state.isStopping = true) : Turns .begin (.ended false (.ok ())) (c, none)
  | leave (h : c.state = .ready) :
    Turns .begin (.sending .count) ({ c with state := .shuttingDown }, none)
  | abort (h : c.state.isStopping = false) : Turns .begin .close ({ c with state := .shuttingDown }, none)
  | goes {s s' : Sending} {c' : Client} (h : s.Goes c s' c') : Turns (.sending s) (.sending s') (c', none)
  | sent {s : Sending} {r : Except Fault Nat} {e : Effect} (h : s.Ends "shutdown" none c r e) :
    Turns (.sending s) (sent r) e
  | awaited (n : Nat) : Turns (.await n) .farewell (c, none)
  | told (h : c.channel = .intact) : Turns .farewell .close (c, some goodbye)
  | stuck : Turns .farewell .close (c, none)
  | close : Turns .close .kill (c.closeChannel, none)
  | killed (r : Except Fault Unit) : Turns .kill (.finish r) (c, none)
  | finish (r : Except Fault Unit) : Turns (.finish r) (.ended true r) (c.endStop, none)

inductive Call.Turns : Call → Call → Effect → Prop
  | spawn {command : String} {params : Json} {p p' : Spawning} {e : Effect}
    (h : Spawning.Turns c command params p p' e) :
    Turns (.spawn command params p) (.spawn command params p') e
  | waitReady {p p' : Readying} {e : Effect} (h : Readying.Turns result? c p p' e) :
    Turns (.waitReady p) (.waitReady p') e
  | request {method : String} {params : Option Json} {p p' : Requesting} {e : Effect}
    (h : Requesting.Turns c method params p p' e) :
    Turns (.request method params p) (.request method params p') e
  | stop {p p' : Stopping} {e : Effect} (h : Stopping.Turns c p p' e) : Turns (.stop p) (.stop p') e
  | drop {call : Call} (h : call.isOver = false) : Turns call .dropped (c, none)

variable {result? c}

theorem Spawning.turns_of_step {command : String} {params : Json} {p p' : Spawning} {e : Effect}
    (h : p.step command params c = some (p', e)) : Spawning.Turns c command params p p' e := by
  cases p with
  | sending s =>
    obtain ⟨s', c', hs, hg⟩ | ⟨r, e', hs, he⟩ := s.step_cases "initialize" (some params) c
    · simp only [step, hs] at h
      cases h
      exact .goes hg
    · simp only [step, hs] at h
      cases h
      exact .sent he
  | arm n =>
    cases h
    exact .arm n
  | ended r => cases h

theorem Readying.turns_of_step {p p' : Readying} {e : Effect}
    (h : p.step result? c = some (p', e)) : Readying.Turns result? c p p' e := by
  cases p with
  | begin =>
    cases hs : c.signal with
    | some n =>
      simp only [step, Client.takeSignal, hs] at h
      cases h
      exact .signal n hs
    | none =>
      simp only [step, Client.takeSignal, hs] at h
      by_cases hr : c.state = .ready
      · rw [if_pos hr] at h
        cases h
        exact .ready hr
      · rw [if_neg hr] at h
        cases h
        exact .noSignal _
  | await n =>
    obtain ⟨r, hr, h⟩ := Option.map_eq_some_iff.mp h
    cases r with
    | ok answer =>
      cases h
      exact .answered n answer hr
    | error f =>
      cases h
      exact .refused n _
  | greet =>
    obtain ⟨-, hp⟩ | ⟨-, f, hp⟩ := c.post_cases
    · simp only [step, hp] at h
      cases h
      exact .greet
    · simp only [step, hp] at h
      cases h
      exact .stuck _
  | enter =>
    by_cases hi : c.state = .initializing
    · simp only [step, Client.enterReady, if_pos hi] at h
      cases h
      exact .enter hi
    · simp only [step, Client.enterReady, if_neg hi] at h
      cases h
      exact .leftEarly _
  | ended r => cases h

theorem Requesting.turns_of_step {method : String} {params : Option Json} {p p' : Requesting}
    {e : Effect} (h : p.step result? c method params = some (p', e)) :
    Requesting.Turns c method params p p' e := by
  cases p with
  | begin =>
    by_cases hr : c.state = .ready
    · simp only [step, if_pos hr] at h
      cases h
      exact .admitted hr
    · simp only [step, if_neg hr] at h
      cases h
      exact .refused hr
  | sending s =>
    obtain ⟨s', c', hs, hg⟩ | ⟨r, e', hs, he⟩ := s.step_cases method params c
    · simp only [step, hs] at h
      cases h
      exact .goes hg
    · simp only [step, hs] at h
      cases h
      exact .sent he
  | await n =>
    obtain ⟨r, -, h⟩ := Option.map_eq_some_iff.mp h
    cases h
    exact .answered n r
  | ended r => cases h

theorem Stopping.turns_of_step {p p' : Stopping} {e : Effect} (h : p.step result? c = some (p', e)) :
    Stopping.Turns c p p' e := by
  cases p with
  | begin =>
    cases hs : c.state.isStopping with
    | true =>
      simp only [step, Client.beginStop, hs, if_true] at h
      cases h
      exact .atWork hs
    | false =>
      simp only [step, Client.beginStop, hs, Bool.false_eq_true, if_false] at h
      cases hst : c.state with
      | ready =>
        simp only [hst] at h
        cases h
        exact .leave hst
      | initializing | shuttingDown | shutdown | crashed =>
        simp only [hst] at h
        cases h
        exact .abort hs
  | sending s =>
    obtain ⟨s', c', hs, hg⟩ | ⟨r, e', hs, he⟩ := s.step_cases "shutdown" none c
    · simp only [step, hs] at h
      cases h
      exact .goes hg
    · simp only [step, hs] at h
      cases h
      exact .sent he
  | await n =>
    obtain ⟨r, -, h⟩ := Option.map_eq_some_iff.mp h
    cases h
    exact .awaited n
  | farewell =>
    obtain ⟨hc, hp⟩ | ⟨-, f, hp⟩ := c.post_cases
    · simp only [step, hp] at h
      cases h
      exact .told hc
    · simp only [step, hp] at h
      cases h
      exact .stuck
  | close =>
    cases h
    exact .close
  | kill => cases h
  | finish r =>
    cases h
    exact .finish r
  | ended _ _ => cases h

theorem Call.turns_of_step {call call' : Call} {e : Effect}
    (h : call.step result? c = some (call', e)) : Call.Turns result? c call call' e := by
  cases call with
  | spawn command params p =>
    obtain ⟨r, hr, h⟩ := Option.map_eq_some_iff.mp h
    cases h
    exact .spawn (Spawning.turns_of_step hr)
  | waitReady p =>
    obtain ⟨r, hr, h⟩ := Option.map_eq_some_iff.mp h
    cases h
    exact .waitReady (Readying.turns_of_step hr)
  | request method params p =>
    obtain ⟨r, hr, h⟩ := Option.map_eq_some_iff.mp h
    cases h
    exact .request (Requesting.turns_of_step hr)
  | stop p =>
    obtain ⟨r, hr, h⟩ := Option.map_eq_some_iff.mp h
    cases h
    exact .stop (Stopping.turns_of_step hr)
  | dropped => cases h

theorem Call.turns_of_expire? {call call' : Call} (h : call.expire? = some call') :
    Call.Turns result? c call call' (c, none) := by
  unfold Call.expire? at h
  split at h
  · cases h
    exact .request (.answered _ _)
  · cases h
    exact .stop (.awaited _)
  · cases h

theorem Call.turns_of_killed? {call call' : Call} {r : Except Fault Unit}
    (h : call.killed? r = some call') : Call.Turns result? c call call' (c, none) := by
  unfold Call.killed? at h
  split at h
  · cases h
    exact .stop (.killed r)
  · cases h

theorem Call.turns_of_drop? {call call' : Call} (h : call.drop? = some call') :
    Call.Turns result? c call call' (c, none) := by
  unfold Call.drop? at h
  split at h
  · cases h
  · next hover =>
    cases h
    exact .drop (Bool.not_eq_true _ ▸ hover)

/-- Only a call that is not over goes on. -/
theorem Call.Turns.isOver {call call' : Call} {e : Effect} (h : Call.Turns result? c call call' e) :
    call.isOver = false := by
  cases h with
  | spawn h => cases h <;> rfl
  | waitReady h => cases h <;> rfl
  | request h => cases h <;> rfl
  | stop h => cases h <;> rfl
  | drop h => exact h

end

/-! ## A call alone -/

/-- Takes a request on its way up to `n` steps further. -/
def Sending.run (method : String) (params : Option Json) :
    Nat → Client → Sending → (Sending ⊕ Except Fault Nat) × Effect
  | 0, c, s => (.inl s, c, none)
  | n + 1, c, s =>
    match s.step method params c with
    | (.inl s, c, _) => run method params n c s
    | (.inr r, e) => (.inr r, e)

/-- If nothing comes in between, a request is begun as if all were one step. -/
theorem Sending.run_eq_begin (method : String) (params : Option Json) (c : Client) :
    ∃ u : Option Utterance,
      run method params 5 c .count = (.inr (c.begin method params).1, (c.begin method params).2.1, u) ∧
        (c.begin method params).2.2 = (u.map fun u => Deed.write u.json).toList := by
  by_cases hs : c.state = .crashed
  · refine ⟨none, ?_, ?_⟩ <;> simp [run, step, Client.begin, Client.count, Client.enroll, hs]
  · have hs' : (c.count.enroll c.nextId).state ≠ .crashed := hs
    obtain ⟨-, hp⟩ | ⟨-, f, hp⟩ := (c.count.enroll c.nextId).post_cases
    · refine ⟨some (.request c.nextId method params), ?_, ?_⟩ <;>
        simp [run, step, Client.begin, hs', hp]
    · refine ⟨none, ?_, ?_⟩ <;> simp [run, step, Client.begin, hs', hp]

def Readying.run (result? : Nat → Option (Except Fault Json)) :
    Nat → Client → Readying → Readying × Client × List Utterance
  | 0, c, p => (p, c, [])
  | n + 1, c, p =>
    match p.step result? c with
    | some (p, c, u) =>
      let (p, c, us) := run result? n c p
      (p, c, u.toList ++ us)
    | none => (p, c, [])

/-- If nothing comes in between once the result is there, the server becomes ready in one step. -/
theorem Readying.run_eq_becomeReady {result? : Nat → Option (Except Fault Json)} {n : Nat}
    {r : Except Fault Json} (h : result? n = some r) (c : Client) :
    ∃ us : List Utterance, run result? 3 c (.await n) = (.ended (c.becomeReady r).1, (c.becomeReady r).2.1, us) ∧
      (c.becomeReady r).2.2 = us.map fun u => Deed.write u.json := by
  cases r with
  | error f => exact ⟨[], by simp [run, step, h, Client.becomeReady], rfl⟩
  | ok answer =>
    obtain ⟨-, hp⟩ | ⟨-, f, hp⟩ := (c.adopt answer).post_cases
    · refine ⟨[greeting], ?_, ?_⟩ <;>
        simp [run, step, h, Client.becomeReady, Client.notify, hp, greeting]
    · refine ⟨[], ?_, ?_⟩ <;> simp [run, step, h, Client.becomeReady, Client.notify, hp]

/-! ## What a step of a talk can do -/

namespace Talk

theorem step_cases {t t' : Talk} {m : Move} (h : t.step m = some t') :
    (∃ task, m = .issue task ∧ t.isSpawned = true ∧ t' = { t with calls := t.calls ++ [task.call] }) ∨
    (∃ i call call' e, t.calls[i]? = some call ∧
      Call.Turns (resultIn? t.log) t.client call call' e ∧ t' = t.turn i call' e) ∨
    ∃ r, t.client.Stirs r.1 ∧ t' = t.absorb r := by
  cases m with
  | issue task =>
    cases hs : t.isSpawned with
    | true =>
      simp only [step, hs, if_true] at h
      cases h
      exact .inl ⟨task, rfl, rfl, rfl⟩
    | false => simp [step, hs] at h
  | advance i =>
    obtain ⟨⟨call', e⟩, h, ht⟩ := Option.map_eq_some_iff.mp h
    obtain ⟨call, hc, h⟩ := Option.bind_eq_some_iff.mp h
    exact .inr (.inl ⟨i, call, call', e, hc, Call.turns_of_step h, ht.symm⟩)
  | expire i =>
    obtain ⟨call', h, ht⟩ := Option.map_eq_some_iff.mp h
    obtain ⟨call, hc, h⟩ := Option.bind_eq_some_iff.mp h
    exact .inr (.inl ⟨i, call, call', _, hc, Call.turns_of_expire? h, ht.symm⟩)
  | killed i r =>
    obtain ⟨call', h, ht⟩ := Option.map_eq_some_iff.mp h
    obtain ⟨call, hc, h⟩ := Option.bind_eq_some_iff.mp h
    exact .inr (.inl ⟨i, call, call', _, hc, Call.turns_of_killed? h, ht.symm⟩)
  | drop i =>
    obtain ⟨call', h, ht⟩ := Option.map_eq_some_iff.mp h
    obtain ⟨call, hc, h⟩ := Option.bind_eq_some_iff.mp h
    exact .inr (.inl ⟨i, call, call', _, hc, Call.turns_of_drop? h, ht.symm⟩)
  | hear bytes => exact .inr (.inr ⟨_, t.client.hear_stirs bytes, (Option.some.inj h).symm⟩)
  | hangUp => exact .inr (.inr ⟨_, t.client.hangUp_stirs, (Option.some.inj h).symm⟩)
  | breakChannel =>
    exact .inr (.inr ⟨(_, []), t.client.breakChannel_stirs, (Option.some.inj h).symm⟩)

@[simp] theorem said_turn (t : Talk) (i : Nat) (call : Call) (e : Effect) :
    (t.turn i call e).said = t.said ++ e.2.toList := by
  cases he : e.2 <;> simp [said, turn, he, Entry.utterance?]

@[simp] theorem said_absorb (t : Talk) (r : Client × List Deed) : (t.absorb r).said = t.said := by
  have hnone : (r.2.map Entry.did).filterMap Entry.utterance? = [] := by
    refine List.filterMap_eq_nil_iff.mpr fun entry he => ?_
    obtain ⟨d, -, rfl⟩ := List.mem_map.mp he
    rfl
  simp only [said, absorb, List.filterMap_append, hnone, List.append_nil]

/-! ## Runs -/

/-- A series of moves, each of which may be made at that moment. -/
inductive Run (may : Talk → Move → Bool) (t : Talk) : List Move → Talk → Prop
  | nil : Run may t [] t
  | snoc {moves : List Move} {u v : Talk} {m : Move} (h : Run may t moves u) (hm : may u m = true)
    (hs : u.step m = some v) : Run may t (moves ++ [m]) v

def anyhow (_ : Talk) (_ : Move) : Bool := true

/-- Calls are made one after another. -/
def oneByOne (t : Talk) : Move → Bool
  | .issue _ => t.isQuiet
  | _ => true

/-- Makes the moves, if they may be made. -/
def play (may : Talk → Move → Bool) : List Move → Talk → Option Talk
  | [], t => some t
  | m :: rest, t => if may t m then (t.step m).bind (play may rest) else none

section
variable {may : Talk → Move → Bool} {t u v : Talk} {moves moves' : List Move}

theorem Run.trans (h : Run may t moves u) (h' : Run may u moves' v) : Run may t (moves ++ moves') v := by
  induction h' with
  | nil => rwa [List.append_nil]
  | snoc _ hm hs ih =>
    rw [← List.append_assoc]
    exact ih.snoc hm hs

theorem run_of_play (h : play may moves t = some u) : Run may t moves u := by
  induction moves generalizing t with
  | nil =>
    cases h
    exact .nil
  | cons m rest ih =>
    unfold play at h
    split at h
    · next hm =>
      obtain ⟨w, hs, h⟩ := Option.bind_eq_some_iff.mp h
      exact (Run.nil.snoc hm hs).trans (ih h)
    · cases h

end

/-! ## Before anyone can use the server -/

/-- How far the start of a server has come that is not there yet, or never will be. -/
inductive OpensAt (params : Json) (t : Talk) : Call → Prop
  | sending {command : String} {s : Sending} (hn : s.number?.getD t.client.nextId = 0)
    (hl : s.number? ≠ none → 0 < t.client.nextId) (hw : t.said = []) :
    OpensAt params t (.spawn command params (.sending s))
  | arm {command : String} (hl : 0 < t.client.nextId) (hw : t.said = [hello params]) :
    OpensAt params t (.spawn command params (.arm 0))
  | failed {command : String} (f : Fault) : OpensAt params t (.spawn command params (.ended (.error f)))
  | dropped : OpensAt params t .dropped

structure Opening (params : Json) (t : Talk) : Prop where
  state : t.client.state = .initializing ∨ t.client.state = .crashed
  signal : t.client.signal = none
  point : ∃ call, t.calls = [call] ∧ OpensAt params t call

/-- There is a server, and nobody has used it. -/
structure Fresh (params : Json) (t : Talk) : Prop where
  state : t.client.state = .initializing ∨ t.client.state = .crashed
  signal : t.client.signal = some 0
  nextId : 0 < t.client.nextId
  calls : ∃ command, t.calls = [.spawn command params (.ended (.ok ()))]
  said : t.said = [hello params]

theorem opening_start (id : ServerId) (command : String) (params : Json) :
    Opening params (start id command params) :=
  ⟨.inl rfl, rfl, _, rfl, .sending rfl (fun h => (h rfl).elim) rfl⟩

section
variable {params : Json} {t t' : Talk} {m : Move}

theorem Opening.not_spawned (h : Opening params t) : t.isSpawned = false := by
  obtain ⟨call, hc, hp⟩ := h.point
  unfold isSpawned
  rw [hc]
  cases hp <;> rfl

theorem Opening.absorb (h : Opening params t) {r : Client × List Deed} (hr : t.client.Stirs r.1) :
    Opening params (t.absorb r) := by
  have hnext : (t.absorb r).client.nextId = t.client.nextId := hr.nextId
  refine ⟨?_, hr.signal.trans h.signal, ?_⟩
  · rcases hr.state with hs | ⟨-, hs⟩
    · exact hs ▸ h.state
    · exact .inr hs
  · obtain ⟨call, hc, hp⟩ := h.point
    refine ⟨call, hc, ?_⟩
    cases hp with
    | sending hn hl hw => exact .sending (hnext ▸ hn) (hnext ▸ hl) ((said_absorb t r).trans hw)
    | arm hl hw => exact .arm (hnext ▸ hl) ((said_absorb t r).trans hw)
    | failed f => exact .failed f
    | dropped => exact .dropped

/-- The initialize request goes out as the first message, under the number 0. -/
theorem Opening.turn {call' : Call} {e : Effect} (h : Opening params t) {call : Call}
    (hc : t.calls = [call]) (hp : OpensAt params t call)
    (ht : Call.Turns (resultIn? t.log) t.client call call' e) :
    Opening params (t.turn 0 call' e) ∨ Fresh params (t.turn 0 call' e) := by
  have hcalls : (t.turn 0 call' e).calls = [call'] := by simp [Talk.turn, hc]
  have hsaid := said_turn t 0 call' e
  cases ht with
  | drop _ => exact .inl ⟨h.state, h.signal, .dropped, hcalls, .dropped⟩
  | waitReady _ | request _ | stop _ => cases hp
  | spawn ht =>
    cases ht with
    | goes hg =>
      cases hp with
      | sending hn hl hw =>
        obtain ⟨n, hs', hnum⟩ := hg.numbered
        obtain ⟨hstate, hsignal, -⟩ := hg.rest
        refine .inl ⟨hstate ▸ h.state, hsignal.trans h.signal, _, hcalls,
          .sending ?_ (fun _ => ?_) (hsaid.trans (by simp [hw]))⟩
        · rcases hnum with ⟨hs, -⟩ | ⟨hs, hcount, -⟩ <;> simp_all
        · rcases hnum with ⟨hs, hnext⟩ | ⟨-, -, hnext⟩
          · exact hnext ▸ hl (by simp [hs])
          · exact hnext ▸ Nat.succ_pos n
    | sent he =>
      cases hp with
      | sending hn hl hw =>
        cases he with
        | posted n _ =>
          obtain rfl : n = 0 := hn
          exact .inl ⟨h.state, h.signal, _, hcalls, .arm (hl nofun) (hsaid.trans (by simp [hw, hello]))⟩
        | withdrawn n f => exact .inl ⟨h.state, h.signal, _, hcalls, .failed _⟩
    | arm n =>
      cases hp with
      | arm hl hw => exact .inr ⟨h.state, rfl, hl, ⟨_, hcalls⟩, hsaid.trans (by simp [hw])⟩

theorem Opening.step (h : Opening params t) (hs : t.step m = some t') :
    Opening params t' ∨ Fresh params t' := by
  obtain ⟨task, -, hsp, -⟩ | ⟨i, call, call', e, hi, ht, rfl⟩ | ⟨r, hr, rfl⟩ := step_cases hs
  · rw [h.not_spawned] at hsp
    cases hsp
  · obtain ⟨first, hc, hp⟩ := h.point
    rw [hc] at hi
    cases i with
    | succ i => simp at hi
    | zero =>
      obtain rfl : first = call := by simpa using hi
      exact h.turn hc hp ht
  · exact .inl (h.absorb hr)

/-- What holds of a fresh server and is kept by each move holds as long as the server can be used. -/
theorem Run.opening_or {may : Talk → Move → Bool} {P : List Move → Talk → Prop}
    (hfresh : ∀ moves t, Fresh params t → P moves t)
    (hstep : ∀ moves t m t', P moves t → may t m = true → t.step m = some t' → P (moves ++ [m]) t')
    {moves : List Move} (h₀ : Opening params t) (h : Run may t moves t') :
    Opening params t' ∨ P moves t' := by
  induction h with
  | nil => exact .inl h₀
  | snoc _ hm hs ih =>
    rcases ih with ho | hp
    · rcases ho.step hs with ho | hf
      · exact .inl ho
      · exact .inr (hfresh _ _ hf)
    · exact .inr (hstep _ _ _ _ hp hm hs)

end

end Talk

end Supervisor.Lsp
