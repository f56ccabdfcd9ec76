import Supervisor.Proofs.Coordinator.Walk
/-!
# The dependent of a coordinator

A sequence that clears caches stops the dependent before anything else, and it starts the dependent
again when it is over, however it ends. What the dependent answers has no part in what becomes of
the sequence.
-/
namespace Supervisor

def Stage.asksDependent : Stage → Bool
  | .stoppingDependent _ | .resumingDependent _ _ => true
  | _ => false

namespace Coordinator

/-- Anything may panic but the dependent. -/
def dependentReturns : Conduct := fun s r => s.accepts r && !(r.isPanic && s.asksDependent)

/-- What the running operation has to do with a dependent. -/
structure Bracket where
  inSequence : Bool := false
  /-- The dependent that the sequence has to stop. -/
  wanted : Option DependentId := none
  /-- Those that were asked to stop, those of them that have answered, and those of these that want to
  be started again. -/
  asked : List DependentId := []
  answered : List DependentId := []
  granted : List DependentId := []
  /-- How the sequence has ended, as it was published. -/
  published : Option EventKind := none
  resumed : List DependentId := []

namespace Bracket

def enter (g : Bracket) (c : Coordinator) : Phase → Bracket
  | .starting | .restarting =>
    { g with inSequence := true
             wanted := if c.trigger = some .clearCaches then c.dependent else none }
  | _ => g

def tell (g : Bracket) (n : Notice) : Bracket :=
  match n.kind with
  | .ready | .failed => { g with published := some n.kind }
  | _ => g

def ask (g : Bracket) : Call → Bracket
  | .prepareDependent d => { g with asked := g.asked ++ [d] }
  | .finishDependent d => { g with resumed := g.resumed ++ [d] }
  | _ => g

def reply (g : Bracket) : Stage → Reply → Bracket
  | .stoppingDependent _, .flag true => { g with answered := g.asked, granted := g.asked }
  | .stoppingDependent _, _ => { g with answered := g.asked }
  | _, _ => g

def note (g : Bracket) : Happening → Bracket
  | .heard _ c (.reply r) =>
    match c.stage with
    | some stage => g.reply stage r
    | none => g
  | .heard _ _ _ => g
  | .did _ c (.phaseSet p) => g.enter c p
  | .did _ _ (.notice n) => g.tell n
  | .did _ _ (.call x) => g.ask x
  | .did _ _ (.started _ _) => g
  | .did _ _ (.finished _ _) => {}

def verdict : Except Fault Answer → EventKind
  | .ok _ => .ready
  | .error _ => .failed

/-- The dependent is asked to stop if there is one to be stopped, and it has answered before any other
call. It is started again if it wants to be, and after the end of the sequence was published. Then the
caller gets the result, and nothing is left over for the next operation. -/
def Allows (g : Bracket) (c : Coordinator) : Output → Prop
  | .started _ _ => g = {}
  | .call (.prepareDependent d) => g.wanted = some d ∧ g.asked = []
  | .call (.finishDependent d) => g.granted = [d] ∧ g.resumed = [] ∧
      g.published.isSome ∧ c.phase.arrival? = g.published
  | .call _ => g.asked = g.wanted.toList ∧ g.answered = g.asked ∧ g.resumed = []
  | .finished _ result => g.asked = g.wanted.toList ∧ g.resumed = g.granted ∧
      g.published = if g.inSequence then some (verdict result) else none
  | _ => True

end Bracket

def brackets : Watch Bracket where
  start := {}
  note := Bracket.note
  law g
    | .did _ c o => g.Allows c o
    | .heard _ _ _ => True

/-! ## What holds at the points of a coordinator -/

namespace Bracket

/-- A sequence goes on whose dependent has answered, if it has one. -/
structure Open (s : Sequence) (g : Bracket) : Prop where
  inSequence : g.inSequence = true
  wanted : g.wanted = s.dependent
  asked : g.asked = g.wanted.toList
  answered : g.answered = g.asked
  granted : g.granted = if s.resume then s.dependent.toList else []
  published : g.published = none
  resumed : g.resumed = []

/-- A sequence has begun, and it has still to ask its dependent. -/
structure Unasked (s : Sequence) (wanted : Option DependentId) (g : Bracket) : Prop where
  begun : g = { inSequence := true, wanted }
  dependent : s.dependent = none
  resume : s.resume = false

structure Asking (s : Sequence) (g : Bracket) : Prop where
  begun : g = { inSequence := true, wanted := s.dependent, asked := s.dependent.toList }
  resume : s.resume = false

structure Over (s : Sequence) (result : Except Fault Answer) (g : Bracket) (c : Coordinator) : Prop where
  inSequence : g.inSequence = true
  asked : g.asked = g.wanted.toList
  granted : g.granted = if s.resume then s.dependent.toList else []
  published : g.published = some (verdict result)
  phase : c.phase.arrival? = g.published
  resumed : g.resumed = []

structure Closed (result : Except Fault Answer) (g : Bracket) : Prop where
  asked : g.asked = g.wanted.toList
  resumed : g.resumed = g.granted
  published : g.published = if g.inSequence then some (verdict result) else none

def Waiting : Stage → Bracket → Prop
  | .stoppingDependent s => Asking s
  | .stoppingOld s _ _ | .clearing s | .preparing s | .launching s | .awaitingReady s _
  | .stoppingUnready s _ _ => Open s
  | .resumingDependent _ result => Closed result
  | .shuttingDown _ _ | .yielding _ _ _ | .removingCache _ => (· = {})

def Holds : Point → Bracket → Coordinator → Prop
  | .idle | .looking | .begun _ | .entering _ _ | .dropping .shutdown | .dropping (.yielding _)
  | .clearOwnCache _ | .close _ => fun g _ => g = {}
  | .entered s => fun g c =>
    Unasked s (if s.trigger = .clearCaches then c.dependent else none) g
  | .dropping (.sequence s) | .clear s | .prepare s | .launch s _ | .awaitReady s _
  | .stopUnready s _ _ | .succeed s _ | .fail s _ => fun g _ => Open s g
  | .leave s result => Over s result
  | .finish result => fun g _ => Closed result g
  | .waiting stage => fun g _ => Waiting stage g
  | .answered stage r => fun g _ =>
    ∃ g₀, Waiting stage g₀ ∧ g = g₀.reply stage r ∧ dependentReturns stage r = true

theorem tell_stopNotice (g : Bracket) (id : ServerId) (elapsed : Nat) (o : Option Fault) :
    g.tell (stopNotice id elapsed o) = g := by
  cases o <;> rfl

theorem tell_stateChanged {g : Bracket} {n : Notice} (hn : n.kind = .stateChanged) :
    g.tell n = g := by
  simp [tell, hn]

theorem enter_openingPhase (c : Coordinator) (t : Trigger) :
    ({} : Bracket).enter (c.entry t) (c.entry t).phase =
      { inSequence := true, wanted := if t = .clearCaches then c.dependent else none } := by
  by_cases hp : c.phase = .ready <;> simp [enter, entry, atPhase, openingPhase, hp]

theorem reply_stop (g : Bracket) (p : Purpose) (id : ServerId) (since : Nat) (r : Reply) :
    g.reply (p.stage id since) r = g := by
  cases p <;> rfl

/-- Only the dependent has something to say of it. -/
theorem reply_of_guarding {g : Bracket} {stage : Stage} {s : Sequence} {r : Reply}
    (hs : stage.guarding? = some s) : g.reply stage r = g := by
  cases stage with
  | stoppingDependent => simp [Stage.guarding?] at hs
  | _ => rfl

theorem Waiting.open {stage : Stage} {s : Sequence} {g : Bracket} (hg : Waiting stage g)
    (hs : stage.guarding? = some s) : Open s g := by
  cases stage with
  | stoppingOld | clearing | preparing | launching | awaitingReady | stoppingUnready =>
    obtain rfl := Option.some.inj hs
    exact hg
  | _ => simp [Stage.guarding?] at hs

theorem Unasked.open {s : Sequence} {g : Bracket} (hg : Unasked s none g) : Open s g := by
  obtain ⟨rfl, hd, hr⟩ := hg
  exact ⟨rfl, hd.symm, rfl, rfl, by simp [hr], rfl, rfl⟩

theorem Asking.open {s : Sequence} {g : Bracket} (hg : Asking s g) (b : Bool) :
    Open { s with resume := b } (g.reply (.stoppingDependent s) (.flag b)) := by
  obtain ⟨rfl, hr⟩ := hg
  cases b <;> exact ⟨rfl, rfl, rfl, rfl, rfl, rfl, rfl⟩

theorem Asking.open_of_fault {s : Sequence} {g : Bracket} (hg : Asking s g) (f : Fault) :
    Open s (g.reply (.stoppingDependent s) (.fault f)) := by
  obtain ⟨rfl, hr⟩ := hg
  exact ⟨rfl, rfl, rfl, rfl, by simp [reply, hr], rfl, rfl⟩

theorem Open.over {s : Sequence} {g : Bracket} {c : Coordinator} (hg : Open s g)
    (result : Except Fault Answer) (hp : c.phase.arrival? = some (verdict result)) :
    Over s result { g with published := some (verdict result) } c :=
  ⟨hg.inSequence, hg.asked, hg.granted, rfl, hp, hg.resumed⟩

theorem Over.closed {s : Sequence} {result : Except Fault Answer} {g : Bracket} {c : Coordinator}
    (hg : Over s result g c) (hs : s.resume = false ∨ s.dependent = none) : Closed result g := by
  have hnone : g.granted = [] := by
    rw [hg.granted]
    obtain hs | hs := hs <;> simp [hs]
  exact ⟨hg.asked, hg.resumed.trans hnone.symm, by rw [hg.published, hg.inSequence]; rfl⟩

/-- An operation without a start sequence may end in any way. -/
theorem closed_empty (result : Except Fault Answer) : Closed result {} :=
  ⟨rfl, rfl, rfl⟩

theorem Waiting.broken {stage : Stage} {g : Bracket} {payload : String} (hg : Waiting stage g)
    (hs : stage.guarding? = none) (hr : dependentReturns stage (.panicked payload) = true)
    (result : Except Fault Answer) : Closed result (g.reply stage (.panicked payload)) := by
  cases stage with
  | shuttingDown | yielding | removingCache =>
    obtain rfl : g = {} := hg
    exact closed_empty result
  | stoppingDependent | resumingDependent =>
    simp [dependentReturns, Reply.isPanic, Stage.asksDependent] at hr
  | _ => simp [Stage.guarding?] at hs

theorem move_holds {now : Nat} {g : Bracket} {c c' : Coordinator} {p p' : Point} {ms : List Moment}
    (hm : Move now c p ms c' p') (h : Holds p g c) :
    brackets.Passes now ms g fun g' => Holds p' g' c' := by
  cases hm with
  | take hq => exact ⟨h, h⟩
  | rest | activate | restart | reconfigure | stop | yieldCaches | keepCaches | keepEnvironment
  | keepCache => exact h
  | stayReady | keepRunning =>
    obtain rfl : g = {} := h
    exact closed_empty _
  | enter trigger answer =>
    obtain rfl : g = {} := h
    refine .shift trivial (fun _ _ => trivial) (fun _ _ hn => tell_stateChanged hn) ⟨?_, rfl, rfl⟩
    exact enter_openingPhase c trigger
  | @stopDependent s d ht hd =>
    obtain ⟨rfl, -, hr⟩ := h
    have hs : s.trigger = .clearCaches := by simpa [Trigger.clearsCaches] using ht
    refine ⟨⟨by simp [hs, hd], rfl⟩, ?_, hr⟩
    simp [brackets, note, ask, hs, hd]
  | @spareDependent s hd =>
    have hn : (if s.trigger = .clearCaches then c.dependent else none) = none := by
      obtain ht | hd := hd
      · have hs : s.trigger ≠ .clearCaches := by simpa [Trigger.clearsCaches] using ht
        simp [hs]
      · simp [hd]
    have hg : Unasked s none g := hn ▸ h
    exact hg.open
  | gone p hh => cases p <;> exact h
  | drop p hh =>
    cases p with
    | sequence s => exact ⟨trivial, ⟨h.asked, h.answered, h.resumed⟩, h⟩
    | shutdown | yielding =>
      obtain rfl : g = {} := h
      exact ⟨trivial, ⟨rfl, rfl, rfl⟩, rfl⟩
  | clearCaches | prepareEnvironment | launch | awaitReady =>
    exact ⟨trivial, ⟨h.asked, h.answered, h.resumed⟩, h⟩
  | stopUnready s id reason => exact ⟨⟨h.asked, h.answered, h.resumed⟩, h⟩
  | succeed s id =>
    rw [Watch.passes_append]
    exact .shift trivial (fun _ _ => trivial) (fun _ _ hn => tell_stateChanged hn)
      ⟨trivial, Open.over h (.ok s.answer) rfl⟩
  | fail s f =>
    rw [Watch.passes_append]
    exact .shift trivial (fun _ _ => trivial) (fun _ _ hn => tell_stateChanged hn)
      ⟨trivial, Open.over h (.error f) rfl⟩
  | @resumeDependent s d result hr hd =>
    have hgranted : g.granted = [d] := by
      rw [h.granted, hr, hd]
      rfl
    refine ⟨⟨hgranted, h.resumed, ?_, h.phase⟩, h.asked, ?_, ?_⟩
    · rw [h.published]
      rfl
    · simp [brackets, note, ask, h.resumed, hgranted]
    · simp [brackets, note, ask, h.published, h.inSequence]
  | leave result hs => exact Over.closed h hs
  | removeCache wasActive =>
    obtain rfl : g = {} := h
    exact ⟨⟨rfl, rfl, rfl⟩, rfl⟩
  | close result =>
    obtain rfl : g = {} := h
    exact .shift trivial (fun _ _ => trivial) (fun _ _ hn => tell_stateChanged hn)
      (closed_empty result)
  | finish r hr => exact ⟨⟨h.asked, h.resumed, h.published⟩, rfl⟩
  | dependentStopped s b =>
    obtain ⟨g₀, hw, rfl, -⟩ := h
    exact Asking.open hw b
  | dependentFailed s f =>
    obtain ⟨g₀, hw, rfl, -⟩ := h
    exact Asking.open_of_fault hw f
  | stopped p id since hr =>
    obtain ⟨g₀, hw, rfl, -⟩ := h
    have ha : Holds p.next g₀ c := by
      cases p <;> exact hw
    refine ⟨trivial, ?_⟩
    simp only [reply_stop, brackets, note, tell_stopNotice]
    exact ha
  | cleared | prepared | launched | gotReady | notReady | overdue | cacheRemoved =>
    obtain ⟨g₀, hw, rfl, -⟩ := h
    exact hw
  | callFails f hstage =>
    obtain ⟨g₀, hw, rfl, -⟩ := h
    rcases hstage with rfl | rfl | rfl <;> exact hw
  | unreadyStopped =>
    obtain ⟨g₀, hw, rfl, -⟩ := h
    exact hw
  | dependentResumed s result hr =>
    obtain ⟨g₀, hw, rfl, -⟩ := h
    exact hw
  | sequencePanics payload hstage =>
    obtain ⟨g₀, hw, rfl, -⟩ := h
    rw [reply_of_guarding hstage]
    exact Waiting.open hw hstage
  | operationPanics payload hstage =>
    obtain ⟨g₀, hw, rfl, hr⟩ := h
    exact hw.broken hstage hr _

theorem signal_holds {now : Nat} {g : Bracket} {c : Coordinator} {s : Signal}
    (hs : s.Fits dependentReturns c) (h : Holds c.point g c) :
    brackets.law g (.heard now c s) ∧
      Holds (s.target c) (brackets.note g (.heard now c s)) (s.effect c) := by
  refine ⟨trivial, ?_⟩
  cases s with
  | reply r =>
    obtain ⟨stage, hstage, hr⟩ := hs
    simp only [point, hstage] at h
    simp only [Signal.target, hstage, brackets, note]
    exact ⟨g, h, rfl, hr⟩
  | wake => exact at_halt (P := fun p => Holds p g c) h id
  | submit | setDependent | down =>
    -- Between turns nothing that holds depends on the coordinator itself.
    simp only [Signal.target, point] at h ⊢
    cases hc : c.stage <;> simp only [hc] at h ⊢ <;> exact h

theorem run_holds {name toolName : String} {settings : Settings} {h : Story} {c : Coordinator}
    (hr : Run dependentReturns (fresh name toolName settings) h c) :
    brackets.Kept h ∧ c.point.Sound c ∧ Holds c.point (brackets.read h) c :=
  hr.upheld (fun _ _ hs => (Bool.and_eq_true_iff.mp hs).1) (fun _ hs h => signal_holds hs h)
    (fun _ hm h => move_holds hm h) (sound_fresh name toolName settings) rfl

end Bracket

/-- Whenever dependents are set, and however a start sequence goes, the dependent is stopped and
started again around it as it should be, and its faults make no difference to the coordinator: they
are like a dependent that need not be started again, or that was. -/
theorem dependent_bracketed {name toolName : String} {settings : Settings} {h : Story}
    {c : Coordinator} (hr : Run dependentReturns (fresh name toolName settings) h c) :
    (∀ before now seen o after, h = before ++ .did now seen o :: after →
      (brackets.read before).Allows seen o) ∧
    (∀ s now f, c.stage = some (.stoppingDependent s) →
      c.hear now (.reply (.fault f)) = c.hear now (.reply (.flag false))) ∧
    ∀ s result now f, c.stage = some (.resumingDependent s result) →
      c.hear now (.reply (.fault f)) = c.hear now (.reply .done) := by
  obtain ⟨hk, -, hc⟩ := Bracket.run_holds hr
  refine ⟨fun before now seen o after hh => hk before _ after hh, ?_, ?_⟩
  · intro s now f hs
    simp only [point, hs] at hc
    have hresume : { s with resume := false } = s := by
      rw [← Bracket.Asking.resume hc]
    simp only [hear, reply, hs, Turn.resume, hresume]
  · intro s result now f hs
    simp only [hear, reply, hs, Turn.resume]

/-- Another dependent is set while caches are cleared, and the tool panics. -/
theorem dependent_bracketed_panic : ∃ h c,
    Run dependentReturns (fresh "main" "rcc" { environment := { enabled := true } }) h c ∧
    (brackets.read h).asked = [7] ∧ (brackets.read h).resumed = [7] ∧ c.dependent = some 8 ∧
    (∀ before now seen o after, h = before ++ .did now seen o :: after →
      (brackets.read before).Allows seen o) ∧
    (∀ s now f, c.stage = some (.stoppingDependent s) →
      c.hear now (.reply (.fault f)) = c.hear now (.reply (.flag false))) ∧
    ∀ s result now f, c.stage = some (.resumingDependent s result) →
      c.hear now (.reply (.fault f)) = c.hear now (.reply .done) := by
  have run := (.start : Run dependentReturns
      (fresh "main" "rcc" { environment := { enabled := true } }) [] _)
    |>.hear 0 (.setDependent 7) trivial
    |>.hear 0 (.submit (.restart .clearCaches)) trivial
    |>.hear 0 .wake trivial
    |>.hear 2 (.reply (.flag true)) ⟨_, rfl, rfl⟩
    |>.hear 3 (.setDependent 8) trivial
    |>.hear 5 (.reply (.panicked "boom")) ⟨_, rfl, rfl⟩
  exact ⟨_, _, run, rfl, rfl, rfl, dependent_bracketed run⟩

end Coordinator

end Supervisor
