import Supervisor.Proofs.Coordinator.Consistency
/-!
# The walk of the phases

The phases of a coordinator form a walk along a few edges. Each edge is published, each entry into
`ready` or `failed` is followed by its notice, and a failure has the code that the caller is told.
-/
namespace Supervisor

namespace Phase

/-- How the phase can change. -/
def leadsTo : Phase → Phase → Bool
  | .uninitialized, .starting | .failed, .starting | .ready, .restarting
  | .starting, .ready | .starting, .failed | .restarting, .ready | .restarting, .failed
  | .ready, .uninitialized | .failed, .uninitialized => true
  | _, _ => false

theorem leadsTo_of_transition {p q : Phase} (hp : p = .starting ∨ p = .restarting)
    (hq : q = .ready ∨ q = .failed) : p.leadsTo q = true := by
  rcases hp with rfl | rfl <;> rcases hq with rfl | rfl <;> rfl

theorem leadsTo_uninitialized {p : Phase} (hp : p = .ready ∨ p = .failed) :
    p.leadsTo .uninitialized = true := by
  rcases hp with rfl | rfl <;> rfl

/-- The edges form a walk between these phases. -/
def Walks : Phase → List (Phase × Phase) → Phase → Prop
  | p, [], q => p = q
  | p, (a, b) :: edges, q => p = a ∧ a.leadsTo b = true ∧ Walks b edges q

theorem Walks.snoc {p q r : Phase} {edges : List (Phase × Phase)} (h : Walks p edges q)
    (he : q.leadsTo r = true) : Walks p (edges ++ [(q, r)]) r := by
  induction edges generalizing p with
  | nil => exact ⟨h, he, rfl⟩
  | cons edge edges ih => exact ⟨h.1, h.2.1, ih h.2.2⟩

/-- What is published of a phase that was entered. -/
def arrival? : Phase → Option EventKind
  | .ready => some .ready
  | .failed => some .failed
  | _ => none

end Phase

namespace Coordinator

/-! ## The walk of a story -/

structure Walk where
  /-- The phase that was set last. -/
  phase : Phase := .uninitialized
  edges : List (Phase × Phase) := []
  /-- The messages of the changes that were published. -/
  announced : List String := []
  /-- What is still to be published of the phase that was entered last. -/
  owed : Option EventKind := none
  /-- The codes of the failures that were published since an operation was started. -/
  failures : List (Option String) := []

namespace Walk

def enter (g : Walk) (p : Phase) : Walk :=
  if p = g.phase then g
  else { g with phase := p, edges := g.edges ++ [(g.phase, p)], owed := p.arrival? }

def tell (g : Walk) (n : Notice) : Walk :=
  match n.kind with
  | .stateChanged => { g with announced := g.announced ++ [n.message] }
  | .ready => { g with owed := none }
  | .failed => { g with owed := none, failures := g.failures ++ [n.code] }
  | _ => g

def note (g : Walk) : Happening → Walk
  | .did _ _ (.started _ _) => { g with failures := [] }
  | .did _ _ (.phaseSet p) => g.enter p
  | .did _ _ (.notice n) => g.tell n
  | _ => g

@[simp] theorem phase_enter (g : Walk) (p : Phase) : (g.enter p).phase = p := by
  by_cases hp : p = g.phase <;> simp [enter, hp]

@[simp] theorem phase_tell (g : Walk) (n : Notice) : (g.tell n).phase = g.phase := by
  simp only [tell]
  split <;> rfl

def message (edge : Phase × Phase) : String := edge.1.name ++ " -> " ++ edge.2.name

/-- Everything has been published. -/
structure Complete (g : Walk) : Prop where
  announced : g.announced = g.edges.map message
  owed : g.owed = none

/-- The failures of an operation that ends so. -/
def told : Except Fault Answer → List (Option String)
  | .ok _ => []
  | .error f => [some f.code]

/-- A change of the phase needs an edge, and everything before it has been published. A change is
published once and in its turn, and an arrival only if it is owed. -/
def Allows (g : Walk) : Happening → Prop
  | .did _ _ (.phaseSet p) => p = g.phase ∨ g.phase.leadsTo p = true ∧ g.Complete
  | .did _ _ (.notice n) =>
    match n.kind with
    | .stateChanged => g.announced ++ [n.message] = g.edges.map message
    | .ready => g.owed = some .ready
    | .failed => g.owed = some .failed
    | _ => True
  | .did _ _ (.finished _ result) => g.failures = told result
  | _ => True

end Walk

def walks : Watch Walk where
  start := {}
  note := Walk.note
  law g e := g.Allows e ∧ (g.note e).phase = e.seen.phase

/-! ## What holds at the points of a coordinator -/

namespace Walk

/-- The walk has come to this phase, and each change was published. -/
structure At (g : Walk) (p : Phase) : Prop where
  phase : g.phase = p
  path : Phase.Walks .uninitialized g.edges p
  announced : g.announced = g.edges.map message

structure UpTo (g : Walk) (p : Phase) : Prop extends At g p where
  owed : g.owed = none

/-- What was published of the failure of the running operation. -/
def Charged (g : Walk) : Point → Prop
  | .idle | .looking => True
  | .leave _ result | .close result | .finish result | .waiting (.resumingDependent _ result)
  | .answered (.resumingDependent _ result) _ => g.failures = told result
  | _ => g.failures = []

theorem Charged.guarding {g : Walk} {stage : Stage} {r : Reply} {s : Sequence}
    (hg : g.Charged (.answered stage r)) (hs : stage.guarding? = some s) : g.failures = [] := by
  cases stage with
  | resumingDependent => simp [Stage.guarding?] at hs
  | _ => exact hg

def Holds (p : Point) (g : Walk) (c : Coordinator) : Prop :=
  (UpTo g c.phase ∧ g.Charged p) ∧ ∃ tally, Consistency.Holds p tally c.face

theorem UpTo.complete {g : Walk} {p : Phase} (hg : UpTo g p) : g.Complete :=
  ⟨hg.announced, hg.owed⟩

/-- The phase has changed, and the change has been published. -/
def follow (g : Walk) (p : Phase) : Walk :=
  { g with
    phase := p, edges := g.edges ++ [(g.phase, p)], announced := g.announced ++ [message (g.phase, p)]
    owed := p.arrival? }

theorem At.follow {g : Walk} {old p : Phase} (hg : At g old) (he : old.leadsTo p = true) :
    At (g.follow p) p := by
  obtain rfl := hg.phase
  exact ⟨rfl, hg.path.snoc he, by simp [Walk.follow, hg.announced]⟩

/-- Is it neither a change of the phase nor published of one? -/
def isApart : Output → Bool
  | .phaseSet _ | .started _ _ | .finished _ _ => false
  | .call _ => true
  | .notice n => n.kind != .stateChanged && n.kind != .ready && n.kind != .failed

theorem isApart_stopNotice (id : ServerId) (elapsed : Nat) (o : Option Fault) :
    isApart (.notice (stopNotice id elapsed o)) = true := by
  cases o <;> rfl

theorem UpTo.apart {now : Nat} {g : Walk} {p : Phase} {ms : List Moment} {P : Walk → Prop}
    (hg : UpTo g p) (hms : ∀ m ∈ ms, isApart m.output = true ∧ m.seen.phase = p) (hP : P g) :
    walks.Passes now ms g P := by
  refine Watch.passes_of_unnoted (fun m hm => ?_) hP
  obtain ⟨ha, hp⟩ := hms m hm
  have hphase : g.phase = m.seen.phase := hg.phase.trans hp.symm
  cases ho : m.output with
  | call x => exact ⟨⟨trivial, hphase⟩, rfl⟩
  | notice n =>
    have hnote : g.tell n = g := by
      simp only [ho, isApart] at ha
      cases hk : n.kind <;> simp_all [tell]
    refine ⟨⟨?_, ?_⟩, hnote⟩
    · simp only [ho, isApart] at ha
      cases hk : n.kind <;> simp_all [Allows]
    · exact (congrArg Walk.phase hnote).trans hphase
  | phaseSet q | started ticket op | finished ticket r => simp [ho, isApart] at ha

/-- A change of the phase along an edge. -/
theorem UpTo.passes_shift {now : Nat} {g : Walk} {c : Coordinator} {old : Phase} {P : Walk → Prop}
    (hg : UpTo g old) (he : old.leadsTo c.phase = true) (hP : P (g.follow c.phase)) :
    walks.Passes now (shift old c) g P := by
  obtain rfl := hg.phase
  have hp : c.phase ≠ g.phase := by
    intro hp
    cases hg : g.phase <;> simp [hp, hg, Phase.leadsTo] at he
  have henter : g.enter c.phase =
      { g with
        phase := c.phase, edges := g.edges ++ [(g.phase, c.phase)], owed := c.phase.arrival? } := by
    simp only [enter, hp, if_false]
  have hfollow : (g.enter c.phase).tell (Turn.phaseNotice g.phase c.phase) = g.follow c.phase := by
    simp [henter, tell, follow, Turn.phaseNotice, message]
  simp only [shift, hp.symm, if_false]
  refine ⟨⟨.inr ⟨he, hg.complete⟩, ?_⟩, ⟨?_, ?_⟩, ?_⟩
  · exact congrArg Walk.phase henter
  · simp [walks, note, henter, Allows, Turn.phaseNotice, hg.announced, message]
  · exact congrArg Walk.phase hfollow
  · rw [← hfollow] at hP
    exact hP

/-- The phase is set to what it was. -/
theorem UpTo.passes_still {now : Nat} {g : Walk} {c : Coordinator} {old : Phase} {P : Walk → Prop}
    (hg : UpTo g old) (hp : c.phase = old) (hP : P g) : walks.Passes now (shift old c) g P := by
  subst hp
  have henter : g.enter c.phase = g := by
    simp [enter, hg.phase]
  have hP' : P (g.enter c.phase) := henter.symm ▸ hP
  simp only [shift, if_true]
  exact ⟨⟨.inl hg.phase.symm, (congrArg Walk.phase henter).trans hg.phase⟩, hP'⟩

/-- What was owed has been published. -/
theorem At.tell {g : Walk} {p : Phase} (hg : At g p) (n : Notice)
    (hn : n.kind = .ready ∨ n.kind = .failed) : UpTo (g.tell n) p := by
  rcases hn with hn | hn
  all_goals
    simp only [Walk.tell, hn]
    exact ⟨⟨hg.phase, hg.path, hg.announced⟩, rfl⟩

theorem UpTo.follow {g : Walk} {old p : Phase} (hg : UpTo g old) (he : old.leadsTo p = true)
    (hp : p.arrival? = none) : UpTo (g.follow p) p :=
  ⟨hg.toAt.follow he, hp⟩

theorem leadsTo_openingPhase {c : Coordinator}
    (hp : c.phase = .uninitialized ∨ c.phase = .ready ∨ c.phase = .failed) :
    c.phase.leadsTo c.openingPhase = true := by
  rcases hp with hp | hp | hp <;> simp [openingPhase, hp, Phase.leadsTo]

theorem arrival?_openingPhase (c : Coordinator) : c.openingPhase.arrival? = none := by
  simp only [openingPhase]
  split <;> rfl

theorem move_upTo {now : Nat} {g : Walk} {tally : Tally} {c c' : Coordinator} {p p' : Point}
    {ms : List Moment} (hm : Move now c p ms c' p') (hg : UpTo g c.phase) (hch : g.Charged p)
    (h : Consistency.Holds p tally c.face) :
    walks.Passes now ms g fun g' => UpTo g' c'.phase ∧ g'.Charged p' := by
  cases hm with
  | take hq => exact ⟨⟨trivial, hg.phase⟩, ⟨⟨hg.phase, hg.path, hg.announced⟩, hg.owed⟩, rfl⟩
  | rest | activate | restart | reconfigure | stop | yieldCaches | spareDependent | keepCaches
  | keepEnvironment | keepCache | leave | stayReady | keepRunning => exact ⟨hg, hch⟩
  | gone p => exact ⟨hg, by cases p <;> exact hch⟩
  | stopped p id since hr =>
    refine hg.apart ?_ ⟨hg, by cases p <;> exact hch⟩
    simpa using isApart_stopNotice id _ _
  | enter trigger answer =>
    have he : c.phase.leadsTo (c.entry trigger).phase = true := leadsTo_openingPhase h.rested.phase
    exact hg.passes_shift he ⟨hg.follow he (arrival?_openingPhase c), hch⟩
  | drop p =>
    refine hg.apart ?_ ⟨hg, by cases p <;> exact hch⟩
    simp [isApart, waitAt, Turn.stoppingNotice]
  | stopDependent | clearCaches | prepareEnvironment | launch | awaitReady | stopUnready
  | resumeDependent | removeCache =>
    refine hg.apart ?_ ⟨hg, hch⟩
    simp [isApart, waitAt]
  | succeed s id =>
    have he : c.phase.leadsTo .ready = true := Phase.leadsTo_of_transition h.phase (.inl rfl)
    have ha := hg.toAt.follow he
    rw [Watch.passes_append]
    exact hg.passes_shift he ⟨⟨rfl, ha.phase⟩, ha.tell (Turn.readyNotice id (now - s.startedAt)) (.inl rfl), hch⟩
  | fail s f =>
    have he : c.phase.leadsTo .failed = true := Phase.leadsTo_of_transition h.phase (.inr rfl)
    have ha := hg.toAt.follow he
    have hf : (g.follow .failed).failures ++ [some f.code] = told (.error f) := by
      simp only [follow, told, List.append_left_eq_self]
      exact hch
    rw [Watch.passes_append]
    exact hg.passes_shift he ⟨⟨rfl, ha.phase⟩, ha.tell (Turn.failedNotice f) (.inr rfl), hf⟩
  | close r =>
    by_cases hp : c.phase = .uninitialized
    · exact hg.passes_still hp.symm ⟨hp ▸ hg, hch⟩
    · have he : c.phase.leadsTo .uninitialized = true :=
        Phase.leadsTo_uninitialized (h.phase.resolve_left hp)
      exact hg.passes_shift he ⟨hg.follow he rfl, hch⟩
  | finish r hr => exact ⟨⟨hch, hg.phase⟩, hg, trivial⟩
  | dependentStopped | dependentFailed | cleared | prepared | launched | gotReady | notReady
  | overdue | unreadyStopped | dependentResumed | cacheRemoved => exact ⟨hg, hch⟩
  | callFails f hstage => rcases hstage with rfl | rfl | rfl <;> exact ⟨hg, hch⟩
  | sequencePanics payload hstage => exact ⟨hg, hch.guarding hstage⟩
  | operationPanics payload hstage =>
    have hr := h.2
    simp [guardedPanics, Reply.isPanic, hstage] at hr

theorem move_holds {now : Nat} {g : Walk} {c c' : Coordinator} {p p' : Point} {ms : List Moment}
    (hs : p.Sound c) (hm : Move now c p ms c' p') (h : Holds p g c) :
    walks.Passes now ms g fun g' => Holds p' g' c' := by
  obtain ⟨⟨hg, hch⟩, tally, hc⟩ := h
  have hc' := (Consistency.move_holds hs hm hc).exists
  exact (move_upTo hm hg hch hc).mono fun g' hg' => ⟨hg', hc'⟩

theorem signal_holds {now : Nat} {g : Walk} {c : Coordinator} {s : Signal}
    (hc : c.point.Sound c) (hs : s.Fits guardedPanics c) (h : Holds c.point g c) :
    walks.law g (.heard now c s) ∧
      Holds (s.target c) (walks.note g (.heard now c s)) (s.effect c) := by
  obtain ⟨⟨hg, hch⟩, tally, ht⟩ := h
  obtain ⟨-, ht'⟩ := @Consistency.signal_holds now tally c s hc hs ht
  refine ⟨⟨trivial, hg.phase⟩, ⟨?_, ?_⟩, tally, ht'⟩
  · cases s with
    | submit | wake | reply | setDependent | down => exact hg
  · cases s with
    | reply r =>
      obtain ⟨stage, hstage, -⟩ := hs
      simp only [point, hstage] at hch
      simp only [Signal.target, hstage]
      cases stage <;> exact hch
    | wake => exact at_halt (P := g.Charged) hch id
    | submit | setDependent | down => exact hch

theorem holds_fresh (name toolName : String) (settings : Settings) :
    Holds .idle walks.start (fresh name toolName settings) :=
  ⟨⟨⟨⟨rfl, rfl, rfl⟩, rfl⟩, trivial⟩, _, Consistency.holds_fresh name toolName settings⟩

theorem run_holds {name toolName : String} {settings : Settings} {h : Story} {c : Coordinator}
    (hr : Run guardedPanics (fresh name toolName settings) h c) :
    walks.Kept h ∧ c.point.Sound c ∧ Holds c.point (walks.read h) c :=
  hr.upheld (fun _ _ hs => (Bool.and_eq_true_iff.mp hs).1) signal_holds move_holds
    (sound_fresh name toolName settings) (holds_fresh name toolName settings)

end Walk

/-- The phases of a run are those of a walk: it goes on along an edge only when everything before
it was published, and each notice of a change, of an arrival and of a failure is due when it comes. -/
theorem phases_walk {name toolName : String} {settings : Settings} {h : Story} {c : Coordinator}
    (hr : Run guardedPanics (fresh name toolName settings) h c) :
    Phase.Walks .uninitialized (walks.read h).edges c.phase ∧ (walks.read h).Complete ∧
      Always (fun before e => (walks.read before).Allows e ∧
        (walks.read (before ++ [e])).phase = e.seen.phase) h := by
  obtain ⟨hk, -, ⟨hg, -⟩, -⟩ := Walk.run_holds hr
  refine ⟨hg.path, hg.complete, ?_⟩
  intro before e after he
  rw [Watch.read_snoc]
  exact hk before e after he

/-- A first start that fails, a second one that succeeds, and a stop. -/
theorem phases_walk_there_and_back : ∃ h c, Run guardedPanics (fresh "main" "rcc" {}) h c ∧
    (walks.read h).edges = [(.uninitialized, .starting), (.starting, .failed), (.failed, .starting),
      (.starting, .ready), (.ready, .uninitialized)] ∧
    Phase.Walks .uninitialized (walks.read h).edges c.phase ∧ (walks.read h).Complete ∧
      Always (fun before e => (walks.read before).Allows e ∧
        (walks.read (before ++ [e])).phase = e.seen.phase) h := by
  have run := (.start : Run guardedPanics (fresh "main" "rcc" {}) [] _)
    |>.hear 0 (.submit .activate) trivial
    |>.hear 0 (.submit (.restart .command)) trivial
    |>.hear 0 .wake trivial
    |>.hear 2 (.reply (.panicked "boom")) ⟨_, rfl, rfl⟩
    |>.hear 5 (.reply (.server "ls-1")) ⟨_, rfl, rfl⟩
    |>.hear 6 (.submit .stop) trivial
    |>.hear 9 (.reply .done) ⟨_, rfl, rfl⟩
    |>.hear 11 (.reply .done) ⟨_, rfl, rfl⟩
  exact ⟨_, _, run, rfl, phases_walk run⟩

end Coordinator

end Supervisor
