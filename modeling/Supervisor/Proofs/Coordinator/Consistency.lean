import Supervisor.Proofs.Coordinator.Moves
/-!
# Consistency of a coordinator

The fields of a coordinator are written one by one by several operations. At each moment of each run
they agree with each other and with the story: the trigger with the phase, the count with the start
sequences that have ended well, and between operations the handle and the last error with the phase.
-/
namespace Supervisor

namespace Coordinator

/-- Only calls that belong to a start sequence itself may panic. -/
def guardedPanics : Conduct := fun s r => s.accepts r && (!r.isPanic || s.guarding?.isSome)

/-! ## The start sequences of a story -/

structure Tally where
  /-- How many start sequences have ended in `ready`. -/
  readies : Nat := 0
  /-- Has the running operation begun a start sequence? -/
  inSequence : Bool := false
  /-- What the caller was told of the latest start sequence that has ended. -/
  verdict : Option (Except Fault Answer) := none

namespace Tally

def enter (g : Tally) : Phase → Tally
  | .ready => { g with readies := g.readies + 1 }
  | .starting | .restarting => { g with inSequence := true }
  | .uninitialized | .failed => g

/-- The operation that was running has ended. -/
def settle (g : Tally) (r : Except Fault Answer) : Tally :=
  if g.inSequence then { g with inSequence := false, verdict := some r } else g

@[simp] theorem settle_readies (g : Tally) (r : Except Fault Answer) :
    (g.settle r).readies = g.readies := by
  simp only [settle]
  split <;> rfl

@[simp] theorem settle_inSequence (g : Tally) (r : Except Fault Answer) :
    (g.settle r).inSequence = false := by
  simp only [settle]
  split <;> simp_all

theorem settle_outside {g : Tally} (hg : g.inSequence = false) (r : Except Fault Answer) :
    g.settle r = g := by
  simp [settle, hg]

def note (g : Tally) : Happening → Tally
  | .did _ _ (.phaseSet p) => g.enter p
  | .did _ _ (.finished _ r) => g.settle r
  | _ => g

@[simp] theorem note_heard (g : Tally) (now : Nat) (c : Coordinator) (s : Signal) :
    g.note (.heard now c s) = g := rfl
@[simp] theorem note_started (g : Tally) (now : Nat) (c : Coordinator) (i : Ticket) (op : Operation) :
    g.note (.did now c (.started i op)) = g := rfl
@[simp] theorem note_notice (g : Tally) (now : Nat) (c : Coordinator) (n : Notice) :
    g.note (.did now c (.notice n)) = g := rfl
@[simp] theorem note_phaseSet (g : Tally) (now : Nat) (c : Coordinator) (p : Phase) :
    g.note (.did now c (.phaseSet p)) = g.enter p := rfl
@[simp] theorem note_call (g : Tally) (now : Nat) (c : Coordinator) (x : Call) :
    g.note (.did now c (.call x)) = g := rfl
@[simp] theorem note_finished (g : Tally) (now : Nat) (c : Coordinator) (i : Ticket)
    (r : Except Fault Answer) : g.note (.did now c (.finished i r)) = g.settle r := rfl

end Tally

/-! ## The laws -/

/-- The coordinator between operations. -/
structure Rested (g : Tally) (f : Face) : Prop where
  phase : f.phase = .uninitialized ∨ f.phase = .ready ∨ f.phase = .failed
  handle : f.handle.isSome ↔ f.phase = .ready
  ready : f.phase = .ready → f.lastError = none
  failed : f.phase = .failed →
    ∃ e, g.verdict = some (.error e) ∧ f.lastError = some (e.code ++ ": " ++ e.message)

structure Consistent (g : Tally) (c : Coordinator) : Prop where
  trigger : c.snapshot.trigger.isSome ↔ c.phase = .starting ∨ c.phase = .restarting
  count : c.restartCount = g.readies
  rested : c.queue.running = none → Rested g c.face

def tallies : Watch Tally where
  start := {}
  note := Tally.note
  law g e := Consistent (g.note e) e.seen

/-! ## What holds at the points of a coordinator -/

namespace Consistency

structure Agreed (g : Tally) (f : Face) : Prop where
  count : f.restartCount = g.readies
  trigger : f.trigger.isSome ↔ f.phase = .starting ∨ f.phase = .restarting

/-- Nothing has been changed since the last operation. -/
structure Settled (g : Tally) (f : Face) : Prop extends Agreed g f where
  rested : Rested g f
  noted : g.inSequence = false

structure InSequence (g : Tally) (f : Face) : Prop extends Agreed g f where
  phase : f.phase = .starting ∨ f.phase = .restarting
  noted : g.inSequence = true

/-- In a start sequence, and the old server is out of the way. -/
structure Cleared (g : Tally) (f : Face) : Prop extends InSequence g f where
  handle : f.handle = none

/-- The server is out of the way, and none will be started. -/
structure Closing (g : Tally) (f : Face) : Prop extends Agreed g f where
  phase : f.phase = .uninitialized ∨ f.phase = .ready ∨ f.phase = .failed
  handle : f.handle = none
  noted : g.inSequence = false

/-- An operation that can end with this result. -/
structure Concluding (r : Except Fault Answer) (g : Tally) (f : Face) : Prop extends Agreed g f where
  rested : Rested (g.settle r) f

def Waiting : Stage → Tally → Face → Prop
  | .stoppingDependent _ => InSequence
  | .stoppingOld _ _ _ | .clearing _ | .preparing _ | .launching _ | .awaitingReady _ _
  | .stoppingUnready _ _ _ => Cleared
  | .resumingDependent _ r => Concluding r
  | .shuttingDown _ _ | .yielding _ _ _ | .removingCache _ => Closing

def Holds : Point → Tally → Face → Prop
  | .idle | .looking | .begun _ | .entering _ _ | .dropping .shutdown | .dropping (.yielding _) => Settled
  | .entered _ | .dropping (.sequence _) => InSequence
  | .clear _ | .prepare _ | .launch _ _ | .awaitReady _ _ | .stopUnready _ _ _ | .succeed _ _
  | .fail _ _ => Cleared
  | .leave _ r | .finish r => Concluding r
  | .clearOwnCache _ | .close _ => Closing
  | .waiting stage => Waiting stage
  | .answered stage r => fun g f => Waiting stage g f ∧ guardedPanics stage r = true

/-- While an operation is running, the law asks no more than this. -/
theorem Agreed.consistent {g : Tally} {f : Face} {c : Coordinator} (ha : Agreed g f)
    (hf : c.face = f) (hr : c.queue.running.isSome) : Consistent g c := by
  subst hf
  exact ⟨ha.trigger, ha.count, fun hn => by simp [hn] at hr⟩

theorem Settled.consistent {g : Tally} {c : Coordinator} (hs : Settled g c.face) : Consistent g c :=
  ⟨hs.trigger, hs.count, fun _ => hs.rested⟩

theorem Settled.concluding {g : Tally} {f : Face} (hs : Settled g f) (r : Except Fault Answer) :
    Concluding r g f :=
  ⟨hs.toAgreed, (Tally.settle_outside hs.noted r).symm ▸ hs.rested⟩

theorem Settled.closing {g : Tally} {f : Face} (hs : Settled g f) :
    Closing g { f with handle := none } :=
  ⟨⟨hs.count, hs.trigger⟩, hs.rested.phase, rfl, hs.noted⟩

theorem Concluding.settled {r : Except Fault Answer} {g : Tally} {f : Face}
    (hc : Concluding r g f) : Settled (g.settle r) f :=
  ⟨⟨by simpa using hc.count, hc.trigger⟩, hc.rested, by simp⟩

theorem InSequence.cleared {g : Tally} {f : Face} (hs : InSequence g f) :
    Cleared g { f with handle := none } :=
  ⟨⟨⟨hs.count, hs.trigger⟩, hs.phase, hs.noted⟩, rfl⟩

theorem Cleared.succeeded {g : Tally} {f : Face} (hc : Cleared g f) (id : ServerId)
    (r : Except Fault Answer) :
    Concluding r (g.enter .ready) ⟨.ready, some id, none, none, f.restartCount + 1⟩ := by
  refine ⟨⟨?_, ?_⟩, ?_, ?_, ?_, ?_⟩
  · simp [Tally.enter, hc.count]
  all_goals simp

theorem Cleared.failed {g : Tally} {f : Face} (hc : Cleared g f) (e : Fault) :
    Concluding (.error e) (g.enter .failed)
      ⟨.failed, f.handle, none, some e.summary, f.restartCount⟩ := by
  have hv : ((g.enter .failed).settle (.error e)).verdict = some (.error e) := by
    simp [Tally.settle, Tally.enter, hc.noted]
  refine ⟨⟨hc.count, ?_⟩, ?_, ?_, ?_, fun _ => ⟨e, hv, rfl⟩⟩
  all_goals simp [hc.handle]

theorem Closing.closed {g : Tally} {f : Face} (hc : Closing g f) (r : Except Fault Answer) :
    Concluding r (g.enter .uninitialized) { f with phase := .uninitialized } := by
  have ht : f.trigger.isSome = false := by
    have hn : ¬ (f.phase = .starting ∨ f.phase = .restarting) := by
      rcases hc.phase with hp | hp | hp <;> simp [hp]
    simpa [hn] using hc.trigger
  have hs : (g.enter .uninitialized).settle r = g := Tally.settle_outside hc.noted r
  refine ⟨⟨hc.count, by simp [ht]⟩, ?_⟩
  rw [hs]
  exact ⟨.inl rfl, by simp [hc.handle], by simp, by simp⟩

theorem InSequence.entered {g : Tally} {c : Coordinator} (hs : Settled g c.face) (t : Trigger) :
    InSequence (g.enter c.openingPhase) (c.entry t).face := by
  by_cases hp : c.phase = .ready
  · simp only [openingPhase, entry, hp, if_true]
    exact ⟨⟨hs.count, by simp [face, atPhase]⟩, .inr rfl, rfl⟩
  · simp only [openingPhase, entry, hp, if_false]
    exact ⟨⟨hs.count, by simp [face, atPhase]⟩, .inl rfl, rfl⟩

theorem Waiting.guarded {stage : Stage} {s : Sequence} {g : Tally} {f : Face}
    (h : Waiting stage g f) (hs : stage.guarding? = some s) : Cleared g f := by
  cases stage with
  | stoppingOld | clearing | preparing | launching | awaitingReady | stoppingUnready => exact h
  | _ => simp [Stage.guarding?] at hs

theorem Waiting.agreed {stage : Stage} {g : Tally} {f : Face} (h : Waiting stage g f) :
    Agreed g f := by
  cases stage <;> exact h.toAgreed

theorem Holds.consistent {g : Tally} {c : Coordinator} (hs : c.point.Sound c)
    (h : Holds c.point g c.face) : Consistent g c := by
  cases hc : c.stage with
  | none =>
    simp only [point, hc] at h
    exact Settled.consistent h
  | some stage =>
    simp only [point, hc] at h hs
    exact (Waiting.agreed h).consistent rfl hs.2

theorem move_holds {now : Nat} {g : Tally} {c c' : Coordinator} {p p' : Point} {ms : List Moment}
    (hs : p.Sound c) (hm : Move now c p ms c' p') (h : Holds p g c.face) :
    tallies.Passes now ms g fun g' => Holds p' g' c'.face := by
  cases hm with
  | take hq => exact ⟨Settled.consistent h, h⟩
  | stayReady | keepRunning => exact Settled.concluding h _
  | rest | activate | restart | reconfigure | stop | yieldCaches | spareDependent | keepCaches
  | keepEnvironment | keepCache | leave => exact h
  | enter trigger answer =>
    have ha : InSequence (g.enter c.openingPhase) (c.entry trigger).face := .entered h trigger
    have hl : Consistent (g.enter c.openingPhase) (c.entry trigger) :=
      ha.toAgreed.consistent rfl hs
    exact .shift hl (fun _ _ => hl) (fun _ _ _ => rfl) ha
  | gone p hh =>
    have hf : { c.face with handle := none } = c.face := by
      simp only [face, hh]
    cases p with
    | sequence s => exact hf ▸ InSequence.cleared h
    | shutdown => exact hf ▸ Settled.closing h
    | yielding wasActive => exact hf ▸ Settled.closing h
  | drop p hh =>
    cases p with
    | sequence s =>
      have ha := InSequence.cleared h
      exact ⟨ha.consistent rfl hs, ha.consistent rfl hs, ha⟩
    | shutdown =>
      have ha := Settled.closing h
      exact ⟨ha.consistent rfl hs, ha.consistent rfl hs, ha⟩
    | yielding wasActive =>
      have ha := Settled.closing h
      exact ⟨ha.consistent rfl hs, ha.consistent rfl hs, ha⟩
  | clearCaches | prepareEnvironment | launch | awaitReady =>
    have hl : ∀ stage, Consistent g (c.waitAt stage) := fun _ => h.toAgreed.consistent rfl hs
    exact ⟨h.toAgreed.consistent rfl hs, hl _, h⟩
  | stopDependent | stopUnready | resumeDependent | removeCache =>
    exact ⟨h.toAgreed.consistent rfl hs, h⟩
  | succeed s id =>
    have ha := Cleared.succeeded h id (.ok s.answer)
    have hl : Consistent (g.enter .ready) (c.succeeded id) := ha.toAgreed.consistent rfl hs
    rw [Watch.passes_append]
    exact .shift hl (fun _ _ => hl) (fun _ _ _ => rfl) ⟨hl, ha⟩
  | fail s f =>
    have ha := Cleared.failed h f
    have hl : Consistent (g.enter .failed) (c.failed f) := ha.toAgreed.consistent rfl hs
    rw [Watch.passes_append]
    exact .shift hl (fun _ _ => hl) (fun _ _ _ => rfl) ⟨hl, ha⟩
  | close r =>
    have ha := Closing.closed h r
    have hl : Consistent (g.enter .uninitialized) (c.atPhase .uninitialized) :=
      ha.toAgreed.consistent rfl hs
    exact .shift hl (fun _ _ => hl) (fun _ _ _ => rfl) ha
  | finish r hr =>
    have ha := Concluding.settled h
    exact ⟨Settled.consistent ha, ha⟩
  | dependentStopped | dependentFailed | cleared | prepared | launched | gotReady | notReady
  | overdue | unreadyStopped | dependentResumed | cacheRemoved => exact h.1
  | stopped p id since hr =>
    have ha : Holds p.next g c.face := by
      cases p <;> exact h.1
    exact ⟨(Waiting.agreed h.1).consistent rfl hs, ha⟩
  | callFails f hstage =>
    rcases hstage with rfl | rfl | rfl <;> exact h.1
  | sequencePanics payload hstage => exact Waiting.guarded h.1 hstage
  | operationPanics payload hstage =>
    have hr := h.2
    simp [guardedPanics, Reply.isPanic, hstage] at hr

theorem signal_holds {now : Nat} {g : Tally} {c : Coordinator} {s : Signal}
    (hc : c.point.Sound c) (hs : s.Fits guardedPanics c) (h : Holds c.point g c.face) :
    tallies.law g (.heard now c s) ∧
      Holds (s.target c) (tallies.note g (.heard now c s)) (s.effect c).face := by
  refine ⟨Holds.consistent hc h, ?_⟩
  cases s with
  | reply r =>
    obtain ⟨stage, hstage, hr⟩ := hs
    simp only [point, hstage] at h
    simp only [Signal.target, hstage]
    exact ⟨h, hr⟩
  | wake => exact at_halt (P := fun p => Holds p g c.face) h id
  | submit | setDependent | down => exact h

theorem holds_fresh (name toolName : String) (settings : Settings) :
    Holds .idle tallies.start (fresh name toolName settings).face := by
  refine ⟨⟨rfl, ?_⟩, ⟨.inl rfl, ?_, ?_, ?_⟩, rfl⟩
  all_goals simp [fresh, face]

theorem run_holds {name toolName : String} {settings : Settings} {h : Story} {c : Coordinator}
    (hr : Run guardedPanics (fresh name toolName settings) h c) :
    tallies.Kept h ∧ c.point.Sound c ∧ Holds c.point (tallies.read h) c.face :=
  hr.upheld (fun _ _ hs => (Bool.and_eq_true_iff.mp hs).1) signal_holds move_holds
    (sound_fresh name toolName settings) (holds_fresh name toolName settings)

end Consistency

/-- Whatever is asked of a coordinator, and whatever its tool, its launcher and its servers answer,
it is consistent at every moment of the run, and after it. -/
theorem consistent_throughout {name toolName : String} {settings : Settings} {h : Story}
    {c : Coordinator} (hr : Run guardedPanics (fresh name toolName settings) h c) :
    Consistent (tallies.read h) c ∧
      Always (fun before e => Consistent (tallies.read (before ++ [e])) e.seen) h := by
  obtain ⟨hk, hs, hc⟩ := Consistency.run_holds hr
  refine ⟨hc.consistent hs, ?_⟩
  intro before e after he
  rw [Watch.read_snoc]
  exact hk before e after he

/-- A first start that fails because the launcher panics, and a second one that succeeds. -/
theorem consistent_throughout_second_start : ∃ h c, Run guardedPanics (fresh "main" "rcc" {}) h c ∧
    c.phase = .ready ∧ (tallies.read h).readies = 1 ∧ Consistent (tallies.read h) c ∧
      Always (fun before e => Consistent (tallies.read (before ++ [e])) e.seen) h := by
  have run := (.start : Run guardedPanics (fresh "main" "rcc" {}) [] _)
    |>.hear 0 (.submit .activate) trivial
    |>.hear 0 (.submit (.restart .command)) trivial
    |>.hear 0 .wake trivial
    |>.hear 2 (.reply (.panicked "boom")) ⟨_, rfl, rfl⟩
    |>.hear 5 (.reply (.server "ls-1")) ⟨_, rfl, rfl⟩
    |>.hear 9 (.reply .done) ⟨_, rfl, rfl⟩
  exact ⟨_, _, run, rfl, rfl, consistent_throughout run⟩

end Coordinator

end Supervisor
