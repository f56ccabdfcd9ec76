import Supervisor.Proofs.Coordinator.Lineup
import Supervisor.Proofs.Coordinator.RemainingCalls
import Supervisor.Proofs.Coordinator.Upkeep
/-!
# An operation by itself

An operation that has the queue to itself is carried out turn by turn. A turn ends with the one call for
whose reply the operation waits, or with its result; then nothing is running or waiting any more.
-/
namespace Supervisor

/-! ## Answers -/

/-- What an operation tells its caller if it succeeds. -/
def Operation.Answers : Operation → Answer → Prop
  | .configure _, a | .yieldCaches, a => ∃ b, a = .flag b
  | _, a => a = .done

def Operation.Allows (op : Operation) (result : Except Fault Answer) : Prop :=
  ∀ a, result = .ok a → op.Answers a

theorem Operation.allows_ok {op : Operation} {a : Answer} (h : op.Answers a) : op.Allows (.ok a) := by
  intro b hb
  cases hb
  exact h

theorem Operation.allows_error (op : Operation) (f : Fault) : op.Allows (.error f) := nofun

def Output.call? : Output → Option Call
  | .call x => some x
  | _ => none

def Output.result? : Output → Option (Except Fault Answer)
  | .finished _ result => some result
  | _ => none

/-- The start sequence of an operation. A change of the settings is nothing to a dependent. -/
structure Sequence.Serves (op : Operation) (settings : Settings) (s : Sequence) : Prop where
  answers : op.Answers s.answer
  settings : s.settings = settings
  spares : op.configures = true → s.trigger.clearsCaches = false ∧ s.dependent = none

/-- The operation that waits there goes on to an answer of this kind. -/
def Stage.Serves (op : Operation) (settings : Settings) : Stage → Prop
  | .stoppingDependent s | .stoppingOld s _ _ | .clearing s | .preparing s | .launching s
  | .awaitingReady s _ | .stoppingUnready s _ _ => s.Serves op settings
  | .resumingDependent s result => s.Serves op settings ∧ op.Allows result
  | .shuttingDown _ _ => op.Answers .done
  | .yielding _ _ _ | .removingCache _ => ∀ b, op.Answers (.flag b)

namespace Coordinator

def Purpose.Serves (op : Operation) (settings : Settings) : Purpose → Prop
  | .sequence s => s.Serves op settings
  | .shutdown => op.Answers .done
  | .yielding _ => ∀ b, op.Answers (.flag b)

def Point.Serves (op : Operation) (settings : Settings) : Point → Prop
  | .idle | .looking => True
  | .begun op' => op' = op
  | .entering t a => op.Answers a ∧ (op.configures = true → t.clearsCaches = false)
  | .entered s | .clear s | .prepare s | .launch s _ | .awaitReady s _ | .stopUnready s _ _
  | .succeed s _ | .fail s _ => s.Serves op settings
  | .leave s result => s.Serves op settings ∧ op.Allows result
  | .close result | .finish result => op.Allows result
  | .dropping p => p.Serves op settings
  | .clearOwnCache _ => ∀ b, op.Answers (.flag b)
  | .waiting stage | .answered stage _ => stage.Serves op settings

/-- The settings once the operation has begun that is about to. -/
def Point.settingsAfter (s : Settings) : Point → Settings
  | .begun op => op.settingsAfter s
  | _ => s

section
variable {now : Nat} {c c' : Coordinator} {p p' : Point} {ms : List Moment} {op : Operation}

/-- The settings change when an operation begins that changes them, and at no other time. -/
theorem Move.settings (hm : Move now c p ms c' p') (hl : p ≠ .looking) :
    p'.settingsAfter c'.settings = p.settingsAfter c.settings := by
  cases hm with
  | take | rest => exact (hl rfl).elim
  | gone p | stopped p => cases p <;> rfl
  | _ => rfl

theorem Move.dependent (hm : Move now c p ms c' p') : c'.dependent = c.dependent := by
  cases hm <;> rfl

variable {settings : Settings}

theorem serves_stage (p : Purpose) (id : ServerId) (since : Nat) :
    (p.stage id since).Serves op settings ↔ p.Serves op settings := by
  cases p <;> rfl

theorem serves_next (p : Purpose) (h : p.Serves op settings) : p.next.Serves op settings := by
  cases p with
  | sequence | yielding => exact h
  | shutdown => exact Operation.allows_ok h

theorem serves_guarding {stage : Stage} {s : Sequence} (h : stage.guarding? = some s)
    (hs : stage.Serves op settings) : s.Serves op settings := by
  cases stage with
  | stoppingOld | clearing | preparing | launching | awaitingReady | stoppingUnready =>
    obtain rfl := Option.some.inj h
    exact hs
  | _ => cases h

/-- An operation goes on to the kind of answer that its caller expects. -/
theorem Move.serves (hm : Move now c p ms c' p') (hl : p ≠ .looking)
    (hsettings : p.settingsAfter c.settings = settings) (hp : p.Serves op settings) :
    p'.Serves op settings := by
  cases hm with
  | take | rest => exact (hl rfl).elim
  | finish => trivial
  | stayReady =>
    subst hp
    exact Operation.allows_ok rfl
  | activate | restart =>
    subst hp
    exact ⟨rfl, nofun⟩
  | reconfigure =>
    subst hp
    exact ⟨⟨_, rfl⟩, fun _ => rfl⟩
  | keepRunning =>
    subst hp
    exact Operation.allows_ok ⟨_, rfl⟩
  | stop =>
    subst hp
    rfl
  | yieldCaches =>
    subst hp
    exact fun b => ⟨b, rfl⟩
  | enter trigger answer => exact ⟨hp.1, hsettings, fun h => ⟨hp.2 h, rfl⟩⟩
  | stopDependent ht =>
    refine ⟨hp.answers, hp.settings, fun h => ?_⟩
    rw [(hp.spares h).1] at ht
    cases ht
  | dependentStopped => exact ⟨hp.answers, hp.settings, hp.spares⟩
  | succeed => exact ⟨hp, Operation.allows_ok hp.answers⟩
  | fail => exact ⟨hp, Operation.allows_error _ _⟩
  | leave | dependentResumed => exact hp.2
  | operationPanics => exact Operation.allows_error _ _
  | keepCache wasActive | cacheRemoved wasActive => exact Operation.allows_ok (hp wasActive)
  | gone p => exact serves_next p hp
  | drop p => exact (serves_stage p _ _).mpr hp
  | stopped p => exact serves_next p ((serves_stage p _ _).mp hp)
  | callFails f hs =>
    rcases hs with rfl | rfl | rfl <;> exact hp
  | sequencePanics payload hs => exact serves_guarding hs hp
  | _ => exact hp

/-! ## Calls -/

/-- Where an operation waits, and the call whose reply it waits for. -/
inductive Asks (c : Coordinator) : Stage → Call → Prop
  | stopDependent {s : Sequence} {d : DependentId} (ht : s.trigger.clearsCaches = true)
    (hd : c.dependent = some d) : Asks c (.stoppingDependent s) (.prepareDependent d)
  | stopServer (p : Purpose) (id : ServerId) (since : Nat) : Asks c (p.stage id since) (.stopServer id)
  | clearCaches (s : Sequence) : Asks c (.clearing s) (.clearCaches s.settings.environment)
  | prepareEnvironment (s : Sequence) :
    Asks c (.preparing s) (.prepareEnvironment s.settings.environment)
  | launch (s : Sequence) (spec : LaunchSpec) : Asks c (.launching s) (.launch spec)
  | awaitReady (s : Sequence) (id : ServerId) :
    Asks c (.awaitingReady s id) (.awaitReady id s.settings.server.readyTimeout)
  | stopUnready (s : Sequence) (id : ServerId) (reason : Fault) :
    Asks c (.stoppingUnready s id reason) (.stopServer id)
  | resumeDependent {s : Sequence} {d : DependentId} (result : Except Fault Answer)
    (hd : s.dependent = some d) : Asks c (.resumingDependent s result) (.finishDependent d)
  | removeCache (wasActive : Bool) (path : Path) :
    Asks c (.removingCache wasActive) (.removeDirectory path)

/-- An operation that is running, with nothing behind it in the queue. -/
structure Alone (op : Operation) (settings : Settings) (dependent : Option DependentId) (p : Point)
    (c : Coordinator) : Prop where
  running : c.queue.running.isSome
  waiting : c.queue.waiting = []
  accepting : c.queue.closed = false
  serves : p.Serves op settings
  settings : p.settingsAfter c.settings = settings
  dependent : c.dependent = dependent

/-- Nothing is running or waiting, and operations are accepted. -/
structure Resting (c : Coordinator) : Prop where
  stage : c.stage = none
  running : c.queue.running = none
  waiting : c.queue.waiting = []
  accepting : c.queue.closed = false

variable {dependent : Option DependentId} {k : Nat}

/-- How a turn ends in which an operation was alone; it has at most `k` left to do. -/
inductive Halts (op : Operation) (settings : Settings) (dependent : Option DependentId) (k : Nat)
    (os : List Output) (c : Coordinator) : Prop
  | rests (result : Except Fault Answer) (hc : c.Resting) (hsettings : c.settings = settings)
      (hdependent : c.dependent = dependent) (hcall : os.findSome? Output.call? = none)
      (hresult : os.findSome? Output.result? = some result) (hallows : op.Allows result)
  | asks (stage : Stage) (call : Call) (hc : c.Alone op settings dependent (.waiting stage))
      (hstage : c.stage = some stage) (hcall : os.findSome? Output.call? = some call)
      (hasks : c.Asks stage call) (htoil : stage.toil ≤ k)

theorem find_shift (old : Phase) (c : Coordinator) :
    ((shift old c).map Moment.output).findSome? Output.call? = none ∧
      ((shift old c).map Moment.output).findSome? Output.result? = none := by
  unfold shift
  split <;> exact ⟨rfl, rfl⟩

theorem isMoving_next (p : Purpose) : p.next.isMoving = true := by
  cases p <;> rfl

/-- A move of a running operation ends it, or makes a call and waits, or is followed by another one. -/
inductive Move.Goes (p : Point) (os : List Output) (c c' : Coordinator) : Point → Prop
  | ends (ticket : Ticket) (result : Except Fault Answer) (hp : p = .finish result) (hc : c' = c.released)
      (hos : os = [.finished ticket result]) : Goes p os c c' .looking
  | asks (stage : Stage) (call : Call) (hstage : c'.stage = some stage)
      (hcall : os.findSome? Output.call? = some call) (hasks : c'.Asks stage call) :
    Goes p os c c' (.waiting stage)
  | moves {p' : Point} (hp : p'.isMoving = true) (hl : p' ≠ .looking)
      (hcall : os.findSome? Output.call? = none) (hresult : os.findSome? Output.result? = none) :
    Goes p os c c' p'

theorem Move.goes (hm : Move now c p ms c' p') (hl : p ≠ .looking) :
    Move.Goes p (ms.map Moment.output) c c' p' := by
  cases hm with
  | take | rest => exact (hl rfl).elim
  | finish result hr => exact .ends _ result rfl rfl rfl
  | stopDependent ht hd => exact .asks _ _ rfl rfl (.stopDependent ht hd)
  | drop p hh => exact .asks _ _ rfl rfl (.stopServer p _ _)
  | clearCaches hs => exact .asks _ _ rfl rfl (.clearCaches _)
  | prepareEnvironment hs => exact .asks _ _ rfl rfl (.prepareEnvironment _)
  | launch s env => exact .asks _ _ rfl rfl (.launch s _)
  | awaitReady s id => exact .asks _ _ rfl rfl (.awaitReady s id)
  | stopUnready s id reason => exact .asks _ _ rfl rfl (.stopUnready s id reason)
  | resumeDependent result hr hd => exact .asks _ _ rfl rfl (.resumeDependent result hd)
  | removeCache wasActive hp => exact .asks _ _ rfl rfl (.removeCache wasActive _)
  | gone p => exact .moves (isMoving_next p) p.next_ne_looking rfl rfl
  | stopped p => exact .moves (isMoving_next p) p.next_ne_looking rfl rfl
  | enter | close => exact .moves rfl nofun (find_shift _ _).1 (find_shift _ _).2
  | succeed | fail =>
    refine .moves rfl nofun ?_ ?_
    · rw [List.map_append, List.findSome?_append, (find_shift _ _).1]
      rfl
    · rw [List.map_append, List.findSome?_append, (find_shift _ _).2]
      rfl
  | _ => exact .moves rfl nofun rfl rfl

theorem Alone.move (ha : c.Alone op settings dependent p) (hm : Move now c p ms c' p')
    (hl : p ≠ .looking) (hl' : p' ≠ .looking) : c'.Alone op settings dependent p' := by
  have hqueue : c'.queue = c.queue := by
    rcases hm.queue with ⟨-, hp, -⟩ | ⟨hp, -⟩ | ⟨-, -, -, hp, -⟩ | ⟨-, -, hqueue, -⟩
    · exact (hl hp).elim
    · exact (hl hp).elim
    · exact (hl' hp).elim
    · exact hqueue
  obtain ⟨hr, hw, hc, hs, hsettings, hdependent⟩ := ha
  exact ⟨hqueue ▸ hr, hqueue ▸ hw, hqueue ▸ hc, hm.serves hl hsettings hs, (hm.settings hl).trans hsettings,
    hm.dependent.trans hdependent⟩

theorem Alone.released {result : Except Fault Answer}
    (ha : c.Alone op settings dependent (.finish result)) : c.released.Resting where
  stage := rfl
  running := Dispatcher.running_release _
  waiting := (Dispatcher.waiting_release _).trans ha.waiting
  accepting := (Dispatcher.closed_release _).trans ha.accepting

/-- Nothing is taken from a queue in which nothing waits. -/
theorem Trail.of_looking (h : Trail now c .looking ms c' c'.point) (hw : c.queue.waiting = []) :
    c' = c ∧ ms = [] := by
  obtain ⟨c₁, p₁, ms₁, ms₂, hm, ht, rfl⟩ := h.begins rfl
  cases hm with
  | take hq => cases (Dispatcher.start?_of_waiting_nil hw).symm.trans hq
  | rest hq =>
    obtain ⟨rfl, rfl⟩ := ht.of_still rfl
    exact ⟨rfl, rfl⟩

theorem Alone.toilAt (ha : c.Alone op settings dependent p) : c.toilAt p = p.toil := by
  simp [Coordinator.toilAt, queueToil, ha.waiting]

/-- An operation goes on until it waits or has ended. -/
theorem Alone.halts (h : Trail now c p ms c' p') (hp' : p' = c'.point) (hp : p.isMoving = true)
    (hl : p ≠ .looking) (ha : c.Alone op settings dependent p) :
    Halts op settings dependent p.toil (ms.map Moment.output) c' := by
  induction h with
  | refl c p =>
    rw [hp', isMoving_point] at hp
    cases hp
  | @move c c₁ c' p p₁ p' ms₁ ms₂ hm ht ih =>
    have hgoes := hm.goes hl
    have htoil := hm.toil_le
    rw [List.map_append]
    cases hgoes with
    | ends ticket result hfinish hc hos =>
      subst hfinish hc hp'
      obtain ⟨rfl, rfl⟩ := ht.of_looking ha.released.waiting
      rw [hos]
      exact .rests result ha.released ha.settings ha.dependent rfl rfl ha.serves
    | asks stage call hstage hcall hasks =>
      have ha₁ := ha.move hm hl (by simp)
      obtain ⟨rfl, rfl⟩ := ht.of_still rfl
      rw [ha.toilAt, ha₁.toilAt] at htoil
      refine .asks stage call ha₁ hstage ?_ hasks (Nat.le_trans (Nat.le_add_right _ _) htoil)
      rw [List.findSome?_append, hcall]
      rfl
    | moves hp₁ hl₁ hcall hresult =>
      have ha₁ := ha.move hm hl hl₁
      rw [ha.toilAt, ha₁.toilAt] at htoil
      cases ih hp' hp₁ hl₁ ha₁ with
      | rests result hc hsettings hdependent hcall' hresult' hallows =>
        refine .rests result hc hsettings hdependent ?_ ?_ hallows
        · rw [List.findSome?_append, hcall, hcall']
          rfl
        · rw [List.findSome?_append, hresult, hresult']
          rfl
      | asks stage call hc hstage hcall' hasks htoil' =>
        refine .asks stage call hc hstage ?_ hasks (by omega)
        rw [List.findSome?_append, hcall, hcall']
        rfl

theorem toil_le (stage : Stage) : stage.toil ≤ errandToil + 8 := by
  cases stage with
  | stoppingOld s | clearing s | preparing s | launching s | awaitingReady s | stoppingUnready s =>
    have hs := Sequence.toil_le s
    simp only [Stage.toil]
    omega
  | _ => simp [Stage.toil, errandToil]

theorem Halts.bounded {os : List Output} (h : Halts op settings dependent k os c) :
    Halts op settings dependent (errandToil + 8) os c := by
  cases h with
  | rests result hc hsettings hdependent hcall hresult hallows =>
    exact .rests result hc hsettings hdependent hcall hresult hallows
  | asks stage call hc hstage hcall hasks htoil =>
    exact .asks stage call hc hstage hcall hasks (toil_le stage)

/-! ## Turns -/

theorem outputs_of_moments {t : Turn} {ms : List Moment} (h : t.moments = ([] : List Moment) ++ ms) :
    t.outputs = ms.map Moment.output := by
  rw [Turn.outputs, h, List.nil_append]

/-- An operation that comes to a coordinator at rest is carried out as far as it goes. -/
theorem Resting.wake (h : c.Resting) (op : Operation) (now : Nat) (c₁ : Coordinator)
    (hqueue : c₁.queue = (c.submit op).2.queue) (hstage : c₁.stage = c.stage) :
    Halts op (op.settingsAfter c₁.settings) c₁.dependent op.toil (c₁.wake now).outputs
      (c₁.wake now).state := by
  have hq : c₁.queue = { c.queue with
      waiting := [(c.queue.accepted, op)], accepted := c.queue.accepted + 1
      pending := c.queue.pending + 1 } := by
    rw [hqueue]
    simp [submit, Dispatcher.submit, h.accepting, h.waiting]
  have hrunning : c₁.queue.running = none := by
    rw [hq]
    exact h.running
  have hlooking : c₁.halt = .looking := by simp only [halt, hstage, h.stage]
  have hends : Turn.Ends ⟨now, c₁, []⟩ c₁.halt (c₁.wake now) :=
    Turn.proceed_ends _ _ (Nat.le_refl _)
  rw [hlooking] at hends
  obtain ⟨-, ms, hms, ht⟩ := hends ⟨hstage.trans h.stage, hrunning⟩
  obtain ⟨c₂, p₂, ms₁, ms₂, hm, hrest, rfl⟩ := ht.begins rfl
  rw [outputs_of_moments hms, List.map_append]
  cases hm with
  | rest hstart => simp [hq, Dispatcher.start?, h.running] at hstart
  | @take op' queue hstart =>
    have hstarted : op' = op ∧ queue.waiting = [] := by
      have hwaiting := Dispatcher.waiting_start? hstart
      rw [hq] at hwaiting
      simp only [List.cons.injEq, Prod.mk.injEq] at hwaiting
      exact ⟨hwaiting.1.2.symm, hwaiting.2.symm⟩
    obtain ⟨rfl, hwaiting⟩ := hstarted
    have halone : { c₁ with queue }.Alone op' (op'.settingsAfter c₁.settings) c₁.dependent (.begun op') := by
      refine ⟨Dispatcher.running_start? hstart, hwaiting, ?_, rfl, rfl, rfl⟩
      refine (Dispatcher.closed_start? hstart).trans ?_
      rw [hq]
      exact h.accepting
    have hhalts := halone.halts hrest rfl rfl (by simp)
    cases hhalts with
    | rests result hc hsettings hdependent hcall hresult hallows =>
      exact .rests result hc hsettings hdependent hcall hresult hallows
    | asks stage call hc hstage hcall hasks htoil => exact .asks stage call hc hstage hcall hasks htoil

/-- The operation that waits there goes on with the reply. -/
inductive GoesOn : Stage → Reply → Prop
  | accepted {stage : Stage} {r : Reply} (hr : stage.accepts r = true) : GoesOn stage r
  | overdue (s : Sequence) (id : ServerId) : GoesOn (.awaitingReady s id) .overdue

theorem GoesOn.settles {stage : Stage} {r : Reply} (h : GoesOn stage r) (t : Turn) :
    t.Settles (.answered stage r) (t.resume stage r) := by
  cases h with
  | accepted hr => exact Turn.resume_settles t hr
  | overdue s id => exact .silent (.overdue s id) (.last (.stopUnready s id _) rfl rfl)

/-- A reply brings an operation nearer to its end. -/
theorem Alone.reply {stage : Stage} {r : Reply} (hstage : c.stage = some stage)
    (ha : c.Alone op settings dependent (.waiting stage)) (hr : GoesOn stage r) (now : Nat) :
    Halts op settings dependent (stage.toil - 1) (c.reply now r).outputs (c.reply now r).state := by
  have hends : Turn.Ends ⟨now, c, []⟩ (.answered stage r) (c.reply now r) := by
    simp only [Coordinator.reply, hstage]
    exact (hr.settles _).ends (Turn.proceed_ends _ _ (Nat.le_refl _))
  obtain ⟨-, ms, hms, ht⟩ := hends ha.running
  rw [outputs_of_moments hms]
  have halone : c.Alone op settings dependent (.answered stage r) :=
    ⟨ha.running, ha.waiting, ha.accepting, ha.serves, ha.settings, ha.dependent⟩
  exact halone.halts ht rfl rfl (by simp)

theorem Resting.informed (h : c.Resting) (ids : List ServerId) : { c with down := ids }.Resting :=
  ⟨h.stage, h.running, h.waiting, h.accepting⟩

theorem Alone.informed (h : c.Alone op settings dependent p) (ids : List ServerId) :
    { c with down := ids }.Alone op settings dependent p :=
  ⟨h.running, h.waiting, h.accepting, h.serves, h.settings, h.dependent⟩

end

end Coordinator

end Supervisor
