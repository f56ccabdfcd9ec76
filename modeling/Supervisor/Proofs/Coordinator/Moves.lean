import Supervisor.Proofs.Coordinator.Story
/-!
# Moves of a coordinator

A turn is a series of moves. A move leads from one point of an operation to the next one: it changes
the coordinator and makes a few outputs. What holds all along the runs of coordinators is shown here
once for all, from what each single move preserves.
-/
namespace Supervisor

/-- How a stop has ended, if this is the reply to one. -/
def Reply.stopped? : Reply → Option (Option Fault)
  | .done => some none
  | .fault f => some (some f)
  | _ => none

/-- The sequence whose failure a panic there is. -/
def Stage.guarding? : Stage → Option Sequence
  | .stoppingOld s _ _ | .clearing s | .preparing s | .launching s | .awaitingReady s _
  | .stoppingUnready s _ _ => some s
  | _ => none

namespace Coordinator

/-- What the current server has to make room for. -/
inductive Purpose
  | sequence (s : Sequence)
  | shutdown
  | yielding (wasActive : Bool)

/-- Where a turn can be. -/
inductive Point
  /-- No operation is running. -/
  | idle
  /-- An operation has ended; is there another one? -/
  | looking
  | begun (op : Operation)
  | entering (trigger : Trigger) (answer : Answer)
  /-- In a start sequence whose dependent has not been asked yet. -/
  | entered (s : Sequence)
  | dropping (p : Purpose)
  | clear (s : Sequence)
  | prepare (s : Sequence)
  | launch (s : Sequence) (env : Table String)
  | awaitReady (s : Sequence) (id : ServerId)
  | stopUnready (s : Sequence) (id : ServerId) (reason : Fault)
  | succeed (s : Sequence) (id : ServerId)
  | fail (s : Sequence) (f : Fault)
  | leave (s : Sequence) (result : Except Fault Answer)
  | clearOwnCache (wasActive : Bool)
  /-- No server is left. -/
  | close (result : Except Fault Answer)
  | finish (result : Except Fault Answer)
  | waiting (stage : Stage)
  /-- The reply that was waited for has come. -/
  | answered (stage : Stage) (r : Reply)

/-- Where the operation waits until the server has stopped. -/
def Purpose.stage : Purpose → ServerId → Nat → Stage
  | .sequence s => .stoppingOld s
  | .shutdown => .shuttingDown
  | .yielding wasActive => .yielding wasActive

/-- Where it goes on when the server is out of the way. -/
def Purpose.next : Purpose → Point
  | .sequence s => .clear s
  | .shutdown => .close (.ok .done)
  | .yielding wasActive => .clearOwnCache wasActive

/-- Where a coordinator is between two turns. -/
def point (c : Coordinator) : Point :=
  match c.stage with
  | some stage => .waiting stage
  | none => .idle

/-- Where a coordinator is when an operation has gone as far as it can. -/
def halt (c : Coordinator) : Point :=
  match c.stage with
  | some stage => .waiting stage
  | none => .looking

def waitAt (c : Coordinator) (stage : Stage) : Coordinator := { c with stage := some stage }

def atPhase (c : Coordinator) (p : Phase) : Coordinator :=
  { c with phase := p, version := c.version + 1 }

/-- What a change of the phase brings; `c` is the coordinator after it. -/
def shift (old : Phase) (c : Coordinator) : List Moment :=
  ⟨.phaseSet c.phase, c⟩ ::
    if old = c.phase then [] else [⟨.notice (Turn.phaseNotice old c.phase), c⟩]

def openingPhase (c : Coordinator) : Phase := if c.phase = .ready then .restarting else .starting

def entry (c : Coordinator) (trigger : Trigger) : Coordinator :=
  { c with trigger := some trigger }.atPhase c.openingPhase

def succeeded (c : Coordinator) (id : ServerId) : Coordinator :=
  { c with
    handle := some id, lastError := none, restartCount := c.restartCount + 1
    trigger := none }.atPhase .ready

def failed (c : Coordinator) (f : Fault) : Coordinator :=
  { c with lastError := some f.summary, trigger := none }.atPhase .failed

def released (c : Coordinator) : Coordinator :=
  { c with stage := none, queue := c.queue.release }

def stopNotice (id : ServerId) (elapsed : Nat) : Option Fault → Notice
  | none => Turn.stoppedNotice id elapsed
  | some f => Turn.uncleanStopNotice id f elapsed

/-- What waiting and queueing do not touch. -/
structure Face where
  phase : Phase
  handle : Option ServerId
  trigger : Option Trigger
  lastError : Option String
  restartCount : Nat

def face (c : Coordinator) : Face := ⟨c.phase, c.handle, c.trigger, c.lastError, c.restartCount⟩

open Turn in
/-- A move at this time of this coordinator: from a point, by outputs, to a coordinator at a point. -/
inductive Move (now : Nat) (c : Coordinator) : Point → List Moment → Coordinator → Point → Prop
  | take {op : Operation} {queue : Dispatcher Operation} (hq : c.queue.start? = some (op, queue)) :
    Move now c .looking [⟨.started (queue.running.getD 0) op, { c with queue }⟩] { c with queue }
      (.begun op)
  | rest (hq : c.queue.start? = none) : Move now c .looking [] c .idle
  | stayReady (hp : c.phase = .ready) (hl : c.hasLiveServer = true) :
    Move now c (.begun .activate) [] c (.finish (.ok .done))
  | activate (hc : ¬ (c.phase = .ready ∧ c.hasLiveServer = true)) :
    Move now c (.begun .activate) [] c (.entering .activate .done)
  | restart (t : Trigger) : Move now c (.begun (.restart t)) [] c (.entering t .done)
  | keepRunning {s : Settings} (hs : c.settings.requiresRestart s = false ∨ c.phase = .uninitialized) :
    Move now c (.begun (.configure s)) [] { c with settings := s } (.finish (.ok (.flag false)))
  | reconfigure {s : Settings} (hs : c.settings.requiresRestart s = true)
      (hp : c.phase ≠ .uninitialized) :
    Move now c (.begun (.configure s)) [] { c with settings := s }
      (.entering .configurationChanged (.flag true))
  | stop : Move now c (.begun .stop) [] c (.dropping .shutdown)
  | yieldCaches :
    Move now c (.begun .yieldCaches) [] c (.dropping (.yielding (c.phase != .uninitialized)))
  | enter (trigger : Trigger) (answer : Answer) :
    Move now c (.entering trigger answer) (shift c.phase (c.entry trigger)) (c.entry trigger)
      (.entered { trigger, answer, settings := c.settings, startedAt := now })
  | stopDependent {s : Sequence} {d : DependentId} (ht : s.trigger.clearsCaches = true)
      (hd : c.dependent = some d) :
    Move now c (.entered s)
      [⟨.call (.prepareDependent d), c.waitAt (.stoppingDependent { s with dependent := some d })⟩]
      (c.waitAt (.stoppingDependent { s with dependent := some d }))
      (.waiting (.stoppingDependent { s with dependent := some d }))
  | spareDependent {s : Sequence} (hd : s.trigger.clearsCaches = false ∨ c.dependent = none) :
    Move now c (.entered s) [] c (.dropping (.sequence s))
  | gone (p : Purpose) (hh : c.handle = none) : Move now c (.dropping p) [] c p.next
  | drop {id : ServerId} (p : Purpose) (hh : c.handle = some id) :
    Move now c (.dropping p)
      [⟨.notice (stoppingNotice id), { c with handle := none }⟩,
        ⟨.call (.stopServer id), { c with handle := none }.waitAt (p.stage id now)⟩]
      ({ c with handle := none }.waitAt (p.stage id now)) (.waiting (p.stage id now))
  | clearCaches {s : Sequence}
      (hs : (s.trigger.clearsCaches && s.settings.environment.enabled) = true) :
    Move now c (.clear s)
      [⟨.notice { kind := .clearingCaches, message := "Clearing caches with " ++ c.toolName }, c⟩,
        ⟨.call (.clearCaches s.settings.environment), c.waitAt (.clearing s)⟩]
      (c.waitAt (.clearing s)) (.waiting (.clearing s))
  | keepCaches {s : Sequence}
      (hs : (s.trigger.clearsCaches && s.settings.environment.enabled) = false) :
    Move now c (.clear s) [] c (.prepare s)
  | prepareEnvironment {s : Sequence} (hs : s.settings.environment.enabled = true) :
    Move now c (.prepare s)
      [⟨.notice { kind := .preparingEnvironment,
                  message := "Preparing environment (" ++ s.settings.environment.space ++ ")" }, c⟩,
        ⟨.call (.prepareEnvironment s.settings.environment), c.waitAt (.preparing s)⟩]
      (c.waitAt (.preparing s)) (.waiting (.preparing s))
  | keepEnvironment {s : Sequence} (hs : s.settings.environment.enabled = false) :
    Move now c (.prepare s) [] c (.launch s [])
  | launch (s : Sequence) (env : Table String) :
    Move now c (.launch s env)
      [⟨.notice { kind := .starting,
                  message := "Starting language server: " ++ s.settings.server.command }, c⟩,
        ⟨.call (.launch ⟨s.settings.server, env⟩), c.waitAt (.launching s)⟩]
      (c.waitAt (.launching s)) (.waiting (.launching s))
  | awaitReady (s : Sequence) (id : ServerId) :
    Move now c (.awaitReady s id)
      [⟨.notice { kind := .waitingReady, message := "Waiting for language server", server := some id }, c⟩,
        ⟨.call (.awaitReady id s.settings.server.readyTimeout), c.waitAt (.awaitingReady s id)⟩]
      (c.waitAt (.awaitingReady s id)) (.waiting (.awaitingReady s id))
  | stopUnready (s : Sequence) (id : ServerId) (reason : Fault) :
    Move now c (.stopUnready s id reason)
      [⟨.call (.stopServer id), c.waitAt (.stoppingUnready s id reason)⟩]
      (c.waitAt (.stoppingUnready s id reason)) (.waiting (.stoppingUnready s id reason))
  | succeed (s : Sequence) (id : ServerId) :
    Move now c (.succeed s id)
      (shift c.phase (c.succeeded id) ++
        [⟨.notice (readyNotice id (now - s.startedAt)), c.succeeded id⟩])
      (c.succeeded id) (.leave s (.ok s.answer))
  | fail (s : Sequence) (f : Fault) :
    Move now c (.fail s f)
      (shift c.phase (c.failed f) ++ [⟨.notice (failedNotice f), c.failed f⟩])
      (c.failed f) (.leave s (.error f))
  | resumeDependent {s : Sequence} {d : DependentId} (result : Except Fault Answer)
      (hr : s.resume = true) (hd : s.dependent = some d) :
    Move now c (.leave s result)
      [⟨.call (.finishDependent d), c.waitAt (.resumingDependent s result)⟩]
      (c.waitAt (.resumingDependent s result)) (.waiting (.resumingDependent s result))
  | leave {s : Sequence} (result : Except Fault Answer)
      (hs : s.resume = false ∨ s.dependent = none) :
    Move now c (.leave s result) [] c (.finish result)
  | removeCache {p : Path} (wasActive : Bool) (hp : c.settings.environment.cacheDirectory = some p) :
    Move now c (.clearOwnCache wasActive)
      [⟨.call (.removeDirectory p), c.waitAt (.removingCache wasActive)⟩]
      (c.waitAt (.removingCache wasActive)) (.waiting (.removingCache wasActive))
  | keepCache (wasActive : Bool) (hp : c.settings.environment.cacheDirectory = none) :
    Move now c (.clearOwnCache wasActive) [] c (.close (.ok (.flag wasActive)))
  | close (result : Except Fault Answer) :
    Move now c (.close result) (shift c.phase (c.atPhase .uninitialized)) (c.atPhase .uninitialized)
      (.finish result)
  | finish {ticket : Ticket} (result : Except Fault Answer) (hr : c.queue.running = some ticket) :
    Move now c (.finish result) [⟨.finished ticket result, c.released⟩] c.released .looking
  | dependentStopped (s : Sequence) (b : Bool) :
    Move now c (.answered (.stoppingDependent s) (.flag b)) [] c
      (.dropping (.sequence { s with resume := b }))
  | dependentFailed (s : Sequence) (f : Fault) :
    Move now c (.answered (.stoppingDependent s) (.fault f)) [] c (.dropping (.sequence s))
  | stopped {r : Reply} {o : Option Fault} (p : Purpose) (id : ServerId) (since : Nat)
      (hr : r.stopped? = some o) :
    Move now c (.answered (p.stage id since) r) [⟨.notice (stopNotice id (now - since) o), c⟩] c p.next
  | cleared (s : Sequence) : Move now c (.answered (.clearing s) .done) [] c (.prepare s)
  | prepared (s : Sequence) (env : Table String) :
    Move now c (.answered (.preparing s) (.environment env)) [] c (.launch s env)
  | launched (s : Sequence) (id : ServerId) :
    Move now c (.answered (.launching s) (.server id)) [] c (.awaitReady s id)
  | gotReady (s : Sequence) (id : ServerId) :
    Move now c (.answered (.awaitingReady s id) .done) [] c (.succeed s id)
  | notReady (s : Sequence) (id : ServerId) (f : Fault) :
    Move now c (.answered (.awaitingReady s id) (.fault f)) [] c (.stopUnready s id f)
  | overdue (s : Sequence) (id : ServerId) :
    Move now c (.answered (.awaitingReady s id) .overdue) [] c
      (.stopUnready s id (.readyTimeout (s.settings.server.readyTimeout.getD ⟨0⟩)))
  | callFails {stage : Stage} {s : Sequence} (f : Fault)
      (hs : stage = .clearing s ∨ stage = .preparing s ∨ stage = .launching s) :
    Move now c (.answered stage (.fault f)) [] c (.fail s f)
  | unreadyStopped {r : Reply} {o : Option Fault} (s : Sequence) (id : ServerId) (reason : Fault)
      (hr : r.stopped? = some o) :
    Move now c (.answered (.stoppingUnready s id reason) r) [] c (.fail s reason)
  | dependentResumed {r : Reply} {o : Option Fault} (s : Sequence) (result : Except Fault Answer)
      (hr : r.stopped? = some o) :
    Move now c (.answered (.resumingDependent s result) r) [] c (.finish result)
  | cacheRemoved (wasActive : Bool) :
    Move now c (.answered (.removingCache wasActive) .done) [] c (.close (.ok (.flag wasActive)))
  | sequencePanics {stage : Stage} {s : Sequence} (payload : String) (hs : stage.guarding? = some s) :
    Move now c (.answered stage (.panicked payload)) [] c (.fail s (.operationPanicked payload))
  | operationPanics {stage : Stage} (payload : String) (hs : stage.guarding? = none) :
    Move now c (.answered stage (.panicked payload)) [] c
      (.finish (.error (.operationPanicked payload)))

/-! ## Series of moves -/

inductive Trail (now : Nat) : Coordinator → Point → List Moment → Coordinator → Point → Prop
  | refl (c : Coordinator) (p : Point) : Trail now c p [] c p
  | move {c c' c'' : Coordinator} {p p' p'' : Point} {ms ms' : List Moment}
      (hm : Move now c p ms c' p') (ht : Trail now c' p' ms' c'' p'') :
      Trail now c p (ms ++ ms') c'' p''

section
variable {now : Nat} {c c' c'' : Coordinator} {p p' p'' : Point} {ms ms' : List Moment}

theorem Trail.trans (h : Trail now c p ms c' p') (h' : Trail now c' p' ms' c'' p'') :
    Trail now c p (ms ++ ms') c'' p'' := by
  induction h with
  | refl => exact h'
  | move hm _ ih =>
    rw [List.append_assoc]
    exact .move hm (ih h')

/-- Is a turn not over there? -/
def Point.isMoving : Point → Bool
  | .idle | .waiting _ => false
  | _ => true

theorem isMoving_point (c : Coordinator) : c.point.isMoving = false := by
  cases hs : c.stage <;> simp [point, hs, Point.isMoving]

/-- Who looks into the queue finds what holds between turns. -/
theorem at_halt {P : Point → Prop} (h : P c.point) (hidle : P .idle → P .looking) : P c.halt := by
  cases hs : c.stage with
  | some stage =>
    simp only [point, hs] at h
    simp only [halt, hs]
    exact h
  | none =>
    simp only [point, hs] at h
    simp only [halt, hs]
    exact hidle h

theorem Trail.begins (h : Trail now c p ms c' c'.point) (hp : p.isMoving = true) :
    ∃ c₁ p₁ ms₁ ms₂, Move now c p ms₁ c₁ p₁ ∧ Trail now c₁ p₁ ms₂ c' c'.point ∧ ms = ms₁ ++ ms₂ := by
  generalize hp' : c'.point = p' at h
  cases h with
  | refl =>
    subst hp'
    simp [isMoving_point] at hp
  | move hm ht => exact ⟨_, _, _, _, hm, ht, rfl⟩

/-- Between turns an operation waits as long as it is running, and it is running in a turn. -/
def Point.Sound : Point → Coordinator → Prop
  | .idle, c | .looking, c => c.stage = none ∧ c.queue.running = none
  | .waiting stage, c => c.stage = some stage ∧ c.queue.running.isSome
  | _, c => c.queue.running.isSome

theorem Point.Sound.congr (hs : p.Sound c) (hstage : c'.stage = c.stage)
    (hr : c'.queue.running = c.queue.running) : p.Sound c' := by
  cases p <;> simp_all [Point.Sound]

theorem Purpose.sound_next {p : Purpose} (hc : c.queue.running.isSome) : p.next.Sound c := by
  cases p <;> exact hc

theorem Move.sound (hm : Move now c p ms c' p') (hs : p.Sound c) : p'.Sound c' := by
  cases hm with
  | take hq => exact Dispatcher.running_start? hq
  | gone p | stopped p => exact Purpose.sound_next hs
  | finish => exact ⟨rfl, Dispatcher.running_release _⟩
  | stopDependent | drop | clearCaches | prepareEnvironment | launch | awaitReady | stopUnready
  | resumeDependent | removeCache => exact ⟨rfl, hs⟩
  | _ => exact hs

theorem Trail.sound (h : Trail now c p ms c' p') (hs : p.Sound c) : p'.Sound c' := by
  induction h with
  | refl => exact hs
  | move hm _ ih => exact ih (hm.sound hs)

theorem Move.waiting_le (hm : Move now c p ms c' p') :
    c'.queue.waiting.length ≤ c.queue.waiting.length := by
  cases hm with
  | take hq =>
    have hl := Dispatcher.waiting_start? hq
    simp only [hl, List.length_cons]
    omega
  | finish => simp [released]
  | _ => exact Nat.le_refl _

theorem Trail.waiting_le (h : Trail now c p ms c' p') :
    c'.queue.waiting.length ≤ c.queue.waiting.length := by
  induction h with
  | refl => exact Nat.le_refl _
  | move hm _ ih => exact Nat.le_trans ih hm.waiting_le

end

namespace Turn

@[simp] theorem emit_moments (t : Turn) (o : Output) :
    (t.emit o).moments = t.moments ++ [⟨o, t.state⟩] := rfl
@[simp] theorem modify_moments (t : Turn) (f : Coordinator → Coordinator) :
    (t.modify f).moments = t.moments := rfl
@[simp] theorem publish_moments (t : Turn) (n : Notice) :
    (t.publish n).moments = t.moments ++ [⟨.notice n, t.state⟩] := rfl
@[simp] theorem ask_moments (t : Turn) (x : Call) (s : Stage) :
    (t.ask x s).moments = t.moments ++ [⟨.call x, t.state.waitAt s⟩] := rfl

@[simp] theorem setPhase_moments (t : Turn) (p : Phase) :
    (t.setPhase p).moments = t.moments ++ shift t.state.phase (t.state.atPhase p) := by
  by_cases hp : t.state.phase = p <;> simp [setPhase, shift, atPhase, hp]

/-- From a point of a turn, moves lead to where it halts. -/
def Settles (t : Turn) (p : Point) (t' : Turn) : Prop :=
  p.Sound t.state → t'.now = t.now ∧ ∃ ms, t'.moments = t.moments ++ ms ∧
    Trail t.now t.state p ms t'.state t'.state.halt

theorem Settles.refl (t : Turn) : t.Settles t.state.halt t := by
  intro _
  exact ⟨rfl, [], by simp, .refl _ _⟩

theorem Settles.move {t t₁ t' : Turn} {p p₁ : Point} {ms : List Moment} {c : Coordinator}
    (hm : Move t.now t.state p ms c p₁) (hnow : t₁.now = t.now) (hc : t₁.state = c)
    (hms : t₁.moments = t.moments ++ ms) (h : t₁.Settles p₁ t') : t.Settles p t' := by
  subst hc
  intro hs
  obtain ⟨hnow', ms', hms', ht⟩ := h (hm.sound hs)
  refine ⟨hnow'.trans hnow, ms ++ ms', ?_, .move hm (hnow ▸ ht)⟩
  rw [hms', hms, List.append_assoc]

/-- A move that changes nothing that others can see. -/
theorem Settles.silent {t t' : Turn} {p p₁ : Point} (hm : Move t.now t.state p [] t.state p₁)
    (h : t.Settles p₁ t') : t.Settles p t' :=
  .move hm rfl rfl (by simp) h

/-- The last move before the operation waits or ends. -/
theorem Settles.last {t t' : Turn} {p : Point} {ms : List Moment}
    (hm : Move t.now t.state p ms t'.state t'.state.halt) (hnow : t'.now = t.now)
    (hms : t'.moments = t.moments ++ ms) : t.Settles p t' :=
  .move hm hnow rfl hms (.refl t')

/-! ### Each function of the coordinator makes moves -/

theorem finish_settles (t : Turn) (r : Except Fault Answer) :
    t.Settles (.finish r) (t.finish r) := by
  intro hs
  obtain ⟨ticket, hr⟩ := Option.isSome_iff_exists.mp hs
  have he : t.finish r =
      (t.modify fun c => { c with stage := none, queue := c.queue.release }).emit
        (.finished ticket r) := by
    simp only [finish, hr]
  rw [he]
  exact Settles.last (.finish r hr) rfl rfl hs

theorem leave_settles (t : Turn) (s : Sequence) (r : Except Fault Answer) :
    t.Settles (.leave s r) (t.leave s r) := by
  simp only [leave]
  split
  · rename_i d hr hd
    exact .last (.resumeDependent r hr hd) rfl rfl
  · rename_i hn
    have hs : s.resume = false ∨ s.dependent = none := by
      cases hr : s.resume with
      | false => exact .inl rfl
      | true =>
        cases hd : s.dependent with
        | none => exact .inr rfl
        | some d => exact (hn d hr hd).elim
    exact .silent (.leave r hs) (finish_settles t r)

theorem succeed_settles (t : Turn) (s : Sequence) (id : ServerId) :
    t.Settles (.succeed s id) (t.succeed s id) := by
  refine .move (.succeed s id) ?_ ?_ ?_ (leave_settles _ s (.ok s.answer))
  · simp
  · simp [atPhase, succeeded]
  · simp [atPhase, succeeded]

theorem fail_settles (t : Turn) (s : Sequence) (f : Fault) :
    t.Settles (.fail s f) (t.fail s f) := by
  refine .move (.fail s f) ?_ ?_ ?_ (leave_settles _ s (.error f))
  · simp
  · simp [atPhase, failed]
  · simp [atPhase, failed]

theorem awaitReady_settles (t : Turn) (s : Sequence) (id : ServerId) :
    t.Settles (.awaitReady s id) (t.awaitReady s id) :=
  .last (.awaitReady s id) rfl (by simp [awaitReady])

theorem launch_settles (t : Turn) (s : Sequence) (env : Table String) :
    t.Settles (.launch s env) (t.launch s env) :=
  .last (.launch s env) rfl (by simp [launch])

theorem prepare_settles (t : Turn) (s : Sequence) : t.Settles (.prepare s) (t.prepare s) := by
  cases he : s.settings.environment.enabled with
  | true =>
    simp only [prepare, he, if_true]
    exact .last (.prepareEnvironment he) rfl (by simp)
  | false =>
    simp only [prepare, he, Bool.false_eq_true, if_false]
    exact .silent (.keepEnvironment he) (launch_settles t s [])

theorem clear_settles (t : Turn) (s : Sequence) : t.Settles (.clear s) (t.clear s) := by
  cases hs : s.trigger.clearsCaches && s.settings.environment.enabled with
  | true =>
    simp only [clear, hs, if_true]
    exact .last (.clearCaches hs) rfl (by simp)
  | false =>
    simp only [clear, hs, Bool.false_eq_true, if_false]
    exact .silent (.keepCaches hs) (prepare_settles t s)

theorem stopCurrent_settles (t : Turn) (p : Purpose) {next : Turn → Turn}
    (hn : ∀ t : Turn, t.Settles p.next (next t)) :
    t.Settles (.dropping p) (t.stopCurrent p.stage next) := by
  cases hh : t.state.handle with
  | none =>
    simp only [stopCurrent, hh]
    exact .silent (.gone p hh) (hn t)
  | some id =>
    simp only [stopCurrent, hh]
    exact .last (.drop p hh) rfl (by simp)

theorem stopOld_settles (t : Turn) (s : Sequence) :
    t.Settles (.dropping (.sequence s)) (t.stopOld s) :=
  stopCurrent_settles t (.sequence s) (clear_settles · s)

theorem close_settles (t : Turn) (r : Except Fault Answer) :
    t.Settles (.close r) ((t.setPhase .uninitialized).finish r) := by
  refine .move (.close r) ?_ ?_ ?_ (finish_settles _ r)
  · simp
  · simp [atPhase]
  · simp

theorem clearOwnCache_settles (t : Turn) (wasActive : Bool) :
    t.Settles (.clearOwnCache wasActive) (t.clearOwnCache wasActive) := by
  cases hp : t.state.settings.environment.cacheDirectory with
  | some p =>
    simp only [clearOwnCache, hp]
    exact .last (.removeCache wasActive hp) rfl (by simp)
  | none =>
    simp only [clearOwnCache, hp]
    exact .silent (.keepCache wasActive hp) (close_settles t (.ok (.flag wasActive)))

theorem entered_settles (t : Turn) (s : Sequence) :
    t.Settles (.entered s)
      (if s.trigger.clearsCaches then
        match t.state.dependent with
        | some d => t.ask (.prepareDependent d) (.stoppingDependent { s with dependent := some d })
        | none => t.stopOld s
      else t.stopOld s) := by
  cases ht : s.trigger.clearsCaches with
  | true =>
    simp only [if_true]
    cases hd : t.state.dependent with
    | some d => exact .last (.stopDependent ht hd) rfl (by simp)
    | none => exact .silent (.spareDependent (.inr hd)) (stopOld_settles t s)
  | false =>
    simp only [Bool.false_eq_true, if_false]
    exact .silent (.spareDependent (.inl ht)) (stopOld_settles t s)

theorem beginSequence_settles (t : Turn) (trigger : Trigger) (answer : Answer) :
    t.Settles (.entering trigger answer) (t.beginSequence trigger answer) := by
  refine .move (.enter trigger answer) ?_ ?_ ?_ (entered_settles _ _)
  · simp
  · simp [atPhase, entry, openingPhase]
  · simp [atPhase, entry, openingPhase]

theorem beginConfigure_settles (t : Turn) (s : Settings) :
    t.Settles (.begun (.configure s)) (t.beginConfigure s) := by
  cases hr : t.state.settings.requiresRestart s with
  | false =>
    simp only [beginConfigure, hr, Bool.not_false, Bool.true_or, if_true]
    refine .move (.keepRunning (.inl hr)) ?_ ?_ ?_ (finish_settles _ _)
    all_goals simp
  | true =>
    by_cases hp : t.state.phase = .uninitialized
    · simp only [beginConfigure, hr, hp, modify_state, decide_true, Bool.or_true, if_true]
      refine .move (.keepRunning (.inr hp)) ?_ ?_ ?_ (finish_settles _ _)
      all_goals simp
    · simp only [beginConfigure, hr, hp, modify_state, decide_false, Bool.not_true, Bool.or_false,
        Bool.false_eq_true, if_false]
      refine .move (.reconfigure hr hp) ?_ ?_ ?_ (beginSequence_settles _ _ _)
      all_goals simp

theorem begin_settles (t : Turn) (op : Operation) : t.Settles (.begun op) (t.begin op) := by
  cases op with
  | activate =>
    by_cases hc : t.state.phase = .ready ∧ t.state.hasLiveServer = true
    · have hr : (t.state.phase = .ready && t.state.hasLiveServer) = true := by simpa using hc
      simp only [begin, hr, if_true]
      exact .silent (.stayReady hc.1 hc.2) (finish_settles t _)
    · have hr : (t.state.phase = .ready && t.state.hasLiveServer) = false := by simpa using hc
      simp only [begin, hr, Bool.false_eq_true, if_false]
      exact .silent (.activate hc) (beginSequence_settles t _ _)
  | restart trigger => exact .silent (.restart trigger) (beginSequence_settles t _ _)
  | configure s => exact beginConfigure_settles t s
  | stop => exact .silent .stop (stopCurrent_settles t .shutdown (close_settles · _))
  | yieldCaches =>
    exact .silent .yieldCaches (stopCurrent_settles t (.yielding _) (clearOwnCache_settles · _))

theorem reportStop_settles (t : Turn) (p : Purpose) (id : ServerId) (since : Nat) {r : Reply}
    {o : Option Fault} (hr : r.stopped? = some o) {next : Turn → Turn}
    (hn : ∀ t : Turn, t.Settles p.next (next t)) :
    t.Settles (.answered (p.stage id since) r) (next (t.reportStop id since o)) := by
  refine .move (.stopped p id since hr) ?_ ?_ ?_ (hn _)
  all_goals cases o <;> simp [reportStop, stopNotice]

theorem resume_settles (t : Turn) {stage : Stage} {r : Reply} (hr : stage.accepts r = true) :
    t.Settles (.answered stage r) (t.resume stage r) := by
  cases stage with
  | stoppingDependent s =>
    cases r with
    | flag b => exact .silent (.dependentStopped s b) (stopOld_settles t _)
    | fault f => exact .silent (.dependentFailed s f) (stopOld_settles t s)
    | panicked payload => exact .silent (.operationPanics payload rfl) (finish_settles t _)
    | _ => simp [Stage.accepts] at hr
  | stoppingOld s id since =>
    cases r with
    | done => exact reportStop_settles t (.sequence s) id since rfl (clear_settles · s)
    | fault f => exact reportStop_settles t (.sequence s) id since rfl (clear_settles · s)
    | panicked payload => exact .silent (.sequencePanics payload rfl) (fail_settles t s _)
    | _ => simp [Stage.accepts] at hr
  | clearing s =>
    cases r with
    | done => exact .silent (.cleared s) (prepare_settles t s)
    | fault f => exact .silent (.callFails f (.inl rfl)) (fail_settles t s f)
    | panicked payload => exact .silent (.sequencePanics payload rfl) (fail_settles t s _)
    | _ => simp [Stage.accepts] at hr
  | preparing s =>
    cases r with
    | environment env => exact .silent (.prepared s env) (launch_settles t s env)
    | fault f => exact .silent (.callFails f (.inr (.inl rfl))) (fail_settles t s f)
    | panicked payload => exact .silent (.sequencePanics payload rfl) (fail_settles t s _)
    | _ => simp [Stage.accepts] at hr
  | launching s =>
    cases r with
    | server id => exact .silent (.launched s id) (awaitReady_settles t s id)
    | fault f => exact .silent (.callFails f (.inr (.inr rfl))) (fail_settles t s f)
    | panicked payload => exact .silent (.sequencePanics payload rfl) (fail_settles t s _)
    | _ => simp [Stage.accepts] at hr
  | awaitingReady s id =>
    cases r with
    | done => exact .silent (.gotReady s id) (succeed_settles t s id)
    | fault f => exact .silent (.notReady s id f) (.last (.stopUnready s id f) rfl rfl)
    | overdue => exact .silent (.overdue s id) (.last (.stopUnready s id _) rfl rfl)
    | panicked payload => exact .silent (.sequencePanics payload rfl) (fail_settles t s _)
    | _ => simp [Stage.accepts] at hr
  | stoppingUnready s id reason =>
    cases r with
    | done => exact .silent (.unreadyStopped s id reason rfl) (fail_settles t s reason)
    | fault f => exact .silent (.unreadyStopped s id reason rfl) (fail_settles t s reason)
    | panicked payload => exact .silent (.sequencePanics payload rfl) (fail_settles t s _)
    | _ => simp [Stage.accepts] at hr
  | resumingDependent s result =>
    cases r with
    | done => exact .silent (.dependentResumed s result rfl) (finish_settles t result)
    | fault f => exact .silent (.dependentResumed s result rfl) (finish_settles t result)
    | panicked payload => exact .silent (.operationPanics payload rfl) (finish_settles t _)
    | _ => simp [Stage.accepts] at hr
  | shuttingDown id since =>
    cases r with
    | done => exact reportStop_settles t .shutdown id since rfl (close_settles · _)
    | fault f => exact reportStop_settles t .shutdown id since rfl (close_settles · _)
    | panicked payload => exact .silent (.operationPanics payload rfl) (finish_settles t _)
    | _ => simp [Stage.accepts] at hr
  | yielding wasActive id since =>
    cases r with
    | done => exact reportStop_settles t (.yielding _) id since rfl (clearOwnCache_settles · wasActive)
    | fault f =>
      exact reportStop_settles t (.yielding _) id since rfl (clearOwnCache_settles · wasActive)
    | panicked payload => exact .silent (.operationPanics payload rfl) (finish_settles t _)
    | _ => simp [Stage.accepts] at hr
  | removingCache wasActive =>
    cases r with
    | done => exact .silent (.cacheRemoved wasActive) (close_settles t _)
    | _ => simp [Stage.accepts] at hr

theorem start_settles (t : Turn) {op : Operation} {queue : Dispatcher Operation}
    (hq : t.state.queue.start? = some (op, queue)) : t.Settles .looking (t.start op queue) := by
  refine .move (.take hq) ?_ ?_ ?_ (begin_settles _ op)
  all_goals rfl

/-- From a point of a turn, moves lead to its end. -/
def Ends (t : Turn) (p : Point) (t' : Turn) : Prop :=
  p.Sound t.state → t'.now = t.now ∧ ∃ ms, t'.moments = t.moments ++ ms ∧
    Trail t.now t.state p ms t'.state t'.state.point

theorem Settles.ends {t t₁ t₂ : Turn} {p : Point} (h : t.Settles p t₁)
    (h' : t₁.Ends t₁.state.halt t₂) : t.Ends p t₂ := by
  intro hs
  obtain ⟨hnow, ms, hms, ht⟩ := h hs
  obtain ⟨hnow', ms', hms', ht'⟩ := h' (ht.sound hs)
  refine ⟨hnow'.trans hnow, ms ++ ms', ?_, ht.trans (hnow ▸ ht')⟩
  rw [hms', hms, List.append_assoc]

/-- Where nothing can be started, the turn is over. -/
theorem ends_of_start?_none {t : Turn} (hq : t.state.queue.start? = none) :
    t.Ends t.state.halt t := by
  intro _
  refine ⟨rfl, [], by simp, ?_⟩
  cases hp : t.state.stage with
  | some stage =>
    simp only [halt, point, hp]
    exact .refl _ _
  | none =>
    simp only [halt, point, hp]
    exact .move (.rest hq) (.refl _ _)

theorem proceed_ends (n : Nat) (t : Turn) (hn : t.state.queue.waiting.length ≤ n) :
    t.Ends t.state.halt (t.proceed n) := by
  induction n generalizing t with
  | zero =>
    apply ends_of_start?_none
    have hw : t.state.queue.waiting = [] := List.eq_nil_of_length_eq_zero (Nat.le_zero.mp hn)
    exact Dispatcher.start?_of_waiting_nil hw
  | succ n ih =>
    simp only [proceed]
    cases hq : t.state.queue.start? with
    | none => exact ends_of_start?_none hq
    | some next =>
      obtain ⟨op, queue⟩ := next
      intro hs
      have hi : t.state.halt = .looking := by
        cases hp : t.state.stage with
        | none => simp [halt, hp]
        | some stage => simp [halt, hp, Point.Sound, Dispatcher.idle_of_start? hq] at hs
      rw [hi] at hs ⊢
      have hsettles := start_settles t hq
      obtain ⟨_, ms, _, ht⟩ := begin_settles ((t.modify fun c => { c with queue }).emit
        (.started (queue.running.getD 0) op)) op (Dispatcher.running_start? hq)
      have hl := Dispatcher.waiting_start? hq
      have hle : (t.start op queue).state.queue.waiting.length ≤ n := by
        have hw := ht.waiting_le
        simp only [hl, List.length_cons] at hn
        exact Nat.le_trans hw (Nat.le_of_succ_le_succ hn)
      exact hsettles.ends (ih _ hle) hs

end Turn

theorem proceed_of_running {t : Turn} (hr : t.state.queue.running.isSome) (n : Nat) :
    t.proceed n = t := by
  obtain ⟨ticket, hticket⟩ := Option.isSome_iff_exists.mp hr
  have hq : t.state.queue.start? = none := by simp [Dispatcher.start?, hticket]
  cases n with
  | zero => rfl
  | succ n => simp only [Turn.proceed, hq]

/-! ## Whole runs -/

/-- What a signal does before any move is made. -/
def Signal.effect (c : Coordinator) : Signal → Coordinator
  | .submit op => (c.submit op).2
  | .wake | .reply _ => c
  | .setDependent d => c.setDependent d
  | .down ids => { c with down := ids }

/-- What others see after it, until something else happens. -/
def Happening.shows : Happening → Coordinator
  | .heard _ c s => s.effect c
  | .did _ c _ => c

@[simp] theorem Signal.face_effect (c : Coordinator) (s : Signal) : (s.effect c).face = c.face := by
  cases s <;> rfl

@[simp] theorem Signal.point_effect (c : Coordinator) (s : Signal) : (s.effect c).point = c.point := by
  cases s <;> rfl

/-- A signal alone neither begins an operation nor ends one. -/
theorem Signal.sound_effect {c : Coordinator} (hc : c.point.Sound c) (s : Signal) :
    (s.effect c).point.Sound (s.effect c) := by
  rw [point_effect]
  cases s with
  | submit op => exact hc.congr rfl (Dispatcher.running_submit _ _)
  | _ => exact hc.congr rfl rfl

@[simp] theorem Happening.face_shows (e : Happening) : e.shows.face = e.seen.face := by
  cases e with
  | heard now c s => exact s.face_effect c
  | did => rfl

/-- The coordinator as it is to be seen after a story. -/
def shown (c₀ : Coordinator) (h : Story) : Coordinator := (h.getLast?.map Happening.shows).getD c₀

/-- Where moves go on after a signal. -/
def Signal.target (c : Coordinator) : Signal → Point
  | .wake => c.halt
  | .reply r =>
    match c.stage with
    | some stage => .answered stage r
    | none => .idle
  | .submit _ | .setDependent _ | .down _ => c.point

theorem Signal.target_reply {c : Coordinator} {stage : Stage} (hs : c.stage = some stage) (r : Reply) :
    (Signal.reply r).target c = .answered stage r := by
  simp only [target, hs]

theorem Signal.sound {c : Coordinator} {s : Signal} (hs : s.Fits Stage.accepts c)
    (hc : c.point.Sound c) : (s.target c).Sound (s.effect c) := by
  cases s with
  | submit op => exact hc.congr rfl (Dispatcher.running_submit _ _)
  | wake => exact at_halt (P := fun p => p.Sound c) hc id
  | reply r =>
    obtain ⟨stage, hstage, hr⟩ := hs
    simp only [point, hstage] at hc
    simp only [target, hstage]
    exact hc.2
  | setDependent d => exact hc.congr rfl rfl
  | down ids => exact hc.congr rfl rfl

theorem hear_ends (c : Coordinator) (now : Nat) {s : Signal} (hs : s.Fits Stage.accepts c) :
    Turn.Ends ⟨now, s.effect c, []⟩ (s.target c) (c.hear now s) := by
  have hquiet : ∀ c' : Coordinator, Turn.Ends ⟨now, c', []⟩ c'.point ⟨now, c', []⟩ := by
    intro c' _
    exact ⟨rfl, [], by simp, .refl _ _⟩
  cases s with
  | submit op => exact hquiet _
  | wake => exact Turn.proceed_ends _ _ (Nat.le_refl _)
  | reply r =>
    obtain ⟨stage, hstage, hr⟩ := hs
    simp only [Signal.target, Signal.effect, hear, reply, hstage]
    exact (Turn.resume_settles _ hr).ends (Turn.proceed_ends _ _ (Nat.le_refl _))
  | setDependent d => exact hquiet _
  | down ids => exact hquiet _

/-- While an operation is running, nothing but a reply makes a coordinator do anything. -/
theorem hear_of_running {c : Coordinator} (hr : c.queue.running.isSome) (now : Nat) {s : Signal}
    (hn : ∀ r, s ≠ .reply r) : c.hear now s = ⟨now, s.effect c, []⟩ := by
  cases s with
  | reply r => exact (hn r rfl).elim
  | wake => exact proceed_of_running (t := ⟨now, c, []⟩) hr _
  | submit | setDependent | down => rfl

theorem isSome_running {c : Coordinator} {stage : Stage} (hc : c.point.Sound c)
    (hs : c.stage = some stage) : c.queue.running.isSome := by
  simp only [point, hs] at hc
  exact hc.2

/-- Who waits for a reply goes on waiting, whatever else is heard. -/
theorem hear_of_waiting {c : Coordinator} {stage : Stage} (hc : c.point.Sound c)
    (hs : c.stage = some stage) (now : Nat) {s : Signal} (hn : ∀ r, s ≠ .reply r) :
    c.hear now s = ⟨now, s.effect c, []⟩ ∧ (c.hear now s).state.stage = some stage := by
  rw [hear_of_running (isSome_running hc hs) now hn]
  exact ⟨rfl, by cases s <;> exact hs⟩

/-- What a reply brings about. -/
theorem reply_trail {c : Coordinator} {stage : Stage} {r : Reply} (now : Nat)
    (hc : c.point.Sound c) (hstage : c.stage = some stage) (hr : stage.accepts r = true) :
    Trail now c (.answered stage r) (c.hear now (.reply r)).moments (c.hear now (.reply r)).state
      (c.hear now (.reply r)).state.point := by
  have hs : (Signal.reply r).Fits Stage.accepts c := ⟨stage, hstage, hr⟩
  obtain ⟨-, ms, hms, ht⟩ := hear_ends c now hs (Signal.sound hs hc)
  rw [Signal.target_reply hstage] at ht
  rw [hms]
  exact ht

section Invariants
variable {γ : Type} {w : Watch γ}

/-- A change of the phase: a watch that does not care for its notice sees one happening. -/
theorem Watch.Passes.shift {now : Nat} {g : γ} {P : γ → Prop} {old : Phase} {c : Coordinator}
    (hset : w.law g (.did now c (.phaseSet c.phase)))
    (hnotice : ∀ n, n.kind = .stateChanged →
      w.law (w.note g (.did now c (.phaseSet c.phase))) (.did now c (.notice n)))
    (hnote : ∀ g n, n.kind = .stateChanged → w.note g (.did now c (.notice n)) = g)
    (hP : P (w.note g (.did now c (.phaseSet c.phase)))) : w.Passes now (shift old c) g P := by
  refine ⟨hset, ?_⟩
  split
  · exact hP
  · have hg := hnote (w.note g (.did now c (.phaseSet c.phase))) (Turn.phaseNotice old c.phase) rfl
    exact ⟨hnotice _ rfl, hg.symm ▸ hP⟩

variable {at' : Point → γ → Coordinator → Prop}

theorem Trail.passes
    (hmove : ∀ {now g c p ms c' p'}, p.Sound c → Move now c p ms c' p' → at' p g c →
      w.Passes now ms g fun g' => at' p' g' c')
    {now : Nat} {g : γ} {c c' : Coordinator} {p p' : Point} {ms : List Moment}
    (h : Trail now c p ms c' p') (hs : p.Sound c) (ha : at' p g c) :
    w.Passes now ms g fun g' => at' p' g' c' := by
  induction h generalizing g with
  | refl => exact ha
  | move hm _ ih =>
    rw [Watch.passes_append]
    exact (hmove hs hm ha).mono fun g' ha' => ih (hm.sound hs) ha'

/-- What holds at the points of a coordinator whose surroundings heed a rule, once each signal and
each move has been shown to keep it. -/
theorem Run.upheld_under {conduct : Conduct} {c₀ : Coordinator} {rule : γ → Happening → Prop}
    (hle : ∀ stage r, conduct stage r = true → stage.accepts r = true)
    (hsignal : ∀ {now g c s}, c.point.Sound c → s.Fits conduct c → rule g (.heard now c s) →
      at' c.point g c →
      w.law g (.heard now c s) ∧ at' (s.target c) (w.note g (.heard now c s)) (s.effect c))
    (hmove : ∀ {now g c p ms c' p'}, p.Sound c → Move now c p ms c' p' → at' p g c →
      w.Passes now ms g fun g' => at' p' g' c')
    (hsound : c₀.point.Sound c₀) (hstart : at' c₀.point w.start c₀)
    {h : Story} {c : Coordinator} (hr : Run conduct c₀ h c)
    (hrule : Always (fun before e => rule (w.read before) e) h) :
    w.Kept h ∧ c.point.Sound c ∧ at' c.point (w.read h) c := by
  induction hr with
  | start => exact ⟨w.kept_nil, hsound, hstart⟩
  | @hear h c now s _ hs ih =>
    have hheard := (always_append.mp hrule).1
    obtain ⟨hbefore, hrule'⟩ := always_snoc.mp hheard
    obtain ⟨hk, hsc, ha⟩ := ih hbefore
    have hfits : s.Fits Stage.accepts c := hs.mono hle
    obtain ⟨hlaw, ha'⟩ := hsignal hsc hs hrule' ha
    have hk' : w.Kept (h ++ [.heard now c s]) := w.kept_snoc.mpr ⟨hk, hlaw⟩
    have hs' := Signal.sound hfits hsc
    obtain ⟨hnow, ms, hms, ht⟩ := hear_ends c now hfits hs'
    rw [← w.read_snoc h] at ha'
    obtain ⟨hk'', ha''⟩ := (ht.passes hmove hs' ha').kept hk'
    refine ⟨?_, ht.sound hs', ?_⟩
    · simpa [Turn.since, hnow, hms] using hk''
    · simpa [Turn.since, hnow, hms] using ha''

/-- The same, whatever the surroundings do. -/
theorem Run.upheld {conduct : Conduct} {c₀ : Coordinator}
    (hle : ∀ stage r, conduct stage r = true → stage.accepts r = true)
    (hsignal : ∀ {now g c s}, c.point.Sound c → s.Fits conduct c → at' c.point g c →
      w.law g (.heard now c s) ∧ at' (s.target c) (w.note g (.heard now c s)) (s.effect c))
    (hmove : ∀ {now g c p ms c' p'}, p.Sound c → Move now c p ms c' p' → at' p g c →
      w.Passes now ms g fun g' => at' p' g' c')
    (hsound : c₀.point.Sound c₀) (hstart : at' c₀.point w.start c₀)
    {h : Story} {c : Coordinator} (hr : Run conduct c₀ h c) :
    w.Kept h ∧ c.point.Sound c ∧ at' c.point (w.read h) c :=
  @Run.upheld_under γ w at' conduct c₀ (fun _ _ => True) hle (fun hc hs _ ha => hsignal hc hs ha)
    hmove hsound hstart h c hr (fun _ _ _ _ => trivial)

end Invariants

theorem sound_fresh (name toolName : String) (settings : Settings) :
    (fresh name toolName settings).point.Sound (fresh name toolName settings) :=
  ⟨rfl, rfl⟩

end Coordinator

end Supervisor
