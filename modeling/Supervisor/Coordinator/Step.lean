import Supervisor.Coordinator.Basic
/-!
# Steps of a coordinator

A `Turn` is what a coordinator does without waiting: it ends when the running operation waits for a
reply, or when nothing is left in the queue. `Coordinator.wake` starts waiting operations,
`Coordinator.reply` goes on with the running one. With each output goes the state that others can
see while it is made.
-/
namespace Supervisor.Coordinator

/-- An output, and the coordinator as it is at that moment. -/
structure Moment where
  output : Output
  seen : Coordinator

structure Turn where
  /-- Milliseconds on the clock. -/
  now : Nat
  state : Coordinator
  moments : List Moment := []

namespace Turn

def outputs (t : Turn) : List Output := t.moments.map Moment.output

def emit (t : Turn) (o : Output) : Turn := { t with moments := t.moments ++ [⟨o, t.state⟩] }

def modify (t : Turn) (f : Coordinator → Coordinator) : Turn := { t with state := f t.state }

def publish (t : Turn) (n : Notice) : Turn := t.emit (.notice n)

@[simp] theorem emit_now (t : Turn) (o : Output) : (t.emit o).now = t.now := rfl
@[simp] theorem emit_state (t : Turn) (o : Output) : (t.emit o).state = t.state := rfl
@[simp] theorem modify_now (t : Turn) (f : Coordinator → Coordinator) : (t.modify f).now = t.now := rfl
@[simp] theorem modify_state (t : Turn) (f : Coordinator → Coordinator) :
    (t.modify f).state = f t.state := rfl
@[simp] theorem publish_now (t : Turn) (n : Notice) : (t.publish n).now = t.now := rfl
@[simp] theorem publish_state (t : Turn) (n : Notice) : (t.publish n).state = t.state := rfl

/-- Asks for something, and waits for the reply. -/
def ask (t : Turn) (c : Call) (s : Stage) : Turn :=
  (t.modify fun c => { c with stage := some s }).emit (.call c)

@[simp] theorem ask_now (t : Turn) (c : Call) (s : Stage) : (t.ask c s).now = t.now := rfl
@[simp] theorem ask_state (t : Turn) (c : Call) (s : Stage) :
    (t.ask c s).state = { t.state with stage := some s } := rfl

def phaseNotice (old new : Phase) : Notice :=
  { kind := .stateChanged, message := old.name ++ " -> " ++ new.name, severity := .debug }

/-- Everyone who waits for a change is told, even if the phase stays the same. -/
def setPhase (t : Turn) (p : Phase) : Turn :=
  let old := t.state.phase
  let t := (t.modify fun c => { c with phase := p, version := c.version + 1 }).emit (.phaseSet p)
  if old = p then t else t.publish (phaseNotice old p)

@[simp] theorem setPhase_now (t : Turn) (p : Phase) : (t.setPhase p).now = t.now := by
  simp only [setPhase]
  split <;> rfl

@[simp] theorem setPhase_state (t : Turn) (p : Phase) :
    (t.setPhase p).state = { t.state with phase := p, version := t.state.version + 1 } := by
  simp only [setPhase]
  split <;> rfl

/-- Ends the running operation. -/
def finish (t : Turn) (result : Except Fault Answer) : Turn :=
  let ticket := t.state.queue.running
  let t := t.modify fun c => { c with stage := none, queue := c.queue.release }
  match ticket with
  | some ticket => t.emit (.finished ticket result)
  | none => t

@[simp] theorem finish_now (t : Turn) (r : Except Fault Answer) : (t.finish r).now = t.now := by
  simp only [finish]
  split <;> rfl

@[simp] theorem finish_state (t : Turn) (r : Except Fault Answer) :
    (t.finish r).state = { t.state with stage := none, queue := t.state.queue.release } := by
  simp only [finish]
  split <;> rfl

/-! ## Stopping a server -/

def stoppingNotice (id : ServerId) : Notice :=
  { kind := .stopping, message := "Stopping language server", server := some id }

def stoppedNotice (id : ServerId) (elapsed : Nat) : Notice :=
  { kind := .stopped, message := "Language server stopped", server := some id
    elapsedMillis := some elapsed }

def uncleanStopNotice (id : ServerId) (f : Fault) (elapsed : Nat) : Notice :=
  { kind := .stopped, message := "Language server did not stop cleanly: " ++ f.message
    severity := .warning, server := some id, code := some f.code, elapsedMillis := some elapsed }

/-- Takes the handle and stops its server; `next` goes on if there is none. -/
def stopCurrent (t : Turn) (stage : ServerId → Nat → Stage) (next : Turn → Turn) : Turn :=
  match t.state.handle with
  | none => next t
  | some id =>
    ((t.modify fun c => { c with handle := none }).publish (stoppingNotice id)).ask
      (.stopServer id) (stage id t.now)

/-- Tells how a stop ended; it never keeps anything from going on. -/
def reportStop (t : Turn) (id : ServerId) (since : Nat) (f : Option Fault) : Turn :=
  match f with
  | none => t.publish (stoppedNotice id (t.now - since))
  | some f => t.publish (uncleanStopNotice id f (t.now - since))

/-! ## The start sequence -/

def readyNotice (id : ServerId) (elapsed : Nat) : Notice :=
  { kind := .ready, message := "Language server ready", server := some id
    elapsedMillis := some elapsed }

def failedNotice (f : Fault) : Notice :=
  .ofFault .failed
    ("Language server could not be started: " ++ f.message ++ ". Run restart to try again.") f

/-- The dependent is started again if it was stopped, whatever the outcome. -/
def leave (t : Turn) (s : Sequence) (result : Except Fault Answer) : Turn :=
  match s.resume, s.dependent with
  | true, some d => t.ask (.finishDependent d) (.resumingDependent s result)
  | _, _ => t.finish result

def succeed (t : Turn) (s : Sequence) (id : ServerId) : Turn :=
  let t := t.modify fun c => { c with
    handle := some id, lastError := none, restartCount := c.restartCount + 1, trigger := none }
  ((t.setPhase .ready).publish (readyNotice id (t.now - s.startedAt))).leave s (.ok s.answer)

def fail (t : Turn) (s : Sequence) (f : Fault) : Turn :=
  let t := t.modify fun c => { c with lastError := some f.summary, trigger := none }
  ((t.setPhase .failed).publish (failedNotice f)).leave s (.error f)

def awaitReady (t : Turn) (s : Sequence) (id : ServerId) : Turn :=
  (t.publish { kind := .waitingReady, message := "Waiting for language server", server := some id }).ask
    (.awaitReady id s.settings.server.readyTimeout) (.awaitingReady s id)

def launch (t : Turn) (s : Sequence) (env : Table String) : Turn :=
  (t.publish { kind := .starting,
               message := "Starting language server: " ++ s.settings.server.command }).ask
    (.launch ⟨s.settings.server, env⟩) (.launching s)

def prepare (t : Turn) (s : Sequence) : Turn :=
  if s.settings.environment.enabled then
    (t.publish { kind := .preparingEnvironment,
                 message := "Preparing environment (" ++ s.settings.environment.space ++ ")" }).ask
      (.prepareEnvironment s.settings.environment) (.preparing s)
  else t.launch s []

def clear (t : Turn) (s : Sequence) : Turn :=
  if s.trigger.clearsCaches && s.settings.environment.enabled then
    (t.publish { kind := .clearingCaches, message := "Clearing caches with " ++ t.state.toolName }).ask
      (.clearCaches s.settings.environment) (.clearing s)
  else t.prepare s

def stopOld (t : Turn) (s : Sequence) : Turn := t.stopCurrent (.stoppingOld s) (·.clear s)

/-- The settings are those of this moment, whatever comes later. -/
def beginSequence (t : Turn) (trigger : Trigger) (answer : Answer) : Turn :=
  let next : Phase := if t.state.phase = .ready then .restarting else .starting
  let s : Sequence := { trigger, answer, settings := t.state.settings, startedAt := t.now }
  let t := (t.modify fun c => { c with trigger := some trigger }).setPhase next
  if trigger.clearsCaches then
    match t.state.dependent with
    | some d => t.ask (.prepareDependent d) (.stoppingDependent { s with dependent := some d })
    | none => t.stopOld s
  else t.stopOld s

/-! ## The other operations -/

def endShutdown (t : Turn) : Turn := (t.setPhase .uninitialized).finish (.ok .done)

def endYield (t : Turn) (wasActive : Bool) : Turn :=
  (t.setPhase .uninitialized).finish (.ok (.flag wasActive))

/-- The cache directory of the current settings goes before the caches of the other server. -/
def clearOwnCache (t : Turn) (wasActive : Bool) : Turn :=
  match t.state.settings.environment.cacheDirectory with
  | some p => t.ask (.removeDirectory p) (.removingCache wasActive)
  | none => t.endYield wasActive

def beginConfigure (t : Turn) (s : Settings) : Turn :=
  let required := t.state.settings.requiresRestart s
  let t := t.modify fun c => { c with settings := s }
  if !required || t.state.phase = .uninitialized then t.finish (.ok (.flag false))
  else t.beginSequence .configurationChanged (.flag true)

def begin (t : Turn) : Operation → Turn
  | .activate =>
    if t.state.phase = .ready && t.state.hasLiveServer then t.finish (.ok .done)
    else t.beginSequence .activate .done
  | .restart trigger => t.beginSequence trigger .done
  | .configure s => t.beginConfigure s
  | .stop => t.stopCurrent .shuttingDown endShutdown
  | .yieldCaches =>
    let wasActive := t.state.phase != .uninitialized
    t.stopCurrent (.yielding wasActive) (·.clearOwnCache wasActive)

/-- Takes an operation from the queue, which is `queue` then. -/
def start (t : Turn) (op : Operation) (queue : Dispatcher Operation) : Turn :=
  ((t.modify fun c => { c with queue }).emit (.started (queue.running.getD 0) op)).begin op

/-- Starts up to `n` waiting operations, as long as none of them waits. -/
def proceed : Nat → Turn → Turn
  | 0, t => t
  | n + 1, t =>
    match t.state.queue.start? with
    | none => t
    | some (op, queue) => proceed n (t.start op queue)

/-- The reply to the call for which an operation waits. A reply that does not answer the call is
passed over. -/
def resume (t : Turn) (stage : Stage) (r : Reply) : Turn :=
  match stage, r with
  | .stoppingDependent s, .flag b => t.stopOld { s with resume := b }
  | .stoppingDependent s, .fault _ => t.stopOld s
  | .stoppingDependent _, .panicked p => t.finish (.error (.operationPanicked p))
  | .stoppingOld s id since, .done => (t.reportStop id since none).clear s
  | .stoppingOld s id since, .fault f => (t.reportStop id since (some f)).clear s
  | .stoppingOld s _ _, .panicked p => t.fail s (.operationPanicked p)
  | .clearing s, .done => t.prepare s
  | .clearing s, .fault f => t.fail s f
  | .clearing s, .panicked p => t.fail s (.operationPanicked p)
  | .preparing s, .environment env => t.launch s env
  | .preparing s, .fault f => t.fail s f
  | .preparing s, .panicked p => t.fail s (.operationPanicked p)
  | .launching s, .server id => t.awaitReady s id
  | .launching s, .fault f => t.fail s f
  | .launching s, .panicked p => t.fail s (.operationPanicked p)
  | .awaitingReady s id, .done => t.succeed s id
  | .awaitingReady s id, .fault f => t.ask (.stopServer id) (.stoppingUnready s id f)
  | .awaitingReady s id, .overdue =>
    t.ask (.stopServer id)
      (.stoppingUnready s id (.readyTimeout (s.settings.server.readyTimeout.getD ⟨0⟩)))
  | .awaitingReady s _, .panicked p => t.fail s (.operationPanicked p)
  | .stoppingUnready s _ f, .done | .stoppingUnready s _ f, .fault _ => t.fail s f
  | .stoppingUnready s _ _, .panicked p => t.fail s (.operationPanicked p)
  | .resumingDependent _ result, .done | .resumingDependent _ result, .flag _
  | .resumingDependent _ result, .fault _ => t.finish result
  | .resumingDependent _ _, .panicked p => t.finish (.error (.operationPanicked p))
  | .shuttingDown id since, .done => (t.reportStop id since none).endShutdown
  | .shuttingDown id since, .fault f => (t.reportStop id since (some f)).endShutdown
  | .shuttingDown _ _, .panicked p => t.finish (.error (.operationPanicked p))
  | .yielding wasActive id since, .done => (t.reportStop id since none).clearOwnCache wasActive
  | .yielding wasActive id since, .fault f =>
    (t.reportStop id since (some f)).clearOwnCache wasActive
  | .yielding _ _ _, .panicked p => t.finish (.error (.operationPanicked p))
  | .removingCache wasActive, _ => t.endYield wasActive
  | _, _ => t

end Turn

/-- Goes on with what waits in the queue. -/
def wake (c : Coordinator) (now : Nat) : Turn :=
  Turn.proceed c.queue.waiting.length ⟨now, c, []⟩

/-- Goes on with the running operation, and then with what waits in the queue. -/
def reply (c : Coordinator) (now : Nat) (r : Reply) : Turn :=
  match c.stage with
  | none => ⟨now, c, []⟩
  | some stage =>
    let t := Turn.resume ⟨now, c, []⟩ stage r
    t.proceed t.state.queue.waiting.length

end Supervisor.Coordinator
