import Mathlib.Data.List.Forall2
import Supervisor.Proofs.Settings.Sameness
import Supervisor.Proofs.Coordinator.Moves
/-!
# Starting with other settings

Settings that do not ask for a restart lead to the same start: with either of them, a start sequence
makes the same calls until the server is launched, as long as the others answer the same calls in
the same way.
-/
namespace Supervisor

/-! ## Calls that are the same -/

/-- What an environment is prepared from. -/
structure EnvironmentSettings.Alike (a b : EnvironmentSettings) : Prop where
  enabled : a.enabled = b.enabled
  rccPath : Path.sameOption a.rccPath b.rccPath = true
  robotYaml : Path.sameOption a.robotYaml b.robotYaml = true
  space : a.space = b.space
  robocorpHome : Path.sameOption a.robocorpHome b.robocorpHome = true
  env : a.env = b.env

theorem EnvironmentSettings.Alike.of_preparesSame {a b : EnvironmentSettings}
    (h : a.preparesSame b = true) : a.Alike b := by
  obtain ⟨enabled, rccPath, robotYaml, space, robocorpHome, env⟩ := preparesSame_iff.mp h
  exact { enabled, rccPath, robotYaml, space, robocorpHome, env }

/-- What a process is started from. -/
structure LaunchSpec.Alike (a b : LaunchSpec) : Prop where
  command : a.settings.command = b.settings.command
  args : a.settings.args = b.settings.args
  environment : a.environment = b.environment
  workingDirectory :
    Path.sameOption a.settings.workingDirectory b.settings.workingDirectory = true
  initializationOptions :
    ServerSettings.sameOptions a.settings.initializationOptions b.settings.initializationOptions = true

theorem LaunchSpec.Alike.of_startsSame {a b : ServerSettings} (h : a.startsSame b = true)
    (env : Table String) : LaunchSpec.Alike ⟨a, env⟩ ⟨b, env⟩ := by
  obtain ⟨command, args, henv, workingDirectory, initializationOptions⟩ :=
    ServerSettings.startsSame_iff.mp h
  have environment : LaunchSpec.environment ⟨a, env⟩ = LaunchSpec.environment ⟨b, env⟩ := by
    simp only [LaunchSpec.environment, henv]
  exact { command, args, environment, workingDirectory, initializationOptions }

/-- Calls whose receivers read the same. -/
def Call.Alike : Call → Call → Prop
  | .prepareEnvironment s, .prepareEnvironment s' => s.Alike s'
  | .launch spec, .launch spec' => spec.Alike spec'
  | x, y => x = y

def Call.isLaunch : Call → Bool
  | .launch _ => true
  | _ => false

/-- What an output tells about the next call of the operation that is running: it is this call, or
there is none, since another operation starts. -/
def Output.nextCall? : Output → Option (Option Call)
  | .call x => some (some x)
  | .started _ _ => some none
  | _ => none

/-- Sequences that leave the caches and a dependent alone, and whose servers start alike. -/
structure Sequence.Alike (s s' : Sequence) : Prop where
  settings : s.settings.requiresRestart s'.settings = false
  keepsCaches : s.trigger.clearsCaches = false
  keepsCaches' : s'.trigger.clearsCaches = false
  alone : s.resume = false
  alone' : s'.resume = false

/-- Waits before the launch for replies that are asked for alike. -/
inductive Stage.Alike : Stage → Stage → Prop
  | stoppingOld {s s' : Sequence} (h : s.Alike s') (id : ServerId) (since since' : Nat) :
    Stage.Alike (.stoppingOld s id since) (.stoppingOld s' id since')
  | preparing {s s' : Sequence} (h : s.Alike s') : Stage.Alike (.preparing s) (.preparing s')

namespace Coordinator

/-- The call that the running operation makes in a turn. -/
def Turn.ownCall? (t : Turn) : Option Call := (t.outputs.findSome? Output.nextCall?).join

/-- The calls of an operation from a turn of it on, up to a launch and at most so many, after those
that were `made` before. The others answer by what they have been asked so far; with each answer
comes the time. -/
def opening (answers : List Call → Nat × Reply) : Nat → List Call → Turn → List Call
  | 0, made, _ => made
  | n + 1, made, t =>
    match t.ownCall? with
    | none => made
    | some x =>
      let made := made ++ [x]
      if x.isLaunch then made
      else opening answers n made (t.state.reply (answers made).1 (answers made).2)

/-- The calls of a start sequence with some settings, up to the launch. -/
def openingCalls (c : Coordinator) (s : Settings) (trigger : Trigger) (answer : Answer) (now : Nat)
    (answers : List Call → Nat × Reply) (n : Nat) : List Call :=
  opening answers n [] (Turn.beginSequence ⟨now, { c with settings := s }, []⟩ trigger answer)

/-! ## Turns without a call -/

namespace Turn
variable {t t' : Turn}

theorem outputs_emit (t : Turn) (o : Output) : (t.emit o).outputs = t.outputs ++ [o] := by
  simp [outputs, emit]

/-- Neither a call has been made in this turn, nor has an operation been started. -/
def Silent (t : Turn) : Prop := t.outputs.findSome? Output.nextCall? = none

theorem Silent.ownCall?_eq_none (h : t.Silent) : t.ownCall? = none := by
  rw [ownCall?, h]
  rfl

theorem Silent.modify (h : t.Silent) (f : Coordinator → Coordinator) : (t.modify f).Silent := h

theorem Silent.emit (h : t.Silent) {o : Output} (ho : o.nextCall? = none) : (t.emit o).Silent := by
  rw [Silent, outputs_emit, List.findSome?_append, h]
  simpa using ho

theorem Silent.publish (h : t.Silent) (n : Notice) : (t.publish n).Silent := h.emit rfl

theorem Silent.setPhase (h : t.Silent) (p : Phase) : (t.setPhase p).Silent := by
  have hset := (h.modify fun c => { c with phase := p, version := c.version + 1 }).emit
    (o := .phaseSet p) rfl
  simp only [Turn.setPhase]
  split
  · exact hset
  · exact hset.publish _

theorem Silent.reportStop (h : t.Silent) (id : ServerId) (since : Nat) (o : Option Fault) :
    (t.reportStop id since o).Silent := by
  cases o <;> exact h.publish _

theorem Silent.finish (h : t.Silent) (result : Except Fault Answer) : (t.finish result).Silent := by
  have hended := h.modify fun c => { c with stage := none, queue := c.queue.release }
  simp only [Turn.finish]
  split
  · exact hended.emit rfl
  · exact hended

/-- A start sequence that fails makes no other call if no dependent waits for its end. -/
theorem Silent.fail (h : t.Silent) {s : Sequence} (hs : s.resume = false) (f : Fault) :
    (t.fail s f).Silent := by
  have hfailed := ((h.modify fun c => { c with lastError := some f.summary, trigger := none }).setPhase
    .failed).publish (failedNotice f)
  simpa [Turn.fail, Turn.leave, hs] using hfailed.finish (.error f)

theorem Silent.ownCall?_ask (h : t.Silent) (x : Call) (stage : Stage) :
    (t.ask x stage).ownCall? = some x := by
  have hsilent := h.modify fun c => { c with stage := some stage }
  rw [ownCall?, ask, outputs_emit, List.findSome?_append, hsilent]
  rfl

/-- What comes after an operation is not its own. -/
theorem ownCall?_proceed (n : Nat) (t : Turn) : (t.proceed n).ownCall? = t.ownCall? := by
  induction n generalizing t with
  | zero => rfl
  | succ n ih =>
    simp only [proceed]
    cases hq : t.state.queue.start? with
    | none => rfl
    | some next =>
      obtain ⟨op, queue⟩ := next
      let taken := (t.modify fun c => { c with queue }).emit (.started (queue.running.getD 0) op)
      obtain ⟨-, ms, hms, -⟩ := begin_settles taken op (Dispatcher.running_start? hq)
      have houtputs : (t.start op queue).outputs = taken.outputs ++ ms.map Moment.output := by
        rw [outputs, Turn.start, hms, List.map_append]
        rfl
      have htaken : taken.outputs = t.outputs ++ [.started (queue.running.getD 0) op] :=
        outputs_emit _ _
      simp only [ih]
      rw [ownCall?, houtputs, htaken, List.findSome?_append, List.findSome?_append, ownCall?]
      cases t.outputs.findSome? Output.nextCall? <;> rfl

end Turn

/-! ## Two sequences side by side -/

namespace Turn
variable {t t' : Turn} {s s' : Sequence}

/-- Turns of two start sequences that make the same call, or none. -/
inductive Alike (t t' : Turn) : Prop
  | asks {x x' : Call} {stage stage' : Stage} (hx : t.ownCall? = some x) (hx' : t'.ownCall? = some x')
    (hcall : x.Alike x') (hplain : x.isLaunch = false) (hplain' : x'.isLaunch = false)
    (hs : t.state.stage = some stage) (hs' : t'.state.stage = some stage')
    (hstage : stage.Alike stage') (hr : t.state.queue.running.isSome)
    (hr' : t'.state.queue.running.isSome)
  | launches {x x' : Call} (hx : t.ownCall? = some x) (hx' : t'.ownCall? = some x')
    (hcall : x.Alike x') (hlaunch : x.isLaunch = true) (hlaunch' : x'.isLaunch = true)
  | ends (hx : t.ownCall? = none) (hx' : t'.ownCall? = none)

/-- The operation that is running has made no call in this turn. -/
structure Ongoing (t : Turn) : Prop where
  silent : t.Silent
  running : t.state.queue.running.isSome

theorem ongoing_start {c : Coordinator} (hr : c.queue.running.isSome) (now : Nat) :
    Ongoing ⟨now, c, []⟩ :=
  ⟨rfl, hr⟩

theorem Ongoing.publish (h : t.Ongoing) (n : Notice) : (t.publish n).Ongoing :=
  ⟨h.silent.publish n, h.running⟩

theorem Ongoing.reportStop (h : t.Ongoing) (id : ServerId) (since : Nat) (o : Option Fault) :
    (t.reportStop id since o).Ongoing := by
  cases o <;> exact h.publish _

theorem alike_ask (h : t.Ongoing) (h' : t'.Ongoing) {x x' : Call} {stage stage' : Stage}
    (hcall : x.Alike x') (hplain : x.isLaunch = false) (hplain' : x'.isLaunch = false)
    (hstage : stage.Alike stage') : (t.ask x stage).Alike (t'.ask x' stage') :=
  .asks (h.silent.ownCall?_ask x stage) (h'.silent.ownCall?_ask x' stage') hcall hplain hplain' rfl
    rfl hstage h.running h'.running

theorem alike_fail (h : t.Ongoing) (h' : t'.Ongoing) (hs : s.Alike s') (f : Fault) :
    (t.fail s f).Alike (t'.fail s' f) :=
  .ends (h.silent.fail hs.alone f).ownCall?_eq_none (h'.silent.fail hs.alone' f).ownCall?_eq_none

theorem alike_launch (h : t.Ongoing) (h' : t'.Ongoing) (hs : s.Alike s') (env : Table String) :
    (t.launch s env).Alike (t'.launch s' env) := by
  obtain ⟨hserver, -⟩ := Settings.requiresRestart_eq_false.mp hs.settings
  exact .launches ((h.publish _).silent.ownCall?_ask _ _) ((h'.publish _).silent.ownCall?_ask _ _)
    (LaunchSpec.Alike.of_startsSame hserver env) rfl rfl

theorem alike_prepare (h : t.Ongoing) (h' : t'.Ongoing) (hs : s.Alike s') :
    (t.prepare s).Alike (t'.prepare s') := by
  obtain ⟨-, henvironment⟩ := Settings.requiresRestart_eq_false.mp hs.settings
  have halike := EnvironmentSettings.Alike.of_preparesSame henvironment
  have henabled := halike.enabled
  cases he : s.settings.environment.enabled with
  | true =>
    have he' : s'.settings.environment.enabled = true := henabled.symm.trans he
    simp only [prepare, he, he', if_true]
    exact alike_ask (h.publish _) (h'.publish _) halike rfl rfl (.preparing hs)
  | false =>
    have he' : s'.settings.environment.enabled = false := henabled.symm.trans he
    simp only [prepare, he, he', Bool.false_eq_true, if_false]
    exact alike_launch h h' hs []

theorem alike_clear (h : t.Ongoing) (h' : t'.Ongoing) (hs : s.Alike s') :
    (t.clear s).Alike (t'.clear s') := by
  simp only [clear, hs.keepsCaches, hs.keepsCaches', Bool.false_and, Bool.false_eq_true, if_false]
  exact alike_prepare h h' hs

theorem alike_stopOld (h : t.Ongoing) (h' : t'.Ongoing) (hs : s.Alike s')
    (hhandle : t.state.handle = t'.state.handle) : (t.stopOld s).Alike (t'.stopOld s') := by
  cases hid : t.state.handle with
  | none =>
    have hid' : t'.state.handle = none := hhandle.symm.trans hid
    simp only [stopOld, stopCurrent, hid, hid']
    exact alike_clear h h' hs
  | some id =>
    have hid' : t'.state.handle = some id := hhandle.symm.trans hid
    simp only [stopOld, stopCurrent, hid, hid']
    have hdropped : (t.modify fun c => { c with handle := none }).Ongoing := ⟨h.silent, h.running⟩
    have hdropped' : (t'.modify fun c => { c with handle := none }).Ongoing :=
      ⟨h'.silent, h'.running⟩
    exact alike_ask (hdropped.publish _) (hdropped'.publish _) rfl rfl rfl (.stoppingOld hs id _ _)

/-- The same reply to sequences that wait alike. -/
theorem alike_resume (h : t.Ongoing) (h' : t'.Ongoing) {stage stage' : Stage}
    (hstage : stage.Alike stage') (r : Reply) : (t.resume stage r).Alike (t'.resume stage' r) := by
  have hover : t.Alike t' := .ends h.silent.ownCall?_eq_none h'.silent.ownCall?_eq_none
  cases hstage with
  | stoppingOld hs id since since' =>
    cases r with
    | done => exact alike_clear (h.reportStop _ _ _) (h'.reportStop _ _ _) hs
    | fault f => exact alike_clear (h.reportStop _ _ _) (h'.reportStop _ _ _) hs
    | panicked payload => exact alike_fail h h' hs _
    | _ => exact hover
  | preparing hs =>
    cases r with
    | environment env => exact alike_launch h h' hs env
    | fault f => exact alike_fail h h' hs f
    | panicked payload => exact alike_fail h h' hs _
    | _ => exact hover

theorem Alike.proceed (h : t.Alike t') (n n' : Nat) : (t.proceed n).Alike (t'.proceed n') := by
  cases h with
  | asks hx hx' hcall hplain hplain' hs hs' hstage hr hr' =>
    rw [proceed_of_running hr, proceed_of_running hr']
    exact .asks hx hx' hcall hplain hplain' hs hs' hstage hr hr'
  | launches hx hx' hcall hlaunch hlaunch' =>
    exact .launches ((ownCall?_proceed n t).trans hx) ((ownCall?_proceed n' t').trans hx') hcall
      hlaunch hlaunch'
  | ends hx hx' =>
    exact .ends ((ownCall?_proceed n t).trans hx) ((ownCall?_proceed n' t').trans hx')

end Turn

theorem alike_reply {c c' : Coordinator} {stage stage' : Stage} (hs : c.stage = some stage)
    (hs' : c'.stage = some stage') (hstage : stage.Alike stage') (hr : c.queue.running.isSome)
    (hr' : c'.queue.running.isSome) (now now' : Nat) (r : Reply) :
    (c.reply now r).Alike (c'.reply now' r) := by
  simp only [reply, hs, hs']
  exact (Turn.alike_resume (Turn.ongoing_start hr now) (Turn.ongoing_start hr' now') hstage
    r).proceed _ _

theorem alike_beginSequence {c : Coordinator} (hr : c.queue.running.isSome) {a b : Settings}
    (hab : a.requiresRestart b = false) {trigger : Trigger} (ht : trigger.clearsCaches = false)
    (answer : Answer) (now now' : Nat) :
    (Turn.beginSequence ⟨now, { c with settings := a }, []⟩ trigger answer).Alike
      (Turn.beginSequence ⟨now', { c with settings := b }, []⟩ trigger answer) := by
  have hsilent (s : Settings) (now : Nat) : Turn.Silent ⟨now, { c with settings := s }, []⟩ := rfl
  have hentered (s : Settings) (now : Nat) (p : Phase) :
      ((Turn.modify ⟨now, { c with settings := s }, []⟩
        fun c => { c with trigger := some trigger }).setPhase p).Ongoing :=
    ⟨((hsilent s now).modify _).setPhase p, by simpa using hr⟩
  simp only [Turn.beginSequence, ht, Bool.false_eq_true, if_false]
  exact Turn.alike_stopOld (hentered a now _) (hentered b now' _) ⟨hab, ht, ht, rfl, rfl⟩ (by simp)

section
variable {f g : List Call → Nat × Reply}
  (hfg : ∀ xs ys, List.Forall₂ Call.Alike xs ys → (f xs).2 = (g ys).2)

include hfg

theorem opening_alike {t t' : Turn} (n : Nat) {made made' : List Call} (h : t.Alike t')
    (hmade : List.Forall₂ Call.Alike made made') :
    List.Forall₂ Call.Alike (opening f n made t) (opening g n made' t') := by
  induction n generalizing t t' made made' with
  | zero => exact hmade
  | succ n ih =>
    cases h with
    | asks hx hx' hcall hplain hplain' hs hs' hstage hr hr' =>
      have hmade := List.rel_append hmade (.cons hcall .nil)
      simp only [opening, hx, hx', hplain, hplain', Bool.false_eq_true, if_false]
      rw [← hfg _ _ hmade]
      exact ih (alike_reply hs hs' hstage hr hr' _ _ _) hmade
    | launches hx hx' hcall hlaunch hlaunch' =>
      simp only [opening, hx, hx', hlaunch, hlaunch', if_true]
      exact List.rel_append hmade (.cons hcall .nil)
    | ends hx hx' =>
      simp only [opening, hx, hx']
      exact hmade

end

/-- Whether a server may keep running is an equivalence of settings, and settings that are equivalent
lead to the same calls up to the launch. -/
theorem openingCalls_alike :
    (Equivalence fun a b : Settings => a.requiresRestart b = false) ∧
      ∀ {a b : Settings}, a.requiresRestart b = false →
        ∀ {c : Coordinator}, c.queue.running.isSome →
        ∀ {trigger : Trigger}, trigger ≠ .clearCaches →
        ∀ (answer : Answer) (now now' : Nat) {f g : List Call → Nat × Reply},
          (∀ xs ys, List.Forall₂ Call.Alike xs ys → (f xs).2 = (g ys).2) →
          ∀ n, List.Forall₂ Call.Alike (openingCalls c a trigger answer now f n)
            (openingCalls c b trigger answer now' g n) := by
  refine ⟨Settings.requiresRestart_equivalence, ?_⟩
  intro a b hab c hr trigger ht answer now now' f g hfg n
  have hkeeps : trigger.clearsCaches = false := by simpa [Trigger.clearsCaches] using ht
  exact opening_alike hfg n (alike_beginSequence hr hab hkeeps answer now now') .nil

/-- Another limit and another way to write a path: the old server stops, the environment is prepared
and the server is launched, all alike. -/
theorem openingCalls_alike_other_limit :
    let a : Settings :=
      { server := { command := "ls", workingDirectory := some ⟨"/w/"⟩ }
        environment := { enabled := true, robotYaml := some ⟨"/w/robot.yaml"⟩ } }
    let b : Settings :=
      { server := { command := "ls", workingDirectory := some ⟨"/w"⟩, readyTimeoutSeconds := 5 }
        environment := { enabled := true, robotYaml := some ⟨"/w//robot.yaml"⟩ } }
    let c : Coordinator :=
      { name := "main", toolName := "rcc", settings := a, handle := some "ls-1", phase := .ready
        queue := { running := some 1 } }
    let answers (made : List Call) : Nat × Reply :=
      if made.length = 1 then (5, .done) else (9, .environment [("PATH", "bin")])
    (openingCalls c a .command .done 0 answers 3).length = 3 ∧
      List.Forall₂ Call.Alike (openingCalls c a .command .done 0 answers 3)
        (openingCalls c b .command .done 0 answers 3) := by
  intro a b c answers
  refine ⟨rfl, openingCalls_alike.2 (by decide) rfl (by decide) .done 0 0 ?_ 3⟩
  intro xs ys h
  simp only [answers, h.length_eq]

end Coordinator

end Supervisor
