import Supervisor.Proofs.Coordinator.Consistency
import Supervisor.Proofs.Settings.Sameness
/-!
# Upkeep of a server

A change of the settings is compared with the settings before it, and not with those that the server
was started with. Nevertheless a coordinator that is ready never holds a server which would have to be
restarted for its current settings, whatever became of the changes and the starts in between.
-/
namespace Supervisor

namespace Operation

def configures : Operation → Bool
  | .configure _ => true
  | _ => false

/-- The settings once the operation has begun. -/
def settingsAfter (s : Settings) : Operation → Settings
  | .configure s' => s'
  | _ => s

end Operation

/-- Does the call carry out these settings? -/
def Call.Follows (s : Settings) : Call → Prop
  | .clearCaches e | .prepareEnvironment e => e = s.environment
  | .launch spec => spec.settings = s.server
  | .awaitReady _ limit => limit = s.server.readyTimeout
  | _ => True

namespace Coordinator

structure Upkeep where
  /-- Those of the change that was begun last. -/
  settings : Settings
  /-- The settings at the beginning of the latest start sequence. -/
  plan : Settings
  /-- The server that was launched last, and what its start sequence is run with. -/
  launched : Option (ServerId × Settings) := none
  /-- Is the operation that was started last a change of the settings? -/
  configuring : Bool := false
  /-- Has it begun a start sequence? -/
  began : Bool := false
  /-- Has it come to `ready`? -/
  arrived : Bool := false

namespace Upkeep

def start (g : Upkeep) (op : Operation) : Upkeep :=
  { g with
    settings := op.settingsAfter g.settings, configuring := op.configures, began := false
    arrived := false }

def enter (g : Upkeep) (s : Settings) : Phase → Upkeep
  | .starting | .restarting => { g with plan := s, began := true }
  | .ready => { g with arrived := true }
  | .uninitialized | .failed => g

def launch (g : Upkeep) (id : ServerId) : Upkeep := { g with launched := some (id, g.plan) }

def note (g : Upkeep) : Happening → Upkeep
  | .heard _ _ (.reply (.server id)) => g.launch id
  | .did _ _ (.started _ op) => g.start op
  | .did _ c (.phaseSet p) => g.enter c.settings p
  | _ => g

/-- The server was launched last, and may keep running with these settings. -/
def Fits (g : Upkeep) (server : Option ServerId) (s : Settings) : Prop :=
  ∃ id ran, server = some id ∧ g.launched = some (id, ran) ∧ ran.requiresRestart s = false

/-- What a change of the settings tells its caller. -/
structure Told (g : Upkeep) (r : Except Fault Answer) : Prop where
  restarted : r = .ok (.flag true) ↔ g.arrived = true
  kept : r = .ok (.flag false) ↔ g.began = false

def Allows (g : Upkeep) : Happening → Prop
  | .did _ _ (.call x) => x.Follows g.plan
  | .did _ _ (.finished _ r) => g.configuring = true → g.Told r
  | _ => True

end Upkeep

/-- `s` are the settings at the beginning. -/
def upkeeps (s : Settings) : Watch Upkeep where
  start := { settings := s, plan := s }
  note := Upkeep.note
  law g e := e.seen.settings = g.settings ∧ g.Allows e ∧
    (e.seen.queue.running = none → e.seen.phase = .ready →
      (g.note e).Fits e.seen.handle e.seen.settings)

/-! ## What holds at the points of a coordinator -/

namespace Upkeep

/-- The server can be used with the settings. -/
structure Kept (g : Upkeep) (f : Face) (s : Settings) : Prop where
  settings : s = g.settings
  fits : f.phase = .ready → g.Fits f.handle s

structure Begun (op : Operation) (g : Upkeep) (f : Face) (s : Settings) : Prop where
  settings : op.settingsAfter s = g.settings
  fits : f.phase = .ready → g.Fits f.handle s
  configuring : g.configuring = op.configures
  began : g.began = false
  arrived : g.arrived = false

structure Entering (t : Trigger) (a : Answer) (g : Upkeep) (s : Settings) : Prop where
  settings : s = g.settings
  arrived : g.arrived = false
  change : g.configuring = true → t = .configurationChanged ∧ a = .flag true

structure InSequence (q : Sequence) (g : Upkeep) (s : Settings) : Prop where
  settings : s = g.settings
  plan : g.plan = s
  own : q.settings = s
  began : g.began = true
  arrived : g.arrived = false
  change : g.configuring = true → q.trigger = .configurationChanged ∧ q.answer = .flag true
  alone : g.configuring = true → q.dependent = none

structure Launched (q : Sequence) (id : ServerId) (g : Upkeep) (s : Settings) : Prop
    extends InSequence q g s where
  launched : g.launched = some (id, g.plan)

structure Closing (g : Upkeep) (s : Settings) : Prop where
  settings : s = g.settings
  other : g.configuring = false

structure Concluding (r : Except Fault Answer) (g : Upkeep) (f : Face) (s : Settings) : Prop
    extends Kept g f s where
  told : g.configuring = true → g.Told r

def Waiting : Stage → Upkeep → Face → Settings → Prop
  | .stoppingDependent q | .stoppingOld q _ _ | .clearing q | .preparing q | .launching q
  | .stoppingUnready q _ _ => fun g _ s => InSequence q g s
  | .awaitingReady q id => fun g _ s => Launched q id g s
  | .resumingDependent _ r => fun g f s => Concluding r g f s ∧ g.configuring = false
  | .shuttingDown _ _ | .yielding _ _ _ | .removingCache _ => fun g _ s => Closing g s

/-- A server that has just been launched is written down at once. -/
def Answered : Stage → Reply → Upkeep → Face → Settings → Prop
  | .launching q, .server id => fun g _ s => Launched q id g s
  | stage, _ => Waiting stage

def Holds : Point → Upkeep → Face → Settings → Prop
  | .idle | .looking => Kept
  | .begun op => Begun op
  | .entering t a => fun g _ s => Entering t a g s
  | .entered q | .dropping (.sequence q) | .clear q | .prepare q | .launch q _ | .stopUnready q _ _
  | .fail q _ => fun g _ s => InSequence q g s
  | .awaitReady q id | .succeed q id => fun g _ s => Launched q id g s
  | .leave q r => fun g f s => Concluding r g f s ∧ (g.configuring = true → q.dependent = none)
  | .finish r => Concluding r
  | .dropping _ | .clearOwnCache _ | .close _ => fun g _ s => Closing g s
  | .waiting stage => Waiting stage
  | .answered stage r => fun g f s => Answered stage r g f s ∧ guardedPanics stage r = true

theorem Answered.waiting {stage : Stage} {r : Reply} {g : Upkeep} {f : Face} {s : Settings}
    (h : Answered stage r g f s) : Waiting stage g f s := by
  cases stage with
  | launching q =>
    cases r with
    | server id => exact h.toInSequence
    | _ => exact h
  | _ => exact h

theorem Waiting.guarded {stage : Stage} {q : Sequence} {g : Upkeep} {f : Face} {s : Settings}
    (h : Waiting stage g f s) (hq : stage.guarding? = some q) : InSequence q g s := by
  cases stage with
  | awaitingReady =>
    obtain rfl := Option.some.inj hq
    exact h.toInSequence
  | stoppingOld | clearing | preparing | launching | stoppingUnready =>
    obtain rfl := Option.some.inj hq
    exact h
  | _ => simp [Stage.guarding?] at hq

theorem Waiting.settings {stage : Stage} {g : Upkeep} {f : Face} {s : Settings}
    (h : Waiting stage g f s) : s = g.settings := by
  cases stage with
  | awaitingReady => exact h.toInSequence.settings
  | resumingDependent => exact h.1.toKept.settings
  | shuttingDown | yielding | removingCache => exact Closing.settings h
  | _ => exact InSequence.settings h

theorem Waiting.underway {stage : Stage} {g : Upkeep} {f : Face} {s : Settings}
    (h : Waiting stage g f s) (hc : g.configuring = true) : g.began = true ∧ g.arrived = false := by
  cases stage with
  | awaitingReady => exact ⟨h.toInSequence.began, h.toInSequence.arrived⟩
  | resumingDependent => simp [h.2] at hc
  | shuttingDown | yielding | removingCache => simp [Closing.other h] at hc
  | _ => exact ⟨InSequence.began h, InSequence.arrived h⟩

theorem Waiting.answered {stage : Stage} {r : Reply} {g : Upkeep} {f : Face} {s : Settings}
    (now : Nat) (c : Coordinator) (h : Waiting stage g f s) (hr : stage.accepts r = true) :
    Answered stage r (g.note (.heard now c (.reply r))) f s := by
  cases r with
  | server id =>
    cases stage with
    | launching q =>
      have hq : InSequence q g s := h
      exact ⟨⟨hq.settings, hq.plan, hq.own, hq.began, hq.arrived, hq.change, hq.alone⟩, rfl⟩
    | _ => simp [Stage.accepts] at hr
  | _ => cases stage <;> exact h

section
variable {settings s : Settings} {g : Upkeep} {f : Face} {op : Operation} {q : Sequence} {id : ServerId}

/-- While an operation is running, the law asks no more than this. -/
theorem lawful {e : Happening} (hs : e.seen.settings = g.settings) (ha : g.Allows e)
    (hr : e.seen.queue.running.isSome) : (upkeeps settings).law g e :=
  ⟨hs, ha, fun hn => by simp [hn] at hr⟩

@[simp] theorem settings_enter (g : Upkeep) (s : Settings) (p : Phase) :
    (g.enter s p).settings = g.settings := by
  cases p <;> rfl

theorem passes_shift {now : Nat} {c : Coordinator} {old : Phase} {P : Upkeep → Prop}
    (hs : c.settings = g.settings) (hr : c.queue.running.isSome) (hP : P (g.enter c.settings c.phase)) :
    (upkeeps settings).Passes now (shift old c) g P := by
  have hs' : c.settings = (g.enter c.settings c.phase).settings := by simpa using hs
  exact .shift (lawful hs trivial hr) (fun _ _ => lawful hs' trivial hr) (fun _ _ _ => rfl) hP

theorem enter_openingPhase (g : Upkeep) (s : Settings) (c : Coordinator) :
    g.enter s c.openingPhase = { g with plan := s, began := true } := by
  simp only [openingPhase]
  split <;> rfl

/-- An operation begins that is no change of the settings. -/
theorem Begun.other (h : Begun op g f s) (hop : op.configures = false) : g.configuring = false :=
  h.configuring.trans hop

theorem Begun.entering (h : Begun op g f s) (hs : op.settingsAfter s = s)
    (hop : op.configures = false) (t : Trigger) (a : Answer) : Entering t a g s :=
  ⟨hs.symm.trans h.settings, h.arrived, fun hc => by simp [h.other hop] at hc⟩

theorem Begun.closing (h : Begun op g f s) (hs : op.settingsAfter s = s)
    (hop : op.configures = false) : Closing g s :=
  ⟨hs.symm.trans h.settings, h.other hop⟩

/-- The change calls for no restart, or there is nothing to start again. -/
theorem Begun.kept {s' : Settings} (h : Begun (.configure s') g f s)
    (hk : s.requiresRestart s' = false ∨ f.phase = .uninitialized) :
    Concluding (.ok (.flag false)) g f s' := by
  refine ⟨⟨h.settings, fun hp => ?_⟩, fun _ => ⟨by simp [h.arrived], by simp [h.began]⟩⟩
  rcases hk with hk | hk
  · obtain ⟨id, ran, hid, hran, hkeep⟩ := h.fits hp
    exact ⟨id, ran, hid, hran, Settings.requiresRestart_equivalence.trans hkeep hk⟩
  · simp [hk] at hp

theorem Entering.inSequence {t : Trigger} {a : Answer} (h : Entering t a g s) (now : Nat) :
    InSequence { trigger := t, answer := a, settings := s, startedAt := now }
      { g with plan := s, began := true } s :=
  ⟨h.settings, rfl, rfl, rfl, h.arrived, h.change, fun _ => rfl⟩

/-- The server that was launched can be used with the settings of its start sequence. -/
theorem Launched.succeeded (h : Launched q id g s) (f : Face) :
    Concluding (.ok q.answer) (g.enter s .ready) ⟨.ready, some id, none, none, f.restartCount + 1⟩
      s := by
  refine ⟨⟨h.settings, fun _ => ⟨id, g.plan, rfl, h.launched, ?_⟩⟩, fun hc => ⟨?_, ?_⟩⟩
  · rw [h.plan]
    exact Settings.requiresRestart_equivalence.refl s
  · simp [(h.change hc).2, enter]
  · simp [(h.change hc).2, enter, h.began]

theorem InSequence.failed (h : InSequence q g s) (f : Face) (e : Fault) :
    Concluding (.error e) g ⟨.failed, f.handle, none, some e.summary, f.restartCount⟩ s := by
  refine ⟨⟨h.settings, fun hp => by simp at hp⟩, fun _ => ⟨?_, ?_⟩⟩
  · simp [h.arrived]
  · simp [h.began]

theorem Closing.closed (h : Closing g s) (f : Face) (r : Except Fault Answer) :
    Concluding r g { f with phase := .uninitialized } s :=
  ⟨⟨h.settings, fun hp => by simp at hp⟩, fun hc => by simp [h.other] at hc⟩

end

theorem move_holds {settings : Settings} {now : Nat} {g : Upkeep} {c c' : Coordinator}
    {p p' : Point} {ms : List Moment} (hs : p.Sound c) (hm : Move now c p ms c' p')
    (h : Holds p g c.face c.settings) :
    (upkeeps settings).Passes now ms g fun g' => Holds p' g' c'.face c'.settings := by
  cases hm with
  | @take op queue hq =>
    refine ⟨lawful h.settings trivial (Dispatcher.running_start? hq), ?_, h.fits, rfl, rfl, rfl⟩
    exact congrArg op.settingsAfter h.settings
  | stayReady hp hl => exact ⟨⟨h.settings, h.fits⟩, fun hc => by simp [h.other rfl] at hc⟩
  | activate | restart t => exact h.entering rfl rfl _ _
  | keepRunning hk => exact h.kept hk
  | reconfigure hk hp => exact ⟨h.settings, h.arrived, fun _ => ⟨rfl, rfl⟩⟩
  | stop | yieldCaches => exact h.closing rfl rfl
  | enter trigger answer =>
    refine passes_shift h.settings hs ?_
    have he : g.enter (c.entry trigger).settings (c.entry trigger).phase =
        { g with plan := c.settings, began := true } := enter_openingPhase g c.settings c
    rw [he]
    exact h.inSequence now
  | @stopDependent q d ht hd =>
    refine ⟨lawful h.settings trivial hs, h.settings, h.plan, h.own, h.began, h.arrived, h.change, ?_⟩
    intro hc
    simp [(h.change hc).1, Trigger.clearsCaches] at ht
  | rest | spareDependent | keepCaches | keepEnvironment | keepCache => exact h
  | gone p hh => cases p <;> exact h
  | drop p hh =>
    cases p with
    | sequence q => exact ⟨lawful h.settings trivial hs, lawful h.settings trivial hs, h⟩
    | shutdown | yielding => exact ⟨lawful h.settings trivial hs, lawful h.settings trivial hs, h⟩
  | clearCaches | prepareEnvironment =>
    have ho := congrArg Settings.environment (h.own.trans h.plan.symm)
    exact ⟨lawful h.settings trivial hs, lawful h.settings ho hs, h⟩
  | launch =>
    have ho := congrArg Settings.server (h.own.trans h.plan.symm)
    exact ⟨lawful h.settings trivial hs, lawful h.settings ho hs, h⟩
  | awaitReady =>
    have ho := congrArg (fun s => s.server.readyTimeout) (h.own.trans h.plan.symm)
    exact ⟨lawful h.settings trivial hs, lawful h.settings ho hs, h⟩
  | stopUnready => exact ⟨lawful h.settings trivial hs, h⟩
  | succeed q id =>
    rw [Watch.passes_append]
    refine passes_shift h.settings hs ⟨?_, ?_, h.alone⟩
    · exact lawful h.settings trivial hs
    · exact h.succeeded c.face
  | fail q f =>
    rw [Watch.passes_append]
    exact passes_shift h.settings hs ⟨lawful h.settings trivial hs, h.failed c.face f, h.alone⟩
  | resumeDependent r hr hd =>
    have hother : g.configuring = false := by
      cases hc : g.configuring with
      | false => rfl
      | true => simp [h.2 hc] at hd
    exact ⟨lawful h.1.settings trivial hs, h.1, hother⟩
  | leave => exact h.1
  | removeCache => exact ⟨lawful h.settings trivial hs, h⟩
  | close r => exact passes_shift h.settings hs (h.closed c.face r)
  | finish r hr => exact ⟨⟨h.settings, h.told, fun _ => h.fits⟩, h.toKept⟩
  | dependentStopped q b =>
    have hq : InSequence q g c.settings := h.1
    exact ⟨hq.settings, hq.plan, hq.own, hq.began, hq.arrived, hq.change, hq.alone⟩
  | dependentFailed => exact h.1
  | stopped p id since hr =>
    have hw := h.1.waiting
    cases p with
    | sequence q => exact ⟨lawful hw.settings trivial hs, hw⟩
    | shutdown | yielding => exact ⟨lawful hw.settings trivial hs, hw⟩
  | cleared | prepared | launched | gotReady => exact h.1
  | notReady | overdue => exact h.1.toInSequence
  | callFails f hstage => rcases hstage with rfl | rfl | rfl <;> exact h.1
  | unreadyStopped => exact h.1
  | dependentResumed => exact h.1.1
  | cacheRemoved => exact h.1
  | sequencePanics payload hstage => exact h.1.waiting.guarded hstage
  | operationPanics payload hstage =>
    have hr := h.2
    simp [guardedPanics, Reply.isPanic, hstage] at hr

theorem Holds.settings {g : Upkeep} {c : Coordinator} (h : Holds c.point g c.face c.settings) :
    c.settings = g.settings := by
  cases hc : c.stage with
  | none =>
    simp only [point, hc] at h
    exact Kept.settings h
  | some stage =>
    simp only [point, hc] at h
    exact Waiting.settings h

/-- Between turns, a coordinator without a running operation is at rest. -/
theorem Holds.fits {g : Upkeep} {c : Coordinator} (hs : c.point.Sound c)
    (h : Holds c.point g c.face c.settings) (hr : c.queue.running = none) (hp : c.phase = .ready) :
    g.Fits c.handle c.settings := by
  cases hc : c.stage with
  | none =>
    simp only [point, hc] at h
    exact Kept.fits h hp
  | some stage =>
    simp only [point, hc] at hs
    have hrun := hs.2
    simp [hr] at hrun

/-- A change of the settings that takes more than one turn has begun a start sequence. -/
theorem Holds.underway {g : Upkeep} {c : Coordinator} (hs : c.point.Sound c)
    (h : Holds c.point g c.face c.settings) (hr : c.queue.running.isSome)
    (hc : g.configuring = true) : g.began = true ∧ g.arrived = false := by
  cases hstage : c.stage with
  | none =>
    simp only [point, hstage] at hs
    simp [hs.2] at hr
  | some stage =>
    simp only [point, hstage] at h
    exact Waiting.underway h hc

theorem signal_holds {settings : Settings} {now : Nat} {g : Upkeep} {c : Coordinator} {s : Signal}
    (hc : c.point.Sound c) (hs : s.Fits guardedPanics c) (h : Holds c.point g c.face c.settings) :
    (upkeeps settings).law g (.heard now c s) ∧
      Holds (s.target c) ((upkeeps settings).note g (.heard now c s)) (s.effect c).face
        (s.effect c).settings := by
  cases s with
  | reply r =>
    obtain ⟨stage, hstage, hr⟩ := hs
    simp only [point, hstage] at h hc
    simp only [Signal.target, hstage]
    exact ⟨lawful (Waiting.settings h) trivial hc.2,
      Waiting.answered now c h (Bool.and_eq_true_iff.mp hr).1, hr⟩
  | wake => exact ⟨⟨h.settings, trivial, h.fits hc⟩,
      at_halt (P := fun p => Holds p g c.face c.settings) h id⟩
  | submit | setDependent | down => exact ⟨⟨h.settings, trivial, h.fits hc⟩, h⟩

theorem holds_fresh (name toolName : String) (settings : Settings) :
    Holds .idle (upkeeps settings).start (fresh name toolName settings).face settings :=
  ⟨rfl, fun hp => by simp [fresh, face] at hp⟩

theorem run_holds {name toolName : String} {settings : Settings} {h : Story} {c : Coordinator}
    (hr : Run guardedPanics (fresh name toolName settings) h c) :
    (upkeeps settings).Kept h ∧ c.point.Sound c ∧
      Holds c.point ((upkeeps settings).read h) c.face c.settings :=
  hr.upheld (fun _ _ hs => (Bool.and_eq_true_iff.mp hs).1) signal_holds move_holds
    (sound_fresh name toolName settings) (holds_fresh name toolName settings)

end Upkeep

/-- The settings are those of the last change, and a server that is held at rest does not have to be
restarted for them. A change tells its caller that it restarted the server if it has come to `ready`
and that it did not if it has begun no start sequence; until then it is on its way to `ready`. -/
theorem ready_server_fits_settings {name toolName : String} {settings : Settings} {h : Story}
    {c : Coordinator} (hr : Run guardedPanics (fresh name toolName settings) h c) :
    c.settings = ((upkeeps settings).read h).settings ∧
      (c.queue.running = none → c.phase = .ready →
        ((upkeeps settings).read h).Fits c.handle c.settings) ∧
      (c.queue.running.isSome → ((upkeeps settings).read h).configuring = true →
        ((upkeeps settings).read h).began = true ∧ ((upkeeps settings).read h).arrived = false) ∧
      (upkeeps settings).Kept h := by
  obtain ⟨hk, hs, hh⟩ := Upkeep.run_holds hr
  exact ⟨hh.settings, hh.fits hs, hh.underway hs, hk⟩

/-- A change of a time limit only, and then one that replaces the server. -/
theorem ready_server_fits_settings_two_changes : ∃ h c,
    Run guardedPanics (fresh "main" "rcc" {}) h c ∧
    c.phase = .ready ∧ c.queue.running = none ∧ c.handle = some "ls-2" ∧
    c.settings = ((upkeeps {}).read h).settings ∧
      (c.queue.running = none → c.phase = .ready → ((upkeeps {}).read h).Fits c.handle c.settings) ∧
      (c.queue.running.isSome → ((upkeeps {}).read h).configuring = true →
        ((upkeeps {}).read h).began = true ∧ ((upkeeps {}).read h).arrived = false) ∧
      (upkeeps {}).Kept h := by
  have run := (.start : Run guardedPanics (fresh "main" "rcc" {}) [] _)
    |>.hear 0 (.submit .activate) trivial
    |>.hear 0 (.submit (.configure { server := { readyTimeoutSeconds := 5 } })) trivial
    |>.hear 0 (.submit (.configure { server := { command := "ls-bin" } })) trivial
    |>.hear 0 .wake trivial
    |>.hear 2 (.reply (.server "ls-1")) ⟨_, rfl, rfl⟩
    |>.hear 4 (.reply .done) ⟨_, rfl, rfl⟩
    |>.hear 5 (.reply .done) ⟨_, rfl, rfl⟩
    |>.hear 7 (.reply (.server "ls-2")) ⟨_, rfl, rfl⟩
    |>.hear 9 (.reply .done) ⟨_, rfl, rfl⟩
  exact ⟨_, _, run, rfl, rfl, rfl, ready_server_fits_settings run⟩

end Coordinator

end Supervisor
