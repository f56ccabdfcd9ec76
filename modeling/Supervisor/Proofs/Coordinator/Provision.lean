import Supervisor.Session.Basic
import Supervisor.Proofs.Coordinator.Register
import Supervisor.Proofs.Holotree.Clearing
/-!
# What a server is provided with

A coordinator lets its tool prepare an environment, and starts the server in it. The tool can tell
anything, and between its calls the machine can change in any way. Nevertheless a server gets the
variables that the tool has told in the very same start sequence, over those of the settings with which
the sequence began, and nothing else.
-/
namespace Supervisor

/-- The call of the tool for which an operation waits there. -/
def Stage.toolCall? : Stage → Option Call
  | .clearing s => some (.clearCaches s.settings.environment)
  | .preparing s => some (.prepareEnvironment s.settings.environment)
  | _ => none

def Call.isForTool : Call → Bool
  | .clearCaches _ | .prepareEnvironment _ => true
  | _ => false

namespace Holotree
variable {σ : Type} (w : Workshop σ)

/-- What the tool does when it is called. -/
def serve : Call → σ → Option (Reply × σ)
  | .clearCaches e, st => some (Session.replyOf (clear w e st).1, (clear w e st).2)
  | .prepareEnvironment e, st =>
    match prepare w e st with
    | (.ok env, st) => some (.environment env, st)
    | (.error f, st) => some (.fault f, st)
  | _, _ => none

/-- The main coordinator of a session is served by the tool. -/
theorem perform_of_serve {s : Session} {call : Call} {r : Reply} {m : Machine} (l : Launcher)
    (dependent : Session.Conduct) (h : serve Machine.workshop call s.machine = some (r, m)) :
    s.perform .main l dependent call = .ok (r, { s with machine := m }) := by
  cases call with
  | clearCaches e =>
    cases h
    rfl
  | prepareEnvironment e =>
    cases hp : prepare Machine.workshop e s.machine with
    | mk result m' =>
      cases result <;> (simp only [serve, hp] at h; cases h; simp [Session.perform, hp])
  | _ => cases h

end Holotree

namespace Coordinator

/-- Others do not reply to the calls of the tool. -/
theorem Signal.Fits.ne_reply {c : Coordinator} {s : Signal} {stage : Stage}
    (hs : s.Fits (fun stage r => stage.accepts r && stage.toolCall?.isNone) c)
    (hstage : c.stage = some stage) (hcall : stage.toolCall?.isSome) (r : Reply) : s ≠ .reply r := by
  rintro rfl
  obtain ⟨stage', hstage', hr⟩ := hs
  obtain rfl : stage = stage' := Option.some.inj (hstage.symm.trans hstage')
  simp only [Bool.and_eq_true, Option.isNone_iff_eq_none] at hr
  simp [hr.2] at hcall

/-! ## Runs with the tool -/

inductive Incident
  | happened (e : Happening)
  | done (d : Deed)

abbrev Chronicle := List Incident

/-- The chronicle after a signal. -/
def Chronicle.onward (h : Chronicle) (c : Coordinator) (now : Nat) (s : Signal) : Chronicle :=
  h ++ (Turn.since (c.hear now s) [.heard now c s]).map .happened

/-- A start sequence, as far as it concerns what the server is provided with. -/
structure Provision where
  /-- The settings at the beginning of the latest sequence. -/
  plan : Settings
  /-- How the tool, asked for variables in this sequence, has answered, the latest last. -/
  told : List (Invocation × Except Fault ToolOutput) := []
  /-- The call that was made last, until its reply is heard. -/
  asked : Option Call := none

namespace Provision

def note (g : Provision) : Happening → Provision
  | .did _ c (.phaseSet .starting) | .did _ c (.phaseSet .restarting) =>
    { g with plan := c.settings, told := [] }
  | .did _ _ (.call x) => { g with asked := some x }
  | .heard _ _ (.reply _) => { g with asked := none }
  | _ => g

def record (g : Provision) : Deed → Provision
  | .ran i r =>
    if i.args.take 2 = ["holotree", "variables"] then { g with told := g.told ++ [(i, r)] } else g
  | .removed _ => g

def add (g : Provision) : Incident → Provision
  | .happened e => g.note e
  | .done d => g.record d

/-- `s` are the settings at the beginning. -/
def ofChronicle (s : Settings) (h : Chronicle) : Provision := h.foldl add { plan := s }

/-- The tool was asked once for the variables of the sequence, and these are what it told, in order. -/
def Tells (g : Provision) (vs : List Holotree.Variable) : Prop :=
  ∃ p yaml i output, g.plan.environment.robotYaml = some yaml ∧
    Holotree.Calls g.plan.environment p
      ["holotree", "variables", "--space", g.plan.environment.space, "--json", yaml.text] i ∧
    g.told = [(i, .ok output)] ∧
    (Json.Shape.list Holotree.Variable.shape).ofString (Holotree.trimmed output.stdout) = .ok vs

/-- The server gets the last value that was told under a name, or else the value in the settings; and
if no environment is prepared, just what is in the settings. -/
def Provides (g : Provision) (spec : LaunchSpec) : Prop :=
  spec.settings = g.plan.server ∧
    if g.plan.environment.enabled then
      ∃ vs, g.Tells vs ∧ ∀ name, spec.environment.find? name =
        (Table.find? (vs.map fun v => (v.key, v.value)).reverse name).or
          (g.plan.server.env.find? name)
    else ∀ name, spec.environment.find? name = g.plan.server.env.find? name

end Provision

/-- A coordinator, the machine on which its tool works, and what the tool has answered to a call. -/
structure Work (σ : Type) where
  coordinator : Coordinator
  machine : σ
  pending : Option Reply := none

/-- A run of a coordinator whose tool keeps environments on a machine. Signals reach the coordinator at
any time, but replies to the calls of the tool come from the tool only. -/
inductive ToolRun {σ : Type} (w : Workshop σ) (c₀ : Coordinator) : Chronicle → Work σ → Prop
  | start (st : σ) : ToolRun w c₀ [] ⟨c₀, st, none⟩
  | hear {h : Chronicle} {c : Coordinator} {st : σ} {pending : Option Reply} (now : Nat) (s : Signal)
      (hr : ToolRun w c₀ h ⟨c, st, pending⟩)
      (hs : s.Fits (fun stage r => stage.accepts r && stage.toolCall?.isNone) c) :
      ToolRun w c₀ (h.onward c now s) ⟨(c.hear now s).state, st, pending⟩
  /-- Others change the machine. -/
  | drift {h : Chronicle} {c : Coordinator} {st : σ} {pending : Option Reply} (st' : σ)
      (hr : ToolRun w c₀ h ⟨c, st, pending⟩) : ToolRun w c₀ h ⟨c, st', pending⟩
  /-- The tool does what it was asked for. -/
  | serve {h : Chronicle} {c : Coordinator} {st st' : σ} {call : Call} {r : Reply} {deeds : List Deed}
      (hr : ToolRun w c₀ h ⟨c, st, none⟩) (ha : (Provision.ofChronicle c₀.settings h).asked = some call)
      (hs : Holotree.serve w.recording call (st, []) = some (r, st', deeds)) :
      ToolRun w c₀ (h ++ deeds.map .done) ⟨c, st', some r⟩
  /-- The answer of the tool reaches the coordinator. -/
  | answer {h : Chronicle} {c : Coordinator} {st : σ} {r : Reply} (now : Nat)
      (hr : ToolRun w c₀ h ⟨c, st, some r⟩) :
      ToolRun w c₀ (h.onward c now (.reply r)) ⟨(c.hear now (.reply r)).state, st, none⟩

/-! ## What holds at the points of a coordinator -/

/-- Every launch is provided for. -/
def provisions (s : Settings) : Watch Provision where
  start := { plan := s }
  note := Provision.note
  law g
    | .did _ _ (.call (.launch spec)) => g.Provides spec
    | _ => True

namespace Provision

/-- A sequence has begun with these settings, and nothing has been told for it yet. -/
def Begun (s : Settings) (g : Provision) : Prop := g.plan = s ∧ g.told = []

/-- What was prepared for the sequence. -/
structure Supplied (q : Sequence) (env : Table String) (g : Provision) : Prop where
  plan : g.plan = q.settings
  told : if q.settings.environment.enabled then
      ∃ vs, g.Tells vs ∧ env = .ofList (vs.map fun v => (v.key, v.value))
    else env = []

def Awaiting : Stage → Provision → Prop
  | .stoppingDependent q | .stoppingOld q _ _ | .clearing q => Begun q.settings
  | .preparing q => fun g => Begun q.settings g ∧ q.settings.environment.enabled = true
  | _ => fun _ => True

/-- From the reply on, what the tool has told is at hand. -/
def Answered : Stage → Reply → Provision → Prop
  | .preparing q, .environment env => Supplied q env
  | .preparing _, _ => fun _ => True
  | stage, _ => Awaiting stage

def Supply : Point → Provision → Prop
  | .entered q | .dropping (.sequence q) | .clear q | .prepare q => Begun q.settings
  | .launch q env => Supplied q env
  | .waiting stage => Awaiting stage
  | .answered stage r => Answered stage r
  | _ => fun _ => True

/-- Between two turns, a call waits for its reply where an operation waits. -/
def Asked : Point → Option Call → Prop
  | .waiting stage => fun a => ∃ x, a = some x ∧ (x.isForTool = true → stage.toolCall? = some x)
  | _ => fun a => a = none

structure Holds (p : Point) (g : Provision) : Prop where
  asked : Asked p g.asked
  supply : Supply p g

/-- The server gets what was prepared, over the variables of its settings. -/
theorem Supplied.provides {q : Sequence} {env : Table String} {g : Provision}
    (h : Supplied q env g) : g.Provides ⟨q.settings.server, env⟩ := by
  have htold := h.told
  rw [← h.plan] at htold ⊢
  refine ⟨rfl, ?_⟩
  cases he : g.plan.environment.enabled with
  | true =>
    simp only [he, if_true] at htold ⊢
    obtain ⟨vs, htells, rfl⟩ := htold
    refine ⟨vs, htells, fun name => ?_⟩
    rw [LaunchSpec.environment, Table.find?_override _ (Table.ordered_ofList _), Table.find?_ofList]
  | false =>
    simp only [he, Bool.false_eq_true, if_false] at htold ⊢
    obtain rfl := htold
    exact fun _ => rfl

theorem note_openingPhase (g : Provision) (now : Nat) (c c' : Coordinator) :
    g.note (.did now c' (.phaseSet c.openingPhase)) = { g with plan := c'.settings, told := [] } := by
  simp only [openingPhase]
  split <;> rfl

theorem move_holds {s : Settings} {now : Nat} {g : Provision} {c c' : Coordinator} {p p' : Point}
    {ms : List Moment} (hm : Move now c p ms c' p') (h : Holds p g) :
    (provisions s).Passes now ms g fun g' => Holds p' g' := by
  obtain ⟨ha, hg⟩ := h
  cases hm with
  | enter trigger answer =>
    refine .shift trivial (fun _ _ => trivial) (fun _ _ _ => rfl) ?_
    have hn : (provisions s).note g (.did now (c.entry trigger) (.phaseSet (c.entry trigger).phase)) =
        { g with plan := c.settings, told := [] } := note_openingPhase g now c (c.entry trigger)
    rw [hn]
    exact ⟨ha, rfl, rfl⟩
  | take | finish => exact ⟨trivial, ha, trivial⟩
  | rest | stayReady | activate | restart | keepRunning | reconfigure | stop | yieldCaches | keepCache
  | leave | launched | gotReady | notReady | overdue | callFails | unreadyStopped | dependentResumed
  | cacheRemoved | sequencePanics | operationPanics => exact ⟨ha, trivial⟩
  | spareDependent | keepCaches | dependentStopped | dependentFailed | cleared | prepared =>
    exact ⟨ha, hg⟩
  | stopDependent =>
    exact ⟨trivial, ⟨_, rfl, fun hx => by cases hx⟩, hg⟩
  | gone p hh => cases p <;> exact ⟨ha, hg⟩
  | drop p hh =>
    cases p <;> exact ⟨trivial, trivial, ⟨_, rfl, fun hx => by cases hx⟩, hg⟩
  | clearCaches => exact ⟨trivial, trivial, ⟨_, rfl, fun _ => rfl⟩, hg⟩
  | prepareEnvironment he => exact ⟨trivial, trivial, ⟨_, rfl, fun _ => rfl⟩, hg, he⟩
  | keepEnvironment he => exact ⟨ha, hg.1, by simp [he]⟩
  | launch => exact ⟨trivial, hg.provides, ⟨_, rfl, fun hx => by cases hx⟩, trivial⟩
  | awaitReady => exact ⟨trivial, trivial, ⟨_, rfl, fun hx => by cases hx⟩, trivial⟩
  | stopUnready | resumeDependent | removeCache =>
    exact ⟨trivial, ⟨_, rfl, fun hx => by cases hx⟩, trivial⟩
  | succeed | fail =>
    rw [Watch.passes_append]
    exact .shift trivial (fun _ _ => trivial) (fun _ _ _ => rfl) ⟨trivial, ha, trivial⟩
  | close => exact .shift trivial (fun _ _ => trivial) (fun _ _ _ => rfl) ⟨ha, trivial⟩
  | stopped p => cases p <;> exact ⟨trivial, ha, hg⟩

theorem signal_holds {now : Nat} {g : Provision} {c : Coordinator} {s : Signal}
    (hs : s.Fits (fun stage r => stage.accepts r && stage.toolCall?.isNone) c) (h : Holds c.point g) :
    Holds (s.target c) (g.note (.heard now c s)) := by
  cases s with
  | reply r =>
    obtain ⟨stage, hstage, hr⟩ := hs
    simp only [point, hstage] at h
    simp only [Signal.target, hstage]
    refine ⟨rfl, ?_⟩
    cases stage with
    | clearing | preparing => simp [Stage.toolCall?] at hr
    | _ => exact h.supply
  | wake => exact at_halt (P := fun p => Holds p g) h fun hi => ⟨hi.asked, trivial⟩
  | submit | setDependent | down => exact h

end Provision

/-! ## Chronicles -/

namespace Chronicle

/-- What is provided is written down from a chronicle. -/
def register (s : Settings) : Register Incident Provision where
  start := { plan := s }
  add := Provision.add
  law g
    | .happened e => (provisions s).law g e
    | .done _ => True

theorem watched (s : Settings) : (register s).Watched .happened (provisions s) where
  note _ _ := rfl
  law _ _ h := h

theorem ofChronicle_snoc (s : Settings) (h : Chronicle) (x : Incident) :
    Provision.ofChronicle s (h ++ [x]) = (Provision.ofChronicle s h).add x :=
  (register s).read_snoc h x

theorem onward_of_waiting {c : Coordinator} {stage : Stage} (h : Chronicle) (hc : c.point.Sound c)
    (hstage : c.stage = some stage) (now : Nat) {sig : Signal} (hn : ∀ r, sig ≠ .reply r) :
    h.onward c now sig = h ++ [.happened (.heard now c sig)] := by
  rw [Chronicle.onward, (hear_of_waiting hc hstage now hn).1]
  rfl

theorem ofChronicle_deeds (s : Settings) (h : Chronicle) (deeds : List Deed) :
    Provision.ofChronicle s (h ++ deeds.map .done) =
      deeds.foldl Provision.record (Provision.ofChronicle s h) := by
  simp [Provision.ofChronicle, List.foldl_append, List.foldl_map, Provision.add]

end Chronicle

/-! ## What the tool does -/

namespace Provision

theorem plan_record (g : Provision) (d : Deed) : (g.record d).plan = g.plan := by
  cases d with
  | ran i r =>
    simp only [record]
    split <;> rfl
  | removed p => rfl

theorem plan_foldl_record (g : Provision) (deeds : List Deed) :
    (deeds.foldl record g).plan = g.plan := by
  induction deeds generalizing g with
  | nil => rfl
  | cons d deeds ih => exact (ih _).trans (plan_record g d)

/-- What a preparation tells is written down. -/
theorem Begun.tells {s : Settings} {g : Provision} {p yaml : Path} {i : Invocation}
    {output : ToolOutput} {vs : List Holotree.Variable} (hg : Begun s g)
    (hy : s.environment.robotYaml = some yaml)
    (hi : Holotree.Calls s.environment p ["holotree", "variables", "--space", s.environment.space, "--json", yaml.text] i)
    (hvs : (Json.Shape.list Holotree.Variable.shape).ofString (Holotree.trimmed output.stdout) =
      .ok vs) : (g.record (.ran i (.ok output))).Tells vs := by
  have hargs : i.args.take 2 = ["holotree", "variables"] := by
    rw [hi.args_eq]
    rfl
  have hrecord : g.record (.ran i (.ok output)) = { g with told := [(i, .ok output)] } := by
    rw [record, if_pos hargs, hg.2, List.nil_append]
  rw [hrecord]
  rw [← hg.1] at hy hi
  exact ⟨p, yaml, i, output, hy, hi, rfl, hvs⟩

/-- What a clearing runs tells no variables. -/
theorem foldl_record_clears {σ : Type} {w : Workshop σ} {s : EnvironmentSettings} {st : σ}
    {result : Except Fault Unit} {deeds : List Deed} (h : Holotree.Clears w s st result deeds)
    (g : Provision) : deeds.foldl record g = g := by
  have hsilent : ∀ d ∈ deeds, g.record d = g := by
    intro d hd
    cases d with
    | removed p => rfl
    | ran i r =>
      obtain ⟨p, args, hi, hargs⟩ := h.calls hd
      refine if_neg ?_
      rw [hi.args_eq]
      rcases hargs with rfl | ⟨id, rfl⟩ <;> simp
  clear h
  induction deeds with
  | nil => rfl
  | cons d deeds ih =>
    obtain ⟨hd, hdeeds⟩ := List.forall_mem_cons.mp hsilent
    rw [List.foldl_cons, hd]
    exact ih hdeeds

/-- The tool answers the call that was made, and what it tells is what the server gets. -/
theorem serve_answers {σ : Type} {w : Workshop σ} {g : Provision} {stage : Stage} {call : Call} {st : σ}
    {r : Reply} {st' : σ} {deeds : List Deed} (hg : Awaiting stage g)
    (hcall : call.isForTool = true → stage.toolCall? = some call)
    (hs : Holotree.serve w.recording call (st, []) = some (r, st', deeds)) :
    stage.accepts r = true ∧ stage.toolCall? = some call ∧
      Answered stage r (deeds.foldl record g) := by
  cases call with
  | clearCaches e =>
    have hstage := hcall rfl
    cases stage with
    | clearing q =>
      obtain ⟨deeds', hrun, hclears⟩ := Holotree.clear_recording w e st []
      simp only [Holotree.serve, hrun] at hs
      cases hs
      refine ⟨?_, hstage, ?_⟩
      · cases (Holotree.clear w e st).1 <;> rfl
      · rw [List.nil_append, foldl_record_clears hclears]
        exact hg
    | _ => cases hstage
  | prepareEnvironment e =>
    have hstage := hcall rfl
    cases stage with
    | preparing q =>
      obtain ⟨hbegun, henabled⟩ := hg
      obtain rfl : q.settings.environment = e := by injection Option.some.inj hstage
      obtain ⟨deeds', hrun, hprepares⟩ := Holotree.prepare_recording w q.settings.environment st []
      generalize (Holotree.prepare w q.settings.environment st).1 = result at hrun hprepares
      simp only [Holotree.serve, hrun] at hs
      cases result with
      | error f =>
        cases hs
        exact ⟨rfl, hstage, trivial⟩
      | ok env =>
        cases hs
        refine ⟨rfl, hstage, (plan_foldl_record g _).trans hbegun.1, ?_⟩
        rw [if_pos henabled]
        generalize hresult : Except.ok env = result at hprepares
        cases hprepares with
        | refused => cases hresult
        | failed => cases hresult
        | told hy hi =>
          obtain ⟨vs, hvs, henv⟩ := Holotree.readVariables_eq_ok.mp hresult.symm
          exact ⟨vs, hbegun.tells hy hi hvs, henv⟩
    | _ => cases hstage
  | _ => cases hs

/-- What holds of a coordinator and its tool: the tool has not been called yet, or it has answered and
the coordinator goes on waiting. -/
def Ready {σ : Type} (g : Provision) (x : Work σ) : Prop :=
  match x.pending with
  | none => Holds x.coordinator.point g
  | some r => ∃ stage call, x.coordinator.stage = some stage ∧ stage.toolCall? = some call ∧
      stage.accepts r = true ∧ Answered stage r g

theorem Answered.heard {stage : Stage} {r : Reply} {g : Provision} (h : Answered stage r g) (now : Nat)
    (c : Coordinator) : Answered stage r (g.note (.heard now c (.reply r))) := by
  cases stage with
  | preparing q =>
    cases r with
    | environment env => exact ⟨h.plan, h.told⟩
    | _ => trivial
  | _ => exact h

theorem note_heard {g : Provision} {s : Signal} (hn : ∀ r, s ≠ .reply r) (now : Nat)
    (c : Coordinator) : g.note (.heard now c s) = g := by
  cases s with
  | reply r => exact (hn r rfl).elim
  | _ => rfl

end Provision

section
variable {σ : Type} {w : Workshop σ} {name toolName : String} {settings : Settings} {h : Chronicle}
variable {x : Work σ}

theorem ToolRun.holds (hr : ToolRun w (fresh name toolName settings) h x) :
    (Chronicle.register settings).Kept h ∧ x.coordinator.point.Sound x.coordinator ∧
      (Provision.ofChronicle settings h).Ready x := by
  induction hr with
  | start st => exact ⟨Register.kept_nil _, sound_fresh _ _ _, rfl, trivial⟩
  | @hear h c st pending now s _ hs ih =>
    obtain ⟨hk, (hc : c.point.Sound c), hg⟩ := ih
    cases pending with
    | none =>
      have hfits : s.Fits Stage.accepts c := hs.mono fun _ _ hr => (Bool.and_eq_true_iff.mp hr).1
      exact (Chronicle.watched settings).onward (fun p g _ => Provision.Holds p g)
        (fun _ hm hg => Provision.move_holds hm hg) hk now hc hfits trivial
        (Provision.signal_holds hs hg)
    | some r =>
      obtain ⟨stage, call, (hstage : c.stage = some stage), hcall, haccepts, hanswered⟩ := hg
      have hn := hs.ne_reply hstage (by simp [hcall])
      obtain ⟨hhear, hstage'⟩ := hear_of_waiting hc hstage now hn
      rw [Chronicle.onward_of_waiting h hc hstage now hn]
      rw [hhear] at hstage' ⊢
      refine ⟨hk.snoc trivial, s.sound_effect hc, stage, call, hstage', hcall, haccepts, ?_⟩
      rw [Chronicle.ofChronicle_snoc, Provision.add, Provision.note_heard hn]
      exact hanswered
  | drift st _ ih => exact ih
  | @serve h c st st' call r deeds _ ha hs ih =>
    obtain ⟨hk, hc, hasked, hsupply⟩ := ih
    refine ⟨hk.append_map (f := .done) (fun _ _ => trivial) deeds, hc, ?_⟩
    cases hstage : c.stage with
    | none =>
      simp only [point, hstage] at hasked
      cases hasked.symm.trans ha
    | some stage =>
      simp only [point, hstage] at hasked hsupply
      obtain ⟨call', hcall', hfor⟩ := hasked
      obtain rfl : call' = call := Option.some.inj (hcall'.symm.trans ha)
      obtain ⟨haccepts, hcall, hanswered⟩ := Provision.serve_answers hsupply hfor hs
      rw [← Chronicle.ofChronicle_deeds] at hanswered
      exact ⟨stage, call', hstage, hcall, haccepts, hanswered⟩
  | @answer h c st r now _ ih =>
    obtain ⟨hk, hc, stage, call, (hstage : c.stage = some stage), -, haccepts, hanswered⟩ := ih
    refine (Chronicle.watched settings).onward (fun p g _ => Provision.Holds p g)
      (fun _ hm hg => Provision.move_holds hm hg) hk now hc ⟨stage, hstage, haccepts⟩ trivial ?_
    rw [Signal.target_reply hstage]
    exact ⟨rfl, hanswered.heard now c⟩

/-- A server gets the variables that the tool has told in the same start sequence, the last value of
each, over those of the settings at the beginning of the sequence; and nothing else. -/
theorem launch_is_provided (hr : ToolRun w (fresh name toolName settings) h x) {before after : Chronicle}
    {now : Nat} {c : Coordinator} {spec : LaunchSpec}
    (hh : h = before ++ .happened (.did now c (.call (.launch spec))) :: after) :
    (Provision.ofChronicle settings before).Provides spec :=
  hr.holds.1 _ _ _ hh

end

/-- A tool that prints what it finds on the machine. -/
def printing : Workshop String where
  exists? _ _ := true
  find? _ _ := none
  run _ st := (.ok ⟨st, ""⟩, st)
  removeDirectory _ st := st

theorem serve_printing {e : EnvironmentSettings} {p yaml : Path} {text : String} {env : Table String}
    (hp : e.rccPath = some p) (hy : e.robotYaml = some yaml)
    (ht : Holotree.readVariables text = .ok env) :
    Holotree.serve printing.recording (.prepareEnvironment e) (text, []) =
      some (.environment env, text, [.ran (Holotree.variablesCall p e yaml) (.ok ⟨text, ""⟩)]) := by
  simp [Holotree.serve, Holotree.prepare, Holotree.locate, hp, hy, ht, printing, Workshop.recording]

def holotreeSettings : EnvironmentSettings where
  enabled := true
  rccPath := some ⟨"/rcc"⟩
  robotYaml := some ⟨"/robot.yaml"⟩

/-- A first server with `A`, and after a change of the settings one without it. -/
theorem launch_is_provided_reconfigured : ∃ (settings : Settings) (h before after : Chronicle)
    (now : Nat) (c : Coordinator) (spec : LaunchSpec) (x : Work String),
    ToolRun printing (fresh "main" "rcc" settings) h x ∧
    h = before ++ .happened (.did now c (.call (.launch spec))) :: after ∧
    settings.server.env = [("A", "0")] ∧ spec.environment = [("B", "3"), ("C", "0")] ∧
    (Provision.ofChronicle settings before).Provides spec := by
  have first : Holotree.readVariables
      "[\x7b\"key\":\"A\",\"value\":\"1\"\x7d,\x7b\"key\":\"A\",\"value\":\"2\"\x7d]" =
      .ok [("A", "2")] := by cbv
  have second : Holotree.readVariables "[\x7b\"key\":\"B\",\"value\":\"3\"\x7d]" =
      .ok [("B", "3")] := by cbv
  have run := (.start _ : ToolRun printing
      (fresh "main" "rcc" { server := { env := [("A", "0")] }, environment := holotreeSettings }) _ _)
    |>.hear 0 (.submit .activate) trivial
    |>.hear 0 .wake trivial
    |>.serve rfl (serve_printing rfl rfl first)
    |>.answer 1
    |>.hear 2 (.reply (.server "ls-1")) ⟨_, rfl, rfl⟩
    |>.hear 3 (.reply .done) ⟨_, rfl, rfl⟩
    |>.hear 4 (.submit (.configure
      { server := { command := "ls-bin", env := [("B", "0"), ("C", "0")] }, environment := holotreeSettings })) trivial
    |>.hear 4 .wake trivial
    |>.hear 5 (.reply .done) ⟨_, rfl, rfl⟩
    |>.drift "[\x7b\"key\":\"B\",\"value\":\"3\"\x7d]"
    |>.serve rfl (serve_printing rfl rfl second)
    |>.answer 6
  have cut (l : Chronicle) : l = l.take 33 ++ l.drop 33 := (List.take_append_drop 33 l).symm
  exact ⟨_, _, _, _, _, _, _, _, run, cut _, rfl, rfl, launch_is_provided run (cut _)⟩

end Coordinator

end Supervisor
