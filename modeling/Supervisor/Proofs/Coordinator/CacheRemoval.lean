import Supervisor.Proofs.Coordinator.Gate
import Supervisor.Proofs.Coordinator.Provision
import Supervisor.Proofs.Files.Removing
/-!
# Removing the cache of a server

Clearing caches is to remove the cache directory of the server as well. It is the tool that removes it,
and the tool is asked only if environments are enabled. Then nothing is left of the directory when the new
server is launched, whatever reaches the coordinator meanwhile, unless the system refuses the removal or
somebody makes the directory again. If environments are not enabled, nothing is removed, and the caller is
told that all is well.
-/
namespace Supervisor

namespace Machine

/-- Nothing is under the path. -/
def Lacks (m : Machine) (p : Path) : Prop := m.host.files.fileExists p = false

/-- The workshop of a machine, where `rcc` says what comes of running a tool. -/
def workshopWith (rcc : Invocation → Machine → Except Fault ToolOutput × Machine) : Workshop Machine :=
  { workshop with run := rcc }

theorem lacks_removeDirectory {m : Machine} {p : Path} (h : m.host.files.Grants p) :
    (m.removeDirectory p).Lacks p := by
  obtain ⟨hname, hgrant⟩ := h
  unfold removeDirectory Lacks
  cases hr : m.host.files.removeDirectory p with
  | ok fs => exact Files.fileExists_of_removeDirectory hr hname
  | error e =>
    obtain rfl := hgrant e hr
    exact Files.fileExists_of_not_removed hr

theorem host_start (m : Machine) (s : Host.Start) : (m.start s).2.host = m.host := by
  unfold start
  split <;> rfl

/-- Programs with known behaviours leave the files alone when they are run as tools. -/
theorem host_runTool (i : Invocation) (m : Machine) : (runTool i m).2.host = m.host := by
  unfold runTool
  dsimp only
  generalize Host.Start.mk _ _ _ _ = s
  have hstart := m.host_start s
  cases hs : m.start s with
  | mk r m' =>
    rw [hs] at hstart
    cases r with
    | error e => exact hstart
    | ok program =>
      dsimp only
      split <;> exact hstart

theorem lacks_runTool {m : Machine} {p : Path} (i : Invocation) (h : m.Lacks p) :
    (runTool i m).2.Lacks p := by
  rwa [Lacks, host_runTool]

end Machine

/-! ## The tool -/

namespace Holotree
variable {σ : Type} {w : Workshop σ} {s : EnvironmentSettings} {st : σ}

/-- The cache directory goes last. -/
theorem clear_eq_removeCache (h : (clear w s st).1 = .ok ()) :
    (clear w s st).2 = removeCache w s (clear w { s with cacheDirectory := none } st).2 := by
  have hlocate : locate w { s with cacheDirectory := none } st = locate w s st := rfl
  have hlist (p : Path) : listCall p { s with cacheDirectory := none } = listCall p s := rfl
  unfold clear at h ⊢
  rw [hlocate]
  cases hp : locate w s st with
  | error f => simp [hp] at h
  | ok p =>
    simp only [hp, hlist] at h ⊢
    cases hr : w.run (listCall p s) st with
    | mk r st' =>
      simp only [hr] at h ⊢
      cases r with
      | error f => cases h
      | ok output =>
        simp only [EnvironmentSettings.collectPrefix] at h ⊢
        split at h
        · cases h
        · rfl

/-- A preparation keeps what rcc keeps. -/
theorem prepare_keeps {P : σ → Prop} (hrun : ∀ i st, P st → P (w.run i st).2) (h : P st) :
    P (prepare w s st).2 := by
  unfold prepare
  cases s.robotYaml with
  | none => exact h
  | some yaml =>
    cases locate w s st with
    | error f => exact h
    | ok p =>
      have hrun := hrun (variablesCall p s yaml) st h
      simp only
      cases hr : w.run (variablesCall p s yaml) st with
      | mk r st' =>
        rw [hr] at hrun
        cases r <;> exact hrun

end Holotree

namespace Coordinator

/-! ## Sweeps -/

/-- What happens, and the machine as it is then; and what the tool does. -/
inductive Scene
  | happened (m : Machine) (e : Happening)
  | done (d : Deed)

/-- How far the latest operation has come, as far as it concerns the cache directory. -/
structure Sweep where
  /-- The settings with which the operation began. -/
  plan : Settings
  clears : Bool := false
  /-- What the tool has done for it, the latest last. -/
  deeds : List Deed := []
  /-- The machine when a server was to be launched. -/
  launchedOn : Option Machine := none

namespace Sweep

def note (m : Machine) (g : Sweep) : Happening → Sweep
  | .did _ c (.started _ op) => { plan := c.settings, clears := op.clearsCaches }
  | .did _ _ (.call (.launch _)) => { g with launchedOn := some m }
  | _ => g

def add (g : Sweep) : Scene → Sweep
  | .happened m e => g.note m e
  | .done d => { g with deeds := g.deeds ++ [d] }

/-- `s` are the settings at the beginning. -/
def ofScenes (s : Settings) (h : List Scene) : Sweep := h.foldl add { plan := s }

/-- If environments are enabled, the directory was removed, and there is nothing in its place on the
machine. If they are not, the tool has done nothing at all. -/
def Swept (dir : Path) (m : Machine) (g : Sweep) : Prop :=
  if g.plan.environment.enabled then .removed dir ∈ g.deeds ∧ m.Lacks dir else g.deeds = []

/-- A server was to be launched, and that was what it found. -/
def Launched (dir : Path) (g : Sweep) : Prop := ∃ m, g.launchedOn = some m ∧ g.Swept dir m

end Sweep

section
variable (rcc : Invocation → Machine → Except Fault ToolOutput × Machine) (dir : Path)

/-- When all environments are deleted and it is the turn of the directory, the system removes it. -/
def GrantsRemoval (m : Machine) : Call → Prop
  | .clearCaches e => e.cacheDirectory = some dir →
    (Holotree.clear (Machine.workshopWith rcc) { e with cacheDirectory := none } m).2.host.files.Grants dir
  | _ => True

/-- A run of a coordinator with the tool. Signals reach the coordinator at any time, but replies to the
calls of the tool come from the tool only. Others change the machine in any way, but they do not make the
directory while the tool is at work. -/
inductive SweepRun (c₀ : Coordinator) : List Scene → Work Machine → Prop
  | start (m : Machine) : SweepRun c₀ [] ⟨c₀, m, none⟩
  | hear {h : List Scene} {c : Coordinator} {m : Machine} {pending : Option Reply} (now : Nat) (s : Signal)
      (hr : SweepRun c₀ h ⟨c, m, pending⟩)
      (hs : s.Fits (fun stage r => stage.accepts r && stage.toolCall?.isNone) c) :
      SweepRun c₀ (h ++ (Turn.since (c.hear now s) [.heard now c s]).map (.happened m))
        ⟨(c.hear now s).state, m, pending⟩
  | drift {h : List Scene} {c : Coordinator} {m : Machine} {pending : Option Reply} (m' : Machine)
      (hr : SweepRun c₀ h ⟨c, m, pending⟩)
      (hd : (c.stage.bind Stage.toolCall?).isSome → m.Lacks dir → m'.Lacks dir) :
      SweepRun c₀ h ⟨c, m', pending⟩
  /-- The tool does what it was asked for. -/
  | serve {h : List Scene} {c : Coordinator} {m m' : Machine} {call : Call} {r : Reply} {deeds : List Deed}
      (hr : SweepRun c₀ h ⟨c, m, none⟩) (ha : c.stage.bind Stage.toolCall? = some call)
      (hs : Holotree.serve (Machine.workshopWith rcc).recording call (m, []) = some (r, m', deeds))
      (hg : GrantsRemoval rcc dir m call) :
      SweepRun c₀ (h ++ deeds.map .done) ⟨c, m', some r⟩
  /-- The answer of the tool reaches the coordinator. -/
  | answer {h : List Scene} {c : Coordinator} {m : Machine} {r : Reply} (now : Nat)
      (hr : SweepRun c₀ h ⟨c, m, some r⟩) :
      SweepRun c₀ (h ++ (Turn.since (c.hear now (.reply r)) [.heard now c (.reply r)]).map (.happened m))
        ⟨(c.hear now (.reply r)).state, m, none⟩

end

/-! ## What holds at the points of a coordinator -/

namespace Sweep

/-- Whoever is told that the caches are cleared has a server that was launched so. -/
def law (dir : Path) (g : Sweep) : Happening → Prop
  | .did _ _ (.finished _ (.ok _)) =>
    g.clears = true → g.plan.environment.cacheDirectory = some dir → g.Launched dir
  | _ => True

/-- On a machine that does not change, as in a turn. -/
def watch (s : Settings) (dir : Path) (m : Machine) : Watch Sweep where
  start := { plan := s }
  note := note m
  law := law dir

def register (s : Settings) (dir : Path) : Register Scene Sweep where
  start := { plan := s }
  add := add
  law g
    | .happened _ e => law dir g e
    | .done _ => True

theorem watched (s : Settings) (dir : Path) (m : Machine) :
    (register s dir).Watched (.happened m) (watch s dir m) where
  note _ _ := rfl
  law _ _ h := h

/-- Caches are to be cleared in the sequence, and nothing was done so far. -/
structure Fresh (q : Sequence) (g : Sweep) : Prop where
  trigger : q.trigger.clearsCaches = true
  plan : g.plan = q.settings
  deeds : g.deeds = []

def Awaiting (dir : Path) (m : Machine) : Stage → Sweep → Prop
  | .stoppingDependent q | .stoppingOld q _ _ => Fresh q
  | .clearing q => fun g => Fresh q g ∧ q.settings.environment.enabled = true
  | .preparing q => fun g => g.plan = q.settings ∧ q.settings.environment.enabled = true ∧ g.Swept dir m
  | .launching _ | .awaitingReady _ _ | .resumingDependent _ (.ok _) => Launched dir
  | .stoppingUnready _ _ _ | .resumingDependent _ (.error _) => fun _ => True
  | .shuttingDown _ _ | .yielding _ _ _ | .removingCache _ => fun _ => False

/-- From the reply on, the directory is gone. -/
def Answered (dir : Path) (m : Machine) : Stage → Reply → Sweep → Prop
  | .clearing q, .done => fun g => g.plan = q.settings ∧ g.Swept dir m
  | .clearing _, _ => fun _ => True
  | stage, _ => Awaiting dir m stage

/-- At the points of an operation that clears caches. -/
def Under (dir : Path) (m : Machine) : Point → Sweep → Coordinator → Prop
  | .begun op => fun g c => op.clearsCaches = true ∧ g.plan = c.settings ∧ g.deeds = []
  | .entering t _ => fun g c => t.clearsCaches = true ∧ g.plan = c.settings ∧ g.deeds = []
  | .entered q | .dropping (.sequence q) | .clear q => fun g _ => Fresh q g
  | .prepare q => fun g _ => g.plan = q.settings ∧ g.Swept dir m
  | .launch _ _ => fun g _ => g.Swept dir m
  | .awaitReady _ _ | .succeed _ _ | .leave _ (.ok _) | .finish (.ok _) => fun g _ => g.Launched dir
  | .stopUnready _ _ _ | .fail _ _ | .leave _ (.error _) | .finish (.error _) => fun _ _ => True
  | .waiting stage => fun g _ => Awaiting dir m stage g
  | .answered stage r => fun g _ => Answered dir m stage r g
  | .idle | .looking => fun _ _ => True
  | .dropping _ | .clearOwnCache _ | .close _ => fun _ _ => False

def Holds (dir : Path) (m : Machine) (p : Point) (g : Sweep) (c : Coordinator) : Prop :=
  g.clears = true → g.plan.environment.cacheDirectory = some dir → Under dir m p g c

theorem move_holds {s : Settings} {dir : Path} {m : Machine} {now : Nat} {g : Sweep}
    {c c' : Coordinator} {p p' : Point} {ms : List Moment} (hm : Move now c p ms c' p')
    (h : Holds dir m p g c) : (watch s dir m).Passes now ms g fun g' => Holds dir m p' g' c' := by
  cases hm with
  | take => exact ⟨trivial, fun hc _ => ⟨hc, rfl, rfl⟩⟩
  | rest => exact fun _ _ => trivial
  | stayReady | activate | keepRunning | reconfigure | stop | yieldCaches =>
    -- These operations do not clear caches.
    intro hc hd
    cases (h hc hd).1
  | restart t => exact h
  | enter trigger answer =>
    refine .shift trivial (fun _ _ => trivial) (fun _ _ _ => rfl) fun hc hd => ?_
    obtain ⟨ht, hplan, hdeeds⟩ := h hc hd
    exact ⟨ht, hplan, hdeeds⟩
  | stopDependent =>
    refine ⟨trivial, fun hc hd => ?_⟩
    obtain ⟨ht, hplan, hdeeds⟩ := h hc hd
    exact ⟨ht, hplan, hdeeds⟩
  | spareDependent => exact h
  | gone p => cases p <;> exact h
  | drop p => cases p <;> exact ⟨trivial, trivial, h⟩
  | clearCaches hs =>
    refine ⟨trivial, trivial, fun hc hd => ?_⟩
    exact ⟨h hc hd, (Bool.and_eq_true_iff.mp hs).2⟩
  | keepCaches hs =>
    intro hc hd
    obtain ⟨htrigger, hplan, hdeeds⟩ := h hc hd
    refine ⟨hplan, ?_⟩
    -- The trigger clears, so it is the environments that are not enabled.
    rw [htrigger, Bool.true_and] at hs
    rwa [Swept, hplan, hs]
  | prepareEnvironment hs =>
    refine ⟨trivial, trivial, fun hc hd => ?_⟩
    obtain ⟨hplan, hswept⟩ := h hc hd
    exact ⟨hplan, hs, hswept⟩
  | keepEnvironment => exact fun hc hd => (h hc hd).2
  | launch => exact ⟨trivial, trivial, fun hc hd => ⟨m, rfl, h hc hd⟩⟩
  | awaitReady => exact ⟨trivial, trivial, h⟩
  | stopUnready => exact ⟨trivial, fun _ _ => trivial⟩
  | succeed =>
    rw [Watch.passes_append]
    exact .shift trivial (fun _ _ => trivial) (fun _ _ _ => rfl) ⟨trivial, h⟩
  | fail =>
    rw [Watch.passes_append]
    exact .shift trivial (fun _ _ => trivial) (fun _ _ _ => rfl) ⟨trivial, fun _ _ => trivial⟩
  | resumeDependent result => cases result <;> exact ⟨trivial, h⟩
  | leave result => cases result <;> exact h
  | removeCache => exact ⟨trivial, h⟩
  | close =>
    exact .shift trivial (fun _ _ => trivial) (fun _ _ _ => rfl) fun hc hd => (h hc hd).elim
  | finish result =>
    cases result with
    | ok => exact ⟨h, fun _ _ => trivial⟩
    | error => exact ⟨trivial, fun _ _ => trivial⟩
  | dependentStopped =>
    intro hc hd
    obtain ⟨htrigger, hplan, hdeeds⟩ := h hc hd
    exact ⟨htrigger, hplan, hdeeds⟩
  | stopped p => cases p <;> exact ⟨trivial, h⟩
  | prepared => exact fun hc hd => (h hc hd).2.2
  | dependentResumed s result => cases result <;> exact h
  | keepCache | dependentFailed | cleared | launched | gotReady | cacheRemoved => exact h
  | notReady | overdue | callFails | unreadyStopped | sequencePanics | operationPanics =>
    exact fun _ _ => trivial

/-- Between turns it does not matter what else the coordinator knows. -/
theorem Holds.seen {dir : Path} {m : Machine} {g : Sweep} {c : Coordinator}
    (h : Holds dir m c.point g c) (c' : Coordinator) : Holds dir m c.point g c' := by
  intro hc hd
  have hunder := h hc hd
  cases hs : c.stage <;> (simp only [point, hs] at hunder ⊢; exact hunder)

theorem signal_holds {dir : Path} {m : Machine} {g : Sweep} {c : Coordinator} {s : Signal}
    (hs : s.Fits (fun stage r => stage.accepts r && stage.toolCall?.isNone) c)
    (h : Holds dir m c.point g c) : Holds dir m (s.target c) g (s.effect c) := by
  cases s with
  | reply r =>
    obtain ⟨stage, hstage, hr⟩ := hs
    simp only [point, hstage] at h
    simp only [Signal.target, hstage]
    cases stage with
    | clearing | preparing => simp [Stage.toolCall?] at hr
    | _ => exact h
  | wake => exact at_halt (P := fun p => Holds dir m p g c) h fun _ _ _ => trivial
  | submit | setDependent | down => exact h.seen _

/-! ## What the tool does -/

theorem Swept.mono {dir : Path} {m m' : Machine} {g : Sweep} (h : g.Swept dir m)
    (hm : m.Lacks dir → m'.Lacks dir) : g.Swept dir m' := by
  unfold Swept at h ⊢
  split_ifs at h ⊢ with he
  · exact ⟨h.1, hm h.2⟩
  · exact h

theorem add_deeds (g : Sweep) (deeds : List Deed) :
    (deeds.map .done).foldl add g = { g with deeds := g.deeds ++ deeds } := by
  induction deeds generalizing g with
  | nil => simp
  | cons d deeds ih => simp [ih, add]

/-- A clearing that ends well has removed the directory. -/
theorem swept_of_clear {rcc : Invocation → Machine → Except Fault ToolOutput × Machine} {dir : Path}
    {e : EnvironmentSettings} {m m' : Machine} {deeds : List Deed} {g : Sweep}
    (henabled : g.plan.environment.enabled = true) (he : e.cacheDirectory = some dir)
    (hg : GrantsRemoval rcc dir m (.clearCaches e))
    (hc : Holotree.clear (Machine.workshopWith rcc).recording e (m, []) = (.ok (), m', deeds)) :
    ({ g with deeds := g.deeds ++ deeds } : Sweep).Swept dir m' := by
  obtain ⟨deeds', hrun, hclears⟩ := Holotree.clear_recording (Machine.workshopWith rcc) e m []
  rw [hc] at hrun
  obtain ⟨hok, hm, rfl⟩ : .ok () = (Holotree.clear (Machine.workshopWith rcc) e m).1 ∧
      m' = (Holotree.clear (Machine.workshopWith rcc) e m).2 ∧ deeds = deeds' := by
    simpa using hrun
  refine (if_pos henabled).mpr ⟨?_, ?_⟩
  · rw [← hok] at hclears
    cases hclears with
    | done => simp [he]
  · rw [hm, Holotree.clear_eq_removeCache hok.symm, Holotree.removeCache, he]
    exact Machine.lacks_removeDirectory (hg he)

theorem swept_of_prepare {rcc : Invocation → Machine → Except Fault ToolOutput × Machine} {dir : Path}
    {m : Machine} {g : Sweep} (hrcc : ∀ i m, m.Lacks dir → (rcc i m).2.Lacks dir)
    (henabled : g.plan.environment.enabled = true) (h : g.Swept dir m) (e : EnvironmentSettings)
    (deeds : List Deed) : ({ g with deeds := g.deeds ++ deeds } : Sweep).Swept dir
      (Holotree.prepare (Machine.workshopWith rcc) e m).2 := by
  obtain ⟨hremoved, hlacks⟩ := (if_pos henabled).mp h
  have hlacks' := Holotree.prepare_keeps (P := fun m => m.Lacks dir) (w := Machine.workshopWith rcc)
    (s := e) (fun i m => hrcc i m) hlacks
  exact (if_pos henabled).mpr ⟨List.mem_append_left _ hremoved, hlacks'⟩

/-- The tool answers the call for which the operation waits, and from then on the directory is gone. -/
theorem serve_answers {rcc : Invocation → Machine → Except Fault ToolOutput × Machine} {dir : Path}
    {stage : Stage} {call : Call} {m m' : Machine} {r : Reply} {deeds : List Deed} {g : Sweep}
    (hrcc : ∀ i m, m.Lacks dir → (rcc i m).2.Lacks dir) (hcall : stage.toolCall? = some call)
    (hs : Holotree.serve (Machine.workshopWith rcc).recording call (m, []) = some (r, m', deeds))
    (hg : GrantsRemoval rcc dir m call) :
    stage.accepts r = true ∧ (g.plan.environment.cacheDirectory = some dir → Awaiting dir m stage g →
      Answered dir m' stage r { g with deeds := g.deeds ++ deeds }) := by
  cases stage with
  | clearing q =>
    obtain rfl : Call.clearCaches q.settings.environment = call := Option.some.inj hcall
    cases hc : Holotree.clear (Machine.workshopWith rcc).recording q.settings.environment (m, []) with
    | mk result st =>
      simp only [Holotree.serve, hc] at hs
      cases hs
      cases result with
      | error f => exact ⟨rfl, fun _ _ => trivial⟩
      | ok =>
        refine ⟨rfl, fun hd hawaiting => ?_⟩
        obtain ⟨hfresh, henabled⟩ := hawaiting
        refine ⟨hfresh.plan, ?_⟩
        rw [← hfresh.plan] at hc hg henabled
        exact swept_of_clear henabled hd hg hc
  | preparing q =>
    obtain rfl : Call.prepareEnvironment q.settings.environment = call := Option.some.inj hcall
    obtain ⟨deeds', hrun, -⟩ :=
      Holotree.prepare_recording (Machine.workshopWith rcc) q.settings.environment m []
    have hswept (hg : Awaiting dir m (.preparing q) g) : Awaiting dir
        (Holotree.prepare (Machine.workshopWith rcc) q.settings.environment m).2 (.preparing q)
        { g with deeds := g.deeds ++ deeds' } := by
      obtain ⟨hplan, henabled, hswept⟩ := hg
      exact ⟨hplan, henabled, swept_of_prepare hrcc (hplan ▸ henabled) hswept _ _⟩
    cases hp : (Holotree.prepare (Machine.workshopWith rcc) q.settings.environment m).1 <;>
      (simp only [Holotree.serve, hrun, hp] at hs; cases hs; exact ⟨rfl, fun _ => hswept⟩)
  | _ => cases hcall

/-! ## Along a run -/

theorem Awaiting.drift {dir : Path} {m m' : Machine} {stage : Stage} {g : Sweep}
    (h : Awaiting dir m stage g) (hm : stage.toolCall?.isSome → m.Lacks dir → m'.Lacks dir) :
    Awaiting dir m' stage g := by
  cases stage with
  | preparing q => exact ⟨h.1, h.2.1, h.2.2.mono (hm rfl)⟩
  | resumingDependent q result => cases result <;> exact h
  | _ => exact h

theorem answered_iff {dir : Path} {m : Machine} {stage : Stage} {r : Reply} {g : Sweep}
    (hs : ∀ q, stage ≠ .clearing q) : Answered dir m stage r g ↔ Awaiting dir m stage g := by
  cases stage with
  | clearing q => exact (hs q rfl).elim
  | _ => exact Iff.rfl

theorem Answered.drift {dir : Path} {m m' : Machine} {stage : Stage} {r : Reply} {g : Sweep}
    (h : Answered dir m stage r g) (hm : stage.toolCall?.isSome → m.Lacks dir → m'.Lacks dir) :
    Answered dir m' stage r g := by
  cases stage with
  | clearing q =>
    cases r with
    | done => exact ⟨h.1, h.2.mono (hm rfl)⟩
    | _ => trivial
  | _ =>
    rw [answered_iff (by simp)] at h ⊢
    exact h.drift hm

/-- The tool has not been called yet, or it has answered and the coordinator goes on waiting. -/
def Ready (dir : Path) (g : Sweep) (x : Work Machine) : Prop :=
  match x.pending with
  | none => Holds dir x.machine x.coordinator.point g x.coordinator
  | some r => ∃ stage, x.coordinator.stage = some stage ∧ stage.toolCall?.isSome ∧
      stage.accepts r = true ∧
      (g.clears = true → g.plan.environment.cacheDirectory = some dir →
        Answered dir x.machine stage r g)

end Sweep

section
variable {rcc : Invocation → Machine → Except Fault ToolOutput × Machine} {dir : Path}
variable {name toolName : String} {settings : Settings} {h : List Scene} {x : Work Machine}

theorem SweepRun.holds (hrcc : ∀ i m, m.Lacks dir → (rcc i m).2.Lacks dir)
    (hr : SweepRun rcc dir (fresh name toolName settings) h x) :
    (Sweep.register settings dir).Kept h ∧ x.coordinator.point.Sound x.coordinator ∧
      (Sweep.ofScenes settings h).Ready dir x := by
  induction hr with
  | start m => exact ⟨Register.kept_nil _, sound_fresh _ _ _, fun _ _ => trivial⟩
  | @hear h c m pending now s _ hs ih =>
    obtain ⟨hk, (hc : c.point.Sound c), hg⟩ := ih
    cases pending with
    | none =>
      have hfits : s.Fits Stage.accepts c := hs.mono fun _ _ hr => (Bool.and_eq_true_iff.mp hr).1
      exact (Sweep.watched settings dir m).onward (Sweep.Holds dir m)
        (fun _ hm hg => Sweep.move_holds hm hg) hk now hc hfits trivial (Sweep.signal_holds hs hg)
    | some r =>
      obtain ⟨stage, (hstage : c.stage = some stage), hcall, haccepts, hanswered⟩ := hg
      -- The tool has answered, and only that answer makes the coordinator go on.
      obtain ⟨hhear, hstage'⟩ := hear_of_waiting hc hstage now (hs.ne_reply hstage hcall)
      rw [hhear] at hstage' ⊢
      refine ⟨hk.snoc trivial, s.sound_effect hc, stage, hstage', hcall, haccepts, ?_⟩
      rw [Sweep.ofScenes, List.foldl_append]
      exact hanswered
  | @drift h c m pending m' _ hd ih =>
    obtain ⟨hk, hc, hg⟩ := ih
    refine ⟨hk, hc, ?_⟩
    cases pending with
    | none =>
      intro hclears hdir
      have hunder := hg hclears hdir
      cases hstage : c.stage with
      | none => simp only [point, hstage]; trivial
      | some stage =>
        simp only [point, hstage] at hunder ⊢
        exact Sweep.Awaiting.drift hunder fun hcall => hd (by rwa [hstage])
    | some r =>
      obtain ⟨stage, (hstage : c.stage = some stage), hcall, haccepts, hanswered⟩ := hg
      exact ⟨stage, hstage, hcall, haccepts, fun hclears hdir =>
        (hanswered hclears hdir).drift fun hcall => hd (by rwa [hstage])⟩
  | @serve h c m m' call r deeds _ ha hs hg ih =>
    obtain ⟨hk, hc, hholds⟩ := ih
    obtain ⟨stage, hstage, hcall⟩ := Option.bind_eq_some_iff.mp ha
    obtain ⟨haccepts, hanswers⟩ :=
      Sweep.serve_answers (g := Sweep.ofScenes settings h) hrcc hcall hs hg
    refine ⟨hk.append_map (f := .done) (fun _ _ => trivial) deeds, hc, stage, hstage, by simp [hcall], haccepts, ?_⟩
    rw [Sweep.ofScenes, List.foldl_append, Sweep.add_deeds]
    intro hclears hdir
    have hunder := hholds hclears hdir
    simp only [point, hstage] at hunder
    exact hanswers hdir hunder
  | @answer h c m r now _ ih =>
    obtain ⟨hk, hc, stage, (hstage : c.stage = some stage), -, haccepts, hanswered⟩ := ih
    refine (Sweep.watched settings dir m).onward (Sweep.Holds dir m)
      (fun _ hm hg => Sweep.move_holds hm hg) hk now hc ⟨stage, hstage, haccepts⟩ trivial ?_
    rw [Signal.target_reply hstage]
    exact hanswered

/-- Whoever cleared caches and is told that all went well has got a server that was launched without the
old cache, if environments are enabled; and if they are not, nothing was removed for it. -/
theorem cache_removed_iff_enabled (hrcc : ∀ i m, m.Lacks dir → (rcc i m).2.Lacks dir)
    (hr : SweepRun rcc dir (fresh name toolName settings) h x) {before after : List Scene}
    {m : Machine} {now : Nat} {c : Coordinator} {ticket : Ticket} {a : Answer}
    (hh : h = before ++ .happened m (.did now c (.finished ticket (.ok a))) :: after)
    (hclears : (Sweep.ofScenes settings before).clears = true)
    (hdir : (Sweep.ofScenes settings before).plan.environment.cacheDirectory = some dir) :
    (Sweep.ofScenes settings before).Launched dir :=
  (hr.holds hrcc).1 _ _ _ hh hclears hdir

end

/-- rcc finds no environments and tells no variables. -/
def cachingMachine : Machine where
  host := { files := {
    root := .directory [("cache", .directory [("index", .file "" false)]), ("rcc", .file "" true)]
    workingDirectory := [] } }
  tools := [("rcc", [{ lead := "holotree list", stdout := [123, 125] }, { stdout := [91, 93] }])]
  base := ⟨"/"⟩

def cachingSettings (enabled : Bool) : Settings where
  environment := {
    enabled, rccPath := some ⟨"/rcc"⟩, robotYaml := some ⟨"/robot.yaml"⟩, cacheDirectory := some ⟨"/cache"⟩ }

/-- The directory is gone when the new server is launched; without environments it is still there. -/
theorem cache_removed_iff_enabled_both :
    (∃ (h before after : List Scene) (m : Machine) (now : Nat) (c : Coordinator) (ticket : Ticket)
      (x : Work Machine), SweepRun Machine.runTool ⟨"/cache"⟩ (fresh "main" "rcc" (cachingSettings true)) h x ∧
      h = before ++ .happened m (.did now c (.finished ticket (.ok .done))) :: after ∧
      ∃ m', (Sweep.ofScenes (cachingSettings true) before).launchedOn = some m' ∧ m'.Lacks ⟨"/cache"⟩) ∧
    ∃ (h before after : List Scene) (m : Machine) (now : Nat) (c : Coordinator) (ticket : Ticket)
      (x : Work Machine), SweepRun Machine.runTool ⟨"/cache"⟩ (fresh "main" "rcc" (cachingSettings false)) h x ∧
      h = before ++ .happened m (.did now c (.finished ticket (.ok .done))) :: after ∧
      ∃ m', (Sweep.ofScenes (cachingSettings false) before).launchedOn = some m' ∧
        ¬ m'.Lacks ⟨"/cache"⟩ := by
  have hrcc (i : Invocation) (m : Machine) (h : m.Lacks ⟨"/cache"⟩) :
      (Machine.runTool i m).2.Lacks ⟨"/cache"⟩ := Machine.lacks_runTool i h
  have cut (n : Nat) (h : List Scene) : h = h.take n ++ h.drop n := (List.take_append_drop n h).symm
  have hgrants : cachingMachine.host.files.Grants ⟨"/cache"⟩ := by
    refine ⟨by decide, fun e he => ?_⟩
    have hremoved : cachingMachine.host.files.removeDirectory ⟨"/cache"⟩ = .ok
      { root := .directory [("rcc", .file "" true)], workingDirectory := [] } := rfl
    cases hremoved.symm.trans he
  have swept := (.start cachingMachine :
      SweepRun Machine.runTool ⟨"/cache"⟩ (fresh "main" "rcc" (cachingSettings true)) _ _)
    |>.hear 0 (.submit (.restart .clearCaches)) trivial
    |>.hear 0 .wake trivial
    |>.serve rfl rfl (fun _ => hgrants)
    |>.answer 1
    |>.serve rfl rfl trivial
    |>.answer 2
    |>.hear 3 (.reply (.server "ls-1")) ⟨_, rfl, rfl⟩
    |>.hear 4 (.reply .done) ⟨_, rfl, rfl⟩
  have kept := (.start cachingMachine :
      SweepRun Machine.runTool ⟨"/cache"⟩ (fresh "main" "rcc" (cachingSettings false)) _ _)
    |>.hear 0 (.submit (.restart .clearCaches)) trivial
    |>.hear 0 .wake trivial
    |>.hear 1 (.reply (.server "ls-1")) ⟨_, rfl, rfl⟩
    |>.hear 2 (.reply .done) ⟨_, rfl, rfl⟩
  obtain ⟨m, hlaunched, hswept⟩ := cache_removed_iff_enabled hrcc swept (cut 23 _) rfl rfl
  obtain ⟨m', hlaunched', -⟩ := cache_removed_iff_enabled hrcc kept (cut 14 _) rfl rfl
  refine ⟨⟨_, _, _, _, _, _, _, _, swept, cut 23 _, m, hlaunched, ?_⟩,
    _, _, _, _, _, _, _, _, kept, cut 14 _, m', hlaunched', ?_⟩
  · exact ((if_pos rfl).mp hswept).2
  · obtain rfl : cachingMachine = m' := Option.some.inj hlaunched'
    have hthere : cachingMachine.host.files.fileExists ⟨"/cache"⟩ = true := rfl
    intro hlacks
    cases hthere.symm.trans hlacks

end Coordinator

end Supervisor
