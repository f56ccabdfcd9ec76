import Supervisor.Proofs.Session.Conduct
import Supervisor.Proofs.Settings.Loading
/-!
# Loading the settings again

A session that is told to load its settings again either says why it cannot, and leaves everything as it
is, or gives the new settings to both of its coordinators, whatever becomes of their servers. Only a
server for which it waits without a limit can keep it from coming to an end.
-/
namespace Supervisor.Session

variable {s s' : Session} {op : Operation}

/-! ## Sessions that are held -/

/-- What a session can come to: its user says anything, and others do anything to the machine. A session
that is held up hears nothing more. -/
inductive Reached : Session → Prop
  | create (m : Machine) (file : Option Path) (settings : Settings) : Reached (create m file settings)
  | start {s s' : Session} (h : Reached s) (hs : s.start = .ok s') : Reached s'
  | handle {s s' : Session} (h : Reached s) (c : Command) (hs : s.handle c = .ok s') : Reached s'
  | complain {s : Session} (h : Reached s) (line : String) : Reached (s.complain line)
  | drift {s : Session} (h : Reached s) (machine : Machine) : Reached { s with machine }

theorem atPeace_create (m : Machine) (file : Option Path) (settings : Settings) :
    (create m file settings).AtPeace := by
  cases hc : settings.forCompanion with
  | none =>
    simp only [create, hc]
    refine ⟨⟨rfl, rfl, rfl, rfl⟩, fun p hp => ?_⟩
    cases hp
  | some c =>
    simp only [create, hc]
    refine ⟨⟨rfl, rfl, rfl, rfl⟩, fun p hp => ?_⟩
    cases hp
    exact ⟨⟨rfl, rfl, rfl, rfl⟩, rfl⟩

theorem AtPeace.of_agrees (h : s.AtPeace) (ha : s.Agrees s') : s'.AtPeace := by
  obtain ⟨hmain, hcompanion⟩ := h
  refine ⟨ha.main ▸ hmain, ?_⟩
  rwa [CompanionRests, ha.companion]

theorem Ends.attempt {P H : Session → Prop} {seat : Seat}
    (h : Ends (After op P) H (carryOut seat op s)) (hP : ∀ s s', P s → s.Agrees s' → P s')
    (context : String) : Ends P H (s.attempt seat context op) := by
  refine h.bind ?_
  rintro ⟨r, s'⟩ ⟨-, hs'⟩
  cases r with
  | ok => exact hs'
  | error f => exact hP _ _ hs' ⟨rfl, rfl, rfl⟩

theorem AtPeace.attempt (h : s.AtPeace) (seat : Seat) (context : String) (op : Operation) :
    Ends AtPeace (fun _ => True) (s.attempt seat context op) := by
  refine Ends.attempt ?_ (fun _ _ => AtPeace.of_agrees) context
  cases seat with
  | main =>
    refine (carryOut_main h op).imp ?_ fun _ _ => trivial
    rintro ⟨r, s'⟩ ⟨hallows, hbesides, c, hc, hrest, -⟩
    obtain rfl := Option.some.inj hc
    exact ⟨hallows, hrest, hbesides.rests⟩
  | companion =>
    refine (conduct_companion h.companion op).imp ?_ fun _ _ => trivial
    rintro ⟨r, s'⟩ ⟨hallows, hdone⟩
    exact ⟨hallows, hdone.main ▸ h.main, hdone.rests⟩

/-! ## New settings -/

/-- What becomes of the settings of a companion when others are loaded. -/
def loadedCompanion (s : Session) (settings : Settings) : Option Settings :=
  s.companionSettings.map settings.forCompanion.getD

/-- The new settings are for a companion that the session has, and whose server may take any time. -/
def CompanionWaits (s : Session) (settings : Settings) : Prop :=
  s.companion.isSome ∧ ∃ c, settings.forCompanion = some c ∧ c.server.readyTimeoutSeconds = 0

/-- The companion gets its settings if there is one and they are there. -/
theorem configureCompanion_ends (h : s.AtPeace) (settings : Settings) :
    Ends (fun s' => s'.AtPeace ∧ s'.main = s.main ∧ s'.companionSettings = s.loadedCompanion settings)
      (fun s' => s'.main = s.main ∧ s'.companionSettings = s.loadedCompanion settings ∧
        s.CompanionWaits settings)
      (s.configureCompanion settings) := by
  unfold configureCompanion
  split
  · next p c hp hc =>
    have hloaded : s.companionSettings.map (Operation.configure c).settingsAfter =
        s.loadedCompanion settings := by
      rw [loadedCompanion, hc]
      rfl
    refine Ends.attempt ((conduct_companion h.companion (.configure c)).imp ?_ ?_) ?_ _
    · rintro ⟨r, s'⟩ ⟨hallows, hdone⟩
      exact ⟨hallows, ⟨hdone.main ▸ h.main, hdone.rests⟩, hdone.main, hdone.settings.trans hloaded⟩
    · rintro s' ⟨hmain, hsettings, own, hown, hlimit⟩
      have hcompanion : s'.companionSettings = some c := by
        rw [hsettings, companionSettings, hp]
        rfl
      obtain rfl : c = own := Option.some.inj (hcompanion.symm.trans hown)
      exact ⟨hmain, hsettings.trans hloaded, by rw [hp]; rfl, c, hc, hlimit⟩
    · rintro s' s'' ⟨hpeace, hmain, hsettings⟩ ha
      refine ⟨hpeace.of_agrees ha, ha.main.trans hmain, ?_⟩
      rwa [companionSettings, ha.companion]
  · next hp hc => exact ⟨h, rfl, by simp [loadedCompanion, companionSettings, hp]⟩
  · next hboth hneither =>
    refine ⟨h.of_agrees ⟨rfl, rfl, rfl⟩, rfl, ?_⟩
    show s.companionSettings = _
    cases hp : s.companion with
    | none => simp [loadedCompanion, companionSettings, hp]
    | some p =>
      cases hc : settings.forCompanion with
      | none => simp [loadedCompanion, companionSettings, hp, hc]
      | some c => exact (hboth p c hp hc).elim

/-- The main coordinator gets the settings. -/
theorem configureMain_ends (h : s.AtPeace) (settings : Settings) :
    Ends (fun s' => s'.AtPeace ∧ s'.main.coordinator.settings = settings ∧
        s'.companionSettings = s.companionSettings)
      (MainHeld s settings) (s.configureMain settings) := by
  have hends : Ends (After (.configure settings) fun s' => s'.AtPeace ∧
      s'.main.coordinator.settings = settings ∧ s'.companionSettings = s.companionSettings)
      (MainHeld s settings) (carryOut .main (.configure settings) s) := by
    refine (carryOut_main h (.configure settings)).imp ?_ fun _ hheld => hheld rfl
    rintro ⟨r, s'⟩ ⟨hallows, hbesides, c, hc, hrest, hsettings, -⟩
    obtain rfl := Option.some.inj hc
    exact ⟨hallows, ⟨hrest, hbesides.rests⟩, hsettings, hbesides.settings⟩
  refine hends.bind ?_
  rintro ⟨r, s'⟩ ⟨-, hpeace, hsettings, hcompanion⟩
  have hsame : ∀ s'', s'.Agrees s'' → s''.AtPeace ∧ s''.main.coordinator.settings = settings ∧
      s''.companionSettings = s.companionSettings := by
    intro s'' ha
    refine ⟨hpeace.of_agrees ha, by rw [ha.main, hsettings], ?_⟩
    rwa [companionSettings, ha.companion]
  dsimp only
  split <;> exact hsame _ ⟨rfl, rfl, rfl⟩

/-- Both coordinators get their settings, the companion first. -/
theorem configure_ends (h : s.AtPeace) (settings : Settings) :
    Ends (fun s' => s'.AtPeace ∧ s'.main.coordinator.settings = settings ∧
        s'.companionSettings = s.loadedCompanion settings)
      (fun s' => s'.companionSettings = s.loadedCompanion settings ∧
        (s'.main.coordinator.settings = settings ∧ settings.server.readyTimeoutSeconds = 0 ∨
          s'.main = s.main ∧ s.CompanionWaits settings))
      (do (← s.configureCompanion settings).configureMain settings) := by
  refine ((configureCompanion_ends h settings).imp (fun _ => id) ?_).bind ?_
  · rintro s' ⟨hmain, hcompanion, hwaits⟩
    exact ⟨hcompanion, .inr ⟨hmain, hwaits⟩⟩
  · rintro s' ⟨hpeace, hmain, hcompanion⟩
    refine (configureMain_ends hpeace settings).imp ?_ ?_
    · rintro s'' ⟨hpeace', hsettings, hsame⟩
      exact ⟨hpeace', hsettings, hsame.trans hcompanion⟩
    · rintro s'' ⟨hsettings, hsame, hlimit⟩
      exact ⟨hsame.trans hcompanion, .inl ⟨hsettings, hlimit⟩⟩

theorem AtPeace.reload (h : s.AtPeace) : Ends AtPeace (fun _ => True) s.reload := by
  unfold Session.reload
  split
  · exact h.of_agrees ⟨rfl, rfl, rfl⟩
  · next settings _ => exact (configure_ends h settings).imp (fun _ h => h.1) fun _ _ => trivial

/-! ## Conversations -/

theorem AtPeace.request (h : s.AtPeace) (method : String) (params : Option Json) :
    (s.request method params).AtPeace := by
  have hfold : ∀ (notices : List Notice) {s : Session}, s.AtPeace → (notices.foldl publish s).AtPeace := by
    intro notices
    induction notices with
    | nil => exact fun h => h
    | cons n notices ih => exact fun h => ih (h.of_agrees ⟨rfl, rfl, rfl⟩)
  unfold Session.request
  dsimp only
  split
  · split <;> exact (hfold _ h).of_agrees ⟨rfl, rfl, rfl⟩
  · exact (hfold _ h).of_agrees ⟨rfl, rfl, rfl⟩
  · exact hfold _ h

theorem AtPeace.handle (h : s.AtPeace) (c : Command) : Ends AtPeace (fun _ => True) (s.handle c) := by
  cases c with
  | restart | clearCaches | stop => exact h.attempt _ _ _
  | reload => exact h.reload
  | status => exact h.of_agrees ⟨rfl, rfl, rfl⟩
  | request method params => exact h.request method params
  | quit => exact h

theorem AtPeace.start (h : s.AtPeace) : Ends AtPeace (fun _ => True) s.start := by
  have hmain : ∀ s : Session, s.AtPeace → Ends AtPeace (fun _ => True)
      (do return (← s.attempt .main "Language server failed to start" .activate).complain Command.help) :=
    fun s h => (h.attempt _ _ _).bind fun _ hpeace => hpeace.of_agrees ⟨rfl, rfl, rfl⟩
  unfold Session.start
  split
  · exact (h.attempt _ _ _).bind hmain
  · exact hmain s h

theorem Ends.of_ok {P H : Session → Prop} {x : Doing Session} (h : Ends P H x) (hx : x = .ok s) : P s := by
  subst hx
  exact h

/-- Between two things that its user says, nothing is left to be done in a session. -/
theorem Reached.atPeace (h : Reached s) : s.AtPeace := by
  induction h with
  | create m file settings => exact atPeace_create m file settings
  | start _ hs ih => exact ih.start.of_ok hs
  | handle _ c hs ih => exact (ih.handle c).of_ok hs
  | complain _ line ih => exact ih.of_agrees ⟨rfl, rfl, rfl⟩
  | drift _ machine ih => exact ih.of_agrees ⟨rfl, rfl, rfl⟩

theorem Reached.converse (h : Reached s) (lines : List String) (hs : s.converse lines = .ok s') :
    Reached s' := by
  induction lines generalizing s with
  | nil =>
    obtain rfl := Except.ok.inj hs
    exact h
  | cons line rest ih =>
    unfold Session.converse at hs
    split at hs
    · exact ih h hs
    · obtain rfl := Except.ok.inj hs
      exact h
    · next c _ _ =>
      obtain ⟨s₁, hc, hrest⟩ := bind_eq_ok.mp hs
      exact ih (h.handle c hc) hrest
    · exact ih (h.complain _) hs

/-- Settings that cannot be loaded change nothing but the console. Those that are loaded become the
settings of the main coordinator, and their part for a companion that of the companion, if both are
there; it makes no difference what becomes of any restart. Only a server for which the new settings set no
limit holds the session up while it gets ready, and its coordinator has its settings already. -/
theorem reload_settings (h : Reached s) :
    (∀ f, loadSettings s.machine.host s.settingsFile = .error f →
      ∃ s', s.reload = .ok s' ∧ s'.main = s.main ∧ s'.companion = s.companion ∧ s'.bus = s.bus ∧
        s'.machine = s.machine) ∧
    ∀ settings, loadSettings s.machine.host s.settingsFile = .ok settings →
      (∀ s', s.reload = .ok s' → s'.main.coordinator.settings = settings ∧
        s'.companionSettings = s.companionSettings.map settings.forCompanion.getD) ∧
      (∀ s', s.reload = .error s' →
        s'.companionSettings = s.companionSettings.map settings.forCompanion.getD ∧
          (s'.main.coordinator.settings = settings ∧ settings.server.readyTimeoutSeconds = 0 ∨
            s'.main = s.main ∧ s.companion.isSome ∧
              ∃ c, settings.forCompanion = some c ∧ c.server.readyTimeoutSeconds = 0)) ∧
      (settings.server.readyTimeoutSeconds ≠ 0 →
        (∀ c, settings.forCompanion = some c → c.server.readyTimeoutSeconds ≠ 0) →
          ∃ s', s.reload = .ok s') := by
  refine ⟨fun f hf => ?_, fun settings hs => ?_⟩
  · rw [Session.reload, hf]
    exact ⟨_, rfl, rfl, rfl, rfl, rfl⟩
  · have hends := configure_ends h.atPeace settings
    rw [Session.reload, hs]
    dsimp only
    generalize (do (← s.configureCompanion settings).configureMain settings) = x at hends
    refine ⟨?_, ?_, fun hlimit hlimits => ?_⟩
    · rintro s' rfl
      exact hends.2
    · rintro s' rfl
      exact hends
    · cases x with
      | ok s' => exact ⟨s', rfl⟩
      | error s' =>
        obtain ⟨-, ⟨-, hnone⟩ | ⟨-, -, c, hc, hnone⟩⟩ := hends
        · exact (hlimit hnone).elim
        · exact (hlimits c hc hnone).elim

/-- A machine with settings for two servers. -/
def pairText : String :=
  "\x7b\"server\":\x7b\"command\":\"a\"\x7d,\"companion\":\x7b\"server\":\x7b\"command\":\"b\"\x7d\x7d\x7d"

def pairMachine : Machine where
  base := ⟨"/"⟩
  host := { files := Settings.treeOf pairText "" }

def pairSettings : Settings where
  server := { command := "a" }
  companion := some { server := { command := "b" } }

/-- A session that began with other settings. -/
def pairSession : Session :=
  create pairMachine (some ⟨"/lower/config.json"⟩) { companion := some {} }

theorem reload_settings_pair :
    Reached pairSession ∧ ∃ s', pairSession.reload = .ok s' ∧
      s'.main.coordinator.settings = pairSettings ∧
      s'.companionSettings = some { server := { command := "b" } } := by
  have hreached : Reached pairSession := .create _ _ _
  have hread : pairMachine.host.files.read ⟨"/lower/config.json"⟩ = .ok pairText := rfl
  have hjson : Path.hasExtension ⟨"/lower/config.json"⟩ "toml" = false :=
    Store.file_not_toml ⟨⟨"/lower"⟩⟩
  have hshape : Settings.shape.ofString pairText = .ok pairSettings := by cbv
  have hfile : Settings.loadFile pairMachine.host.files ⟨"/lower/config.json"⟩ = .ok pairSettings := by
    simp [Settings.loadFile, Files.load, hread, hjson, hshape]
  have hvalid : Settings.validate pairSettings = .ok () := rfl
  have hload : loadSettings pairSession.machine.host pairSession.settingsFile = .ok pairSettings := by
    show loadSettings pairMachine.host (some ⟨"/lower/config.json"⟩) = .ok pairSettings
    simp only [loadSettings, bind_eq_ok]
    exact ⟨_, hfile, (), hvalid, rfl⟩
  obtain ⟨hdone, -, hreturns⟩ := (reload_settings hreached).2 _ hload
  have hlimits : ∀ c, pairSettings.forCompanion = some c → c.server.readyTimeoutSeconds ≠ 0 := by
    rintro c hc
    obtain rfl := Option.some.inj hc
    decide
  obtain ⟨s', hs'⟩ := hreturns (by decide) hlimits
  exact ⟨hreached, s', hs', hdone s' hs'⟩

end Supervisor.Session
