import Supervisor.Session.CommandLine
import Supervisor.Proofs.Machine.Launching
import Supervisor.Proofs.Settings.Loading
/-!
# Looking up commands

A checkup looks up the command of a server, and so does a launcher that remembers nothing; but the
launcher leaves it to the system to find a path from the working directory of the server. So the two
agree about all other commands, and about such a path only if the lookup happens to find it.
-/
namespace Supervisor

/-! ## What a launcher says -/

namespace Launcher

/-- What the launcher remembers is still so. -/
def Truthful (l : Launcher) (h : Host) : Prop :=
  ∀ now command available, l.remembered? now command = some available →
    (h.find? command).isSome = available

theorem truthful_empty (h : Host) : Truthful {} h := by
  intro now command available hr
  cases hr

theorem Truthful.isAvailable {l : Launcher} {h : Host} (ht : l.Truthful h) (now : Nat)
    (command : String) : (l.isAvailable h now command).1 = (h.find? command).isSome := by
  cases hr : l.remembered? now command with
  | some available =>
    rw [isAvailable_of_remembered? h hr]
    exact (ht now command available hr).symm
  | none => rw [isAvailable_of_not_remembered h hr]

theorem Truthful.after {l : Launcher} {h : Host} (ht : l.Truthful h) (now : Nat)
    (command : String) : (l.isAvailable h now command).2.Truthful h := by
  intro later other available hr
  obtain ⟨since, hk, hlt⟩ := remembered?_eq_some.mp hr
  obtain hsame | ⟨rfl, hf, hnew⟩ := known_isAvailable l h now command other
  · exact ht later other available (remembered?_eq_some.mpr ⟨since, hsame ▸ hk, hlt⟩)
  · rw [hnew] at hk
    cases hk
    exact hf

end Launcher

/-- A launcher that remembers nothing misses a command if the lookup does not find it, unless it is for
the system to find it. -/
theorem Machine.launch_missing_iff {m : Machine} {spec : LaunchSpec}
    (hv : spec.settings.validate = .ok ()) :
    (m.launch {} spec).1 = .error (Launcher.missingFault spec.settings.command) ↔
      Launcher.isRelative spec.settings = false ∧ m.host.find? spec.settings.command = none := by
  have hlaunch := congrArg Prod.fst (Launcher.launch_of_machine {} spec m)
  rw [← hlaunch]
  constructor
  · intro h
    exact Launcher.onlyFound_empty.missing (.process m) h
  · rintro ⟨hr, hf⟩
    rw [(Launcher.asksHost_of_unknown hv rfl).2 _ _ _ _ rfl hr, hf]
    rfl

namespace Session

/-! ## What a checkup says -/

/-- The settings of a server. -/
def serverOf (s : Settings) : Seat → Option ServerSettings
  | .main => some s.server
  | .companion => s.companion.map (·.server)

/-- The line of a checkup about a server. -/
def verdict (what missing command : String) (found : Bool) : String :=
  if found then "✓ " ++ what ++ ": " ++ command else "✗ " ++ missing ++ ": " ++ command

theorem verdict_eq_iff {what missing command : String} {found : Bool} :
    verdict what missing command found = "✓ " ++ what ++ ": " ++ command ↔ found = true := by
  cases found with
  | true => exact ⟨fun _ => rfl, fun _ => rfl⟩
  | false =>
    refine ⟨fun h => ?_, fun h => by cases h⟩
    have hhead := congrArg (fun s => s.toList.head?) h
    simp [verdict] at hhead

def Seat.title : Seat → String
  | .main => "Language server"
  | .companion => "Companion server"

/-- The place of the line about a server, below the settings and an empty line. -/
def Seat.line : Seat → Nat
  | .main => 2
  | .companion => 3

/-- A checkup of the machine reports that the command of the server was found. -/
def Found (m : Machine) (file : Option Path) (seat : Seat) (command : String) : Prop :=
  (check m file).console.stdout[Seat.line seat]? = some ("✓ " ++ Seat.title seat ++ ": " ++ command)

theorem stdout_check {m : Machine} {file : Option Path} {s : Settings}
    (hs : loadSettings m.host file = .ok s) : (check m file).console.stdout =
      (Checkup.make Machine.workshop m.host m.clock s m).lines := by
  simp only [check, hs]
  split <;> rfl

theorem serverLine_make {σ : Type} (w : Workshop σ) (h : Host) (now : Nat) (s : Settings) (st : σ) :
    (Checkup.make w h now s st).lines[2]? =
      some (verdict "Language server" "Language server not found" s.server.command
        (({} : Launcher).isAvailable h now s.server.command).1) := rfl

theorem companionLine_make {σ : Type} (w : Workshop σ) (h : Host) (now : Nat) {s : Settings} (st : σ)
    {c : CompanionSettings} (hc : s.companion = some c) :
    (Checkup.make w h now s st).lines[3]? =
      some (verdict "Companion server" "Companion server not found" c.server.command
        ((({} : Launcher).isAvailable h now s.server.command).2.isAvailable h now
          c.server.command).1) := by
  obtain ⟨version, server, environment, companion⟩ := s
  obtain rfl := hc
  rfl

/-- The checkup looks up every command, wherever the server is to work. -/
theorem found_iff {m : Machine} {file : Option Path} {s : Settings}
    (hs : loadSettings m.host file = .ok s) {seat : Seat} {server : ServerSettings}
    (hserver : serverOf s seat = some server) :
    Found m file seat server.command ↔ (m.host.find? server.command).isSome := by
  have htrue := Launcher.truthful_empty m.host
  rw [Found, stdout_check hs]
  cases seat with
  | main =>
    obtain rfl := Option.some.inj hserver
    rw [Seat.line, serverLine_make, Option.some_inj, Seat.title, verdict_eq_iff, htrue.isAvailable]
  | companion =>
    obtain ⟨c, hc, rfl⟩ := Option.map_eq_some_iff.mp hserver
    rw [Seat.line, companionLine_make _ _ _ _ hc, Option.some_inj, Seat.title, verdict_eq_iff,
      (htrue.after _ _).isAvailable]

/-- Settings that were loaded give every server a command. -/
theorem validate_of_loadSettings {h : Host} {file : Option Path} {s : Settings}
    (hs : loadSettings h file = .ok s) {seat : Seat} {server : ServerSettings}
    (hserver : serverOf s seat = some server) : server.validate = .ok () := by
  have hv : s.validate = .ok () := by
    unfold loadSettings at hs
    cases file <;>
    · obtain ⟨s', -, hs⟩ := bind_eq_ok.mp hs
      obtain ⟨_, hv, hs⟩ := bind_eq_ok.mp hs
      cases hs
      exact hv
  simp only [Settings.validate, bind_eq_ok] at hv
  obtain ⟨_, hmain, _, -, hcompanion⟩ := hv
  cases seat with
  | main =>
    obtain rfl := Option.some.inj hserver
    exact hmain
  | companion =>
    obtain ⟨c, hc, rfl⟩ := Option.map_eq_some_iff.mp hserver
    rw [hc] at hcompanion
    cases hcommand : c.server.hasCommand with
    | true => rw [ServerSettings.validate, if_pos hcommand]
    | false => simp [CompanionSettings.validate, hcommand] at hcompanion

/-! ## The two together -/

/-- A launcher that remembers nothing refuses to start the server because its command is not found. -/
def Refused (m : Machine) (server : ServerSettings) (extra : Table String) : Prop :=
  (m.launch {} ⟨server, extra⟩).1 = .error (Launcher.missingFault server.command)

/-- A checkup and a launcher on the same host agree about a server unless its command is a path that is
left to the system and that the lookup does not find. Then the checkup says that the command was not
found, and the launcher goes on to start it. -/
theorem checkup_agrees_iff {m m' : Machine} {file : Option Path} {s : Settings}
    (hs : loadSettings m.host file = .ok s) {seat : Seat} {server : ServerSettings}
    (hserver : serverOf s seat = some server) (hhost : m'.host = m.host) (extra : Table String) :
    (Found m file seat server.command ↔ (m.host.find? server.command).isSome) ∧
      (Refused m' server extra ↔
        Launcher.isRelative server = false ∧ m.host.find? server.command = none) ∧
      ((Found m file seat server.command ↔ ¬ Refused m' server extra) ↔
        (Launcher.isRelative server = true → (m.host.find? server.command).isSome)) := by
  have hfound := found_iff hs hserver
  have hrefused : Refused m' server extra ↔
      Launcher.isRelative server = false ∧ m.host.find? server.command = none := by
    rw [← hhost]
    exact Machine.launch_missing_iff (validate_of_loadSettings hs hserver)
  refine ⟨hfound, hrefused, ?_⟩
  rw [hfound, hrefused]
  cases Launcher.isRelative server <;> cases m.host.find? server.command <;> simp

/-- A project whose server stands in the directory in which it is to work, and nowhere else. -/
def elsewhere : Machine where
  base := ⟨"/"⟩
  host := {
    files := {
      root := .directory [
        ("project", .directory [("config.json",
          .file "\x7b\"server\":\x7b\"command\":\"./ls\",\"cwd\":\"/tools\"\x7d\x7d" false)]),
        ("tools", .directory [("ls", .file "" true)])]
      workingDirectory := ["project"] } }

def elsewhereServer : ServerSettings where
  command := "./ls"
  workingDirectory := some ⟨"/tools"⟩

/-- Its checkup says that the command was not found, and yet its server is started. -/
theorem checkup_agrees_iff_elsewhere :
    loadSettings elsewhere.host (some ⟨"/project/config.json"⟩) = .ok { server := elsewhereServer } ∧
      ¬ Found elsewhere (some ⟨"/project/config.json"⟩) .main elsewhereServer.command ∧
      ¬ Refused elsewhere elsewhereServer [] := by
  have hread : elsewhere.host.files.read ⟨"/project/config.json"⟩ = .ok
      "\x7b\"server\":\x7b\"command\":\"./ls\",\"cwd\":\"/tools\"\x7d\x7d" := rfl
  have hjson : Path.hasExtension ⟨"/project/config.json"⟩ "toml" = false :=
    Store.file_not_toml ⟨⟨"/project"⟩⟩
  have hshape : Settings.shape.ofString
      "\x7b\"server\":\x7b\"command\":\"./ls\",\"cwd\":\"/tools\"\x7d\x7d" =
        .ok { server := elsewhereServer } := by cbv
  have hfile : Settings.loadFile elsewhere.host.files ⟨"/project/config.json"⟩ =
      .ok { server := elsewhereServer } := by
    simp [Settings.loadFile, Files.load, hread, hjson, hshape]
  have hvalid : Settings.validate { server := elsewhereServer } = .ok () := rfl
  have hs : loadSettings elsewhere.host (some ⟨"/project/config.json"⟩) =
      .ok { server := elsewhereServer } := by
    simp only [loadSettings, bind_eq_ok]
    exact ⟨_, hfile, (), hvalid, rfl⟩
  have hserver : serverOf { server := elsewhereServer } .main = some elsewhereServer := rfl
  have hhost : elsewhere.host = elsewhere.host := rfl
  obtain ⟨hfound, hrefused, -⟩ := checkup_agrees_iff hs hserver hhost []
  have hrelative : Launcher.isRelative elsewhereServer = true := rfl
  have hfind : elsewhere.host.find? elsewhereServer.command = none := rfl
  refine ⟨hs, ?_, ?_⟩
  · intro h
    have hsome := hfound.mp h
    rw [hfind] at hsome
    cases hsome
  · intro h
    have hplain := (hrefused.mp h).1
    rw [hrelative] at hplain
    cases hplain

end Session

end Supervisor
