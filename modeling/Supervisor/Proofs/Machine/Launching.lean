import Supervisor.Machine.Server
import Supervisor.Proofs.Lsp.Opening
import Supervisor.Proofs.Table
/-!
# Launching

A launcher remembers of a command only that it was found, so it calls a command missing only if a lookup
has not found it just now. What it remembers may be out of date, and then a server cannot be started.
That happens once: the launcher forgets the command, and the next lookup is made on the host.
-/
namespace Supervisor

theorem SystemError.message_ne (e : SystemError) : e.message ≠ "executable not found" := by
  cases e with
  | number n =>
    intro h
    have hlast := congrArg (fun s => s.toList.getLast?) h
    rw [message, String.toList_append, List.getLast?_append] at hlast
    cases hlast
  | zeroInName | zeroInData => decide

theorem Fault.message_request_ne (reason : String) :
    (Fault.request reason).message ≠ "executable not found" := by
  have hmessage : (Fault.request reason).message = "Language server request failed: " ++ reason := rfl
  rw [hmessage]
  intro h
  have hhead := congrArg (fun s => s.toList.head?) h
  simp at hhead

/-! ## Starts -/

/-- The fault of a server that could not be started is never that its command was not found. -/
theorem Machine.spawn_ne_missing (spec : LaunchSpec) (m : Machine) :
    (m.spawn spec).1 ≠ .error (Launcher.missingFault spec.settings.command) := by
  intro h
  simp only [spawn] at h
  split at h
  · next e _ _ =>
    injection h with h
    injection h with _ hreason
    exact e.message_ne hreason
  · cases h

namespace Launcher

/-- What can become of the start of a server. -/
inductive Spawned (spec : LaunchSpec) : Except Fault ServerId → Prop
  /-- The process runs, or the host has refused to start it. -/
  | process (m : Machine) : Spawned spec (m.spawn spec).1
  /-- The process did not take the request to initialize. -/
  | talk {id : ServerId} {params : Json} {moves : List Lsp.Move} {t : Lsp.Talk} {f : Fault}
    (h : Lsp.Talk.Run Lsp.Talk.anyhow (.start id spec.settings.command params) moves t)
    (hf : .spawn spec.settings.command params (.ended (.error f)) ∈ t.calls) : Spawned spec (.error f)

theorem Spawned.ne_missing {spec : LaunchSpec} {r : Except Fault ServerId} (h : Spawned spec r) :
    r ≠ .error (missingFault spec.settings.command) := by
  cases h with
  | process m => exact m.spawn_ne_missing spec
  | talk h hf =>
    obtain ⟨-, reason, rfl⟩ := h.blames _ _ _ hf
    intro heq
    injection heq with heq
    injection heq with _ hreason
    exact Fault.message_request_ne reason hreason

/-! ## What a launcher knows -/

section
variable (l : Launcher) (h : Host) (now : Nat) (command : String)

theorem remembered?_eq_some {l : Launcher} {now : Nat} {command : String} {available : Bool} :
    l.remembered? now command = some available ↔
      ∃ since, l.known.find? command = some (available, since) ∧ now - since < memory.millis := by
  unfold remembered?
  cases l.known.find? command with
  | none => simp
  | some entry =>
    obtain ⟨known, since⟩ := entry
    by_cases ht : now - since < memory.millis <;> simp [ht]

theorem remembered?_of_unknown {l : Launcher} {command : String} (hk : l.known.find? command = none) :
    l.remembered? now command = none := by
  rw [remembered?, hk]

theorem isAvailable_of_remembered? {l : Launcher} {now : Nat} {command : String} {available : Bool}
    (hr : l.remembered? now command = some available) : l.isAvailable h now command = (available, l) := by
  rw [isAvailable, hr]

/-- The lookup is made on the host. -/
theorem isAvailable_of_not_remembered {l : Launcher} {now : Nat} {command : String}
    (hr : l.remembered? now command = none) :
    l.isAvailable h now command = ((h.find? command).isSome,
      if (h.find? command).isSome then l.note now command true else l) := by
  rw [isAvailable, hr]

theorem known_forget (key : String) :
    (l.forget command).known.find? key = if key = command then none else l.known.find? key :=
  Table.find?_erase l.known command key

theorem known_note (available : Bool) (key : String) :
    (l.note now command available).known.find? key =
      if key = command then some (available, now) else l.known.find? key :=
  Table.find?_insert l.known command key (available, now)

/-- Only a command that is found is written down. -/
theorem known_isAvailable (key : String) :
    (l.isAvailable h now command).2.known.find? key = l.known.find? key ∨
      key = command ∧ (h.find? command).isSome = true ∧
        (l.isAvailable h now command).2.known.find? key = some (true, now) := by
  cases hr : l.remembered? now command with
  | some available =>
    rw [isAvailable_of_remembered? h hr]
    exact .inl rfl
  | none =>
    rw [isAvailable_of_not_remembered h hr]
    cases hf : (h.find? command).isSome with
    | false => exact .inl rfl
    | true =>
      simp only [if_true, known_note]
      by_cases hk : key = command
      · exact .inr ⟨hk, trivial, if_pos hk⟩
      · exact .inl (if_neg hk)

end

/-! ## Launches -/

/-- What is checked, case by case: the settings first, and then the command, unless it is for the system to
find it. -/
theorem approve_cases (l : Launcher) (h : Host) (now : Nat) (s : ServerSettings) :
    (∃ reason, s.validate = .error (.config reason) ∧
      l.approve h now s = (.error (.config reason), l)) ∨
    s.validate = .ok () ∧ isRelative s = true ∧ l.approve h now s = (.ok (), l) ∨
    s.validate = .ok () ∧ isRelative s = false ∧ l.approve h now s =
      (if (l.isAvailable h now s.command).1 then .ok () else .error (missingFault s.command),
        (l.isAvailable h now s.command).2) := by
  unfold approve
  cases hv : s.validate with
  | error f =>
    unfold ServerSettings.validate at hv
    split at hv
    · cases hv
    · cases hv
      exact .inl ⟨_, rfl, rfl⟩
  | ok _ =>
    cases hr : isRelative s with
    | true => exact .inr (.inl ⟨rfl, rfl, rfl⟩)
    | false =>
      refine .inr (.inr ⟨rfl, rfl, ?_⟩)
      rcases l.isAvailable h now s.command with ⟨_ | _, l'⟩ <;> rfl

/-- A launch whose lookup and start are made at different moments; `start` is what becomes of the start. -/
def launch (l : Launcher) (h : Host) (now : Nat) (s : ServerSettings)
    (start : Except Fault ServerId) : Except Fault ServerId × Launcher :=
  match l.approve h now s with
  | (.error f, l) => (.error f, l)
  | (.ok (), l) => (start, if start.isOk then l else l.forget s.command)

/-- If the world stands still, it is a launch of a machine. -/
theorem launch_of_machine (l : Launcher) (spec : LaunchSpec) (m : Machine) :
    l.launch m.host m.clock spec.settings (m.spawn spec).1 =
      ((m.launch l spec).1, (m.launch l spec).2.1) := by
  unfold launch Machine.launch
  rcases l.approve m.host m.clock spec.settings with ⟨_ | _, l'⟩
  · rfl
  · rcases m.spawn spec with ⟨_ | _, m'⟩ <;> rfl

theorem launch_refused {l l' : Launcher} {h : Host} {now : Nat} {s : ServerSettings} {f : Fault}
    (ha : l.approve h now s = (.error f, l')) (start : Except Fault ServerId) :
    l.launch h now s start = (.error f, l') := by
  rw [launch, ha]

theorem launch_approved {l l' : Launcher} {h : Host} {now : Nat} {s : ServerSettings}
    (ha : l.approve h now s = (.ok (), l')) (start : Except Fault ServerId) :
    l.launch h now s start = (start, if start.isOk then l' else l'.forget s.command) := by
  rw [launch, ha]

/-! ## Uses of a launcher -/

/-- One use of a launcher, with the host and the time at which a command is looked up. -/
inductive Use
  | ask (h : Host) (now : Nat) (command : String)
  /-- The world may change before the server is started. -/
  | launch (h : Host) (now : Nat) (spec : LaunchSpec) (r : Except Fault ServerId) (hr : Spawned spec r)

namespace Use

def host : Use → Host
  | .ask h _ _ | .launch h _ _ _ _ => h

/-- Is the command one to be looked up in this use? -/
def looksUp (command : String) : Use → Bool
  | .ask _ _ other => other == command
  | .launch _ _ spec _ _ => spec.settings.command == command && !isRelative spec.settings

/-- A server with this command is launched, and it cannot be started although nothing was said against it. -/
def failsToStart (l : Launcher) (command : String) : Use → Bool
  | .ask _ _ _ => false
  | .launch h now spec r _ =>
    spec.settings.command == command && (l.approve h now spec.settings).1.isOk && !r.isOk

end Use

def use (l : Launcher) : Use → Launcher
  | .ask h now command => (l.isAvailable h now command).2
  | .launch h now spec r _ => (l.launch h now spec.settings r).2

/-- A launcher that was used from the beginning. -/
def after (uses : List Use) : Launcher := uses.foldl use {}

/-- How often in these uses a server with a command that was looked up could not be started. -/
def failures (command : String) : Launcher → List Use → Nat
  | _, [] => 0
  | l, u :: rest =>
    (if u.looksUp command && u.failsToStart l command then 1 else 0) + failures command (l.use u) rest

/-! ## What a use does to a launcher -/

section
variable (l : Launcher) (h : Host) (now : Nat) (s : ServerSettings) (start : Except Fault ServerId)

theorem known_approve (key : String) :
    (l.approve h now s).2.known.find? key = l.known.find? key ∨
      key = s.command ∧ isRelative s = false ∧ (h.find? key).isSome = true ∧
        (l.approve h now s).2.known.find? key = some (true, now) := by
  obtain ⟨_, -, ha⟩ | ⟨-, -, ha⟩ | ⟨-, hr, ha⟩ := approve_cases l h now s
  · exact .inl (by rw [ha])
  · exact .inl (by rw [ha])
  · rw [ha]
    obtain hsame | ⟨rfl, hf, hnew⟩ := known_isAvailable l h now s.command key
    · exact .inl hsame
    · exact .inr ⟨rfl, hr, hf, hnew⟩

/-- After a launch it is as after the check, or the command is forgotten. -/
theorem known_launch (key : String) :
    (l.launch h now s start).2.known.find? key = (l.approve h now s).2.known.find? key ∨
      (l.launch h now s start).2.known.find? key = none := by
  rcases ha : l.approve h now s with ⟨f | _, l'⟩
  · rw [launch_refused ha]
    exact .inl rfl
  · rw [launch_approved ha]
    by_cases hs : start.isOk = true
    · exact .inl (by rw [if_pos hs])
    · rw [if_neg hs, known_forget]
      by_cases hk : key = s.command
      · exact .inr (if_pos hk)
      · exact .inl (if_neg hk)

end

/-- What is known of a command stays, or it is forgotten, or the host has just been asked and has it. -/
theorem known_use (l : Launcher) (u : Use) (key : String) :
    (l.use u).known.find? key = l.known.find? key ∨ (l.use u).known.find? key = none ∨
      u.looksUp key = true ∧ (u.host.find? key).isSome = true ∧
        ∃ now, (l.use u).known.find? key = some (true, now) := by
  cases u with
  | ask h now command =>
    obtain hsame | ⟨rfl, hf, hnew⟩ := known_isAvailable l h now command key
    · exact .inl hsame
    · exact .inr (.inr ⟨by simp [Use.looksUp], hf, now, hnew⟩)
  | launch h now spec r _ =>
    obtain hkept | hgone := known_launch l h now spec.settings r key
    · obtain hsame | ⟨rfl, hr, hf, hnew⟩ := known_approve l h now spec.settings key
      · exact .inl (hkept.trans hsame)
      · exact .inr (.inr ⟨by simp [Use.looksUp, hr], hf, now, hkept.trans hnew⟩)
    · exact .inr (.inl hgone)

/-- No command is remembered to be missing. -/
def OnlyFound (l : Launcher) : Prop :=
  ∀ command available since, l.known.find? command = some (available, since) → available = true

theorem OnlyFound.use {l : Launcher} (hl : l.OnlyFound) (u : Use) : (l.use u).OnlyFound := by
  intro command available since hk
  obtain hsame | hgone | ⟨-, -, now, hnew⟩ := known_use l u command
  · exact hl command available since (hsame ▸ hk)
  · rw [hgone] at hk
    cases hk
  · rw [hnew] at hk
    cases hk
    rfl

theorem onlyFound_empty : OnlyFound {} := by
  intro command available since hk
  cases hk

theorem OnlyFound.uses {l : Launcher} (hl : l.OnlyFound) (us : List Use) :
    (us.foldl Launcher.use l).OnlyFound := by
  induction us generalizing l with
  | nil => exact hl
  | cons u rest ih => exact ih (hl.use u)

/-- A command that is forgotten stays so until a lookup finds it. -/
theorem unknown_use {l : Launcher} {u : Use} {command : String} (hk : l.known.find? command = none)
    (hu : u.looksUp command = true → u.host.find? command = none) :
    (l.use u).known.find? command = none := by
  obtain hsame | hgone | ⟨hlook, hf, -⟩ := known_use l u command
  · exact hsame.trans hk
  · exact hgone
  · rw [hu hlook] at hf
    cases hf

theorem unknown_uses {l : Launcher} {uses : List Use} {command : String}
    (hk : l.known.find? command = none)
    (hu : ∀ u ∈ uses, u.looksUp command = true → u.host.find? command = none) :
    (uses.foldl use l).known.find? command = none := by
  induction uses generalizing l with
  | nil => exact hk
  | cons u rest ih =>
    obtain ⟨hhere, hlater⟩ := List.forall_mem_cons.mp hu
    exact ih (unknown_use hk hhere) hlater

/-! ## Launches that fail -/

theorem failsToStart_iff {l : Launcher} {command : String} {u : Use} :
    u.failsToStart l command = true ↔ ∃ h now spec f hr l', u = .launch h now spec (.error f) hr ∧
      spec.settings.command = command ∧ l.approve h now spec.settings = (.ok (), l') := by
  cases u with
  | ask h now other => simp [Use.failsToStart]
  | launch h now spec r hr =>
    constructor
    · intro hfails
      simp only [Use.failsToStart, Bool.and_eq_true, beq_iff_eq] at hfails
      obtain ⟨⟨hcommand, hok⟩, herror⟩ := hfails
      rcases ha : l.approve h now spec.settings with ⟨f | _, l'⟩
      · rw [ha] at hok
        cases hok
      · cases r with
        | ok id => cases herror
        | error f => exact ⟨h, now, spec, f, hr, l', rfl, hcommand, ha⟩
    · rintro ⟨h', now', spec', f, hr', l', hu, hcommand, ha⟩
      cases hu
      simp [Use.failsToStart, hcommand, ha, Except.isOk, Except.toBool]

/-- A command whose start has failed is forgotten. -/
theorem unknown_of_failsToStart {l : Launcher} {command : String} {u : Use}
    (hf : u.failsToStart l command = true) : (l.use u).known.find? command = none := by
  obtain ⟨h, now, spec, f, hr, l', rfl, rfl, ha⟩ := failsToStart_iff.mp hf
  have hlaunch : (l.use (.launch h now spec (.error f) hr)) = l'.forget spec.settings.command := by
    rw [use, launch_approved ha]
    rfl
  rw [hlaunch, known_forget, if_pos rfl]

/-- Nothing is started with a command that is forgotten and not found. -/
theorem failsToStart_of_unknown {l : Launcher} {command : String} {u : Use}
    (hk : l.known.find? command = none) (hlook : u.looksUp command = true)
    (hf : u.host.find? command = none) : u.failsToStart l command = false := by
  rw [Bool.eq_false_iff]
  intro hfails
  obtain ⟨h, now, spec, f, hr, l', rfl, rfl, ha⟩ := failsToStart_iff.mp hfails
  have hplain : isRelative spec.settings = false := by simpa [Use.looksUp] using hlook
  have hfalse : (l.isAvailable h now spec.settings.command).1 = false := by
    rw [isAvailable_of_not_remembered h (remembered?_of_unknown now hk)]
    simpa [Use.host] using hf
  obtain ⟨_, -, hc⟩ | ⟨-, hrel, -⟩ | ⟨-, -, hc⟩ := approve_cases l h now spec.settings
  · rw [ha] at hc
    cases hc
  · rw [hplain] at hrel
    cases hrel
  · rw [ha, hfalse] at hc
    cases hc

theorem failures_of_unknown {l : Launcher} {uses : List Use} {command : String}
    (hk : l.known.find? command = none) (hf : ∀ u ∈ uses, u.host.find? command = none) :
    failures command l uses = 0 := by
  induction uses generalizing l with
  | nil => rfl
  | cons u rest ih =>
    obtain ⟨hhere, hlater⟩ := List.forall_mem_cons.mp hf
    have hnone : (u.looksUp command && u.failsToStart l command) = false := by
      cases hlook : u.looksUp command with
      | false => rfl
      | true => exact failsToStart_of_unknown hk hlook hhere
    rw [failures, hnone, ih (unknown_use hk fun _ => hhere) hlater]
    rfl

/-- The first use may find the command. -/
theorem failures_le_one (l : Launcher) (u : Use) {rest : List Use} {command : String}
    (hf : ∀ w ∈ rest, w.host.find? command = none) : failures command l (u :: rest) ≤ 1 := by
  induction rest generalizing l u with
  | nil =>
    rw [failures, failures]
    split <;> omega
  | cons w rest ih =>
    obtain ⟨-, hlater⟩ := List.forall_mem_cons.mp hf
    rw [failures]
    split
    · next hfails =>
      -- The command is forgotten now, and nothing is started with it any more.
      have hk := unknown_of_failsToStart (Bool.and_eq_true_iff.mp hfails).2
      rw [failures_of_unknown hk hf]
    · rw [Nat.zero_add]
      exact ih (l.use u) w hlater

/-! ## Refusals -/

/-- A command that is missing was looked up just now. -/
theorem OnlyFound.not_available {l : Launcher} (hl : l.OnlyFound) {h : Host} {now : Nat}
    {command : String} (ha : (l.isAvailable h now command).1 = false) : h.find? command = none := by
  cases hr : l.remembered? now command with
  | some available =>
    obtain ⟨since, hk, -⟩ := remembered?_eq_some.mp hr
    obtain rfl := hl command available since hk
    rw [isAvailable_of_remembered? h hr] at ha
    cases ha
  | none =>
    rw [isAvailable_of_not_remembered h hr] at ha
    simpa using ha

theorem OnlyFound.missing {l : Launcher} (hl : l.OnlyFound) {h : Host} {now : Nat} {spec : LaunchSpec}
    {r : Except Fault ServerId} (hs : Spawned spec r)
    (hm : (l.launch h now spec.settings r).1 = .error (missingFault spec.settings.command)) :
    isRelative spec.settings = false ∧ h.find? spec.settings.command = none := by
  obtain ⟨_, -, ha⟩ | ⟨-, -, ha⟩ | ⟨-, hr, ha⟩ := approve_cases l h now spec.settings
  · rw [launch_refused ha] at hm
    cases hm
  · rw [launch_approved ha] at hm
    exact (hs.ne_missing hm).elim
  · cases hav : (l.isAvailable h now spec.settings.command).1 with
    | true =>
      rw [hav] at ha
      rw [launch_approved ha] at hm
      exact (hs.ne_missing hm).elim
    | false => exact ⟨hr, hl.not_available hav⟩

/-- What is said of a command is what the host says then, whatever was remembered. -/
def AsksHost (l : Launcher) (command : String) : Prop :=
  (∀ h now, (l.isAvailable h now command).1 = (h.find? command).isSome) ∧
    ∀ h now s start, s.command = command → isRelative s = false →
      (l.launch h now s start).1 =
        if (h.find? command).isSome then start else .error (missingFault command)

theorem asksHost_of_unknown {l : Launcher} {s : ServerSettings} (hv : s.validate = .ok ())
    (hk : l.known.find? s.command = none) : l.AsksHost s.command := by
  have hlookup (h : Host) (now : Nat) :
      (l.isAvailable h now s.command).1 = (h.find? s.command).isSome := by
    rw [isAvailable_of_not_remembered h (remembered?_of_unknown now hk)]
  refine ⟨hlookup, fun h now s' start hcommand hplain => ?_⟩
  have hv' : s'.validate = .ok () := by
    rw [← hv, ServerSettings.validate, ServerSettings.validate, ServerSettings.hasCommand,
      ServerSettings.hasCommand, hcommand]
  obtain ⟨_, hbad, -⟩ | ⟨-, hrel, -⟩ | ⟨-, -, ha⟩ := approve_cases l h now s'
  · rw [hv'] at hbad
    cases hbad
  · rw [hplain] at hrel
    cases hrel
  · rw [hcommand, hlookup] at ha
    cases hf : (h.find? s.command).isSome with
    | true =>
      rw [hf] at ha
      rw [launch_approved ha]
      rfl
    | false =>
      rw [hf] at ha
      rw [launch_refused ha]
      rfl

theorem after_append (past later : List Use) : after (past ++ later) = later.foldl use (after past) :=
  List.foldl_append

/-- A command that could not be started is looked up on the host, until a lookup finds it. -/
theorem asksHost_after {past later : List Use} {u : Use} {command : String}
    (hu : u.failsToStart (after past) command = true)
    (hlater : ∀ w ∈ later, w.looksUp command = true → w.host.find? command = none) :
    (after (past ++ u :: later)).AsksHost command := by
  have hk : (after (past ++ u :: later)).known.find? command = none := by
    rw [after_append]
    exact unknown_uses (l := (after past).use u) (unknown_of_failsToStart hu) hlater
  obtain ⟨h, now, spec, f, hr, l', -, rfl, ha⟩ := failsToStart_iff.mp hu
  refine asksHost_of_unknown ?_ hk
  obtain ⟨_, -, hc⟩ | ⟨hv, -⟩ | ⟨hv, -⟩ := approve_cases (after past) h now spec.settings
  · rw [ha] at hc
    cases hc
  · exact hv
  · exact hv

/-- A launcher may be used in any way, and the world may change at any time: nothing is called missing
that is there. A command that could not be started is looked up on the host the next time, so a command
that is gone and stays away is tried in vain at most once. -/
theorem refusals_not_stale (past : List Use) (command : String) :
    (∀ h now, ((after past).isAvailable h now command).1 = false → h.find? command = none) ∧
      (∀ h now spec r, Spawned spec r → spec.settings.command = command →
        ((after past).launch h now spec.settings r).1 = .error (missingFault command) →
          isRelative spec.settings = false ∧ h.find? command = none) ∧
      (∀ u later, u.failsToStart (after past) command = true →
        (∀ w ∈ later, w.looksUp command = true → w.host.find? command = none) →
          (after (past ++ u :: later)).AsksHost command) ∧
      ∀ u later, (∀ w ∈ later, w.host.find? command = none) →
        failures command (after past) (u :: later) ≤ 1 := by
  have hfound : (after past).OnlyFound := onlyFound_empty.uses past
  refine ⟨fun h now ha => hfound.not_available ha, ?_, ?_, ?_⟩
  · rintro h now spec r hs rfl hm
    exact hfound.missing hs hm
  · intro u later hu hlater
    exact asksHost_after hu hlater
  · intro u later hlater
    exact failures_le_one (after past) u hlater

/-- A host with these programs. -/
def hostWith (programs : List (String × Node)) : Host where
  files := { root := .directory [("bin", .directory programs)], workingDirectory := [] }

def installed : Host := hostWith [("ls", .file "" true)]

def removed : Host := hostWith []

def lsSpec : LaunchSpec where
  settings := { command := "/bin/ls" }

/-- What becomes of a start once the server is removed. -/
def vainStart : Except Fault ServerId := (Machine.spawn lsSpec { host := removed, base := ⟨"/"⟩ }).1

def foundUse : Use := .ask installed 0 "/bin/ls"

def vainUse : Use := .launch removed 1000 lsSpec vainStart (.process _)

def missingUse : Use := .ask removed 2000 "/bin/ls"

/-- A server is removed after it was found: it is launched in vain once, and is missing from then on. -/
theorem refusals_not_stale_removed :
    (((after [foundUse, vainUse]).isAvailable removed 2000 "/bin/ls").1 = false ∧
        removed.find? "/bin/ls" = none) ∧
      (((after [foundUse, vainUse]).launch removed 3000 lsSpec.settings vainStart).1 =
          .error (missingFault "/bin/ls") ∧ isRelative lsSpec.settings = false) ∧
      (vainUse.failsToStart (after [foundUse]) "/bin/ls" = true ∧
        (after [foundUse, vainUse, missingUse]).AsksHost "/bin/ls") ∧
      failures "/bin/ls" (after [foundUse]) [vainUse, vainUse, missingUse] ≤ 1 := by
  have hgone : removed.find? "/bin/ls" = none := rfl
  have hfails : vainUse.failsToStart (after [foundUse]) "/bin/ls" = true := rfl
  obtain ⟨hask, hlaunch, -, -⟩ := refusals_not_stale [foundUse, vainUse] "/bin/ls"
  obtain ⟨-, -, hforgets, honce⟩ := refusals_not_stale [foundUse] "/bin/ls"
  have hmissing : ((after [foundUse, vainUse]).isAvailable removed 2000 "/bin/ls").1 = false := rfl
  have hrefused : ((after [foundUse, vainUse]).launch removed 3000 lsSpec.settings vainStart).1 =
      .error (missingFault "/bin/ls") := rfl
  refine ⟨⟨hmissing, hask _ _ hmissing⟩, ⟨hrefused, ?_⟩, ⟨hfails, ?_⟩, ?_⟩
  · exact (hlaunch _ _ lsSpec _ (.process _) rfl hrefused).1
  · refine hforgets vainUse [missingUse] hfails ?_
    intro w hw _
    obtain rfl := List.mem_singleton.mp hw
    exact hgone
  · refine honce vainUse [vainUse, missingUse] ?_
    intro w hw
    rcases List.mem_pair.mp hw with rfl | rfl
    · exact hgone
    · exact hgone

end Launcher

end Supervisor
