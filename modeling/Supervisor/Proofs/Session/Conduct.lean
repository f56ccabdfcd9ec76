import Supervisor.Proofs.Coordinator.SingleOperation
import Supervisor.Session.Conversation
/-!
# How a session carries out an operation

A session that is at peace, with nothing running or waiting in either of its coordinators, carries out
any operation to its end, whatever the machine does, and is at peace again, unless it is held up by a
server for which it waits without a limit. Only the coordinator whose operation it is can have other
settings then.
-/
namespace Supervisor.Session

open Coordinator (Resting Halts Asks GoesOn)

/-! ## Parts of a session -/

def coordinator? (s : Session) (seat : Seat) : Option Coordinator :=
  (s.post? seat).map Post.coordinator

theorem callOf_eq (t : Coordinator.Turn) : callOf t = t.outputs.findSome? Output.call? := by
  unfold callOf
  congr 1

theorem resultOf_eq (t : Coordinator.Turn) : resultOf t = t.outputs.findSome? Output.result? := by
  unfold resultOf
  congr 1

section
variable {s s' : Session} {seat : Seat} {call : Call} {stage : Stage} {c : Coordinator} {op : Operation}

/-- What was printed and published apart, the sessions are the same. -/
structure Agrees (s s' : Session) : Prop where
  main : s'.main = s.main
  companion : s'.companion = s.companion
  settingsFile : s'.settingsFile = s.settingsFile

theorem agrees_publish (s : Session) (n : Notice) : s.Agrees (s.publish n) := ⟨rfl, rfl, rfl⟩

theorem Agrees.trans {s'' : Session} (h : s.Agrees s') (h' : s'.Agrees s'') : s.Agrees s'' :=
  ⟨h'.main.trans h.main, h'.companion.trans h.companion, h'.settingsFile.trans h.settingsFile⟩

theorem agrees_foldl {α : Type} {f : Session → α → Session}
    (hf : ∀ (s : Session) (a : α), s.Agrees (f s a)) (as : List α) (s : Session) :
    s.Agrees (as.foldl f s) := by
  induction as generalizing s with
  | nil => exact ⟨rfl, rfl, rfl⟩
  | cons a as ih => exact (hf s a).trans (ih _)

/-- Of the posts only the one whose turn it was changes. -/
theorem agrees_absorb (s : Session) (seat : Seat) (t : Coordinator.Turn) :
    (s.modifyPost seat fun p => { p with coordinator := t.state }).Agrees (s.absorb seat t) := by
  refine agrees_foldl (fun s o => ?_) _ _
  cases o with
  | notice n => exact agrees_publish s n
  | _ => exact ⟨rfl, rfl, rfl⟩

theorem Agrees.coordinator? (h : s.Agrees s') (seat : Seat) :
    s'.coordinator? seat = s.coordinator? seat := by
  cases seat <;> simp [Session.coordinator?, post?, h.main, h.companion]

theorem coordinator?_absorb {t : Coordinator.Turn} (h : (s.coordinator? seat).isSome) :
    (s.absorb seat t).coordinator? seat = some t.state := by
  rw [(agrees_absorb s seat t).coordinator?]
  cases seat with
  | main => rfl
  | companion =>
    cases hc : s.companion with
    | none => simp [Session.coordinator?, post?, hc] at h
    | some p => simp [Session.coordinator?, post?, modifyPost, hc]

/-! ## Calls -/

theorem goesOn_replyOf (hdone : stage.accepts .done = true)
    (hfault : ∀ f, stage.accepts (.fault f) = true) (r : Except Fault Unit) : GoesOn stage (replyOf r) := by
  cases r with
  | ok => exact .accepted hdone
  | error f => exact .accepted (hfault f)

/-- How something ends that a session does, and how it is held up. -/
def Ends {α : Type} (P : α → Prop) (H : Session → Prop) : Doing α → Prop
  | .ok a => P a
  | .error s => H s

section
variable {α β : Type} {P Q : α → Prop} {H H' : Session → Prop} {x : Doing α}

theorem Ends.imp (h : Ends P H x) (hP : ∀ a, P a → Q a) (hH : ∀ s, H s → H' s) : Ends Q H' x := by
  cases x with
  | ok a => exact hP a h
  | error s => exact hH s h

theorem Ends.bind {R : β → Prop} {f : α → Doing β} (h : Ends P H x)
    (hf : ∀ a, P a → Ends R H (f a)) : Ends R H (x >>= f) := by
  cases x with
  | ok a => exact hf a h
  | error s => exact h

end

/-- The operation has ended as its caller expects, and the session is like this then. -/
def After (op : Operation) (P : Session → Prop) (r : Except Fault Answer × Session) : Prop :=
  op.Allows r.1 ∧ P r.2

/-- The operation that waits there goes on with the reply, and the session is like this then. -/
def Replied (stage : Stage) (P : Session → Prop) (r : Reply × Session) : Prop :=
  GoesOn stage r.1 ∧ P r.2

/-- Only a server that may take any time to be ready holds a session up, and what its dependent does.
What comes back from a call is something that the operation goes on with. All posts stay as they are, but
for the launcher of the caller, if only the dependent leaves them so. -/
theorem perform_ends {P H : Session → Prop} (s : Session) (seat : Seat) (l : Launcher)
    {dependent : Conduct} (hasks : c.Asks stage call)
    (hmachine : ∀ s machine, P s → P { s with machine })
    (hlauncher : ∀ s launcher, P s → P (s.modifyPost seat fun p => { p with launcher }))
    (hwait : ∀ q id s, stage = .awaitingReady q id → q.settings.server.readyTimeoutSeconds = 0 → P s → H s)
    (hyield : ∀ d, call = .prepareDependent d →
      Ends (After .yieldCaches P) H (dependent .yieldCaches s))
    (hresume : ∀ d, call = .finishDependent d →
      Ends (After (.restart .linked) P) H (dependent (.restart .linked) s)) (hs : P s) :
    Ends (Replied stage P) H (s.perform seat l dependent call) := by
  cases hasks with
  | stopDependent =>
    refine (hyield _ rfl).bind ?_
    rintro ⟨r, s'⟩ ⟨hallows, hs'⟩
    refine ⟨?_, hs'⟩
    cases r with
    | error f => exact .accepted rfl
    | ok a =>
      obtain ⟨b, rfl⟩ := hallows a rfl
      exact .accepted rfl
  | stopServer p id since =>
    cases p <;> exact ⟨goesOn_replyOf rfl (fun _ => rfl) _, hmachine _ _ hs⟩
  | stopUnready q id reason =>
    exact ⟨goesOn_replyOf rfl (fun _ => rfl) _, hmachine _ _ hs⟩
  | clearCaches q =>
    cases seat with
    | companion => exact ⟨.accepted rfl, hs⟩
    | main => exact ⟨goesOn_replyOf rfl (fun _ => rfl) _, hmachine _ _ hs⟩
  | prepareEnvironment q =>
    cases seat with
    | companion => exact ⟨.accepted rfl, hs⟩
    | main =>
      simp only [perform]
      split <;> exact ⟨.accepted rfl, hmachine _ _ hs⟩
  | launch q spec =>
    simp only [perform]
    split <;> exact ⟨.accepted rfl, hlauncher _ _ (hmachine _ _ hs)⟩
  | awaitReady q id =>
    simp only [perform]
    split
    · exact ⟨goesOn_replyOf rfl (fun _ => rfl) _, hmachine _ _ hs⟩
    · exact ⟨.overdue q id, hmachine _ _ hs⟩
    · next hlimit =>
      have hzero := (ServerSettings.readyTimeout_eq_none_iff _).mp hlimit
      exact hwait q id _ rfl hzero (hmachine _ _ hs)
  | resumeDependent result =>
    refine (hresume _ rfl).bind ?_
    rintro ⟨r, s'⟩ ⟨hallows, hs'⟩
    refine ⟨?_, hs'⟩
    cases r with
    | error f => exact .accepted rfl
    | ok a =>
      obtain rfl := hallows a rfl
      exact .accepted rfl
  | removeCache => exact ⟨.accepted rfl, hmachine _ _ hs⟩

/-! ## Turns -/

/-- The coordinator is at rest, with these settings. -/
def Rests (seat : Seat) (settings : Settings) (dependent : Option DependentId) (s : Session) : Prop :=
  ∃ c, s.coordinator? seat = some c ∧ c.Resting ∧ c.settings = settings ∧ c.dependent = dependent

/-- Each turn leaves less to do, so the turns suffice that are granted. -/
theorem takeTurns_ends {P H : Session → Prop} {settings : Settings} {dep : Option DependentId}
    {dependent : Conduct} (habsorb : ∀ s t, P s → P (s.absorb seat t))
    (hperform : ∀ s l c stage call, P s → s.coordinator? seat = some c →
      c.Alone op settings dep (.waiting stage) → c.Asks stage call →
        Ends (Replied stage fun s' => P s' ∧ s'.coordinator? seat = some c) H
          (s.perform seat l dependent call))
    {n k : Nat} {s : Session} {t : Coordinator.Turn} (hn : k < n) (hP : P s)
    (hpost : (s.coordinator? seat).isSome) (ht : Halts op settings dep k t.outputs t.state) :
    Ends (After op fun s' => P s' ∧ s'.Rests seat settings dep) H (takeTurns seat dependent n s t) := by
  induction n generalizing k s t with
  | zero => omega
  | succ n ih =>
    have hnow : (s.absorb seat t).coordinator? seat = some t.state := coordinator?_absorb hpost
    have hkept := habsorb s t hP
    obtain ⟨p, hp, hc⟩ := Option.map_eq_some_iff.mp hnow
    simp only [takeTurns, callOf_eq, resultOf_eq, hp]
    cases ht with
    | rests result hrest hsettings hdependent hcall hresult hallows =>
      simp only [hcall, hresult, Option.getD_some]
      exact ⟨hallows, hkept, t.state, hnow, hrest, hsettings, hdependent⟩
    | asks stage call halone hstage hcall hasks htoil =>
      simp only [hcall]
      refine (hperform _ p.launcher _ _ _ hkept hnow halone hasks).bind ?_
      rintro ⟨reply, s'⟩ ⟨hgoes, hkept', hnow'⟩
      obtain ⟨p', hp', hc'⟩ := Option.map_eq_some_iff.mp hnow'
      simp only [hp', hc']
      have hpos := Coordinator.toil_pos stage
      have hinformed := halone.informed (s'.informed t.state).down
      exact ih (k := stage.toil - 1) (by omega) hkept' (by rw [hnow']; rfl)
        (Coordinator.Alone.reply (c := informed _ t.state) hstage hinformed hgoes _)

theorem conduct_ends {P H : Session → Prop} {dependent : Conduct}
    (habsorb : ∀ s t, P s → P (s.absorb seat t))
    (hperform : ∀ s l c' stage call, P s → s.coordinator? seat = some c' →
      c'.Alone op (op.settingsAfter c.settings) c.dependent (.waiting stage) → c'.Asks stage call →
        Ends (Replied stage fun s' => P s' ∧ s'.coordinator? seat = some c') H
          (s.perform seat l dependent call))
    (hc : s.coordinator? seat = some c) (hrest : c.Resting) (hP : P s) :
    Ends (After op fun s' => P s' ∧ s'.Rests seat (op.settingsAfter c.settings) c.dependent) H
      (conduct seat dependent op s) := by
  obtain ⟨p, hp, rfl⟩ := Option.map_eq_some_iff.mp hc
  have hsubmit : p.coordinator.submit op =
      (some p.coordinator.queue.accepted, (p.coordinator.submit op).2) := by
    simp [Coordinator.submit, Dispatcher.submit, hrest.accepting]
  simp only [conduct, hp]
  rw [hsubmit]
  have hwake := hrest.wake op s.machine.clock (s.informed (p.coordinator.submit op).2) rfl rfl
  exact takeTurns_ends habsorb hperform (by decide) hP (by rw [hc]; rfl) hwake.bounded

/-! ## Sessions at peace -/

/-- Nothing is running or waiting in the companion, if there is one. It has no dependent itself. -/
def CompanionRests (s : Session) : Prop :=
  ∀ p ∈ s.companion, p.coordinator.Resting ∧ p.coordinator.dependent = none

structure AtPeace (s : Session) : Prop where
  main : s.main.coordinator.Resting
  companion : s.CompanionRests

/-- The settings of the companion, if there is one. -/
def companionSettings (s : Session) : Option Settings :=
  s.companion.map fun p => p.coordinator.settings

theorem coordinator?_launcher (s : Session) (seat : Seat) (launcher : Launcher) :
    (s.modifyPost seat fun p => { p with launcher }).coordinator? seat = s.coordinator? seat := by
  cases seat <;> simp [coordinator?, post?, modifyPost, Function.comp_def]

/-- The companion is held up by its own server, and has its settings already. -/
structure CompanionHeld (s₀ : Session) (op : Operation) (s : Session) : Prop where
  main : s.main = s₀.main
  settings : s.companionSettings = s₀.companionSettings.map op.settingsAfter
  unlimited : ∃ settings, s.companionSettings = some settings ∧ settings.server.readyTimeoutSeconds = 0

/-- What the companion does leaves the main coordinator and the settings as they are, unless it is a
change of the settings. -/
structure CompanionDone (s₀ : Session) (op : Operation) (s : Session) : Prop where
  rests : s.CompanionRests
  main : s.main = s₀.main
  settingsFile : s.settingsFile = s₀.settingsFile
  settings : s.companionSettings = s₀.companionSettings.map op.settingsAfter

theorem companionSettings_eq (s : Session) :
    s.companionSettings = (s.coordinator? .companion).map Coordinator.settings := by
  cases hp : s.companion <;> simp [companionSettings, coordinator?, post?, hp]

/-- The companion carries out an operation. -/
theorem conduct_companion (h : s.CompanionRests) (op : Operation) :
    Ends (After op (CompanionDone s op)) (CompanionHeld s op) (conduct .companion idle op s) := by
  cases hp : s.companion with
  | none =>
    have hnone : conduct .companion idle op s = .ok (.error .dispatcherClosed, s) := by
      simp [conduct, post?, hp]
    rw [hnone]
    exact ⟨Operation.allows_error op _, h, rfl, rfl, by simp [companionSettings, hp]⟩
  | some p =>
    obtain ⟨hrest, hdependent⟩ := h p hp
    have hsettings : s.companionSettings.map op.settingsAfter =
        some (op.settingsAfter p.coordinator.settings) := by
      simp [companionSettings, hp]
    have hends : Ends (After op fun s' => (s'.main = s.main ∧ s'.settingsFile = s.settingsFile) ∧
        s'.Rests .companion (op.settingsAfter p.coordinator.settings) p.coordinator.dependent)
        (CompanionHeld s op) (conduct .companion idle op s) := by
      refine conduct_ends ?_ ?_ (by simp [coordinator?, post?, hp]) hrest ⟨rfl, rfl⟩
      · intro s' t hs'
        have hagrees := agrees_absorb s' .companion t
        exact ⟨hagrees.main.trans hs'.1, hagrees.settingsFile.trans hs'.2⟩
      · intro s' l c' stage call hs' hc' halone hasks
        have hset : c'.settings = op.settingsAfter p.coordinator.settings := halone.settings
        refine perform_ends s' .companion l hasks (fun _ _ h => h)
          (fun _ _ h => ⟨h.1, (coordinator?_launcher _ _ _).trans h.2⟩) ?_ ?_ ?_ ⟨hs', hc'⟩
        · rintro q id s'' rfl hlimit ⟨⟨hmain, -⟩, hc''⟩
          have hq : q.settings = op.settingsAfter p.coordinator.settings := halone.serves.settings
          have hown : s''.companionSettings = some (op.settingsAfter p.coordinator.settings) := by
            rw [companionSettings_eq, hc'', Option.map_some, hset]
          exact ⟨hmain, hown.trans hsettings.symm, _, hown, hq ▸ hlimit⟩
        · rintro d rfl
          cases hasks with
          | stopDependent ht hd =>
            rw [halone.dependent, hdependent] at hd
            cases hd
        · rintro d rfl
          exact ⟨Operation.allows_ok rfl, hs', hc'⟩
    refine hends.imp ?_ fun _ h => h
    rintro ⟨r, s'⟩ ⟨hallows, ⟨hmain, hfile⟩, c, hc, hrest', hset, hdep⟩
    refine ⟨hallows, ?_, hmain, hfile, ?_⟩
    · intro q hq
      obtain ⟨q', hq', rfl⟩ := Option.map_eq_some_iff.mp hc
      obtain rfl := Option.some.inj (hq'.symm.trans hq)
      exact ⟨hrest', hdep.trans hdependent⟩
    · rw [companionSettings_eq, hc, hsettings, Option.map_some, hset]

/-- What is left as it is when the main coordinator carries out an operation. -/
structure Besides (s s' : Session) : Prop where
  rests : s'.CompanionRests
  settingsFile : s'.settingsFile = s.settingsFile
  settings : s'.companionSettings = s.companionSettings

theorem Besides.errand {s₀ : Session} (h : Besides s₀ s) (hop : op = .yieldCaches ∨ op = .restart .linked)
    (hdone : CompanionDone s op s') : Besides s₀ s' := by
  refine ⟨hdone.rests, hdone.settingsFile.trans h.settingsFile, ?_⟩
  rw [hdone.settings, ← h.settings]
  rcases hop with rfl | rfl <;> exact Option.map_id'

/-- A change of the settings is held up by the server of the main coordinator, which has the settings
already. -/
structure MainHeld (s₀ : Session) (new : Settings) (s : Session) : Prop where
  settings : s.main.coordinator.settings = new
  companion : s.companionSettings = s₀.companionSettings
  unlimited : new.server.readyTimeoutSeconds = 0

/-- The main coordinator carries out an operation; the companion does its part of it. -/
theorem carryOut_main (h : s.AtPeace) (op : Operation) :
    Ends (After op fun s' => s.Besides s' ∧
        s'.Rests .main (op.settingsAfter s.main.coordinator.settings) s.main.coordinator.dependent)
      (fun s' => op.configures = true → MainHeld s (op.settingsAfter s.main.coordinator.settings) s')
      (carryOut .main op s) := by
  refine conduct_ends ?_ ?_ rfl h.main ⟨h.companion, rfl, rfl⟩
  · rintro s' t ⟨hrests, hfile, hsettings⟩
    have hagrees := agrees_absorb s' .main t
    have hsame : (s'.absorb .main t).companion = s'.companion := hagrees.companion
    refine ⟨?_, hagrees.settingsFile.trans hfile, ?_⟩
    · rwa [CompanionRests, hsame]
    · rwa [companionSettings, hsame]
  · intro s' l c' stage call hs' hc' halone hasks
    have herrand : ∀ op', op' = .yieldCaches ∨ op' = .restart .linked → op.configures = false →
        Ends (After op' fun s'' => s.Besides s'' ∧ s''.coordinator? .main = some c')
          (fun s'' => op.configures = true →
            MainHeld s (op.settingsAfter s.main.coordinator.settings) s'')
          (conduct .companion idle op' s') := by
      intro op' hop' hno
      refine (conduct_companion hs'.rests op').imp ?_ ?_
      · rintro ⟨r, s''⟩ ⟨hallows, hdone⟩
        refine ⟨hallows, hs'.errand hop' hdone, ?_⟩
        rw [← hc', coordinator?, post?, hdone.main]
        rfl
      · intro s'' _ hyes
        rw [hno] at hyes
        cases hyes
    refine perform_ends s' .main l hasks
      (fun _ _ h => ⟨⟨h.1.rests, h.1.settingsFile, h.1.settings⟩, h.2⟩)
      (fun _ _ h => ⟨⟨h.1.rests, h.1.settingsFile, h.1.settings⟩, h.2⟩) ?_ ?_ ?_ ⟨hs', hc'⟩
    · rintro q id s'' rfl hlimit ⟨hbesides, hc''⟩ -
      have hq : q.settings = op.settingsAfter s.main.coordinator.settings := halone.serves.settings
      obtain rfl := Option.some.inj hc''
      exact ⟨halone.settings, hbesides.settings, hq ▸ hlimit⟩
    · rintro d rfl
      cases hasks with
      | stopDependent ht =>
        refine herrand _ (.inl rfl) (Bool.eq_false_iff.mpr fun hyes => ?_)
        rw [(halone.serves.spares hyes).1] at ht
        cases ht
    · rintro d rfl
      cases hasks with
      | resumeDependent result hd =>
        refine herrand _ (.inr rfl) (Bool.eq_false_iff.mpr fun hyes => ?_)
        rw [(halone.serves.1.spares hyes).2] at hd
        cases hd

end

end Supervisor.Session
