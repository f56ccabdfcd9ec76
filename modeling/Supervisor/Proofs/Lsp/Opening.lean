import Supervisor.Proofs.Lsp.Turns
/-!
# Openings that fail

A server whose process runs is started once it was asked to initialize. If it cannot be asked, the start
has failed, and what is blamed for it is that request, whatever else goes on meanwhile.
-/
namespace Supervisor.Lsp

/-- If the start fails, then because the request cannot be made. -/
def Spawning.Blames (command : String) : Spawning → Prop
  | .sending (.withdraw _ f) => ∃ reason, f = .request reason
  | .ended (.error f) => ∃ reason, f = .spawn command (Fault.request reason).message
  | _ => True

theorem Spawning.Blames.step {command : String} {params : Json} {c : Client} {p p' : Spawning}
    {e : Effect} (hb : p.Blames command) (hs : p.step command params c = some (p', e)) :
    p'.Blames command := by
  cases p with
  | sending s =>
    obtain rfl : _ = p' := congrArg Prod.fst (Option.some.inj hs)
    cases s with
    | count | enroll n => trivial
    | check n =>
      by_cases hc : c.state = .crashed
      · simp only [if_pos hc]
        exact ⟨_, rfl⟩
      · simp only [if_neg hc]
        trivial
    | post n =>
      cases hch : c.channel with
      | intact =>
        simp only [Client.post, hch]
        trivial
      | broken | closed =>
        simp only [Client.post, hch]
        exact ⟨_, rfl⟩
    | withdraw n f =>
      obtain ⟨reason, rfl⟩ := hb
      exact ⟨reason, rfl⟩
  | arm n =>
    cases hs
    trivial
  | ended r => cases hs

namespace Talk

/-- Whatever starts a server in this talk starts this one, and blames the request if it fails. -/
def Blames (command : String) (t : Talk) : Prop :=
  ∀ other params p, .spawn other params p ∈ t.calls → other = command ∧ p.Blames command

section
variable {command : String} {t t' : Talk}

theorem Blames.turn (hb : t.Blames command) (i : Nat) {call : Call}
    (hcall : ∀ other params p, call = .spawn other params p → other = command ∧ p.Blames command)
    (e : Effect) : (t.turn i call e).Blames command := by
  intro other params p hmem
  rcases List.mem_or_eq_of_mem_set hmem with hold | hnew
  · exact hb other params p hold
  · exact hcall other params p hnew.symm

/-- What happens to a call from outside does not bring forth the start of a server. -/
theorem Blames.outside (hb : t.Blames command) {i : Nat} {f : Call → Option Call}
    (hf : ∀ call other params p, f call ≠ some (.spawn other params p))
    (hs : (t.calls[i]?.bind f).map (fun call => t.turn i call (t.client, none)) = some t') :
    t'.Blames command := by
  obtain ⟨call', h, rfl⟩ := Option.map_eq_some_iff.mp hs
  obtain ⟨call, -, h⟩ := Option.bind_eq_some_iff.mp h
  refine hb.turn i ?_ _
  rintro other params p rfl
  exact (hf call other params p h).elim

theorem Blames.advance (hb : t.Blames command) {i : Nat} {call call' : Call} {e : Effect}
    (hc : t.calls[i]? = some call) (hs : call.step (resultIn? t.log) t.client = some (call', e)) :
    (t.turn i call' e).Blames command := by
  refine hb.turn i ?_ e
  rintro other params p rfl
  cases call with
  | spawn command' params' p' =>
    obtain ⟨r, hr, heq⟩ := Option.map_eq_some_iff.mp hs
    cases heq
    obtain ⟨rfl, hp⟩ := hb _ _ _ (List.mem_of_getElem? hc)
    exact ⟨rfl, hp.step hr⟩
  | waitReady _ | request _ _ _ | stop _ =>
    obtain ⟨r, -, heq⟩ := Option.map_eq_some_iff.mp hs
    cases heq
  | dropped => cases hs

theorem Blames.step {m : Move} (hb : t.Blames command) (hs : t.step m = some t') :
    t'.Blames command := by
  cases m with
  | issue task =>
    simp only [Talk.step] at hs
    split at hs
    · cases hs
      intro other params p hmem
      rcases List.mem_append.mp hmem with hold | hnew
      · exact hb other params p hold
      · cases task <;> simp [Task.call] at hnew
    · cases hs
  | advance i =>
    obtain ⟨⟨call', e⟩, h, rfl⟩ := Option.map_eq_some_iff.mp hs
    obtain ⟨call, hc, h⟩ := Option.bind_eq_some_iff.mp h
    exact hb.advance hc h
  | expire i =>
    refine hb.outside ?_ hs
    intro call other params p h
    unfold Call.expire? at h
    split at h <;> cases h
  | killed i r =>
    refine hb.outside ?_ hs
    intro call other params p h
    unfold Call.killed? at h
    split at h <;> cases h
  | drop i =>
    refine hb.outside ?_ hs
    intro call other params p h
    unfold Call.drop? at h
    split at h <;> cases h
  | hear bytes | hangUp | breakChannel =>
    cases hs
    exact hb

end

theorem Run.blames {may : Talk → Move → Bool} {id : ServerId} {command : String} {params : Json}
    {moves : List Move} {t : Talk} (h : Run may (start id command params) moves t) :
    t.Blames command := by
  induction h with
  | nil =>
    intro other params' p hmem
    cases List.mem_singleton.mp hmem
    exact ⟨rfl, trivial⟩
  | snoc _ _ hs ih => exact ih.step hs

end Talk

end Supervisor.Lsp
