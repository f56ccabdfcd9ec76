import Supervisor.Settings.Basic
/-!
# Sameness

Values and paths are compared by what they mean. Each of these comparisons is an equivalence, and so
is the question whether a server that runs with some settings may keep running with others.
-/
namespace Supervisor

theorem Decimal.Binary64.same_trans {x y z : Binary64} (hxy : x.same y = true)
    (hyz : y.same z = true) : x.same z = true := by
  simp only [same, Bool.or_eq_true, beq_iff_eq, Bool.and_eq_true] at hxy hyz ⊢
  rcases hxy with rfl | ⟨hx, hy⟩
  · exact hyz
  · rcases hyz with rfl | ⟨-, hz⟩
    · exact .inr ⟨hx, hy⟩
    · exact .inr ⟨hx, hz⟩

/-! ## Values -/

namespace Json

theorem Number.same_refl (a : Number) : a.same a = true := by
  cases a with
  | whole z => simp [same]
  | double x => exact x.same_refl

theorem Number.same_comm (a b : Number) : a.same b = b.same a := by
  cases a <;> cases b <;> simp [same, Bool.beq_comm, Decimal.Binary64.same_comm]

theorem Number.same_trans {a b c : Number} (hab : a.same b = true) (hbc : b.same c = true) :
    a.same c = true := by
  cases a <;> cases b <;> cases c <;> simp only [same, beq_iff_eq, Bool.false_eq_true] at hab hbc ⊢
  · exact hab.trans hbc
  · exact Decimal.Binary64.same_trans hab hbc

mutual

theorem same_refl : ∀ a : Json, a.same a = true
  | .null => rfl
  | .bool b => by simp [same]
  | .number n => n.same_refl
  | .string s => by simp [same]
  | .array items => sameItems_refl items
  | .object ms => sameMembers_refl ms

theorem sameItems_refl : ∀ items : List Json, sameItems items items = true
  | [] => rfl
  | a :: as => by simp [sameItems, same_refl a, sameItems_refl as]

theorem sameMembers_refl : ∀ ms : List (String × Json), sameMembers ms ms = true
  | [] => rfl
  | (n, a) :: as => by simp [sameMembers, same_refl a, sameMembers_refl as]

end

mutual

theorem same_comm : ∀ a b : Json, a.same b = b.same a
  | .null, b => by cases b <;> rfl
  | .bool x, b => by cases b <;> simp [same, Bool.beq_comm]
  | .number n, b => by cases b <;> simp [same, n.same_comm]
  | .string s, b => by cases b <;> simp [same, Bool.beq_comm]
  | .array items, b => by cases b <;> simp [same, sameItems_comm items]
  | .object ms, b => by cases b <;> simp [same, sameMembers_comm ms]

theorem sameItems_comm : ∀ as bs : List Json, sameItems as bs = sameItems bs as
  | [], bs => by cases bs <;> rfl
  | a :: as, bs => by cases bs <;> simp [sameItems, same_comm a, sameItems_comm as]

theorem sameMembers_comm : ∀ as bs : List (String × Json), sameMembers as bs = sameMembers bs as
  | [], bs => by cases bs <;> rfl
  | (n, a) :: as, bs => by
    cases bs <;> simp [sameMembers, same_comm a, sameMembers_comm as, Bool.beq_comm]

end

mutual

theorem same_trans : ∀ {a b c : Json}, a.same b = true → b.same c = true → a.same c = true
  | .null, b, c, hab, hbc => by
    cases b <;> simp only [same, Bool.false_eq_true] at hab
    exact hbc
  | .bool x, b, c, hab, hbc => by
    cases b <;> simp only [same, Bool.false_eq_true, beq_iff_eq] at hab
    exact hab ▸ hbc
  | .number n, b, c, hab, hbc => by
    cases b <;> simp only [same, Bool.false_eq_true] at hab
    cases c <;> simp only [same, Bool.false_eq_true] at hbc
    exact Number.same_trans hab hbc
  | .string s, b, c, hab, hbc => by
    cases b <;> simp only [same, Bool.false_eq_true, beq_iff_eq] at hab
    exact hab ▸ hbc
  | .array as, b, c, hab, hbc => by
    cases b <;> simp only [same, Bool.false_eq_true] at hab
    cases c <;> simp only [same, Bool.false_eq_true] at hbc
    exact sameItems_trans hab hbc
  | .object as, b, c, hab, hbc => by
    cases b <;> simp only [same, Bool.false_eq_true] at hab
    cases c <;> simp only [same, Bool.false_eq_true] at hbc
    exact sameMembers_trans hab hbc

theorem sameItems_trans : ∀ {as bs cs : List Json}, sameItems as bs = true →
    sameItems bs cs = true → sameItems as cs = true
  | [], bs, cs, hab, hbc => by
    cases bs <;> simp only [sameItems, Bool.false_eq_true] at hab
    exact hbc
  | a :: as, bs, cs, hab, hbc => by
    cases bs <;> simp only [sameItems, Bool.false_eq_true, Bool.and_eq_true] at hab
    cases cs <;> simp only [sameItems, Bool.false_eq_true, Bool.and_eq_true] at hbc ⊢
    exact ⟨same_trans hab.1 hbc.1, sameItems_trans hab.2 hbc.2⟩

theorem sameMembers_trans : ∀ {as bs cs : List (String × Json)}, sameMembers as bs = true →
    sameMembers bs cs = true → sameMembers as cs = true
  | [], bs, cs, hab, hbc => by
    cases bs <;> simp only [sameMembers, Bool.false_eq_true] at hab
    exact hbc
  | (n, a) :: as, bs, cs, hab, hbc => by
    cases bs <;> simp only [sameMembers, Bool.false_eq_true, Bool.and_eq_true, beq_iff_eq] at hab
    cases cs <;> simp only [sameMembers, Bool.false_eq_true, Bool.and_eq_true, beq_iff_eq] at hbc ⊢
    exact ⟨⟨hab.1.1.trans hbc.1.1, same_trans hab.1.2 hbc.1.2⟩, sameMembers_trans hab.2 hbc.2⟩

end

theorem same_equivalence : Equivalence fun a b : Json => a.same b = true :=
  ⟨same_refl, fun {a b} h => same_comm a b ▸ h, same_trans⟩

end Json

/-! ## Settings -/

theorem Path.same_equivalence : Equivalence fun p q : Path => p.same q = true :=
  ⟨same_refl, fun {p q} h => same_comm p q ▸ h, same_trans⟩

/-- Two things that may be missing are the same if both are missing or both are there and the same. -/
theorem equivalence_optional {α : Type} {same : α → α → Bool} {lifted : Option α → Option α → Bool}
    (h : Equivalence fun a b => same a b = true) (hnone : lifted none none = true)
    (hsome : ∀ a b, lifted (some a) (some b) = same a b)
    (hleft : ∀ a, lifted (some a) none = false) (hright : ∀ b, lifted none (some b) = false) :
    Equivalence fun a b => lifted a b = true := by
  refine ⟨fun a => ?_, fun {a b} hab => ?_, fun {a b c} hab hbc => ?_⟩
  · cases a with
    | none => exact hnone
    | some a => exact (hsome a a).trans (h.refl a)
  · cases a <;> cases b <;> simp only [hnone, hsome, hleft, hright, Bool.false_eq_true] at hab ⊢
    exact h.symm hab
  · cases a <;> cases b <;> cases c <;>
      simp only [hnone, hsome, hleft, hright, Bool.false_eq_true] at hab hbc ⊢
    exact h.trans hab hbc

theorem Path.sameOption_equivalence : Equivalence fun p q : Option Path => sameOption p q = true :=
  equivalence_optional same_equivalence rfl (fun _ _ => rfl) (fun _ => rfl) (fun _ => rfl)

namespace ServerSettings

theorem sameOptions_equivalence : Equivalence fun a b : Option Json => sameOptions a b = true :=
  equivalence_optional Json.same_equivalence rfl (fun _ _ => rfl) (fun _ => rfl) (fun _ => rfl)

theorem startsSame_iff {a b : ServerSettings} :
    a.startsSame b = true ↔ a.command = b.command ∧ a.args = b.args ∧ a.env = b.env ∧
      Path.sameOption a.workingDirectory b.workingDirectory = true ∧
      sameOptions a.initializationOptions b.initializationOptions = true := by
  simp only [startsSame, Bool.and_eq_true, beq_iff_eq, and_assoc]

theorem startsSame_equivalence : Equivalence fun a b : ServerSettings => a.startsSame b = true := by
  have hpath := Path.sameOption_equivalence
  have hoptions := sameOptions_equivalence
  refine ⟨fun a => ?_, fun {a b} hab => ?_, fun {a b c} hab hbc => ?_⟩
  · exact startsSame_iff.mpr ⟨rfl, rfl, rfl, hpath.refl _, hoptions.refl _⟩
  · obtain ⟨hc, ha, he, hw, ho⟩ := startsSame_iff.mp hab
    exact startsSame_iff.mpr ⟨hc.symm, ha.symm, he.symm, hpath.symm hw, hoptions.symm ho⟩
  · obtain ⟨hc, ha, he, hw, ho⟩ := startsSame_iff.mp hab
    obtain ⟨hc', ha', he', hw', ho'⟩ := startsSame_iff.mp hbc
    exact startsSame_iff.mpr ⟨hc.trans hc', ha.trans ha', he.trans he', hpath.trans hw hw',
      hoptions.trans ho ho'⟩

end ServerSettings

namespace EnvironmentSettings

theorem preparesSame_iff {a b : EnvironmentSettings} :
    a.preparesSame b = true ↔ a.enabled = b.enabled ∧ Path.sameOption a.rccPath b.rccPath = true ∧
      Path.sameOption a.robotYaml b.robotYaml = true ∧ a.space = b.space ∧
      Path.sameOption a.robocorpHome b.robocorpHome = true ∧ a.env = b.env := by
  simp only [preparesSame, Bool.and_eq_true, beq_iff_eq, and_assoc]

theorem preparesSame_equivalence :
    Equivalence fun a b : EnvironmentSettings => a.preparesSame b = true := by
  have hpath := Path.sameOption_equivalence
  refine ⟨fun a => ?_, fun {a b} hab => ?_, fun {a b c} hab hbc => ?_⟩
  · exact preparesSame_iff.mpr ⟨rfl, hpath.refl _, hpath.refl _, rfl, hpath.refl _, rfl⟩
  · obtain ⟨he, hr, hy, hs, hh, hv⟩ := preparesSame_iff.mp hab
    exact preparesSame_iff.mpr
      ⟨he.symm, hpath.symm hr, hpath.symm hy, hs.symm, hpath.symm hh, hv.symm⟩
  · obtain ⟨he, hr, hy, hs, hh, hv⟩ := preparesSame_iff.mp hab
    obtain ⟨he', hr', hy', hs', hh', hv'⟩ := preparesSame_iff.mp hbc
    exact preparesSame_iff.mpr ⟨he.trans he', hpath.trans hr hr', hpath.trans hy hy',
      hs.trans hs', hpath.trans hh hh', hv.trans hv'⟩

end EnvironmentSettings

namespace Settings

theorem requiresRestart_eq_false {a b : Settings} :
    a.requiresRestart b = false ↔
      a.server.startsSame b.server = true ∧ a.environment.preparesSame b.environment = true := by
  simp [requiresRestart, ServerSettings.requiresRestart, EnvironmentSettings.requiresRestart]

/-- May a server that runs with the one keep running with the other? -/
theorem requiresRestart_equivalence :
    Equivalence fun a b : Settings => a.requiresRestart b = false := by
  have hs := ServerSettings.startsSame_equivalence
  have he := EnvironmentSettings.preparesSame_equivalence
  refine ⟨fun a => ?_, fun {a b} hab => ?_, fun {a b c} hab hbc => ?_⟩
  · exact requiresRestart_eq_false.mpr ⟨hs.refl _, he.refl _⟩
  · obtain ⟨h, h'⟩ := requiresRestart_eq_false.mp hab
    exact requiresRestart_eq_false.mpr ⟨hs.symm h, he.symm h'⟩
  · obtain ⟨h, h'⟩ := requiresRestart_eq_false.mp hab
    obtain ⟨k, k'⟩ := requiresRestart_eq_false.mp hbc
    exact requiresRestart_eq_false.mpr ⟨hs.trans h k, he.trans h' k'⟩

end Settings

end Supervisor
