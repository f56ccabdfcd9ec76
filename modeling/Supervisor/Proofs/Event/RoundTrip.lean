import Supervisor.Event.Basic
import Supervisor.Proofs.Json.Agreement
import Supervisor.Proofs.Json.Compact
import Supervisor.Proofs.Json.Origin
import Supervisor.Proofs.Settings.Saving
import Supervisor.Proofs.Time.Reading
/-!
# Reading events back

An event is told from what is written of it: from either form of its text, and from its value. What is
read is an event that comes back in turn, so an event has one form, however it was first written.
-/
namespace Supervisor

namespace Json

variable {α ρ : Type} {s : Shape α} {rest : Fields ρ} {n : String}

theorem lawful_required (hs : s.Lawful) (hrest : rest.Lawful) :
    (Fields.cons n .required kept s rest).Lawful :=
  ⟨hs, (fun _ h => by cases h), (fun _ h => by cases h), hrest⟩

theorem lawful_implied (hs : s.Lawful) (hrest : rest.Lawful) :
    (Fields.cons n (.implied none) Option.isNone s.optional rest).Lawful :=
  lawful_optional (n := n) hs hrest

end Json

namespace Event

open Json (Whole)

theorem shape_lawful : shape.Lawful := by
  refine ⟨?_, by decide, fun _ => rfl⟩
  refine Json.lawful_required trivial ?_
  refine Json.lawful_required (fun _ k _ => k.lookup_name) ?_
  refine Json.lawful_required (fun _ s _ => s.lookup_name) ?_
  refine Json.lawful_required (fun _ _ h => Timestamp.ofString_text (Timestamp.valid_of_ofString h)) ?_
  refine Json.lawful_required trivial ?_
  refine Json.lawful_implied trivial ?_
  refine Json.lawful_implied trivial ?_
  exact Json.lawful_optional (le_refl 64) trivial

/-- The time exists, and the milliseconds fit 64 bits. -/
structure Proper (e : Event) : Prop where
  timestamp : e.timestamp.Valid
  elapsed : ∀ ms ∈ e.notice.elapsedMillis, ms < Nat.pow 2 64

theorem fits_of_proper {e : Event} (h : e.Proper) : shape.Fits e := by
  have hnone : ∀ {α : Type} (n : String) (a : Option α), a.isNone = true →
      (Json.Absent.implied none).inObject n = .ok a :=
    fun _ _ ha => by rw [Option.isNone_iff_eq_none.mp ha, Json.Absent.inObject]
  have hkept : ∀ {α : Type} {p : Prop} (a : α), Json.kept a = true → p := fun _ h => by cases h
  have htext : ∀ a : Option String, Json.Shape.text.optional.Fits a :=
    fun _ _ _ => ⟨trivial, Json.noConfusion⟩
  have hmillis : (Json.Shape.natural "u64" 64).optional.Fits e.notice.elapsedMillis :=
    fun ms hms => ⟨h.elapsed ms hms, Json.noConfusion⟩
  refine ⟨rfl, ⟨trivial, hkept _, ?_⟩⟩
  refine ⟨EventKind.lookup_name _, hkept _, ?_⟩
  refine ⟨Severity.lookup_name _, hkept _, ?_⟩
  refine ⟨Timestamp.ofString_text h.timestamp, hkept _, ⟨trivial, hkept _, ?_⟩⟩
  refine ⟨htext _, hnone _ _, ⟨htext _, hnone _ _, ?_⟩⟩
  exact ⟨hmillis, hnone "elapsed_ms" _, trivial⟩

theorem proper_of_fits {e : Event} (h : shape.Fits e) : e.Proper := by
  obtain ⟨-, -, -, -, -, -, -, htime, -, -, -, -, -, -, -, hmillis, -⟩ := h
  exact ⟨Timestamp.valid_of_ofString htime, fun ms hms => (hmillis ms hms).1⟩

/-! ## What is written -/

/-- A member that may be missing stands in the object if it is there. -/
theorem toJson_eq (e : Event) : e.toJson = .object (
    [("id", .string e.id), ("kind", .string e.notice.kind.name),
      ("severity", .string e.notice.severity.name), ("timestamp", .string e.timestamp.text),
      ("message", .string e.notice.message)] ++
    (e.notice.server.map fun s => ("server_id", Json.string s)).toList ++
    (e.notice.code.map fun c => ("code", Json.string c)).toList ++
    (e.notice.elapsedMillis.map fun ms => ("elapsed_ms", Json.nat ms)).toList) := by
  obtain ⟨id, timestamp, kind, message, severity, server, code, elapsed⟩ := e
  cases server <;> cases code <;> cases elapsed <;> rfl

theorem nesting_toJson (e : Event) : e.toJson.nesting = 1 := by
  obtain ⟨id, timestamp, kind, message, severity, server, code, elapsed⟩ := e
  cases server <;> cases code <;> cases elapsed <;> rfl

theorem toJson_shallow (e : Event) : e.toJson.nesting < Json.depthLimit := by
  rw [nesting_toJson]
  decide

theorem toJson_whole (e : Event) : e.toJson.Every Whole := by
  refine shape.write_whole ?_
  simp [shape, fields, timestampShape, kindShape, severityShape, Json.Shape.free, Json.Fields.free]

/-! ## What is read -/

/-- The ways to read an event from what was written of another one. -/
inductive ReadFrom (e again : Event) : Prop
  | compact (h : shape.ofString e.toJson.compact = .ok again)
  | pretty (h : shape.ofString e.toJson.pretty = .ok again)
  | value (h : shape.readJson e.toJson.sorted = .ok again)

theorem ofString_compact {e : Event} (h : e.Proper) : shape.ofString e.toJson.compact = .ok e :=
  shape.ofString_compact shape_lawful (fits_of_proper h) e.toJson_whole e.toJson_shallow

theorem ofString_pretty {e : Event} (h : e.Proper) : shape.ofString e.toJson.pretty = .ok e :=
  shape.ofString_write shape_lawful (fits_of_proper h) e.toJson_whole e.toJson_shallow

theorem readJson_sorted {e : Event} (h : e.Proper) : shape.readJson e.toJson.sorted = .ok e := by
  have hfits := fits_of_proper h
  have hfitting := shape.write_fitting shape_lawful hfits
  exact shape.readJson_of_readOutline
    (shape.readOutline_write shape_lawful hfits e.toJson_whole e.toJson_shallow)
    (Json.Outline.readAny_outline hfitting e.toJson_whole e.toJson_shallow)

/-- What is read has a time that exists, so it comes back from what is written of it. -/
theorem ofString_again {text : String} {e : Event} (h : shape.ofString text = .ok e) :
    e.Proper ∧ shape.ofString e.toJson.compact = .ok e := by
  have hproper : e.Proper :=
    proper_of_fits (shape.fits_of_readOutline shape_lawful (Json.Document.finish_eq_ok.mp h).1)
  exact ⟨hproper, ofString_compact hproper⟩

/-- An event comes back from its texts and from its value, so what is written of what was read is the
same again; and members for what an event does not have are not written. -/
theorem read_written {e : Event} (h : e.Proper) :
    shape.ofString e.toJson.compact = .ok e ∧ shape.ofString e.toJson.pretty = .ok e ∧
      shape.readJson e.toJson.sorted = .ok e ∧
      (∀ again, ReadFrom e again →
        again.toJson.compact = e.toJson.compact ∧ again.toJson.pretty = e.toJson.pretty) ∧
      e.toJson.member? "server_id" = e.notice.server.map .string ∧
      e.toJson.member? "code" = e.notice.code.map .string ∧
      e.toJson.member? "elapsed_ms" = e.notice.elapsedMillis.map .nat := by
  have hcompact := ofString_compact h
  have hpretty := ofString_pretty h
  have hvalue := readJson_sorted h
  refine ⟨hcompact, hpretty, hvalue, fun again hread => ?_, ?_⟩
  · obtain rfl : e = again := by
      cases hread with
      | compact h => exact Except.ok.inj (hcompact.symm.trans h)
      | pretty h => exact Except.ok.inj (hpretty.symm.trans h)
      | value h => exact Except.ok.inj (hvalue.symm.trans h)
    exact ⟨rfl, rfl⟩
  · obtain ⟨id, timestamp, kind, message, severity, server, code, elapsed⟩ := e
    cases server <;> cases code <;> cases elapsed <;> exact ⟨rfl, rfl, rfl⟩

/-- An event in a leap second, with characters that are escaped and a member that is missing. -/
def leapSample : Event where
  id := "\u00e9\u2028"
  timestamp := ⟨2016, 12, 31, 23, 59, 59, 1500000000⟩
  notice :=
    { kind := .clearingCaches, message := "a \"b\"\n\u0001", code := some "", elapsedMillis := some 0 }

theorem proper_leapSample : leapSample.Proper where
  timestamp := ⟨rfl, by decide, by decide, by decide, by decide, by decide, .inr (by decide)⟩
  elapsed := by
    intro ms hms
    obtain rfl := Option.some.inj hms
    decide

theorem read_leapSample :
    leapSample.timestamp.text = "2016-12-31T23:59:60.500Z" ∧
      shape.ofString leapSample.toJson.compact = .ok leapSample ∧
      leapSample.toJson.member? "server_id" = none := by
  obtain ⟨hcompact, -, -, -, hserver, -, -⟩ := read_written proper_leapSample
  exact ⟨by decide, hcompact, hserver⟩

end Event

end Supervisor
