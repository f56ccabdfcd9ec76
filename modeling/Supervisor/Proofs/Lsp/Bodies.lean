import Supervisor.Lsp.Client
import Supervisor.Proofs.Json.Records
import Supervisor.Proofs.Text.Utf8
/-!
# What the body of a frame says

A body is a message if it is the text of a record with the members `id`, `method`, `params`, `result`
and `error`, each of which may be missing or null. `content?` reads them one by one; a message that has
a method and an identifier is a request of the server, and one that has a natural number for its
identifier and no method is a response.
-/
namespace Supervisor.Lsp

open Json (Outline Document membersFor neededIn optionalIn)

/-- What a message says, apart from its parameters. -/
structure Content where
  id : Option Json
  method : Option String
  result : Option Json
  error : Option (Int × String)

/-- The code and the text of an error object. -/
def error? (o : Outline) : Option (Int × String) := do
  let ms ← membersFor ["code", "message"] o
  let code ← neededIn ms "code" Outline.whole?
  let text ← neededIn ms "message" Outline.text?
  return (code, text)

/-- A value inside a message. -/
def value? (o : Outline) : Option Json := (o.readAny 127).toOption

def content? (body : List UInt8) : Option Content := do
  let d := Document.ofGlyphs (Text.glyphs body)
  let ms ← membersFor ["id", "method", "params", "result", "error"] d.value
  let id ← optionalIn ms "id" value?
  let method ← optionalIn ms "method" Outline.text?
  let _ ← optionalIn ms "params" value?
  let result ← optionalIn ms "result" value?
  let error ← optionalIn ms "error" error?
  if d.trailing then none else some { id, method, result, error }

/-- What the body says of a request, if it is a response to it: the result, which is null if it has
none, or the error if it has one. -/
def answer? (n : Nat) (body : List UInt8) : Option (Except Fault Json) :=
  match content? body with
  | some ⟨some (.number (.whole z)), none, result, error⟩ =>
    if z = n then
      match error with
      | some (code, text) => some (.error (.request ("LSP error " ++ toString code ++ ": " ++ text)))
      | none => some (.ok (result.getD .null))
    else none
  | _ => none

/-- The identifier under which the server itself requests something. -/
def asked? (body : List UInt8) : Option Json :=
  match content? body with
  | some ⟨some id, some _, _, _⟩ => some id
  | _ => none

/-! ## Reading a body -/

def ResponseError.parts (e : ResponseError) : Int × String := (e.code, e.message)

def Envelope.content (e : Envelope) : Content :=
  ⟨e.id, e.method, e.result, e.error.map ResponseError.parts⟩

theorem toOption_readMembers_nil (depth : Nat) (ms : List (String × Outline)) :
    (Json.Fields.nil.readMembers depth ms).toOption = some () := rfl

theorem toOption_readOutline_error {depth inner : Nat} (hd : Json.enter depth = .ok inner) (o : Outline) :
    (ResponseError.shape.readOutline depth o).toOption.map ResponseError.parts = error? o := by
  have hnodup : ResponseError.fields.names.Nodup := by decide
  have heven : ResponseError.fields.Even := by simp [ResponseError.fields, Json.Fields.Even]
  rw [ResponseError.shape, Json.toOption_readOutline_record hnodup heven hd]
  simp only [ResponseError.fields, Json.Fields.toOption_readMembers_required, Json.Fields.names,
    Json.toOption_readOutline_text, Json.toOption_readOutline_integer, toOption_readMembers_nil, error?,
    Option.map_bind, Function.comp_def, Option.map_some]
  rfl

theorem toOption_finish {α : Type} (d : Document) (x : Except Json.ReadError α) :
    (d.finish x).toOption = x.toOption.bind fun a => if d.trailing then none else some a := by
  rw [Document.finish, Json.toOption_bind]
  cases d.trailing <;> rfl

/-- What is read of a body, and what the body says. -/
theorem content?_eq (body : List UInt8) :
    let d := Document.ofGlyphs (Text.glyphs body)
    (d.finish (Envelope.shape.readOutline Json.depthLimit d.value)).toOption.map Envelope.content =
      content? body := by
  intro d
  have hnodup : Envelope.fields.names.Nodup := by decide
  have heven : Envelope.fields.Even := by simp [Envelope.fields, Json.Fields.Even]
  have houter : Json.enter Json.depthLimit = .ok 127 := rfl
  have hinner : Json.enter 127 = .ok 126 := rfl
  rw [toOption_finish, Envelope.shape, Json.toOption_readOutline_record hnodup heven houter]
  have herror (ms : List (String × Outline)) : optionalIn ms "error" error? =
      (optionalIn ms "error" fun o => (ResponseError.shape.readOutline 127 o).toOption).map
        (Option.map ResponseError.parts) := by
    rw [← Json.optionalIn_map]
    simp only [toOption_readOutline_error hinner]
  simp only [Envelope.fields, Json.Fields.toOption_readMembers_optional, Json.Fields.names,
    Json.toOption_readOutline_text, toOption_readMembers_nil, content?, herror, Option.bind_eq_bind,
    Option.map_bind, Option.bind_map, Option.bind_assoc, Function.comp_def, Option.map_some,
    Option.bind_some, apply_ite (Option.map Envelope.content), Option.map_none]
  rfl

/-! ## What a client makes of it -/

theorem ofBody_of_content? {body : List UInt8} {m : Content} (h : content? body = some m) :
    ∃ e : Envelope, Message.ofBody body = .ok e.classify ∧ e.content = m := by
  rw [← content?_eq, Option.map_eq_some_iff] at h
  obtain ⟨e, he, hm⟩ := h
  exact ⟨e, map_eq_ok.mpr ⟨e, Json.toOption_eq_some.mp he, rfl⟩, hm⟩

theorem ofBody_of_no_content {body : List UInt8} (h : content? body = none) :
    ∃ err, Message.ofBody body = .error err := by
  rw [← content?_eq, Option.map_eq_none_iff] at h
  cases hm : Message.ofBody body with
  | error err => exact ⟨err, rfl⟩
  | ok m =>
    obtain ⟨e, he, -⟩ := map_eq_ok.mp hm
    rw [Json.toOption_eq_some.mpr he] at h
    cases h

theorem nat?_eq_some {j : Json} {n : Nat} : j.nat? = some n ↔ j = .number (.whole n) := by
  constructor
  · intro h
    unfold Json.nat? at h
    split at h
    · split_ifs at h with hz
      obtain rfl := Option.some.inj h
      rw [Int.toNat_of_nonneg hz]
    · cases h
  · rintro rfl
    simp [Json.nat?]

/-- A response has the number of the request that it answers, and no method. -/
theorem content?_of_answer? {n : Nat} {body : List UInt8} {r : Except Fault Json}
    (h : answer? n body = some r) :
    ∃ m, content? body = some m ∧ m.id = some (.number (.whole n)) ∧ m.method = none := by
  unfold answer? at h
  split at h
  · next z result error hc =>
    split_ifs at h with hz
    subst hz
    exact ⟨_, hc, rfl, rfl⟩
  · cases h

theorem answer?_of_content? {n : Nat} {body : List UInt8} {result : Option Json}
    {error : Option ResponseError} (hc : content? body =
      some ⟨some (.number (.whole n)), none, result, error.map ResponseError.parts⟩) :
    answer? n body = some (Client.resultOf (match error with
      | some e => .error e
      | none => .ok (result.getD .null))) := by
  cases error <;> simp [answer?, hc, Client.resultOf, ResponseError.parts]

theorem answer?_eq_none {n : Nat} {body : List UInt8} (h : ∀ m, content? body = some m →
    m.id = some (.number (.whole n)) → m.method ≠ none) : answer? n body = none := by
  by_contra hne
  obtain ⟨r, hr⟩ := Option.ne_none_iff_exists'.mp hne
  obtain ⟨m, hm, hid, hmethod⟩ := content?_of_answer? hr
  exact h m hm hid hmethod

theorem filter_ne_of_not_mem {n : Nat} {ms : List Nat} (h : n ∉ ms) : ms.filter (· != n) = ms :=
  List.filter_eq_self.mpr fun _ hm => bne_iff_ne.mpr fun heq => h (heq ▸ hm)

/-- A client takes a body as what it says: a response, a request of the server, or nothing. -/
theorem Client.take_cases (c : Client) (body : List UInt8) :
    (∃ n r, answer? n body = some r ∧ (∀ m, m ≠ n → answer? m body = none) ∧ asked? body = none ∧
      c.take body = ({ c with outstanding := c.outstanding.filter (· != n) },
        if n ∈ c.outstanding then [.resolve n r] else [])) ∨
    (∃ id, (∀ m, answer? m body = none) ∧ asked? body = some id ∧
      c.take body = (c, [.write (emptyReply id)])) ∨
    ((∀ m, answer? m body = none) ∧ asked? body = none ∧ c.take body = (c, [])) := by
  cases hc : content? body with
  | none =>
    obtain ⟨err, herr⟩ := ofBody_of_no_content hc
    refine .inr (.inr ⟨fun n => answer?_eq_none (by simp [hc]), by simp [asked?, hc], ?_⟩)
    simp only [Client.take, herr]
  | some m =>
    obtain ⟨⟨id, method, params, result, error⟩, hm, rfl⟩ := ofBody_of_content? hc
    simp only [Envelope.content] at hc
    cases method with
    | some method =>
      cases id with
      | some id =>
        refine .inr (.inl ⟨id, fun n => answer?_eq_none (by simp [hc]), by simp [asked?, hc], ?_⟩)
        simp only [Client.take, hm, Envelope.classify]
      | none =>
        refine .inr (.inr ⟨fun n => answer?_eq_none (by simp [hc]), by simp [asked?, hc], ?_⟩)
        simp only [Client.take, hm, Envelope.classify]
    | none =>
      have hasked : asked? body = none := by simp [asked?, hc]
      cases id with
      | none =>
        refine .inr (.inr ⟨fun n => answer?_eq_none (by simp [hc]), hasked, ?_⟩)
        simp only [Client.take, hm, Envelope.classify]
      | some id =>
        cases hn : id.nat? with
        | none =>
          have hid (n : Nat) : id ≠ .number (.whole n) := by
            rintro rfl
            simp [Json.nat?] at hn
          refine .inr (.inr ⟨fun n => answer?_eq_none (by simp [hc, hid]), hasked, ?_⟩)
          simp only [Client.take, hm, Envelope.classify, hn]
        | some n =>
          obtain rfl := nat?_eq_some.mp hn
          refine .inl ⟨n, _, answer?_of_content? hc, fun m hne => ?_, hasked, ?_⟩
          · exact answer?_eq_none (by simp [hc, Ne.symm hne])
          · by_cases hopen : n ∈ c.outstanding
            · cases error <;> simp only [Client.take, hm, Envelope.classify, hn, if_pos hopen]
            · rw [filter_ne_of_not_mem hopen]
              cases error <;> simp only [Client.take, hm, Envelope.classify, hn, if_neg hopen]

end Supervisor.Lsp
