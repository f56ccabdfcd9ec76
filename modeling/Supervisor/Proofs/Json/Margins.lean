import Supervisor.Proofs.Json.Place
import Supervisor.Proofs.Text.Trimming
/-!
# The margins of a JSON text

Blanks around a JSON text do not count. JSON has four blanks of its own, and every other blank spoils
the text that it stands beside: a text that can be read has only whole tokens, and a foreign blank is
no token or breaks one off.
-/
namespace Supervisor.Json

open Text (Glyph IsGap IsSolid isBlank)

/-! ## What can be read is intact -/

/-- The token is all there. -/
def Token.Intact : Token → Prop
  | .string b => b.ending = .closed
  | .bad _ => False
  | _ => True

theorem StringBody.ending_of_join {ending : BodyEnd} {pieces : List Piece}
    {cs : List (Option Char)} (h : join ending pieces = .ok cs) : ending = .closed := by
  fun_induction join ending pieces generalizing cs
  case case1 hend => cases ending <;> simp [BodyEnd.mishap?] at hend ⊢
  case case3 ih | case4 ih | case7 ih | case9 ih | case11 ih | case14 ih =>
    obtain ⟨_, hrest, -⟩ := map_eq_ok.mp h
    exact ih hrest
  all_goals cases h

theorem StringBody.ending_of_text {b : StringBody} {s : String} (h : mishap b.text = .ok s) :
    b.ending = .closed := by
  cases hj : join b.ending b.pieces with
  | ok cs => exact ending_of_join hj
  | error m => simp [text, hj, Except.bind, mishap] at h

namespace Outline

/-- No value can be read from the outline, however deep it may be nested. -/
def Unreadable (o : Outline) : Prop := ∀ depth j, o.readAny depth ≠ .ok j

theorem readItems_mem {depth : Nat} : ∀ {items : List Outline} {js : List Json},
    readItems depth items = .ok js → ∀ o ∈ items, ∃ j, o.readAny depth = .ok j
  | [], js, _, o, ho => by cases ho
  | o :: rest, js, h, o', ho => by
    simp only [readItems, bind_eq_ok] at h
    obtain ⟨j, hj, js, hjs, -⟩ := h
    rcases List.mem_cons.mp ho with rfl | ho
    · exact ⟨j, hj⟩
    · exact readItems_mem hjs o' ho

theorem readMembers_mem {depth : Nat} : ∀ {members : List (StringBody × Outline)}
    {t ms : Table Json}, readMembers depth members t = .ok ms →
      ∀ m ∈ members, m.1.ending = .closed ∧ ∃ j, m.2.readAny depth = .ok j
  | [], t, ms, _, m, hm => by cases hm
  | (b, o) :: rest, t, ms, h, m, hm => by
    simp only [readMembers, bind_eq_ok] at h
    obtain ⟨name, hname, j, hj, h⟩ := h
    rcases List.mem_cons.mp hm with rfl | hm
    · exact ⟨StringBody.ending_of_text hname, j, hj⟩
    · exact readMembers_mem h m hm

theorem unreadable_array {items : List Outline} {e : Ending}
    (h : (∃ o ∈ items, Unreadable o) ∨ e ≠ .closed) : Unreadable (.array items e) := by
  intro depth j hj
  simp only [readAny, bind_eq_ok] at hj
  obtain ⟨inner, -, js, hjs, _, hend, -⟩ := hj
  rcases h with ⟨o, ho, hbad⟩ | he
  · obtain ⟨j, hj⟩ := readItems_mem hjs o ho
    exact hbad _ _ hj
  · cases e <;> simp [Ending.ofArray] at hend he

theorem unreadable_object {members : List (StringBody × Outline)} {wrongName : Option Outline}
    {e : Ending} (h : (∃ m ∈ members, m.1.ending ≠ .closed ∨ Unreadable m.2) ∨
      wrongName.isSome ∨ e ≠ .closed) : Unreadable (.object members wrongName e) := by
  intro depth j hj
  simp only [readAny, bind_eq_ok] at hj
  obtain ⟨inner, -, ms, hms, _, hend, -⟩ := hj
  rcases h with ⟨m, hm, hbad⟩ | hname | he
  · obtain ⟨hclosed, j, hj⟩ := readMembers_mem hms m hm
    rcases hbad with hopen | hbad
    · exact hopen hclosed
    · exact hbad _ _ hj
  · simp [endObject, hname] at hend
  · cases hw : wrongName.isSome <;> cases e <;> simp [endObject, hw, Ending.ofObject] at hend he

theorem unreadable_bad (b : Break) : Unreadable (.bad b) := by
  intro depth j hj
  cases hj

theorem unreadable_missing (m : Mishap) : Unreadable (.missing m) := by
  intro depth j hj
  cases hj

theorem unreadable_string {b : StringBody} (h : b.ending ≠ .closed) : Unreadable (.string b) := by
  intro depth j hj
  obtain ⟨s, hs, -⟩ := map_eq_ok.mp hj
  exact h (StringBody.ending_of_text hs)

/-- What is cut off spoils everything around it. -/
theorem unreadable_cutOff : ∀ {fs : List Frame} {o : Outline}, Unreadable o → Unreadable (cutOff o fs)
  | [], o, h => h
  | .item before :: fs, o, h =>
    @unreadable_cutOff fs _ (unreadable_array (.inl ⟨o, by simp, h⟩))
  | .member before name :: fs, o, h =>
    @unreadable_cutOff fs _ (unreadable_object (.inl ⟨(name, o), by simp, .inr h⟩))

theorem unreadable_cutArray {items : List Outline} {e : Ending} {fs : List Frame}
    (h : e ≠ .closed) : Unreadable (cutArray items e fs) :=
  unreadable_cutOff (unreadable_array (.inr h))

theorem unreadable_cutObject {members : List (StringBody × Outline)} {e : Ending}
    {fs : List Frame} (h : (∃ m ∈ members, m.1.ending ≠ .closed ∨ Unreadable m.2) ∨ e ≠ .closed) :
    Unreadable (cutObject members e fs) := by
  refine unreadable_cutOff (unreadable_object ?_)
  rcases h with ⟨m, hm, hbad⟩ | he
  · exact .inl ⟨m, List.mem_reverse.mpr hm, hbad⟩
  · exact .inr (.inr he)

/-- A place from which reading goes on has taken whole tokens; where it ends early, nothing can be
read. -/
def Sifts (t : Token) : Place ⊕ Outline → Prop
  | .inl p => t.Intact ∨ isTrailing p = true
  | .inr o => Unreadable o

theorem atValue_sifts (t : Token) (fs : List Frame) : Sifts t (atValue t fs) := by
  cases t with
  | string b =>
    simp only [atValue]
    split
    · next h => exact .inl h
    · next h => exact unreadable_cutOff (unreadable_string h)
  | bad b => exact unreadable_cutOff (unreadable_bad b)
  | closeArray | closeObject | colon | comma => exact unreadable_cutOff (unreadable_bad _)
  | _ => exact .inl trivial

theorem step_sifts (p : Place) (t : Token) : Sifts t (step p t) := by
  cases p with
  | value fs => exact atValue_sifts t fs
  | item before fs =>
    simp only [step]
    split
    · next h =>
      subst h
      split
      · exact .inl trivial
      · exact unreadable_cutArray (by simp)
    · exact atValue_sifts t _
  | afterItem items fs =>
    cases t with
    | comma | closeArray => exact .inl trivial
    | _ => exact unreadable_cutArray (by simp)
  | name before fs =>
    cases t with
    | string b =>
      simp only [step]
      split
      · next h => exact .inl h
      · next h =>
        exact unreadable_cutObject (.inl ⟨(b, .missing .endOfString), by simp, .inl h⟩)
    | closeObject =>
      simp only [step]
      split
      · exact .inl trivial
      · exact unreadable_cutObject (.inr (by simp))
    | _ => exact unreadable_cutOff (unreadable_object (.inr (.inl rfl)))
  | afterName before name fs =>
    cases t with
    | colon => exact .inl trivial
    | _ =>
      exact unreadable_cutObject
        (.inl ⟨(name, .missing .noColon), by simp, .inr (unreadable_missing _)⟩)
  | afterMember members fs =>
    cases t with
    | comma | closeObject => exact .inl trivial
    | _ => exact unreadable_cutObject (.inr (by simp))
  | finished o | trailing o => exact .inr rfl

theorem build_trailing {p : Place} (h : isTrailing p = true) (ts : List Token) :
    (build p ts).2 = true := by
  cases p with
  | trailing o =>
    induction ts with
    | nil => rfl
    | cons t rest ih => exact ih
  | _ => simp [isTrailing] at h

theorem intact_of_build : ∀ {ts : List Token} {p : Place}, (build p ts).2 = false →
    ¬ Unreadable (build p ts).1 → ∀ t ∈ ts, t.Intact
  | [], p, _, _, t, ht => by cases ht
  | t :: rest, p, hend, hread, t', ht => by
    have hs := step_sifts p t
    rw [build] at hend hread
    cases hp : step p t with
    | inr o =>
      rw [hp] at hread hs
      exact (hread hs).elim
    | inl p' =>
      simp only [hp] at hend hread
      rw [hp] at hs
      have hintact : t.Intact := by
        rcases hs with h | h
        · exact h
        · simp [build_trailing h] at hend
      rcases List.mem_cons.mp ht with rfl | ht
      · exact hintact
      · exact intact_of_build hend hread t' ht

end Outline

/-- A text that holds a value is made of whole tokens. -/
theorem intact_of_ofString {s : String} {j : Json} (h : ofString s = .ok j) :
    ∀ t ∈ tokens (Text.glyphsOf s), t.Intact := by
  obtain ⟨hj, hend⟩ := Document.finish_eq_ok.mp h
  exact Outline.intact_of_build hend fun hbad => hbad _ _ hj

/-! ## Blanks -/

namespace Token

/-- A token of the list is broken. -/
def Broken (ts : List Token) : Prop := ∃ t ∈ ts, ¬ t.Intact

theorem broken_bad (b : Break) (ts : List Token) : Broken (.bad b :: ts) :=
  ⟨.bad b, by simp, id⟩

theorem broken_body (pieces : List Piece) {ending : BodyEnd} (h : ending ≠ .closed)
    (ts : List Token) : Broken (closeBody pieces ending :: ts) :=
  ⟨closeBody pieces ending, by simp, h⟩

theorem Broken.append_left {ts : List Token} (h : Broken ts) (before : List Token) :
    Broken (before ++ ts) := by
  obtain ⟨t, ht, hbad⟩ := h
  exact ⟨t, List.mem_append_right _ ht, hbad⟩

theorem ne_of_blank {b c : Char} (hb : isBlank b = true) (hc : isBlank c = false) : b ≠ c := by
  rintro rfl
  simp [hb] at hc

theorem not_isDigit_of_blank {b : Char} (hb : isBlank b = true) : b.isDigit = false := by
  by_contra h
  exact ne_of_blank hb (Text.isBlank_of_isDigit (by simpa using h)) rfl

theorem digit?_of_blank {b : Char} (hb : isBlank b = true) : digit? b = none := by
  simp [digit?, not_isDigit_of_blank hb]

/-- At a blank no token begins. -/
theorem start_of_blank {b : Char} (hb : isBlank b = true) :
    start (some b) = ([], .between) ∨ start (some b) = ([.bad (.both .noValue)], .stopped) := by
  simp only [start]
  split
  · exact .inl rfl
  · right
    split
    case h_13 => simp [digit?_of_blank hb]
    all_goals exact absurd hb (by decide)

theorem extend_of_blank {b : Char} (hb : isBlank b = true) (n : Numeral) (s : Stage) :
    extend n s b = none := by
  have hne : ∀ c, isBlank c = false → (b == c) = false := fun c hc =>
    beq_eq_false_iff_ne.mpr (ne_of_blank hb hc)
  have hpoint := hne '.' (by decide)
  have he := hne 'e' (by decide)
  have hE := hne 'E' (by decide)
  have hplus := hne '+' (by decide)
  have hminus := hne '-' (by decide)
  cases s <;> simp [extend, digit?_of_blank hb, hpoint, he, hE, hplus, hminus]

/-- A blank ends a numeral as the end of the text does. -/
theorem close_of_blank {b : Char} (hb : isBlank b = true) (n : Numeral) (s : Stage) :
    (close n s (some (some b)) = .number n ∧ close n s none = .number n) ∨
      ∃ br, close n s (some (some b)) = .bad br := by
  cases s with
  | zero => simp [close, not_isDigit_of_blank hb]
  | whole | fraction | exponent => exact .inl ⟨rfl, rfl⟩
  | sign | point | mark | markSign => exact .inr ⟨_, rfl⟩

theorem escaped?_of_blank {b : Char} (hb : isBlank b = true) : escaped? b = none := by
  cases h : escaped? b with
  | none => rfl
  | some c =>
    exfalso
    revert h
    unfold escaped?
    split <;> first | exact absurd hb (by decide) | simp

/-- Nothing that is still to be read of a word is a blank. -/
def Mode.Solid : Mode → Prop
  | .word rest _ => IsSolid rest
  | _ => True

theorem solid_start (g : Glyph) : (start g).2.Solid := by
  unfold start
  split
  · trivial
  · split
    · trivial
    · split <;> first | trivial | (simp only [Mode.Solid]; decide) | skip
      split <;> trivial

theorem solid_step {m : Mode} (h : m.Solid) (g : Glyph) : (step m g).2.Solid := by
  cases m with
  | between => exact solid_start g
  | word rest t =>
    cases rest with
    | nil => exact solid_start g
    | cons c rest =>
      simp only [step]
      split
      · exact fun d hd => h d (List.mem_cons_of_mem _ hd)
      · trivial
  | string pieces =>
    cases g with
    | none => trivial
    | some c =>
      simp only [step]
      split_ifs <;> trivial
  | escape pieces =>
    simp only [step]
    split
    · trivial
    · split <;> trivial
  | hex pieces bytes value =>
    simp only [step, hexStep]
    split
    · trivial
    · split <;> trivial
  | numeral n s =>
    simp only [step]
    split
    · trivial
    · split
      · exact solid_start g
      · trivial
  | stopped => trivial

theorem read_cons (m : Mode) (g : Glyph) (rest : List Glyph) :
    read m (g :: rest) = (step m g).1 ++ read (step m g).2 rest := rfl

/-- Blanks before a text are passed over, or nothing can be read. -/
theorem read_before {before : List Char} (hb : IsGap before) (rest : List Glyph) :
    read .between (before.map some ++ rest) = read .between rest ∨
      Broken (read .between (before.map some ++ rest)) := by
  induction before with
  | nil => exact .inl rfl
  | cons b before ih =>
    have hrest := ih fun c hc => hb c (List.mem_cons_of_mem _ hc)
    rw [List.map_cons, List.cons_append, read_cons, step]
    rcases start_of_blank (hb b List.mem_cons_self) with h | h
    · simpa [h] using hrest
    · rw [h]
      exact .inr (broken_bad _ _)

/-- Where a blank is taken, the text might as well have ended. -/
theorem step_of_blank {m : Mode} (hm : m.Solid) {b : Char} (hb : isBlank b = true) :
    (step m (some b)).1 ++ finish (step m (some b)).2 = finish m ∨
      Broken ((step m (some b)).1 ++ finish (step m (some b)).2) := by
  cases m with
  | between =>
    rcases start_of_blank hb with h | h
    · simp [step, h, finish]
    · simp [step, h, finish, broken_bad]
  | word rest t =>
    cases rest with
    | nil =>
      rcases start_of_blank hb with h | h
      · simp [step, h, finish]
      · right
        simpa [step, h, finish] using (broken_bad _ []).append_left [t]
    | cons c rest =>
      have hne : (some b == some c) = false :=
        beq_eq_false_iff_ne.mpr fun h => ne_of_blank hb (hm c List.mem_cons_self) (Option.some.inj h)
      simp only [step, hne]
      exact .inr (broken_bad _ _)
  | string pieces =>
    right
    have hquote : (b == '"') = false := beq_eq_false_iff_ne.mpr (ne_of_blank hb (by decide))
    simp only [step, hquote, Bool.false_eq_true, if_false]
    split_ifs
    · exact broken_body pieces (by simp) []
    · exact broken_body pieces (by simp) []
    · exact broken_body (.char b :: pieces) (by simp) []
  | escape pieces =>
    right
    have hu : (some b == some 'u') = false :=
      beq_eq_false_iff_ne.mpr fun h => ne_of_blank hb (by decide) (Option.some.inj h)
    simp only [step, hu, Option.bind_some, escaped?_of_blank hb]
    exact broken_body pieces (by simp) []
  | hex pieces bytes value =>
    right
    simp only [step, hexStep]
    split
    · exact broken_body pieces (by simp) []
    · split
      · exact broken_body _ (by simp) []
      · exact broken_body pieces (by simp) []
  | numeral n s =>
    have hnone : (some b).bind (extend n s) = none := extend_of_blank hb n s
    simp only [step, hnone]
    rcases close_of_blank hb n s with ⟨hnow, hend⟩ | ⟨br, hnow⟩
    · rcases start_of_blank hb with h | h
      · simp [hnow, h, finish, hend]
      · right
        simpa [hnow, h, finish] using (broken_bad _ []).append_left [.number n]
    · rw [hnow]
      exact .inr (broken_bad br [])
  | stopped => exact .inl rfl

/-- Blanks after a text that has been read up to `m` leave it as it is, or they are in the way. -/
theorem read_after {after : List Char} (ha : IsGap after) : ∀ {m : Mode}, m.Solid →
    read m (after.map some) = finish m ∨ Broken (read m (after.map some)) := by
  induction after with
  | nil => exact fun _ => .inl rfl
  | cons b after ih =>
    intro m hm
    have hnext := ih (fun c hc => ha c (List.mem_cons_of_mem _ hc)) (solid_step hm (some b))
    rw [List.map_cons, read_cons]
    rcases hnext with h | h
    · rw [h]
      exact step_of_blank hm (ha b List.mem_cons_self)
    · exact .inr (h.append_left _)

theorem read_append {after : List Char} (ha : IsGap after) : ∀ (text : List Glyph) {m : Mode},
    m.Solid → read m (text ++ after.map some) = read m text ∨
      Broken (read m (text ++ after.map some))
  | [], m, hm => read_after ha hm
  | g :: text, m, hm => by
    rw [List.cons_append, read_cons, read_cons]
    rcases read_append ha text (solid_step hm g) with h | h
    · rw [h]
      exact .inl rfl
    · exact .inr (h.append_left _)

theorem read_around {before after : List Char} (hb : IsGap before) (ha : IsGap after)
    (text : List Glyph) :
    tokens (before.map some ++ (text ++ after.map some)) = tokens text ∨
      Broken (tokens (before.map some ++ (text ++ after.map some))) := by
  unfold tokens
  rcases read_before hb (text ++ after.map some) with hstart | hbad
  · rw [hstart]
    exact read_append ha text trivial
  · exact .inr hbad

end Token

/-- Blanks around a text that holds a value do not count. -/
theorem ofString_trim {s : String} {j : Json} (h : ofString s = .ok j) :
    ofString (String.ofList (Text.trim s.toList)) = .ok j := by
  obtain ⟨before, after, hb, ha, hs⟩ := Text.exists_trim s.toList
  have hglyphs : Text.glyphsOf s = before.map some ++
      (Text.glyphsOf (String.ofList (Text.trim s.toList)) ++ after.map some) := by
    simpa [Text.glyphsOf] using congrArg (List.map some) hs
  have htokens : tokens (Text.glyphsOf s) =
      tokens (Text.glyphsOf (String.ofList (Text.trim s.toList))) := by
    rw [hglyphs]
    refine (Token.read_around hb ha _).resolve_right ?_
    rintro ⟨t, ht, hbad⟩
    exact hbad (intact_of_ofString h t (by rwa [hglyphs]))
  rw [ofString, Document.ofString, Document.ofGlyphs, ← htokens]
  exact h

end Supervisor.Json
