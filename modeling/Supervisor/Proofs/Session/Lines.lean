import Supervisor.Session.Command
import Supervisor.Proofs.Json.Margins
/-!
# The lines of a session

A line is blank, or it is a word with a text after it. `Reads` is the grammar of the lines, with all
the places where blanks may stand and those where they must. Every line is in it, and what is read
from a line is what the grammar says.
-/
namespace Supervisor.Session.Command

open Text (IsGap IsSolid IsWord IsBreak Breaks)

/-- The words that are a command by themselves. -/
inductive Plain : String → Command → Prop
  | restart : Plain "restart" .restart
  | clearCaches : Plain "clear-caches" .clearCaches
  | reload : Plain "reload" .reload
  | status : Plain "status" .status
  | stop : Plain "stop" .stop
  | quit : Plain "quit" .quit
  | exit : Plain "exit" .quit

/-- What a line says. -/
inductive Reads : List Char → Except Refusal (Option Command) → Prop
  | blank {gap : List Char} (hg : IsGap gap) : Reads gap (.ok none)
  | plain {before rest : List Char} {word : String} {c : Command} (hb : IsGap before)
      (hc : Plain word c) (hr : Breaks rest) : Reads (before ++ word.toList ++ rest) (.ok (some c))
  | unknown {before rest : List Char} {word : String} (hb : IsGap before) (hw : IsWord word.toList)
      (hc : ∀ c, ¬ Plain word c) (hn : word ≠ "request") (hr : Breaks rest) :
      Reads (before ++ word.toList ++ rest) (.error (.unknown word))
  | noMethod {before after : List Char} (hb : IsGap before) (ha : IsGap after) :
      Reads (before ++ "request".toList ++ after) (.error .noMethod)
  | request {before gap after : List Char} {method : String} (hb : IsGap before) (hg : IsBreak gap)
      (hm : IsWord method.toList) (ha : IsGap after) :
      Reads (before ++ "request".toList ++ (gap ++ method.toList ++ after))
        (.ok (some (.request method none)))
  | requestWith {before gap gap' after : List Char} {method text : String} {j : Json}
      (hb : IsGap before) (hg : IsBreak gap) (hm : IsWord method.toList) (hg' : IsBreak gap')
      (hj : Json.ofString text = .ok j) (ha : IsGap after) :
      Reads (before ++ "request".toList ++ (gap ++ method.toList ++ (gap' ++ text.toList ++ after)))
        (.ok (some (.request method (some j))))
  | badParams {before gap gap' after : List Char} {method text : String} {e : Json.ReadError}
      (hb : IsGap before) (hg : IsBreak gap) (hm : IsWord method.toList) (hg' : IsBreak gap')
      (hn : text ≠ "") (ht : Text.trimmed text = text) (he : Json.ofString text = .error e)
      (ha : IsGap after) :
      Reads (before ++ "request".toList ++ (gap ++ method.toList ++ (gap' ++ text.toList ++ after)))
        (.error (.badParams e))

/-! ## What is read from a line -/

/-- What a method makes of the text after it. -/
def ofMethod (method text : List Char) : Except Refusal Command :=
  if text = [] then .ok (.request (String.ofList method) none)
  else match Json.ofString (String.ofList text) with
    | .ok j => .ok (.request (String.ofList method) (some j))
    | .error e => .error (.badParams e)

theorem readRequest_nil : readRequest [] = .error .noMethod := rfl

theorem readRequest_trim {gap method rest : List Char} (hg : IsGap gap) (hm : IsWord method)
    (hr : Breaks rest) :
    readRequest (Text.trim (gap ++ method ++ rest)) = ofMethod method (Text.trim rest) := by
  have hne : ¬ method.isEmpty = true := by simpa using hm.ne_nil
  rcases Text.splitAtBlank_trim hg hm hr with ⟨h, hgap⟩ | ⟨more, h, hgap, htrim⟩
  · rw [readRequest, h, ofMethod, if_pos (Text.trim_eq_nil_iff.mpr hgap)]
    exact if_neg hne
  · rw [readRequest, h, ofMethod, if_neg (fun h => hgap (Text.trim_eq_nil_iff.mp h)), ← htrim]
    exact if_neg hne

/-- What a word makes of the text after it. -/
def ofWord (word : String) (rest : List Char) : Except Refusal (Option Command) :=
  if word = "restart" then .ok (some .restart)
  else if word = "clear-caches" then .ok (some .clearCaches)
  else if word = "reload" then .ok (some .reload)
  else if word = "status" then .ok (some .status)
  else if word = "stop" then .ok (some .stop)
  else if word = "quit" ∨ word = "exit" then .ok (some .quit)
  else if word = "request" then (readRequest rest).map some
  else .error (.unknown word)

theorem ofWord_plain {word : String} {c : Command} (h : Plain word c) (rest : List Char) :
    ofWord word rest = .ok (some c) := by
  cases h <;> simp [ofWord]

theorem ofWord_request (rest : List Char) : ofWord "request" rest = (readRequest rest).map some := by
  simp [ofWord]

theorem ofWord_unknown {word : String} (hc : ∀ c, ¬ Plain word c) (hn : word ≠ "request")
    (rest : List Char) : ofWord word rest = .error (.unknown word) := by
  have hne : ∀ {w c}, Plain w c → word ≠ w := fun h he => hc _ (he ▸ h)
  have hquit : ¬ (word = "quit" ∨ word = "exit") := by
    rintro (h | h)
    · exact hne .quit h
    · exact hne .exit h
  rw [ofWord, if_neg (hne .restart), if_neg (hne .clearCaches), if_neg (hne .reload),
    if_neg (hne .status), if_neg (hne .stop), if_neg hquit, if_neg hn]

theorem ofLine_gap {line : String} (h : IsGap line.toList) : ofLine line = .ok none := by
  simp [ofLine, Text.trim_eq_nil_iff.mpr h]

theorem ofLine_word {line word : String} {before rest : List Char} (hb : IsGap before)
    (hw : IsWord word.toList) (hr : Breaks rest)
    (hline : line.toList = before ++ word.toList ++ rest) :
    ofLine line = ofWord word (Text.trim rest) := by
  have hne : Text.trim line.toList ≠ [] := by
    intro h
    have hgap := Text.trim_eq_nil_iff.mp h
    rw [hline, Text.isGap_append, Text.isGap_append] at hgap
    exact hw.not_gap hgap.1.2
  have hword : String.ofList word.toList = word := String.ofList_toList
  unfold ofLine
  rw [hline] at hne ⊢
  simp only [List.isEmpty_iff, hne, if_false]
  rcases Text.splitAtBlank_trim hb hw hr with ⟨h, hgap⟩ | ⟨more, h, -, htrim⟩
  · rw [h, Text.trim_eq_nil_iff.mpr hgap]
    simp only [hword]
    rfl
  · rw [h]
    simp only [Option.getD_some, htrim, hword]
    rfl

/-! ## The grammar of the lines -/

theorem isWord_plain {word : String} {c : Command} (h : Plain word c) : IsWord word.toList := by
  constructor
  · cases h <;> decide
  · cases h <;> decide

theorem isWord_request : IsWord "request".toList := by
  constructor
  · decide
  · decide

theorem ofLine_request {line method : String} {before gap rest : List Char} (hb : IsGap before)
    (hg : IsBreak gap) (hm : IsWord method.toList) (hr : Breaks rest)
    (hline : line.toList = before ++ "request".toList ++ (gap ++ method.toList ++ rest)) :
    ofLine line = (ofMethod method.toList (Text.trim rest)).map some := by
  rw [ofLine_word hb isWord_request (hg.breaks_between _ _) hline, ofWord_request,
    readRequest_trim hg.gap hm hr]

theorem ofMethod_nil (method : String) : ofMethod method.toList [] = .ok (.request method none) := by
  rw [ofMethod, if_pos rfl, String.ofList_toList]

theorem ofMethod_text (method : String) {text : String} (hn : text ≠ "") :
    ofMethod method.toList text.toList =
      match Json.ofString text with
      | .ok j => .ok (.request method (some j))
      | .error e => .error (.badParams e) := by
  have hne : text.toList ≠ [] := fun h => hn (by simpa using congrArg String.ofList h)
  rw [ofMethod, if_neg hne, String.ofList_toList, String.ofList_toList]

/-- A text that holds a value is not blank, and the blanks around it do not count. -/
theorem ofMethod_trim {method text : String} {j : Json} (hj : Json.ofString text = .ok j) :
    ofMethod method.toList (Text.trim text.toList) = .ok (.request method (some j)) := by
  have htrim := Json.ofString_trim hj
  have hne : Text.trimmed text ≠ "" := by
    intro h
    rw [← Text.trimmed, h] at htrim
    cases htrim
  have hmethod := ofMethod_text method hne
  rw [Text.trimmed, htrim, String.toList_ofList] at hmethod
  exact hmethod

theorem Reads.ofLine_eq {line : String} {r : Except Refusal (Option Command)}
    (h : Reads line.toList r) : ofLine line = r := by
  generalize hline : line.toList = cs at h
  cases h with
  | blank hg => exact ofLine_gap (hline ▸ hg)
  | plain hb hc hr =>
    rw [ofLine_word hb (isWord_plain hc) hr hline]
    exact ofWord_plain hc _
  | unknown hb hw hc hn hr =>
    rw [ofLine_word hb hw hr hline]
    exact ofWord_unknown hc hn _
  | noMethod hb ha =>
    rw [ofLine_word hb isWord_request ha.breaks hline, Text.trim_eq_nil_iff.mpr ha, ofWord_request,
      readRequest_nil]
    rfl
  | request hb hg hm ha =>
    rw [ofLine_request hb hg hm ha.breaks hline, Text.trim_eq_nil_iff.mpr ha, ofMethod_nil]
    rfl
  | @requestWith before gap gap' after method text j hb hg hm hg' hj ha =>
    rw [ofLine_request hb hg hm (hg'.breaks_between _ _) hline, Text.trim_between hg'.gap ha,
      ofMethod_trim hj]
    rfl
  | @badParams before gap gap' after method text e hb hg hm hg' hn ht he ha =>
    have htext : Text.trim text.toList = text.toList := by
      simpa [Text.trimmed] using congrArg String.toList ht
    rw [ofLine_request hb hg hm (hg'.breaks_between _ _) hline, Text.trim_between hg'.gap ha, htext,
      ofMethod_text _ hn, he]
    rfl

theorem ofWord_cases (word : String) :
    (∃ c, Plain word c) ∨ word = "request" ∨ (∀ c, ¬ Plain word c) ∧ word ≠ "request" := by
  by_cases hc : ∃ c, Plain word c
  · exact .inl hc
  · by_cases hn : word = "request"
    · exact .inr (.inl hn)
    · exact .inr (.inr ⟨fun c h => hc ⟨c, h⟩, hn⟩)

/-- Every line says something. -/
theorem exists_reads (cs : List Char) : ∃ r, Reads cs r := by
  rcases Text.exists_word cs with hg | ⟨before, word, rest, hb, hw, hr, rfl⟩
  · exact ⟨_, .blank hg⟩
  obtain ⟨word, rfl⟩ : ∃ s : String, s.toList = word := ⟨String.ofList word, String.toList_ofList⟩
  rcases ofWord_cases word with ⟨c, hc⟩ | rfl | ⟨hc, hn⟩
  · exact ⟨_, .plain hb hc hr⟩
  · rcases Text.exists_word rest with ha | ⟨gap, method, more, hg, hm, hmore, rfl⟩
    · exact ⟨_, .noMethod hb ha⟩
    have hgap := hg.isBreak hm hr
    obtain ⟨method, rfl⟩ : ∃ s : String, s.toList = method :=
      ⟨String.ofList method, String.toList_ofList⟩
    rcases Text.exists_word more with ha | ⟨gap', first, last, hg', hf, -, rfl⟩
    · exact ⟨_, .request hb hgap hm ha⟩
    have hgap' := hg'.isBreak hf hmore
    obtain ⟨after, ha, hlast⟩ := Text.exists_trimEnd last
    obtain ⟨text, htext⟩ : ∃ s : String, s.toList = first ++ Text.trimEnd last :=
      ⟨_, String.toList_ofList⟩
    have htrim : Text.trimmed text = text := by
      rw [Text.trimmed, htext, ← Text.trim_word hf, Text.trim_trim, Text.trim_word hf, ← htext,
        String.ofList_toList]
    have hmore : gap' ++ first ++ last = gap' ++ text.toList ++ after := by
      rw [htext, List.append_assoc, List.append_assoc, List.append_assoc, ← hlast]
    have hne : text ≠ "" := by
      rintro rfl
      exact hf.ne_nil (List.append_eq_nil_iff.mp htext.symm).1
    rw [hmore]
    cases hj : Json.ofString text with
    | ok j => exact ⟨_, .requestWith hb hgap hm hgap' hj ha⟩
    | error e => exact ⟨_, .badParams hb hgap hm hgap' hne htrim hj ha⟩
  · exact ⟨_, .unknown hb hw hc hn hr⟩

theorem ofLine_eq_iff {line : String} {r : Except Refusal (Option Command)} :
    ofLine line = r ↔ Reads line.toList r := by
  refine ⟨?_, Reads.ofLine_eq⟩
  rintro rfl
  obtain ⟨r, hr⟩ := exists_reads line.toList
  rwa [hr.ofLine_eq]

/-! ## What does not count -/

theorem ofLine_trim {line line' : String} (h : Text.trim line.toList = Text.trim line'.toList) :
    ofLine line = ofLine line' := by
  rw [ofLine, ofLine, h]

/-- The breaks after the first two words may be of any length and kind. -/
theorem ofWord_break (word : String) {gap gap₁ gap₂ method : List Char} (rest : List Char)
    (hg : IsGap gap) (hm : IsWord method) (h₁ : IsBreak gap₁) (h₂ : IsBreak gap₂) :
    ofWord word (Text.trim (gap ++ method ++ (gap₁ ++ rest))) =
      ofWord word (Text.trim (gap ++ method ++ (gap₂ ++ rest))) := by
  have hrest : Text.trim (gap₁ ++ rest) = Text.trim (gap₂ ++ rest) := by
    rw [Text.trim_gap_append h₁.gap, Text.trim_gap_append h₂.gap]
  rcases ofWord_cases word with ⟨c, hc⟩ | rfl | ⟨hc, hn⟩
  · rw [ofWord_plain hc, ofWord_plain hc]
  · rw [ofWord_request, ofWord_request, readRequest_trim hg hm (h₁.breaks_append rest),
      readRequest_trim hg hm (h₂.breaks_append rest), hrest]
  · rw [ofWord_unknown hc hn, ofWord_unknown hc hn]

theorem ofLine_ofList {before word rest : List Char} (hb : IsGap before) (hw : IsWord word)
    (hr : Breaks rest) :
    ofLine (String.ofList (before ++ word ++ rest)) = ofWord (String.ofList word) (Text.trim rest) := by
  have hword : (String.ofList word).toList = word := String.toList_ofList
  refine ofLine_word hb ?_ hr ?_
  · rwa [hword]
  · rw [hword, String.toList_ofList]

/-- A line is read as the grammar says, and nothing is read from blanks only. What counts are the words
and the text of the parameters: not the blanks around the line, nor how many blanks follow the first
two words and which they are. -/
theorem lines_read_by_words :
    (∀ line r, ofLine line = r ↔ Reads line.toList r) ∧
    (∀ line, ofLine line = .ok none ↔ IsGap line.toList) ∧
    (∀ before line after, IsGap before → IsGap after →
      ofLine (String.ofList (before ++ line ++ after)) = ofLine (String.ofList line)) ∧
    (∀ before word gap gap' rest, IsGap before → IsWord word → IsBreak gap → IsBreak gap' →
      ofLine (String.ofList (before ++ word ++ (gap ++ rest))) =
        ofLine (String.ofList (before ++ word ++ (gap' ++ rest)))) ∧
    (∀ before word gap method gap₁ gap₂ rest, IsGap before → IsWord word → IsBreak gap →
      IsWord method → IsBreak gap₁ → IsBreak gap₂ →
      ofLine (String.ofList (before ++ word ++ (gap ++ method ++ (gap₁ ++ rest)))) =
        ofLine (String.ofList (before ++ word ++ (gap ++ method ++ (gap₂ ++ rest))))) := by
  refine ⟨fun _ _ => ofLine_eq_iff, fun line => ⟨?_, ofLine_gap⟩, ?_, ?_, ?_⟩
  · intro h
    have hr := ofLine_eq_iff.mp h
    generalize line.toList = cs at hr ⊢
    cases hr with
    | blank hg => exact hg
  · intro before line after hb ha
    apply ofLine_trim
    rw [String.toList_ofList, String.toList_ofList, Text.trim_between hb ha]
  · intro before word gap gap' rest hb hw hg hg'
    rw [ofLine_ofList hb hw (hg.breaks_append rest), ofLine_ofList hb hw (hg'.breaks_append rest),
      Text.trim_gap_append hg.gap, Text.trim_gap_append hg'.gap]
  · intro before word gap method gap₁ gap₂ rest hb hw hg hm h₁ h₂
    rw [ofLine_ofList hb hw (hg.breaks_between _ _), ofLine_ofList hb hw (hg.breaks_between _ _)]
    exact ofWord_break _ rest hg.gap hm h₁ h₂

/-- An em space before the parameters is read as a space would be. -/
theorem lines_read_by_words_emSpace :
    IsWord "request".toList ∧ IsWord "start".toList ∧ IsBreak ['\u2003'] ∧ IsBreak [' '] ∧
      ofLine (String.ofList ("request".toList ++ ([' '] ++ "start".toList ++
        (['\u2003'] ++ "[true]".toList)))) =
          .ok (some (.request "start" (some (.array [.bool true])))) := by
  have hstart : IsWord "start".toList := ⟨by decide, by decide⟩
  have hem : IsBreak ['\u2003'] := ⟨by decide, by decide⟩
  have hspace : IsBreak [' '] := ⟨by decide, by decide⟩
  have hj : Json.ofString "[true]" = .ok (.array [.bool true]) := by cbv
  refine ⟨isWord_request, hstart, hem, hspace, ?_⟩
  have h := lines_read_by_words.2.2.2.2 [] "request".toList [' '] "start".toList ['\u2003'] [' ']
    "[true]".toList Text.isGap_nil isWord_request hspace hstart hem hspace
  rw [List.nil_append] at h
  rw [h, lines_read_by_words.1, String.toList_ofList]
  have hr := Reads.requestWith Text.isGap_nil hspace hstart hspace hj Text.isGap_nil
  rwa [List.append_nil] at hr

end Supervisor.Session.Command
