import Supervisor.Text.Utf8
/-!
# UTF-8 of texts

The bytes of a text are read back without a flaw, as its characters. Whatever is said of the bytes of
a character is said once, of the series of states in which they are read.
-/
namespace Supervisor.Text

theorem toList_loop (bytes : ByteArray) (i : Nat) (r : List UInt8) :
    ByteArray.toList.loop bytes i r = r.reverse ++ bytes.data.toList.drop i := by
  induction i, r using ByteArray.toList.loop.induct bytes with
  | case1 i r hi ih =>
    have hi' : i < bytes.data.size := hi
    have hget : bytes.get! i = bytes.data.toList[i] := by
      simp only [ByteArray.get!, Array.getElem_toList]
      exact getElem!_pos bytes.data i hi'
    have hdrop : bytes.data.toList.drop i = bytes.get! i :: bytes.data.toList.drop (i + 1) := by
      rw [hget]
      exact List.drop_eq_getElem_cons (by simpa using hi')
    rw [ByteArray.toList.loop, if_pos hi, ih, hdrop]
    simp
  | case2 i r hi =>
    have hdrop : bytes.data.toList.drop i = [] :=
      List.drop_eq_nil_of_le (by simpa using Nat.not_lt.mp hi)
    rw [ByteArray.toList.loop, if_neg hi, hdrop, List.append_nil]

theorem encode_eq_toList_data (s : String) : encode s = s.toByteArray.data.toList := by
  simp [encode, ByteArray.toList, toList_loop, String.toUTF8_eq_toByteArray]

/-- The bytes of a text with these characters. -/
def utf8 (cs : List Char) : List UInt8 := cs.flatMap String.utf8EncodeChar

@[simp] theorem utf8_nil : utf8 [] = [] := rfl

@[simp] theorem utf8_cons (c : Char) (cs : List Char) :
    utf8 (c :: cs) = String.utf8EncodeChar c ++ utf8 cs := rfl

@[simp] theorem utf8_append (cs ds : List Char) : utf8 (cs ++ ds) = utf8 cs ++ utf8 ds :=
  List.flatMap_append

theorem encode_eq_utf8 (s : String) : encode s = utf8 s.toList := by
  rw [encode_eq_toList_data]
  conv => lhs; rw [← String.ofList_toList (s := s)]
  rw [String.toByteArray_ofList, List.utf8Encode, List.toList_data_toByteArray, utf8]

theorem length_encode (s : String) : (encode s).length = s.utf8ByteSize := by
  rw [encode_eq_toList_data]
  rfl

/-! ## Reading the bytes of a character -/

/-- From this state on, the bytes are those of one character. -/
inductive Completes : Utf8State → List UInt8 → Char → Prop
  | last {st : Utf8State} {b : UInt8} {c : Char} (h : nextByte st b.toNat = ([some c], .idle)) :
    Completes st [b] c
  | more {st : Utf8State} {p : Partial} {b : UInt8} {bytes : List UInt8} {c : Char}
      (h : nextByte st b.toNat = ([], .inside p)) (hc : Completes (.inside p) bytes c) :
    Completes st (b :: bytes) c

theorem nextByte_more {p : Partial} {b : Nat} (hl : p.low ≤ b) (hh : b ≤ p.high)
    (hm : 1 < p.missing) :
    nextByte (.inside p) b =
      ([], .inside ⟨p.missing - 1, p.bits * 64 + (b - 0x80), 0x80, 0xBF⟩) := by
  have hn : ¬ p.missing ≤ 1 := Nat.not_le.mpr hm
  simp [nextByte, hl, hh, hn]

theorem nextByte_last {p : Partial} {b : Nat} {c : Char} (hl : p.low ≤ b) (hh : b ≤ p.high)
    (hm : p.missing ≤ 1) (hc : p.bits * 64 + (b - 0x80) = c.toNat) :
    nextByte (.inside p) b = ([some c], .idle) := by
  simp [nextByte, hl, hh, hm, hc, Char.ofNat_toNat]

theorem startByte_ascii {b : Nat} {c : Char} (hb : b < 0x80) (hc : b = c.toNat) :
    startByte b = ([some c], .idle) := by
  simp [startByte, hc ▸ hb, hc, Char.ofNat_toNat]

theorem startByte_two {b : Nat} (hl : 0xC2 ≤ b) (hh : b ≤ 0xDF) :
    startByte b = ([], .inside ⟨1, b - 0xC0, 0x80, 0xBF⟩) := by
  have h₁ : ¬ b < 0x80 := by omega
  simp [startByte, h₁, hl, hh]

theorem startByte_three {b : Nat} (hl : 0xE0 ≤ b) (hh : b ≤ 0xEF) :
    startByte b = ([], .inside ⟨2, b - 0xE0, if b = 0xE0 then 0xA0 else 0x80,
      if b = 0xED then 0x9F else 0xBF⟩) := by
  have h₁ : ¬ b < 0x80 := by omega
  have h₂ : ¬ b ≤ 0xDF := by omega
  simp [startByte, h₁, h₂, hl, hh]

theorem startByte_four {b : Nat} (hl : 0xF0 ≤ b) (hh : b ≤ 0xF4) :
    startByte b = ([], .inside ⟨3, b - 0xF0, if b = 0xF0 then 0x90 else 0x80,
      if b = 0xF4 then 0x8F else 0xBF⟩) := by
  have h₁ : ¬ b < 0x80 := by omega
  have h₂ : ¬ b ≤ 0xDF := by omega
  have h₃ : ¬ b ≤ 0xEF := by omega
  simp [startByte, h₁, h₂, h₃, hl, hh]

theorem toNat_ofNat_of_lt {n : Nat} (hn : n < 256) : (UInt8.ofNat n).toNat = n := by
  simp [Nat.mod_eq_of_lt hn]

/-- The last byte of a sequence has the last six bits. -/
theorem completes_lastByte {c : Char} {low : Nat} (hl : low ≤ 0x80) :
    Completes (.inside ⟨1, c.toNat / 64, low, 0xBF⟩) [UInt8.ofNat (c.toNat % 64 + 128)] c := by
  refine .last ?_
  rw [toNat_ofNat_of_lt (by omega)]
  exact nextByte_last (by simp; omega) (by simp; omega) (by simp) (by simp; omega)

theorem completes_two {c : Char} (hl : 0x7F < c.toNat) (hh : c.toNat ≤ 0x7FF) :
    Completes .idle
      [UInt8.ofNat (c.toNat / 64 % 32 + 192), UInt8.ofNat (c.toNat % 64 + 128)] c := by
  have hlead : c.toNat / 64 % 32 + 192 - 0xC0 = c.toNat / 64 := by omega
  refine .more ?_ (completes_lastByte (Nat.le_refl _))
  rw [toNat_ofNat_of_lt (by omega), nextByte, startByte_two (by omega) (by omega), hlead]

/-- The bounds of the second byte keep out surrogates and sequences that could be shorter. -/
theorem completes_three {c : Char} (hl : 0x7FF < c.toNat) (hh : c.toNat ≤ 0xFFFF)
    (hs : c.toNat < 0xD800 ∨ 0xDFFF < c.toNat) :
    Completes .idle
      [UInt8.ofNat (c.toNat / 4096 % 16 + 224), UInt8.ofNat (c.toNat / 64 % 64 + 128),
        UInt8.ofNat (c.toNat % 64 + 128)] c := by
  have hlead : c.toNat / 4096 % 16 + 224 - 0xE0 = c.toNat / 4096 := by omega
  have hbits : c.toNat / 4096 * 64 + (c.toNat / 64 % 64 + 128 - 0x80) = c.toNat / 64 := by omega
  refine .more (p := ⟨2, c.toNat / 4096, if c.toNat / 4096 % 16 + 224 = 0xE0 then 0xA0 else 0x80,
    if c.toNat / 4096 % 16 + 224 = 0xED then 0x9F else 0xBF⟩) ?_ (.more ?_
      (completes_lastByte (Nat.le_refl _)))
  · rw [toNat_ofNat_of_lt (by omega), nextByte, startByte_three (by omega) (by omega), hlead]
  · rw [toNat_ofNat_of_lt (by omega), nextByte_more]
    · simp only [hbits]
    · show (if c.toNat / 4096 % 16 + 224 = 0xE0 then 0xA0 else 0x80) ≤ c.toNat / 64 % 64 + 128
      split <;> omega
    · show c.toNat / 64 % 64 + 128 ≤ if c.toNat / 4096 % 16 + 224 = 0xED then 0x9F else 0xBF
      split <;> omega
    · simp

/-- The bounds of the second byte keep out numbers beyond the last character as well. -/
theorem completes_four {c : Char} (hl : 0xFFFF < c.toNat) (hh : c.toNat < 0x110000) :
    Completes .idle
      [UInt8.ofNat (c.toNat / 262144 % 8 + 240), UInt8.ofNat (c.toNat / 4096 % 64 + 128),
        UInt8.ofNat (c.toNat / 64 % 64 + 128), UInt8.ofNat (c.toNat % 64 + 128)] c := by
  have hlead : c.toNat / 262144 % 8 + 240 - 0xF0 = c.toNat / 262144 := by omega
  have hbits : c.toNat / 262144 * 64 + (c.toNat / 4096 % 64 + 128 - 0x80) = c.toNat / 4096 := by
    omega
  have hbits' : c.toNat / 4096 * 64 + (c.toNat / 64 % 64 + 128 - 0x80) = c.toNat / 64 := by omega
  refine .more (p := ⟨3, c.toNat / 262144, if c.toNat / 262144 % 8 + 240 = 0xF0 then 0x90 else 0x80,
    if c.toNat / 262144 % 8 + 240 = 0xF4 then 0x8F else 0xBF⟩) ?_
      (.more (p := ⟨2, c.toNat / 4096, 0x80, 0xBF⟩) ?_ (.more ?_
      (completes_lastByte (Nat.le_refl _))))
  · rw [toNat_ofNat_of_lt (by omega), nextByte, startByte_four (by omega) (by omega), hlead]
  · rw [toNat_ofNat_of_lt (by omega), nextByte_more]
    · simp only [hbits]
    · show (if c.toNat / 262144 % 8 + 240 = 0xF0 then 0x90 else 0x80) ≤ c.toNat / 4096 % 64 + 128
      split <;> omega
    · show c.toNat / 4096 % 64 + 128 ≤ if c.toNat / 262144 % 8 + 240 = 0xF4 then 0x8F else 0xBF
      split <;> omega
    · simp
  · rw [toNat_ofNat_of_lt (by omega), nextByte_more (by simp) (by simp; omega) (by simp)]
    simp only [hbits']

theorem completes_encodeChar (c : Char) : Completes .idle (String.utf8EncodeChar c) c := by
  have hc : c.toNat < 0xD800 ∨ 0xDFFF < c.toNat ∧ c.toNat < 0x110000 := c.valid
  have hv : c.val.toNat = c.toNat := rfl
  simp only [String.utf8EncodeChar, hv]
  split
  · refine .last ?_
    rw [toNat_ofNat_of_lt (by omega)]
    exact startByte_ascii (by omega) rfl
  split
  · exact completes_two (by omega) (by omega)
  split
  · exact completes_three (by omega) (by omega) (by omega)
  · exact completes_four (by omega) (by omega)

theorem Completes.readGlyphs {st : Utf8State} {bytes : List UInt8} {c : Char}
    (h : Completes st bytes c) (rest : List UInt8) :
    readGlyphs st (bytes ++ rest) = some c :: readGlyphs .idle rest := by
  induction h with
  | last h => simp [Text.readGlyphs, h]
  | more h _ ih => simp [Text.readGlyphs, h, ih]

/-- No flaw begins in the bytes of a character. -/
theorem Completes.findFlaw {st : Utf8State} {bytes : List UInt8} {c : Char}
    (h : Completes st bytes c) (start pos : Nat) (rest : List UInt8) :
    ∃ start' pos', findFlaw st start pos (bytes ++ rest) = findFlaw .idle start' pos' rest := by
  induction h generalizing start pos with
  | @last st b c h =>
    cases st with
    | idle =>
      simp only [nextByte] at h
      exact ⟨pos, pos + 1, by simp [Text.findFlaw, h]⟩
    | inside p => exact ⟨start, pos + 1, by simp [Text.findFlaw, h]⟩
  | @more st p b bytes c h _ ih =>
    cases st with
    | idle =>
      simp only [nextByte] at h
      obtain ⟨start', pos', hf⟩ := ih pos (pos + 1)
      exact ⟨start', pos', by simp [Text.findFlaw, h, hf]⟩
    | inside q =>
      obtain ⟨start', pos', hf⟩ := ih start (pos + 1)
      exact ⟨start', pos', by simp [Text.findFlaw, h, hf]⟩

/-! ## Reading the bytes of a text -/

@[simp] theorem glyphs_utf8 (cs : List Char) : glyphs (utf8 cs) = cs.map some := by
  simp only [glyphs]
  induction cs with
  | nil => rfl
  | cons c cs ih =>
    rw [utf8_cons, (completes_encodeChar c).readGlyphs, ih]
    rfl

@[simp] theorem decodeLossy_utf8 (cs : List Char) : decodeLossy (utf8 cs) = String.ofList cs := by
  simp [decodeLossy, Function.comp_def]

@[simp] theorem flaw?_utf8 (cs : List Char) : flaw? (utf8 cs) = none := by
  have hf : ∀ start pos, findFlaw .idle start pos (utf8 cs) = none := by
    induction cs with
    | nil =>
      intro start pos
      rfl
    | cons c cs ih =>
      intro start pos
      obtain ⟨start', pos', hc⟩ := (completes_encodeChar c).findFlaw start pos (utf8 cs)
      rw [utf8_cons, hc, ih]
  exact hf 0 0

/-- Only the byte of a line feed is that of a line feed. -/
theorem mem_encodeChar_lineFeed {c : Char} (h : 10 ∈ String.utf8EncodeChar c) : c = '\n' := by
  have hv : c.val.toNat = c.toNat := rfl
  have hb : ∀ {n : Nat}, n < 256 → (10 : UInt8) = UInt8.ofNat n → n = 10 := by
    intro n hn he
    have ht := congrArg UInt8.toNat he
    rw [toNat_ofNat_of_lt hn] at ht
    exact ht.symm
  simp only [String.utf8EncodeChar, hv] at h
  split at h
  · have hc : c.toNat = 10 := hb (by omega) (List.mem_singleton.mp h)
    rw [← Char.ofNat_toNat c, hc]
  split at h
  · simp only [List.mem_cons, List.not_mem_nil, or_false] at h
    rcases h with h | h
    all_goals
      have hn := hb (by omega) h
      omega
  split at h
  · simp only [List.mem_cons, List.not_mem_nil, or_false] at h
    rcases h with h | h | h
    all_goals
      have hn := hb (by omega) h
      omega
  · simp only [List.mem_cons, List.not_mem_nil, or_false] at h
    rcases h with h | h | h | h
    all_goals
      have hn := hb (by omega) h
      omega

theorem lineFeed_not_mem_utf8 {cs : List Char} (h : '\n' ∉ cs) : 10 ∉ utf8 cs := by
  intro hm
  obtain ⟨c, hc, hb⟩ := List.mem_flatMap.mp hm
  exact h (mem_encodeChar_lineFeed hb ▸ hc)

end Supervisor.Text
