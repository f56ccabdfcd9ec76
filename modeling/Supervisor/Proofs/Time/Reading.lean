import Supervisor.Proofs.Json.Place
import Supervisor.Proofs.Text.Trimming
import Supervisor.Time.Timestamp
/-!
# Reading timestamps

A timestamp that exists comes back from its text, with all nanoseconds and with a leap second, and what
is read from any text exists. So a timestamp is written in one form, in whatever form it was read.
-/
namespace Supervisor.Decimal.Layout

/-! ## Digits -/

variable {n width : Nat}

theorem length_padded (h : n < 10 ^ width) (hw : 0 < width) : (padded width n).length = width := by
  have hle := (Nat.length_toDigits_le_iff (by decide) hw).mpr h
  simp only [padded, zeros, digitsOf, List.length_append, List.length_replicate]
  omega

theorem padded_ne_nil (width n : Nat) : padded width n ≠ [] := by
  simp [padded, digitsOf]

theorem isDigit_of_mem_padded {c : Char} (h : c ∈ padded width n) : c.isDigit = true := by
  rcases List.mem_append.mp h with hz | hd
  · rw [List.eq_of_mem_replicate hz]
    rfl
  · exact Nat.isDigit_of_mem_toDigits (by decide) (by decide) hd

theorem ofDigitChars_padded (width n : Nat) : Nat.ofDigitChars 10 (padded width n) 0 = n := by
  simp [padded, zeros, digitsOf, Nat.ofDigitChars_append, Nat.ofDigitChars_replicate_zero,
    Nat.ofDigitChars_ten_toDigits]

theorem ofDigitChars_lt {ds : List Char} (h : ∀ c ∈ ds, c.isDigit = true) :
    Nat.ofDigitChars 10 ds 0 < 10 ^ ds.length := by
  induction ds with
  | nil => simp [Nat.ofDigitChars]
  | cons d ds ih =>
    obtain ⟨hd, hds⟩ := List.forall_mem_cons.mp h
    have hrange : 48 ≤ d.toNat ∧ d.toNat ≤ 57 := Char.isDigit_iff_toNat.mp hd
    have hzero : '0'.toNat = 48 := rfl
    have htail := ih hds
    rw [Nat.ofDigitChars_cons, Nat.ofDigitChars_eq_ofDigitChars_zero, List.length_cons, Nat.pow_succ]
    have hdigit : d.toNat - '0'.toNat ≤ 9 := by omega
    have hmul : 10 ^ ds.length * (10 * 0 + (d.toNat - '0'.toNat)) ≤ 10 ^ ds.length * 9 :=
      Nat.mul_le_mul_left _ (by omega)
    omega

end Supervisor.Decimal.Layout

namespace Supervisor.Timestamp
open Decimal.Layout

/-! ## Numbers -/

/-- A run of digits is over: it is as long as it may be, or something else follows. -/
def Cut (most : Nat) (ds rest : List Char) : Prop :=
  ds.length = most ∨ ds.length ≤ most ∧ ∀ c ∈ rest.head?, c.isDigit = false

theorem takeWhile_digits {most : Nat} {ds rest : List Char} (hds : ∀ c ∈ ds, c.isDigit = true)
    (hcut : Cut most ds rest) : ((ds ++ rest).take most).takeWhile Char.isDigit = ds := by
  rcases hcut with rfl | ⟨hle, hrest⟩
  · rw [List.take_left]
    exact List.takeWhile_eq_self_iff.mpr hds
  · rw [List.take_append, List.take_of_length_le hle, List.takeWhile_append_of_pos hds]
    have hnone : (rest.take (most - ds.length)).takeWhile Char.isDigit = [] := by
      cases rest with
      | nil => simp
      | cons c rest =>
        have hc := hrest c rfl
        cases most - ds.length <;> simp [hc]
    rw [hnone, List.append_nil]

theorem foldl_digits (ds : List Char) :
    ds.foldl (fun n c => n * 10 + (c.toNat - 48)) 0 = Nat.ofDigitChars 10 ds 0 := by
  rw [Nat.ofDigitChars_eq_foldl]
  congr 1
  funext n c
  rw [Nat.mul_comm]
  rfl

theorem number_digits {most : Nat} {ds rest : List Char} (hne : ds ≠ [])
    (hds : ∀ c ∈ ds, c.isDigit = true) (hcut : Cut most ds rest)
    (hlt : Nat.ofDigitChars 10 ds 0 < Nat.pow 2 63) :
    number most (ds ++ rest) = .ok (Nat.ofDigitChars 10 ds 0, rest) := by
  obtain ⟨d, ds', rfl⟩ := List.exists_cons_of_ne_nil hne
  have hd : d.isDigit = true := hds d List.mem_cons_self
  have htake := takeWhile_digits hds hcut
  simp only [List.cons_append] at htake ⊢
  simp only [number, hd, Bool.not_true, Bool.false_eq_true, if_false, htake, foldl_digits, hlt, if_true]
  rw [← List.cons_append, List.drop_left]

/-- What a number was read from. -/
theorem digits_of_number {most n : Nat} {cs rest : List Char} (h : number most cs = .ok (n, rest)) :
    ∃ ds, cs = ds ++ rest ∧ (∀ c ∈ ds, c.isDigit = true) ∧ ds.length ≤ most ∧
      n = Nat.ofDigitChars 10 ds 0 := by
  unfold number at h
  split at h
  · cases h
  · next c cs =>
    dsimp only at h
    split_ifs at h
    cases h
    refine ⟨((c :: cs).take most).takeWhile Char.isDigit, ?_, ?_, ?_, foldl_digits _⟩
    · have hsplit : ((c :: cs).take most).takeWhile Char.isDigit <+: c :: cs :=
        (List.takeWhile_prefix _).trans (List.take_prefix _ _)
      exact (List.prefix_iff_eq_append.mp hsplit).symm
    · exact fun d hd => List.mem_takeWhile_imp hd
    · exact ((List.takeWhile_prefix _).length_le).trans (by simp [List.length_take])

theorem number_padded {most width n : Nat} {rest : List Char} (hn : n < 10 ^ 18)
    (hcut : Cut most (padded width n) rest) :
    number most (padded width n ++ rest) = .ok (n, rest) := by
  have hlimit : 10 ^ 18 < Nat.pow 2 63 := by decide
  have hlt : Nat.ofDigitChars 10 (padded width n) 0 < Nat.pow 2 63 := by
    rw [ofDigitChars_padded]
    omega
  have h := number_digits (padded_ne_nil width n) (fun c hc => isDigit_of_mem_padded hc) hcut hlt
  rwa [ofDigitChars_padded] at h

theorem exists_padded (width n : Nat) : ∃ d ds, padded width n = d :: ds ∧ d.isDigit = true := by
  obtain ⟨d, ds, h⟩ := List.exists_cons_of_ne_nil (padded_ne_nil width n)
  have hmem : d ∈ padded width n := h ▸ List.mem_cons_self
  exact ⟨d, ds, h, isDigit_of_mem_padded hmem⟩

theorem trimStart_padded (width n : Nat) (rest : List Char) :
    Text.trimStart (padded width n ++ rest) = padded width n ++ rest := by
  obtain ⟨d, ds, h, hd⟩ := exists_padded width n
  rw [h, List.cons_append]
  exact Text.trimStart_cons_of_not_blank (Text.isBlank_of_isDigit hd)

/-! ## Parts -/

theorem field_padded {least greatest n : Nat} (rest : List Char) (hl : least ≤ n) (hg : n ≤ greatest)
    (hgreatest : greatest < 100) : field least greatest (padded 2 n ++ rest) = .ok (n, rest) := by
  have hcut : Cut 2 (padded 2 n) rest := .inl (length_padded (by omega) (by decide))
  have hnumber := number_padded (by omega) hcut
  simp [field, trimStart_padded, hnumber, hl, hg, bind, Except.bind, pure, Except.pure]

theorem field_eq_ok {least greatest n : Nat} {cs rest : List Char}
    (h : field least greatest cs = .ok (n, rest)) : least ≤ n ∧ n ≤ greatest := by
  obtain ⟨⟨m, rest'⟩, -, h⟩ := bind_eq_ok.mp h
  dsimp only at h
  split_ifs at h with hb
  cases h
  simpa using hb

/-- What follows a year that is written with at least four digits. -/
theorem number_year (most : Nat) {n : Nat} (hn : n ≤ 262143) (rest : List Char)
    (hmost : n < 10 ^ 4 ∧ most = 4 ∨ (padded 4 n).length ≤ most) :
    number most (padded 4 n ++ '-' :: rest) = .ok (n, '-' :: rest) := by
  refine number_padded (by omega) ?_
  rcases hmost with ⟨hsmall, rfl⟩ | hle
  · exact .inl (length_padded hsmall (by decide))
  · refine .inr ⟨hle, fun c hc => ?_⟩
    cases hc
    rfl

theorem fits_year {y : Int} (hl : -262143 ≤ y) (hu : y ≤ 262142) :
    (decide (-(Nat.pow 2 31 : Nat) ≤ y) && decide (y < (Nat.pow 2 31 : Nat))) = true := by
  have hpow : Nat.pow 2 31 = 2147483648 := rfl
  rw [hpow, Bool.and_eq_true, decide_eq_true_eq, decide_eq_true_eq]
  omega

/-- A year comes back, with its sign where it has one. -/
theorem yearField_yearChars {y : Int} (hl : -262143 ≤ y) (hu : y ≤ 262142) (rest : List Char) :
    yearField (yearChars y ++ '-' :: rest) = .ok (y, '-' :: rest) := by
  have hsigned := number_year (n := y.natAbs) (padded 4 y.natAbs ++ '-' :: rest).length (by omega) rest
    (.inr (by simp))
  unfold yearField yearChars
  dsimp only
  split_ifs with hplain hneg
  · simp only [Bool.and_eq_true, decide_eq_true_eq] at hplain
    have hback : (y.toNat : Int) = y := Int.toNat_of_nonneg hplain.1
    have hnumber := number_year (n := y.toNat) 4 (by omega) rest (.inl ⟨by omega, rfl⟩)
    have htrim := trimStart_padded 4 y.toNat ('-' :: rest)
    obtain ⟨d, ds, hds, hd⟩ := exists_padded 4 y.toNat
    rw [hds, List.cons_append] at hnumber htrim ⊢
    rw [htrim]
    split
    · next heq =>
      cases heq
      cases hd
    · next heq =>
      cases heq
      cases hd
    · rw [bind_eq_ok]
      refine ⟨_, hnumber, ?_⟩
      rw [pure_bind, hback]
      exact if_pos (fits_year hl hu)
  · have hback : -(y.natAbs : Int) = y := by omega
    rw [List.cons_append, Text.trimStart_cons_of_not_blank rfl]
    refine bind_eq_ok.mpr ⟨_, hsigned, ?_⟩
    rw [pure_bind, hback]
    exact if_pos (fits_year hl hu)
  · have hback : (y.natAbs : Int) = y := by
      simp only [Bool.and_eq_true, decide_eq_true_eq] at hplain
      omega
    rw [List.cons_append, Text.trimStart_cons_of_not_blank rfl]
    refine bind_eq_ok.mpr ⟨_, hsigned, ?_⟩
    rw [pure_bind, hback]
    exact if_pos (fits_year hl hu)

theorem fraction_group (places m : Nat) (hp : 0 < places) (hle : places ≤ 9) (hm : m < 10 ^ places)
    (rest : List Char) :
    fraction ('.' :: (padded places m ++ 'Z' :: rest)) = .ok (m * Nat.pow 10 (9 - places), 'Z' :: rest) := by
  have hlength := length_padded hm hp
  have hcut : Cut 9 (padded places m) ('Z' :: rest) := by
    refine .inr ⟨hlength.trans_le hle, fun c hc => ?_⟩
    cases hc
    rfl
  have hsmall : m < 10 ^ 18 := hm.trans_le (Nat.pow_le_pow_right (by decide) (by omega))
  have hnumber := number_padded hsmall hcut
  have hused : (padded places m ++ 'Z' :: rest).length - ('Z' :: rest).length = places := by
    rw [List.length_append, hlength, Nat.add_sub_cancel]
  have hz : 'Z'.isDigit = false := rfl
  simp only [fraction, hnumber, hused, bind, Except.bind, pure, Except.pure, List.dropWhile_cons, hz,
    Bool.false_eq_true, if_false]

theorem fraction_fractionChars {n : Nat} (hn : n < billion) (rest : List Char) :
    fraction (fractionChars n ++ 'Z' :: rest) = .ok (n, 'Z' :: rest) := by
  have hbillion : billion = 1000000000 := rfl
  unfold fractionChars
  split_ifs with h0 h6 h3
  · subst h0
    rfl
  · have h := fraction_group 3 (n / 1000000) (by decide) (by decide) (by omega) rest
    rw [List.cons_append, h]
    have hback : n / 1000000 * Nat.pow 10 (9 - 3) = n := by
      show n / 1000000 * 1000000 = n
      omega
    rw [hback]
  · have h := fraction_group 6 (n / 1000) (by decide) (by decide) (by omega) rest
    rw [List.cons_append, h]
    have hback : n / 1000 * Nat.pow 10 (9 - 6) = n := by
      show n / 1000 * 1000 = n
      omega
    rw [hback]
  · have h := fraction_group 9 n (by decide) (by decide) (by omega) rest
    rw [List.cons_append, h]
    have hback : n * Nat.pow 10 (9 - 9) = n := by
      show n * 1 = n
      omega
    rw [hback]

theorem mark_cons {c : Char} (hc : Text.isBlank c = false) (rest : List Char) :
    mark c (c :: rest) = .ok rest := by
  simp [mark, Text.trimStart_cons_of_not_blank hc]

theorem offset_zulu : offset (Text.trimStart ['Z']) = .ok (0, []) :=
  rfl

/-! ## Moments that exist -/

/-- A moment that exists. A leap second is the last of its minute. -/
structure Valid (t : Timestamp) : Prop where
  calendar : inCalendar t.year t.month t.day = true
  month : 1 ≤ t.month ∧ t.month ≤ 12
  day : 1 ≤ t.day
  hour : t.hour < 24
  minute : t.minute < 60
  second : t.second < 60
  nanos : t.nanos < billion ∨ t.second = 59 ∧ t.nanos < 2 * billion

theorem monthLength_le (y : Int) (m : Nat) : monthLength y m ≤ 31 := by
  unfold monthLength
  split_ifs <;> decide

theorem one_le_monthLength (y : Int) (m : Nat) : 1 ≤ monthLength y m := by
  unfold monthLength
  split_ifs <;> decide

theorem inCalendar_iff {y : Int} {m d : Nat} :
    inCalendar y m d = true ↔ -262143 ≤ y ∧ y ≤ 262142 ∧ d ≤ monthLength y m := by
  simp [inCalendar, and_assoc]

/-- The second that stands in the text and what is read from it. -/
theorem second_written {second nanos : Nat} (hs : second < 60)
    (hn : nanos < billion ∨ second = 59 ∧ nanos < 2 * billion) :
    let written := if billion ≤ nanos then second + 1 else second
    written ≤ 60 ∧ min written 59 = second ∧
      (if written = 60 then nanos % billion + billion else nanos % billion) = nanos := by
  have hbillion : billion = 1000000000 := rfl
  rcases hn with hlt | ⟨rfl, hlt⟩
  · have hwhole : ¬billion ≤ nanos := by omega
    simp only [if_neg hwhole, Nat.mod_eq_of_lt hlt]
    refine ⟨by omega, by omega, if_neg (by omega)⟩
  · by_cases hleap : billion ≤ nanos
    · rw [if_pos hleap]
      refine ⟨by omega, by omega, ?_⟩
      rw [if_pos rfl, hbillion]
      omega
    · rw [if_neg hleap]
      exact ⟨by omega, by omega, (if_neg (by decide)).trans (Nat.mod_eq_of_lt (by omega))⟩

/-- Taking no offset off changes nothing. -/
theorem toUtc_zero {t : Timestamp} (hh : t.hour < 24) (hm : t.minute < 60) (hs : t.second < 60) :
    t.toUtc 0 = t := by
  obtain ⟨year, month, day, hour, minute, second, nanos⟩ := t
  dsimp only at hh hm hs
  simp only [toUtc]
  generalize hs : ((hour * 3600 + minute * 60 + second : Nat) : Int) - 0 = s
  have hbefore : ¬s < 0 := by omega
  have hafter : ¬86400 ≤ s := by omega
  have hday : (s % 86400).toNat = hour * 3600 + minute * 60 + second := by omega
  rw [if_neg hbefore, if_neg hafter, hday]
  simp only [mk.injEq, true_and, and_true]
  refine ⟨?_, ?_, ?_⟩ <;> omega

/-- A moment that exists comes back from its text. -/
theorem ofChars_chars {t : Timestamp} (h : t.Valid) : ofChars t.chars = .ok t := by
  obtain ⟨hl, hu, hday⟩ := inCalendar_iff.mp h.calendar
  obtain ⟨hwritten, hsecond, hnanos⟩ := second_written h.second h.nanos
  have hyear := yearField_yearChars hl hu
  have hmonth := fun rest => field_padded rest h.month.1 h.month.2 (by decide)
  have hdays := fun rest => field_padded rest h.day (hday.trans (monthLength_le _ _)) (by decide)
  have hhour (rest : List Char) : field 0 23 (padded 2 t.hour ++ rest) = .ok (t.hour, rest) :=
    field_padded rest (Nat.zero_le _) (Nat.le_of_lt_succ h.hour) (by decide)
  have hminute (rest : List Char) : field 0 59 (padded 2 t.minute ++ rest) = .ok (t.minute, rest) :=
    field_padded rest (Nat.zero_le _) (Nat.le_of_lt_succ h.minute) (by decide)
  have hseconds := fun rest => field_padded rest (Nat.zero_le _) hwritten (by decide)
  have hfraction := fraction_fractionChars (n := t.nanos % billion) (Nat.mod_lt _ (by decide)) []
  have hdash := mark_cons (c := '-') rfl
  have hcolon := mark_cons (c := ':') rfl
  have hend : (!(Text.trimStart []).isEmpty) = false := rfl
  have hutc : (⟨t.year, t.month, t.day, t.hour, t.minute, t.second, t.nanos⟩ : Timestamp).toUtc 0 = t :=
    toUtc_zero h.hour h.minute h.second
  simp only [ofChars, chars, List.append_assoc, List.cons_append, hyear, hdash, hmonth, hdays,
    separator, hhour, hcolon, hminute, hseconds, hfraction, offset_zulu, bind, Except.bind, hend,
    hsecond, hnanos, hutc, h.calendar, pure, Except.pure, beq_self_eq_true, Bool.true_or, if_true,
    Int.natAbs_zero, Bool.not_true, Bool.false_or]
  rfl

theorem ofString_text {t : Timestamp} (h : t.Valid) : ofString t.text = .ok t := by
  rw [ofString, text, String.toList_ofList, ofChars_chars h]

/-! ## What is read -/

theorem fraction_lt {cs rest : List Char} {n : Nat} (h : fraction cs = .ok (n, rest)) : n < billion := by
  unfold fraction at h
  split at h
  · next digits =>
    obtain ⟨⟨m, after⟩, hnumber, h⟩ := bind_eq_ok.mp h
    cases h
    obtain ⟨ds, rfl, hds, hlength, rfl⟩ := digits_of_number hnumber
    have hused : (ds ++ after).length - after.length = ds.length := by simp
    rw [hused]
    calc Nat.ofDigitChars 10 ds 0 * Nat.pow 10 (9 - ds.length)
        < 10 ^ ds.length * Nat.pow 10 (9 - ds.length) :=
          Nat.mul_lt_mul_of_pos_right (ofDigitChars_lt hds) (Nat.pow_pos (by decide))
      _ = 10 ^ 9 := (Nat.pow_add 10 ds.length (9 - ds.length)).symm.trans (by congr 1; omega)
  · cases h
    decide

theorem offsetDigits_minutes {cs rest : List Char} {s : Int} (h : offsetDigits cs = .ok (s, rest)) :
    ∃ k : Int, s = 60 * k := by
  obtain ⟨⟨⟨h1, h2⟩, cs₁⟩, -, h⟩ := bind_eq_ok.mp h
  obtain ⟨⟨⟨m1, m2⟩, cs₂⟩, -, h⟩ := bind_eq_ok.mp h
  dsimp only at h
  split_ifs at h
  cases h
  exact ⟨((h1 * 10 + h2) * 60 + (m1 * 10 + m2) : Nat), by omega⟩

/-- An offset is in whole minutes. -/
theorem offset_minutes {cs rest : List Char} {s : Int} (h : offset cs = .ok (s, rest)) :
    ∃ k : Int, s = 60 * k := by
  unfold offset at h
  split_ifs at h
  · cases h
    exact ⟨0, rfl⟩
  · split at h
    · cases h
    · split_ifs at h
      · cases h
        exact ⟨0, rfl⟩
      · exact offsetDigits_minutes h
      · obtain ⟨⟨s', rest'⟩, hdigits, hs⟩ := map_eq_ok.mp h
        obtain ⟨k, rfl⟩ := offsetDigits_minutes hdigits
        cases hs
        exact ⟨-k, by omega⟩

/-- A month and a day of a calendar, in whatever year. -/
def Dated (t : Timestamp) : Prop :=
  1 ≤ t.month ∧ t.month ≤ 12 ∧ 1 ≤ t.day

theorem dated_nextDay {t : Timestamp} (h : t.Dated) : t.nextDay.Dated := by
  unfold Dated at h ⊢
  unfold nextDay
  split_ifs <;> dsimp only <;> omega

theorem dated_previousDay {t : Timestamp} (h : t.Dated) : t.previousDay.Dated := by
  have hlength := one_le_monthLength t.year (t.month - 1)
  unfold Dated at h ⊢
  unfold previousDay
  split_ifs <;> dsimp only <;> omega

theorem dated_toUtc {t : Timestamp} (h : t.Dated) (offset : Int) : (t.toUtc offset).Dated := by
  simp only [toUtc]
  split_ifs
  · exact dated_previousDay h
  · exact dated_nextDay h
  · exact h

theorem toUtc_clock (t : Timestamp) (offset : Int) :
    (t.toUtc offset).hour < 24 ∧ (t.toUtc offset).minute < 60 ∧ (t.toUtc offset).second < 60 := by
  simp only [toUtc]
  refine ⟨?_, ?_, ?_⟩ <;> omega

theorem toUtc_nanos (t : Timestamp) (offset : Int) : (t.toUtc offset).nanos = t.nanos := by
  simp only [toUtc, nextDay, previousDay]
  split_ifs <;> rfl

/-- An offset in whole minutes leaves the seconds as they are. -/
theorem toUtc_second {t : Timestamp} (h : t.second < 60) (k : Int) :
    (t.toUtc (60 * k)).second = t.second := by
  simp only [toUtc]
  omega

theorem valid_toUtc {t : Timestamp} (hdated : t.Dated) (hsecond : t.second < 60)
    (hnanos : t.nanos < billion ∨ t.second = 59 ∧ t.nanos < 2 * billion) {k : Int}
    (hcalendar : inCalendar (t.toUtc (60 * k)).year (t.toUtc (60 * k)).month (t.toUtc (60 * k)).day = true) :
    (t.toUtc (60 * k)).Valid := by
  obtain ⟨hone, htwelve, hday⟩ := dated_toUtc hdated (60 * k)
  obtain ⟨hhour, hminute, hclock⟩ := toUtc_clock t (60 * k)
  refine ⟨hcalendar, ⟨hone, htwelve⟩, hday, hhour, hminute, hclock, ?_⟩
  rwa [toUtc_nanos, toUtc_second hsecond]

/-- What is read exists. -/
theorem valid_of_ofChars {cs : List Char} {t : Timestamp} (h : ofChars cs = .ok t) : t.Valid := by
  obtain ⟨⟨year, cs₁⟩, -, h⟩ := bind_eq_ok.mp h
  obtain ⟨cs₂, -, h⟩ := bind_eq_ok.mp h
  obtain ⟨⟨month, cs₃⟩, hmonth, h⟩ := bind_eq_ok.mp h
  obtain ⟨cs₄, -, h⟩ := bind_eq_ok.mp h
  obtain ⟨⟨day, cs₅⟩, hday, h⟩ := bind_eq_ok.mp h
  obtain ⟨cs₆, -, h⟩ := bind_eq_ok.mp h
  obtain ⟨⟨hour, cs₇⟩, -, h⟩ := bind_eq_ok.mp h
  obtain ⟨cs₈, -, h⟩ := bind_eq_ok.mp h
  obtain ⟨⟨minute, cs₉⟩, -, h⟩ := bind_eq_ok.mp h
  obtain ⟨cs₁₀, -, h⟩ := bind_eq_ok.mp h
  obtain ⟨⟨second, cs₁₁⟩, hsecond, h⟩ := bind_eq_ok.mp h
  obtain ⟨⟨nanos, cs₁₂⟩, hfraction, h⟩ := bind_eq_ok.mp h
  obtain ⟨⟨seconds, cs₁₃⟩, hoffset, h⟩ := bind_eq_ok.mp h
  obtain ⟨k, rfl⟩ := offset_minutes hoffset
  have hle := (field_eq_ok hsecond).2
  have hlt := fraction_lt hfraction
  have hdate : 1 ≤ month ∧ month ≤ 12 ∧ 1 ≤ day :=
    ⟨(field_eq_ok hmonth).1, (field_eq_ok hmonth).2, (field_eq_ok hday).1⟩
  have hmin : min second 59 < 60 := by omega
  dsimp only at h
  split_ifs at h with htrail hbounds hleap hcalendar hcalendar
  · cases h
    have hnanos : min second 59 = 59 ∧ nanos + billion < 2 * billion := by omega
    exact valid_toUtc (t := ⟨year, month, day, hour, minute, min second 59, nanos + billion⟩) hdate hmin
      (.inr hnanos) hcalendar
  · cases h
    exact valid_toUtc (t := ⟨year, month, day, hour, minute, min second 59, nanos⟩) hdate hmin
      (.inl hlt) hcalendar

theorem valid_of_ofString {s : String} {t : Timestamp} (h : ofString s = .ok t) : t.Valid := by
  unfold ofString at h
  split at h
  · next hread =>
    cases h
    exact valid_of_ofChars hread
  · cases h

end Supervisor.Timestamp
