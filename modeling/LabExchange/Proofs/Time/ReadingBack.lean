import LabExchange.Time.Reader
import LabExchange.Time.Writer
import Mathlib.Data.List.TakeWhile
import Mathlib.Tactic.SplitIfs

/-!
# Reading timestamps back

The text of a timestamp is read as that timestamp. Every field is written with at least as many
digits as its reader takes, and a mark that is no digit stands behind each.
-/
namespace LabExchange

/-! ## Padded numbers -/

section Padded

variable {width n : Nat} {c : Char} {rest : List Char}

theorem isDigit_of_mem_padded (h : c ∈ padded width n) : c.isDigit = true := by
  rcases List.mem_append.mp h with hzero | hdigit
  · rw [List.eq_of_mem_replicate hzero]
    rfl
  · exact Nat.isDigit_of_mem_toDigits (by decide) (by decide) hdigit

theorem ofDigitChars_padded (width n : Nat) : Nat.ofDigitChars 10 (padded width n) 0 = n := by
  rw [padded, Nat.ofDigitChars_append, Nat.ofDigitChars_replicate_zero, Nat.mul_zero,
    Nat.ofDigitChars_ten_toDigits]

theorem length_padded (hwidth : 0 < width) (hn : n < Nat.pow 10 width) :
    (padded width n).length = width := by
  have := (Nat.length_toDigits_le_iff (by decide) hwidth).mpr hn
  simp only [padded, List.length_append, List.length_replicate]
  omega

theorem exists_padded_eq (width n : Nat) :
    ∃ c digits, padded width n = c :: digits ∧ c.isDigit = true := by
  have hne : padded width n ≠ [] := List.append_ne_nil_of_right_ne_nil _ Nat.toDigits_ne_nil
  obtain ⟨c, digits, h⟩ := List.exists_cons_of_ne_nil hne
  exact ⟨c, digits, h, isDigit_of_mem_padded (h ▸ List.mem_cons_self)⟩

theorem isBlank_of_isDigit (h : c.isDigit = true) : Text.isBlank c = false := by
  simp only [Char.isDigit, Bool.and_eq_true, decide_eq_true_eq, ge_iff_le, UInt32.le_iff_toNat_le]
    at h
  have hlow : 48 ≤ c.toNat := h.1
  have hhigh : c.toNat ≤ 57 := h.2
  simp [Text.isBlank]
  omega

theorem trimStart_cons (h : Text.isBlank c = false) : Text.trimStart (c :: rest) = c :: rest :=
  List.dropWhile_cons_of_neg (by simp [h])

@[simp] theorem trimStart_padded :
    Text.trimStart (padded width n ++ rest) = padded width n ++ rest := by
  obtain ⟨c, digits, h, hc⟩ := exists_padded_eq width n
  rw [h]
  exact trimStart_cons (isBlank_of_isDigit hc)

@[simp] theorem takeWhile_padded :
    (padded width n ++ rest).takeWhile Char.isDigit =
      padded width n ++ rest.takeWhile Char.isDigit :=
  List.takeWhile_append_of_pos fun _ => isDigit_of_mem_padded

theorem takeWhile_padded_cons (hc : c.isDigit = false) :
    (padded width n ++ c :: rest).takeWhile Char.isDigit = padded width n := by
  rw [takeWhile_padded, List.takeWhile_cons_of_neg (by simp [hc]), List.append_nil]

@[simp] theorem isEmpty_padded : (padded width n).isEmpty = false := by
  obtain ⟨c, digits, h, -⟩ := exists_padded_eq width n
  rw [h]
  rfl

end Padded

namespace Timestamp

variable {n : Nat} {c : Char} {rest : List Char}

/-! ## Fields -/

theorem number?_padded {width : Nat} (hwidth : 0 < width) (hn : n < Nat.pow 10 width) :
    number? width (padded width n ++ rest) = some (n, rest) := by
  have hlength := length_padded hwidth hn
  have hdigits : ((padded width n ++ rest).takeWhile Char.isDigit).take width =
      padded width n := by
    rw [takeWhile_padded, List.take_append_of_le_length (by omega),
      List.take_of_length_le (by omega)]
  simp only [number?, trimStart_padded, hdigits, isEmpty_padded, ofDigitChars_padded]
  simp

theorem number?_two (hn : n < 100) : number? 2 (padded 2 n ++ rest) = some (n, rest) :=
  number?_padded (by decide) hn

theorem mark?_cons (hc : Text.isBlank c = false) : mark? c (c :: rest) = some rest := by
  simp [mark?, trimStart_cons hc]

@[simp] theorem drop_padded {width : Nat} :
    (padded width n ++ rest).drop (padded width n).length = rest := by simp

/-- A year without a sign. -/
theorem year?_digit (hc : c.isDigit = true) :
    year? (c :: rest) = (number? 4 (c :: rest)).map fun (n, rest) => (Int.ofNat n, rest) := by
  rw [year?, trimStart_cons (isBlank_of_isDigit hc)]
  split
  · simp_all
  · simp_all
  · rfl

theorem year?_minus {width : Nat} :
    year? ('-' :: (padded width n ++ '-' :: rest)) = some (-Int.ofNat n, '-' :: rest) := by
  rw [year?, trimStart_cons rfl]
  simp only [takeWhile_padded_cons (c := '-') rfl, isEmpty_padded, ofDigitChars_padded, drop_padded]
  rfl

theorem year?_plus {width : Nat} :
    year? ('+' :: (padded width n ++ '-' :: rest)) = some (Int.ofNat n, '-' :: rest) := by
  rw [year?, trimStart_cons rfl]
  simp only [takeWhile_padded_cons (c := '-') rfl, isEmpty_padded, ofDigitChars_padded, drop_padded]
  rfl

theorem year?_yearText (year : Int) :
    year? (yearText year ++ '-' :: rest) = some (year, '-' :: rest) := by
  unfold yearText
  split
  · next hyear =>
    have hn : year.natAbs < 10000 := by omega
    have hvalue : Int.ofNat year.natAbs = year := Int.natAbs_of_nonneg hyear.1
    obtain ⟨c, digits, h, hc⟩ := exists_padded_eq 4 year.natAbs
    have hnumber : number? 4 (padded 4 year.natAbs ++ '-' :: rest) = _ :=
      number?_padded (by decide) hn
    rw [h, List.cons_append] at hnumber ⊢
    rw [year?_digit hc, hnumber]
    exact congrArg (fun year => some (year, '-' :: rest)) hvalue
  · next hyear =>
    split
    · next hnegative =>
      have hvalue : -Int.ofNat year.natAbs = year := by
        rw [Int.ofNat_eq_natCast]
        omega
      rw [List.cons_append, year?_minus, hvalue]
    · next hpositive =>
      have hvalue : Int.ofNat year.natAbs = year := Int.natAbs_of_nonneg (by omega)
      rw [List.cons_append, year?_plus, hvalue]

theorem fraction?_padded {width : Nat} (hwidth : 0 < width) (hnine : width ≤ 9)
    (hn : n < Nat.pow 10 width) (hc : c.isDigit = false) :
    fraction? ('.' :: (padded width n ++ c :: rest)) =
      some (n * Nat.pow 10 (9 - width), c :: rest) := by
  have hlength := length_padded hwidth hn
  have hfirst : (padded width n).take 9 = padded width n :=
    List.take_of_length_le (by omega)
  simp only [fraction?, takeWhile_padded_cons hc, isEmpty_padded, hfirst, ofDigitChars_padded,
    drop_padded]
  rw [hlength]
  rfl

/-- The part of a second with the fewest digits is read as the same number of nanoseconds. -/
theorem fraction?_fractionText (h : n < 1000000000) :
    fraction? (fractionText n ++ 'Z' :: rest) = some (n, 'Z' :: rest) := by
  unfold fractionText
  split
  · next hzero =>
    rw [hzero]
    rfl
  · split
    · next hmilli =>
      have hn : n / 1000000 < 1000 := by omega
      have hvalue : n / 1000000 * 1000000 = n := by omega
      rw [List.cons_append, fraction?_padded (by decide) (by decide) hn rfl]
      exact congrArg (fun n => some (n, 'Z' :: rest)) hvalue
    · split
      · next hmicro =>
        have hn : n / 1000 < 1000000 := by omega
        have hvalue : n / 1000 * 1000 = n := by omega
        rw [List.cons_append, fraction?_padded (by decide) (by decide) hn rfl]
        exact congrArg (fun n => some (n, 'Z' :: rest)) hvalue
      · next hnano =>
        rw [List.cons_append, fraction?_padded (by decide) (by decide) h rfl]
        exact congrArg (fun n => some (n, 'Z' :: rest)) (Nat.mul_one n)

/-! ## Dates and times -/

theorem daysInMonth_le (year : Int) (month : Nat) : daysInMonth year month ≤ 31 := by
  unfold daysInMonth
  split_ifs <;> decide

theorem date?_dateText (d : Date) : date? (dateText d ++ 'T' :: rest) = some (d, 'T' :: rest) := by
  obtain ⟨year, month, day, hvalid⟩ := d
  have hmonth : month < 100 := by have := hvalid.2.1; omega
  have hday : day < 100 := by
    have := hvalid.2.2
    have := daysInMonth_le year month
    omega
  have hdate : Date.ofParts? year month day = some ⟨year, month, day, hvalid⟩ := dif_pos hvalid
  simp only [dateText, List.append_assoc, List.cons_append]
  simp [date?, year?_yearText, mark?_cons (c := '-') rfl, number?_two hmonth, number?_two hday,
    hdate]

@[simp] theorem ofParts?_eq (t : Timestamp) :
    ofParts? t.date t.hour t.minute t.second t.nanosecond = some t := dif_pos t.valid

theorem time?_timeText (t : Timestamp) :
    time? t.date (timeText t ++ (fractionText (t.nanosecond % 1000000000) ++ 'Z' :: rest)) =
      some (t, 'Z' :: rest) := by
  obtain ⟨hhour, hminute, hsecond, hnanosecond, hleap⟩ := t.valid
  have hpart : t.nanosecond % 1000000000 < 1000000000 := Nat.mod_lt _ (by decide)
  have hhour : t.hour < 100 := by omega
  have hminute : t.minute < 100 := by omega
  have hparts := ofParts?_eq t
  simp only [timeText, List.append_assoc, List.cons_append]
  split
  · next hplain =>
    have hsecond : t.second < 100 := by omega
    have hmod : t.nanosecond % 1000000000 = t.nanosecond := Nat.mod_eq_of_lt hplain
    simp [time?, number?_two hhour, number?_two hminute, number?_two hsecond,
      mark?_cons (c := ':') rfl, fraction?_fractionText hpart]
    rw [if_neg (by omega), hmod, hparts]
    rfl
  · next hlate =>
    have hlast : t.second = 59 := hleap (by omega)
    have hmod : 1000000000 + t.nanosecond % 1000000000 = t.nanosecond := by omega
    have hsixty : 59 + 1 < 100 := by decide
    rw [hlast] at hparts ⊢
    simp [time?, number?_two hhour, number?_two hminute, number?_two hsixty,
      mark?_cons (c := ':') rfl, fraction?_fractionText hpart, hmod, hparts]

@[simp] theorem earlier?_zero (t : Timestamp) : t.earlier? 0 = some t := by
  obtain ⟨hhour, hminute, -⟩ := t.valid
  have hrest : (((t.hour : Int) * 60 + t.minute - 0) % 1440).toNat = t.hour * 60 + t.minute := by
    omega
  have hdiv : (t.hour * 60 + t.minute) / 60 = t.hour := by omega
  have hmod : (t.hour * 60 + t.minute) % 60 = t.minute := by omega
  simp only [earlier?, hrest, hdiv, hmod]
  rw [if_neg (by omega), if_neg (by omega)]
  exact ofParts?_eq t

/-- Every timestamp is read back from its text. -/
theorem read?_text (t : Timestamp) : read? t.text = some t := by
  have hzone : zone? (Text.trimStart ['Z']) = some (0, []) := rfl
  have hend : Text.trimStart [] = [] := rfl
  simp only [text, List.append_assoc, List.cons_append]
  simp [read?, date?_dateText, time?_timeText, hzone, hend]

end Timestamp
end LabExchange
