import LabExchange.Json.Token
import Mathlib.Data.List.TakeWhile

/-!
# Texts of numbers

A text that is read as a number begins with a digit or a minus sign and goes on with characters
that can stand in a number, so that a scan takes it whole. A number reads back if its own text is
read as it. Every integer does; a double does if reading finds the one that was written.
-/
namespace LabExchange

namespace Literal

variable {text rest whole digits : List Char} {l : Literal} {negative : Bool}

theorem isNumberChar_of_isDigit {c : Char} (h : c.isDigit = true) : Scan.isNumberChar c = true := by
  simp [Scan.isNumberChar, h]

theorem isNumberChar_of_takeWhile {c : Char} (h : c ∈ text.takeWhile Char.isDigit) :
    Scan.isNumberChar c = true :=
  isNumberChar_of_isDigit (List.mem_takeWhile_imp h)

theorem isNumberChar_of_exponent? {e : Int} (h : exponent? text = some e) :
    ∀ c ∈ text, Scan.isNumberChar c = true := by
  have hsigned : ∀ (digits : List Char) (f : Nat → Int),
      (if digits.isEmpty || !digits.all Char.isDigit then none else some (f (value digits))) =
        some e → ∀ c ∈ digits, Scan.isNumberChar c = true := by
    intro digits f hdigits c hc
    have hall := (Option.ite_none_left_eq_some.mp hdigits).1
    simp only [Bool.or_eq_true, Bool.not_eq_true', not_or, Bool.not_eq_false] at hall
    exact isNumberChar_of_isDigit (List.all_eq_true.mp hall.2 c hc)
  unfold exponent? at h
  split at h
  · exact List.forall_mem_cons.mpr ⟨rfl, hsigned _ Int.ofNat h⟩
  · exact List.forall_mem_cons.mpr ⟨rfl, hsigned _ (fun n => -Int.ofNat n) h⟩
  · exact hsigned _ Int.ofNat h

/-- What stands behind the digits: nothing or an exponent. -/
def exponentPart? (negative : Bool) (whole : List Char) (fraction : Option (List Char)) :
    List Char → Option Literal
  | [] => some ⟨negative, whole, fraction, none⟩
  | c :: rest =>
    if c = 'e' ∨ c = 'E' then
      (exponent? rest).map fun e => ⟨negative, whole, fraction, some e⟩
    else none

theorem tail?_point (rest : List Char) :
    tail? negative whole ('.' :: rest) =
      if rest.takeWhile Char.isDigit = [] then none
      else exponentPart? negative whole (some (rest.takeWhile Char.isDigit))
        (rest.dropWhile Char.isDigit) := by
  simp only [tail?, Option.some.injEq]
  rfl

theorem tail?_other (h : ∀ digits, rest ≠ '.' :: digits) :
    tail? negative whole rest = exponentPart? negative whole none rest := by
  unfold tail?
  split
  rename_i heq
  split at heq
  · exact absurd rfl (h _)
  · cases heq
    rfl

theorem isNumberChar_of_exponentPart? {fraction : Option (List Char)}
    (h : exponentPart? negative whole fraction rest = some l) :
    ∀ c ∈ rest, Scan.isNumberChar c = true := by
  cases rest with
  | nil => simp
  | cons c rest =>
    obtain ⟨hc, h⟩ := Option.ite_none_right_eq_some.mp h
    obtain ⟨e, he, -⟩ := Option.map_eq_some_iff.mp h
    refine List.forall_mem_cons.mpr ⟨?_, isNumberChar_of_exponent? he⟩
    rcases hc with rfl | rfl <;> rfl

theorem isNumberChar_of_tail? (h : tail? negative whole rest = some l) :
    ∀ c ∈ rest, Scan.isNumberChar c = true := by
  by_cases hpoint : ∃ digits, rest = '.' :: digits
  · obtain ⟨digits, rfl⟩ := hpoint
    rw [tail?_point] at h
    have hexponent := isNumberChar_of_exponentPart? (Option.ite_none_left_eq_some.mp h).2
    refine List.forall_mem_cons.mpr ⟨rfl, ?_⟩
    rw [← List.takeWhile_append_dropWhile (p := Char.isDigit) (l := digits)]
    exact List.forall_mem_append.mpr ⟨fun c => isNumberChar_of_takeWhile, hexponent⟩
  · rw [tail?_other fun digits hdigits => hpoint ⟨digits, hdigits⟩] at h
    exact isNumberChar_of_exponentPart? h

/-- Reads a literal whose sign has been read. -/
def unsigned? (negative : Bool) (text : List Char) : Option Literal :=
  let whole := text.takeWhile Char.isDigit
  if whole.isEmpty || (whole.head? == some '0' && whole.length != 1) then none
  else tail? negative whole (text.dropWhile Char.isDigit)

theorem read?_minus (text : List Char) : read? ('-' :: text) = unsigned? true text := rfl

theorem read?_cons {c : Char} (h : c ≠ '-') (text : List Char) :
    read? (c :: text) = unsigned? false (c :: text) := by
  have hhead : ((c :: text).head? == some '-') = false := by simpa using h
  simp only [read?, hhead]
  rfl

theorem isNumberChar_of_unsigned? (h : unsigned? negative text = some l) :
    ∃ c rest, text = c :: rest ∧ c.isDigit = true ∧ ∀ d ∈ rest, Scan.isNumberChar d = true := by
  obtain ⟨hwhole, h⟩ := Option.ite_none_left_eq_some.mp h
  cases text with
  | nil => exact absurd rfl hwhole
  | cons c rest =>
    have hall : ∀ d ∈ c :: rest, Scan.isNumberChar d = true := by
      rw [← List.takeWhile_append_dropWhile (p := Char.isDigit) (l := c :: rest)]
      exact List.forall_mem_append.mpr
        ⟨fun d => isNumberChar_of_takeWhile, isNumberChar_of_tail? h⟩
    refine ⟨c, rest, rfl, ?_, (List.forall_mem_cons.mp hall).2⟩
    by_contra hc
    exact hwhole (by simp [hc])

/-- A text that is a number begins as one, and goes on with characters that belong to one. -/
theorem isNumberChar_of_read? (h : read? text = some l) :
    ∃ c rest, text = c :: rest ∧ (c.isDigit = true ∨ c = '-') ∧
      ∀ d ∈ rest, Scan.isNumberChar d = true := by
  cases text with
  | nil => contradiction
  | cons c rest =>
    by_cases hminus : c = '-'
    · subst hminus
      obtain ⟨d, rest, rfl, hd, hrest⟩ := isNumberChar_of_unsigned? h
      exact ⟨_, _, rfl, .inr rfl, List.forall_mem_cons.mpr ⟨isNumberChar_of_isDigit hd, hrest⟩⟩
    · rw [read?_cons hminus] at h
      obtain ⟨d, rest', heq, hd, hrest⟩ := isNumberChar_of_unsigned? h
      exact ⟨d, rest', heq, .inl hd, hrest⟩

/-- Only zero has digits that begin with a zero. -/
theorem eq_zero_of_head?_toDigits {n : Nat} (h : (Nat.toDigits 10 n).head? = some '0') : n = 0 := by
  induction n using Nat.strongRecOn with
  | ind n ih =>
    by_cases hn : n < 10
    · rw [Nat.toDigits_of_lt_base hn] at h
      exact Nat.digitChar_eq_zero.mp (by simpa using h)
    · obtain ⟨c, rest, hdigits⟩ :=
        List.exists_cons_of_ne_nil (Nat.toDigits_ne_nil (n := n / 10) (b := 10))
      rw [Nat.toDigits_of_base_le (by decide) (by omega), hdigits] at h
      have := ih (n / 10) (by omega) (hdigits ▸ h)
      omega

/-- The digits of a number are read as that number. -/
theorem unsigned?_toDigits (negative : Bool) (n : Nat) :
    unsigned? negative (Nat.toDigits 10 n) =
      some ⟨negative, Nat.toDigits 10 n, none, none⟩ := by
  have hdigits : ∀ c ∈ Nat.toDigits 10 n, c.isDigit = true := fun c hc =>
    Nat.isDigit_of_mem_toDigits (by decide) (by decide) hc
  have hwhole : (Nat.toDigits 10 n).takeWhile Char.isDigit = Nat.toDigits 10 n :=
    List.takeWhile_eq_self_iff.mpr hdigits
  have hrest : (Nat.toDigits 10 n).dropWhile Char.isDigit = [] :=
    List.dropWhile_eq_nil_iff.mpr hdigits
  have hzero : (Nat.toDigits 10 n).head? = some '0' → (Nat.toDigits 10 n).length = 1 := by
    intro h
    rw [eq_zero_of_head?_toDigits h]
    rfl
  simp only [unsigned?, hwhole, hrest]
  rw [if_neg (by simpa using hzero)]
  rfl

end Literal

namespace Number

/-- The text of the number is read as the number. -/
def ReadsBack (n : Number) : Prop :=
  ∃ l, Literal.read? n.text = some l ∧ ofLiteral? l = some n

instance (n : Number) : Decidable n.ReadsBack :=
  decidable_of_iff ((Literal.read? n.text).bind ofLiteral? = some n) Option.bind_eq_some_iff

theorem read?_integerText (value : Int) :
    Literal.read? (integerText value) =
      some ⟨value < 0, Nat.toDigits 10 value.natAbs, none, none⟩ := by
  unfold integerText
  split
  · next h =>
    rw [Literal.read?_minus, Literal.unsigned?_toDigits]
    simp [h]
  · next h =>
    obtain ⟨c, rest, hdigits⟩ := List.exists_cons_of_ne_nil
      (Nat.toDigits_ne_nil (n := value.natAbs) (b := 10))
    have hc : c.isDigit = true :=
      Nat.isDigit_of_mem_toDigits (b := 10) (n := value.natAbs) (by decide) (by decide)
        (hdigits ▸ List.mem_cons_self)
    have hminus : c ≠ '-' := by
      rintro rfl
      contradiction
    rw [hdigits, Literal.read?_cons hminus, ← hdigits, Literal.unsigned?_toDigits]
    simp [h]

theorem readsBack_integer (value : Int) (h : IntRange value) : (integer value h).ReadsBack := by
  refine ⟨_, read?_integerText value, ?_⟩
  have hvalue : (if value < 0 then -(value.natAbs : Int) else value.natAbs) = value := by
    split <;> omega
  simp only [ofLiteral?, Literal.value, Nat.ofDigitChars_ten_toDigits, decide_eq_true_eq, hvalue]
  rw [if_neg (by simp; omega), dif_pos h]

end Number

end LabExchange
