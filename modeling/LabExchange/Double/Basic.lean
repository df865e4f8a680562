/-!
# Doubles

A finite double is a sign and a whole number of units of `2 ^ -1074`, written as a mantissa of
at most 53 bits times a power of two. The pair is unique: either the exponent is zero or the
mantissa has all its 53 bits. Rounding goes to the nearest double, a tie to the even mantissa.
-/
namespace LabExchange

/-- A mantissa and exponent that a finite double can have. The largest exponent is the one of
the largest double, `(2 ^ 53 - 1) * 2 ^ 2045` units. -/
def Double.Fits (mantissa exponent : Nat) : Prop :=
  mantissa < Nat.pow 2 53 ∧ exponent ≤ 2045 ∧ (exponent = 0 ∨ Nat.pow 2 52 ≤ mantissa)

instance (mantissa exponent : Nat) : Decidable (Double.Fits mantissa exponent) :=
  inferInstanceAs (Decidable (_ ∧ _ ∧ _))

/-- A binary floating-point number of 64 bits, all payloads of not-a-number taken together. -/
inductive Double where
  | nan
  | infinite (negative : Bool)
  | finite (negative : Bool) (mantissa exponent : Nat) (fits : Double.Fits mantissa exponent)
  deriving DecidableEq

namespace Double

/-- The zero of a sign. -/
def zero (negative : Bool) : Double := .finite negative 0 0 (by decide)

instance : Inhabited Double := ⟨zero false⟩

def isFinite : Double → Bool
  | .finite .. => true
  | _ => false

/-- Numerical equality: not-a-number differs from everything, and the two zeros are equal. -/
def same : Double → Double → Bool
  | .infinite a, .infinite b => a == b
  | .finite a m e _, .finite b n f _ => m == n && e == f && (a == b || m == 0)
  | _, _ => false

/-- The size of a finite double in units of `2 ^ -1074`. -/
def units (mantissa exponent : Nat) : Nat := mantissa * Nat.pow 2 exponent

/-- The double of a mantissa of at most `2 ^ 53` and an exponent; a full mantissa moves up one
exponent. There is none beyond the largest double. -/
def assemble (negative : Bool) (mantissa exponent : Nat) : Option Double :=
  let m := if mantissa = Nat.pow 2 53 then Nat.pow 2 52 else mantissa
  let e := if mantissa = Nat.pow 2 53 then exponent + 1 else exponent
  if h : Fits m e then some (.finite negative m e h) else none

/-- The exponent at which a size of that many whole units has 53 bits, or zero. -/
def exponentOf (size : Nat) : Nat := size.log2 - 52

/-- The whole number nearest to `num / den`, the even one of two. -/
def nearest (num den : Nat) : Nat :=
  let q := num / den
  let r := num % den
  if 2 * r < den then q
  else if den < 2 * r then q + 1
  else if q % 2 = 0 then q else q + 1

/-- The double nearest to `num / den` units, if that is not beyond the largest. -/
def ofRatio (negative : Bool) (num den : Nat) : Option Double :=
  let e := exponentOf (num / den)
  assemble negative (nearest num (den * Nat.pow 2 e)) e

/-- The double nearest to an integer. -/
def ofInt (value : Int) : Option Double :=
  ofRatio (value < 0) (value.natAbs * Nat.pow 2 1074) 1

end Double
end LabExchange
