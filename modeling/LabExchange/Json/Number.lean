import LabExchange.Double.Reading

/-!
# Numbers in JSON

A number is an integer of at most 64 bits or a finite double. Which one it is shows in its text
and is kept: `1` and `1.0` are different numbers.
-/
namespace LabExchange

/-- The integers that are kept as they are: from the least signed to the greatest unsigned one
of 64 bits. -/
def Number.IntRange (value : Int) : Prop :=
  -9223372036854775808 ≤ value ∧ value < 18446744073709551616

instance (value : Int) : Decidable (Number.IntRange value) :=
  inferInstanceAs (Decidable (_ ∧ _))

inductive Number where
  | integer (value : Int) (inRange : Number.IntRange value)
  | double (value : Double) (finite : value.isFinite)
  deriving DecidableEq

namespace Number

/-- Equality of numbers as values: an integer never equals a double, and the two zeros among the
doubles are equal. -/
def same : Number → Number → Bool
  | .integer a _, .integer b _ => a == b
  | .double a _, .double b _ => a.same b
  | _, _ => false

def ofDouble? (value : Double) : Option Number :=
  if h : value.isFinite then some (.double value h) else none

/-- The number of a literal. One without fraction and exponent is an integer when it fits,
except that `-0` is the double; all else is a double. There is none when it is too large. -/
def ofLiteral? (l : Literal) : Option Number :=
  let size := Literal.value l.whole
  let value : Int := if l.negative then -size else size
  if l.fraction.isSome || l.exponent.isSome || (l.negative && size == 0) then
    l.toDouble?.bind ofDouble?
  else if h : IntRange value then some (.integer value h)
  else l.toDouble?.bind ofDouble?

/-- The text of an integer. -/
def integerText (value : Int) : List Char :=
  if value < 0 then '-' :: Nat.toDigits 10 value.natAbs else Nat.toDigits 10 value.natAbs

def text : Number → List Char
  | .integer value _ => integerText value
  | .double value _ => value.text?.getD []

/-- The number as a double, rounded if it is an integer. Every integer in range rounds to a
finite double. -/
def toDouble : Number → Double
  | .integer value _ => (Double.ofInt value).getD default
  | .double value _ => value

/-- The number as a natural number below a bound. -/
def toNat? (bound : Nat) : Number → Option Nat
  | .integer value _ => if 0 ≤ value ∧ value < bound then some value.toNat else none
  | .double .. => none

end Number
end LabExchange
