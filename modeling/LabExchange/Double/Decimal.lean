import LabExchange.Double.Basic

/-!
# Decimals and doubles

A decimal is read as the double nearest to it, and a finite double is written with the fewest
digits that read back as it.
-/
namespace LabExchange

/-- The number `digits * 10 ^ exponent` with a sign. -/
structure Decimal where
  negative : Bool
  digits : Nat
  exponent : Int
  deriving DecidableEq, Repr

namespace Decimal

/-- How many decimal digits a number is written with. -/
def length (n : Nat) : Nat := (Nat.toDigits 10 n).length

/-- The double nearest to a decimal, or none beyond the largest double. Below `10 ^ -400` all is
zero and from `10 ^ 400` on there is none, so that no large power is computed for them. -/
def toDouble? (d : Decimal) : Option Double :=
  let magnitude := length d.digits + d.exponent
  if d.digits = 0 ∨ magnitude < -400 then some (.zero d.negative)
  else if 400 < magnitude then none
  else Double.ofRatio d.negative (d.digits * Nat.pow 10 d.exponent.toNat * Nat.pow 2 1074)
    (Nat.pow 10 (-d.exponent).toNat)

/-- Drops the zeros at the end of the digits, at most as many as the first argument says. -/
def dropZeros : Nat → Nat → Int → Nat × Int
  | 0, digits, exponent => (digits, exponent)
  | n + 1, digits, exponent =>
    if digits % 10 = 0 then dropZeros n (digits / 10) (exponent + 1) else (digits, exponent)

end Decimal

namespace Double

/-- The decimal exponent of the leading digit of a nonzero number of units. -/
def leadingExponent (units : Nat) : Int :=
  (Decimal.length (units * Nat.pow 10 400 / Nat.pow 2 1074) : Int) - 401

/-- The two decimals with a given last place that enclose a number of units, the nearer one
first and of two equally near the even one. -/
def neighbours (negative : Bool) (units : Nat) (place : Int) : List Decimal :=
  let num := units * Nat.pow 10 (-place).toNat
  let den := Nat.pow 2 1074 * Nat.pow 10 place.toNat
  let q := num / den
  let decimal (n : Nat) : Decimal :=
    let (digits, exponent) := Decimal.dropZeros 20 n place
    ⟨negative, digits, exponent⟩
  if nearest num den = q then [decimal q, decimal (q + 1)] else [decimal (q + 1), decimal q]

/-- The decimal expansion that is exactly a number of units. -/
def expansion (negative : Bool) (units : Nat) : Decimal := ⟨negative, units * Nat.pow 5 1074, -1074⟩

/-- The decimal with the fewest digits that reads back as a finite double, the nearest of those.
Seventeen digits always suffice; the exact expansion stands behind them. -/
def shortest (negative : Bool) (mantissa exponent : Nat) : Decimal :=
  if mantissa = 0 then ⟨negative, 0, 0⟩
  else
    let u := units mantissa exponent
    let top := leadingExponent u
    let candidates := (List.range 17).flatMap fun n : Nat => neighbours negative u (top - n)
    let readsBack (d : Decimal) : Bool := match d.toDouble? with
      | some (.finite s m e _) => s == negative && m == mantissa && e == exponent
      | _ => false
    (candidates.find? readsBack).getD (expansion negative u)

end Double
end LabExchange
