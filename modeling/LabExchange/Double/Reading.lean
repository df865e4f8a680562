import LabExchange.Double.Arithmetic
import LabExchange.Double.Literal

/-!
# Reading doubles

A literal is read in two roundings: its leading digits, as far as they fit into 64 bits, become a
double, and that is multiplied with or divided by a power of ten. So the result is not always the
nearest double, but for literals of at most 15 digits and a power of at most `10 ^ 22` both steps
are exact or rounded once, and it is.
-/
namespace LabExchange

/-- Appends digits to a number as long as it stays below `2 ^ 64`, and counts them on. -/
def Literal.append (number count : Nat) : List Char → Nat × Nat
  | [] => (number, count)
  | c :: rest =>
    let next := number * 10 + (c.toNat - '0'.toNat)
    if next < UInt64.size then append next (count + 1) rest else (number, count)

namespace Double

/-- The largest exponent of ten that a double has. -/
def largestTen : Nat := 308

/-- A double times a power of ten, if that is finite. A very small power is divided by in steps,
until nothing is left. -/
def timesPower (x : Double) (exponent : Int) : Option Double :=
  if exponent.natAbs ≤ largestTen then
    let power := powerOfTen exponent.natAbs
    if exponent < 0 then some (x / power)
    else if (x * power).isFinite then some (x * power)
    else none
  else if x.isZero then some x
  else if 0 ≤ exponent then none
  else timesPower (x / powerOfTen largestTen) (exponent + largestTen)
termination_by (-exponent).toNat
decreasing_by all_goals simp only [largestTen] at *; omega

end Double

/-- The double of a literal, if it is not too large. Whole digits that do not fit into 64 bits
count as zeros, and such digits of the fraction are left out. -/
def Literal.toDouble? (l : Literal) : Option Double :=
  let (whole, taken) := append 0 0 l.whole
  let (number, places) := append whole 0 (l.fraction.getD [])
  let exponent := l.exponent.getD 0 + (l.whole.length - taken : Nat) - places
  ((Double.ofInt number).getD default |>.timesPower exponent).map fun x =>
    if l.negative then -x else x

end LabExchange
