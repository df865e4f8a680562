import LabExchange.Double.Basic

/-!
# Arithmetic of doubles

Sums, products, quotients and square roots: each is the double nearest to the exact result, and an
infinity if that lies beyond the largest double.
-/
namespace LabExchange.Double

/-- A finite double in units of `2 ^ -1074`, with its sign. -/
def signedUnits (negative : Bool) (mantissa exponent : Nat) : Int :=
  if negative then -(units mantissa exponent : Int) else units mantissa exponent

/-- The double nearest to `num / den` units, or the infinity of the sign. -/
def rounded (negative : Bool) (num den : Nat) : Double :=
  (ofRatio negative num den).getD (.infinite negative)

/-- The power of two whose exponent lies so far above `-1074`. -/
def powerOfTwo (exponent : Nat) : Double := rounded false (Nat.pow 2 exponent) 1

/-- The double nearest to a power of ten. -/
def powerOfTen (exponent : Nat) : Double :=
  rounded false (Nat.pow 10 exponent * Nat.pow 2 1074) 1

def isZero (x : Double) : Bool := x.same (zero false)

def neg : Double → Double
  | .nan => .nan
  | .infinite s => .infinite !s
  | .finite s m e h => .finite (!s) m e h

def abs : Double → Double
  | .nan => .nan
  | .infinite _ => .infinite false
  | .finite _ m e h => .finite false m e h

/-- A sum that is exactly zero is negative only if both terms are. -/
def add : Double → Double → Double
  | .nan, _ | _, .nan => .nan
  | .infinite s, .infinite t => if s = t then .infinite s else .nan
  | .infinite s, _ | _, .infinite s => .infinite s
  | .finite s m e _, .finite t n f _ =>
    let sum := signedUnits s m e + signedUnits t n f
    if sum = 0 then .zero (s && t) else rounded (sum < 0) sum.natAbs 1

/-- Zero times infinity is no number. -/
def mul : Double → Double → Double
  | .nan, _ | _, .nan => .nan
  | .infinite s, .infinite t => .infinite (s != t)
  | .infinite s, .finite t m _ _ | .finite s m _ _, .infinite t =>
    if m = 0 then .nan else .infinite (s != t)
  | .finite s m e _, .finite t n f _ => rounded (s != t) (units m e * units n f) (Nat.pow 2 1074)

/-- A quotient by zero is infinite, and zero by zero is no number. -/
def div : Double → Double → Double
  | .nan, _ | _, .nan | .infinite _, .infinite _ => .nan
  | .infinite s, .finite t _ _ _ => .infinite (s != t)
  | .finite s _ _ _, .infinite t => .zero (s != t)
  | .finite s m e _, .finite t n f _ =>
    if n = 0 then if m = 0 then .nan else .infinite (s != t)
    else rounded (s != t) (units m e * Nat.pow 2 1074) (units n f)

instance : Neg Double := ⟨neg⟩
instance : Add Double := ⟨add⟩
instance : Sub Double := ⟨fun x y => add x (neg y)⟩
instance : Mul Double := ⟨mul⟩
instance : Div Double := ⟨div⟩

/-- Whether a double is at most as large as another one; not-a-number is not comparable. -/
def atMost : Double → Double → Bool
  | .nan, _ | _, .nan => false
  | .infinite true, _ | _, .infinite false => true
  | .infinite false, _ | _, .infinite true => false
  | .finite s m e _, .finite t n f _ => decide (signedUnits s m e ≤ signedUnits t n f)

/-- The whole part of the square root of a number below `4 ^ pairs`. -/
def wholeRoot : (pairs : Nat) → Nat → Nat
  | 0, _ => 0
  | pairs + 1, n =>
    let r := 2 * wholeRoot pairs (n / 4)
    if (r + 1) * (r + 1) ≤ n then r + 1 else r

/-- The double nearest to the square root of a whole number of squared units. The root is
compared exactly with the midpoint between the two neighbouring doubles. -/
def rootOf (square : Nat) : Option Double :=
  let root := wholeRoot (square.log2 / 2 + 1) square
  let e := exponentOf root
  let q := root / Nat.pow 2 e
  let middle := (2 * q + 1) * Nat.pow 2 e
  let up := 4 * square > middle * middle || (4 * square == middle * middle && q % 2 == 1)
  assemble false (if up then q + 1 else q) e

/-- The square root. A zero keeps its sign, and other negative numbers have none. -/
def sqrt : Double → Double
  | .nan | .infinite true => .nan
  | .infinite false => .infinite false
  | .finite s m e h =>
    if m = 0 then .finite s m e h
    else if s then .nan
    else (rootOf (units m e * Nat.pow 2 1074)).getD (.infinite false)

end LabExchange.Double
