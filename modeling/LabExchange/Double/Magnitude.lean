import LabExchange.Double.Arithmetic

/-!
# Magnitudes

The length of the vector with two given coordinates. It is computed in doubles, as the root of
the sum of the squares with one correction step, so that it is off by at most one unit in the last
place. Coordinates whose squares would be too large or too small are scaled first.
-/
namespace LabExchange.Double

/-- The factor between plain and scaled coordinates, `2 ^ -600`. -/
def scale : Double := powerOfTwo 474

/-- Coordinates above `2 ^ 511` are scaled down. -/
def largeLimit : Double := powerOfTwo 1585

/-- Coordinates below `2 ^ -459` are scaled up. -/
def tinyLimit : Double := powerOfTwo 615

/-- Half a unit in the last place of one, `2 ^ -54`: a coordinate smaller than this part of the
other one adds nothing. -/
def negligible : Double := powerOfTwo 1020

/-- The length for coordinates of which neither is negative and the first is not the smaller
one. The residue of the root is computed in one of two ways that lose few digits, and half of it
divided by the root is taken off. -/
def hypotenuse (x y : Double) : Double :=
  let two := powerOfTwo 1075
  let four := powerOfTwo 1076
  let h := sqrt (x * x + y * y)
  let residue :=
    if h.atMost (two * y) then
      let d := h - y
      x * (two * d - x) + (d - two * (x - y)) * d
    else
      let d := h - x
      two * d * (x - two * y) + ((four * d - y) * y + d * d)
  h - residue / (two * h)

/-- The length for coordinates as for `hypotenuse`, of any finite size. -/
def lengthOf (x y : Double) : Double :=
  if !x.atMost largeLimit then
    if y.atMost (x * negligible) then x + y else hypotenuse (x * scale) (y * scale) / scale
  else if !tinyLimit.atMost y then
    if (y / negligible).atMost x then x + y else hypotenuse (x / scale) (y / scale) * scale
  else if y.atMost (x * negligible) then x + y
  else hypotenuse x y

/-- An infinite coordinate gives an infinite length, whatever the other one is. -/
def magnitude : Double → Double → Double
  | .infinite _, _ | _, .infinite _ => .infinite false
  | .nan, _ | _, .nan => .nan
  | x, y => if x.abs.atMost y.abs then lengthOf y.abs x.abs else lengthOf x.abs y.abs

end LabExchange.Double
