import LabExchange.Double.Decimal

/-!
# Number literals

The text of a number is a sign, digits, an optional fraction and an optional exponent. A double
is written in plain notation as long as its leading digit stands between `10 ^ -5` and
`10 ^ 15`, and otherwise with one digit before the point and a signed exponent.
-/
namespace LabExchange

/-- The parts of a number literal: the digits before and after the point, and the exponent. An
absent fraction or exponent is `none`. -/
structure Literal where
  negative : Bool
  whole : List Char
  fraction : Option (List Char)
  exponent : Option Int
  deriving DecidableEq

namespace Literal

/-- The value of a text of decimal digits. -/
def value (digits : List Char) : Nat := Nat.ofDigitChars 10 digits 0

/-- Reads the digits of an exponent after its `e`. -/
def exponent? (text : List Char) : Option Int :=
  let signed (f : Nat → Int) (digits : List Char) : Option Int :=
    if digits.isEmpty || !digits.all Char.isDigit then none else some (f (value digits))
  match text with
  | '+' :: digits => signed Int.ofNat digits
  | '-' :: digits => signed (fun n => -Int.ofNat n) digits
  | digits => signed Int.ofNat digits

/-- Reads what follows the whole digits: nothing, or a fraction of at least one digit, or an
exponent, or both. -/
def tail? (negative : Bool) (whole rest : List Char) : Option Literal :=
  let (fraction, rest) := match rest with
    | '.' :: rest => (some (rest.takeWhile Char.isDigit), rest.dropWhile Char.isDigit)
    | rest => (none, rest)
  if fraction = some [] then none
  else match rest with
    | [] => some ⟨negative, whole, fraction, none⟩
    | c :: rest =>
      if c = 'e' ∨ c = 'E' then
        (exponent? rest).map fun e => ⟨negative, whole, fraction, some e⟩
      else none

/-- Reads a whole text as a literal. A zero at the front stands alone. -/
def read? (text : List Char) : Option Literal :=
  let negative := text.head? == some '-'
  let text := if negative then text.drop 1 else text
  let whole := text.takeWhile Char.isDigit
  if whole.isEmpty || (whole.head? == some '0' && whole.length != 1) then none
  else tail? negative whole (text.dropWhile Char.isDigit)

end Literal

namespace Decimal

/-- The text of a decimal whose digits do not end in zero, as doubles are written. -/
def text (d : Decimal) : List Char :=
  let digits := Nat.toDigits 10 d.digits
  let point : Int := digits.length + d.exponent
  let zeros (n : Int) : List Char := List.replicate n.toNat '0'
  let body :=
    if d.digits = 0 then ['0', '.', '0']
    else if 0 ≤ d.exponent ∧ point ≤ 16 then digits ++ zeros d.exponent ++ ['.', '0']
    else if 0 < point ∧ point ≤ 16 then
      digits.take point.toNat ++ '.' :: digits.drop point.toNat
    else if -5 < point ∧ point ≤ 0 then '0' :: '.' :: zeros (-point) ++ digits
    else
      let power := point - 1
      let mark := if power < 0 then '-' else '+'
      let fraction := if digits.length = 1 then [] else '.' :: digits.drop 1
      digits.take 1 ++ fraction ++ 'e' :: mark :: Nat.toDigits 10 power.natAbs
  if d.negative then '-' :: body else body

end Decimal

/-- The text of a finite double; the others have none. -/
def Double.text? : Double → Option (List Char)
  | .finite s m e _ => some (Double.shortest s m e).text
  | _ => none

end LabExchange
