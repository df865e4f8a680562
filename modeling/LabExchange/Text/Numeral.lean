/-!
# Numerals

Texts that are numbers in the usual notation: digits with a point and an exponent, or a word for
what is infinite or undefined.
-/
namespace LabExchange.Text

/-- The text without a sign at its front. -/
def withoutSign : List Char → List Char
  | '+' :: rest | '-' :: rest => rest
  | text => text

def areDigits (text : List Char) : Bool := !text.isEmpty && text.all Char.isDigit

/-- Whether a text is empty or an exponent. -/
def isExponent : List Char → Bool
  | [] => true
  | c :: rest => c.toLower == 'e' && areDigits (withoutSign rest)

/-- Whether a text is a numeral without a sign. A digit stands before the point or after it. -/
def isMagnitude (text : List Char) : Bool :=
  let whole := text.takeWhile Char.isDigit
  match text.drop whole.length with
  | '.' :: rest =>
    let part := rest.takeWhile Char.isDigit
    !(whole ++ part).isEmpty && isExponent (rest.drop part.length)
  | rest => !whole.isEmpty && isExponent rest

/-- The words for numbers that have no digits. -/
def numberWords : List String := ["inf", "infinity", "nan"]

def isNumeral (text : List Char) : Bool :=
  let text := withoutSign text
  isMagnitude text || numberWords.contains (String.ofList (text.map Char.toLower))

end LabExchange.Text
