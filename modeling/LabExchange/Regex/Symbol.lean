import LabExchange.Regex.Mode
import LabExchange.Text.Hexadecimal

/-!
# Symbols of a regular expression

A single character, or what a backslash gives together with what follows it. Nothing is known about
the letters, digits and cases of characters outside ASCII, so a symbol that depends on them is
refused where a text is taken by characters. Where it is taken by bytes, a symbol is refused that
matches a part of a character.
-/
namespace LabExchange.Regex

inductive Symbol where
  /-- A character, and whether it is given as a byte. -/
  | character (c : Char) (isByte : Bool)
  /-- The digits, the blanks or the characters of words, or all others. -/
  | family (negated : Bool)
  /-- The start or the end of the text. -/
  | textEdge
  /-- A place that is told by the words beside it. -/
  | wordEdge
  deriving DecidableEq, Repr

namespace Symbol

/-- How many hexadecimal digits follow a letter. -/
def hexDigits? : Char → Option Nat
  | 'x' => some 2
  | 'u' => some 4
  | 'U' => some 8
  | _ => none

/-- Reads a number of hexadecimal digits, after those that have a given value. -/
def hexValue? (m : Mode) : Nat → Nat → List Char → Option (Nat × List Char)
  | 0, value, text => some (value, text)
  | missing + 1, value, text => match m.skip text with
    | [] => none
    | c :: rest => (Text.hexDigit? c).bind fun d => hexValue? m missing (value * 16 + d) rest

/-- The control characters that have a letter. -/
def control? : Char → Option Char
  | 'a' => some '\x07'
  | 't' => some '\t'
  | 'n' => some '\n'
  | 'v' => some '\x0b'
  | 'f' => some '\x0c'
  | 'r' => some '\r'
  | _ => none

/-- What a character after a backslash stands for, if it needs nothing more. Other characters of
ASCII than letters and digits stand for themselves. -/
def ofEscaped? (c : Char) : Option Symbol :=
  if ['d', 's', 'w'].contains c then some (.family false)
  else if ['D', 'S', 'W'].contains c then some (.family true)
  else if ['A', 'z'].contains c then some .textEdge
  else if ['b', 'B', '<', '>'].contains c then some .wordEdge
  else if c.toNat < 0x80 && !c.isAlphanum then some (.character c false)
  else (control? c).map (.character · false)

/-- Reads what follows a backslash. -/
def escape? (m : Mode) : List Char → Option (Symbol × List Char)
  | [] => none
  | c :: rest => match hexDigits? c with
    | some n => (hexValue? m n 0 rest).bind fun (value, rest) =>
      if value.isValidChar then some (.character (Char.ofNat value) (c == 'x'), rest) else none
    | none => (ofEscaped? c).map (·, rest)

/-- Reads a symbol. -/
def read? (m : Mode) : List Char → Option (Symbol × List Char)
  | [] => none
  | '\\' :: rest => escape? m rest
  | c :: rest => some (.character c false, rest)

/-- Whether a symbol may stand outside brackets. -/
def standsAlone (m : Mode) : Symbol → Bool
  | character c isByte => if m.byCharacters then !m.ignoresCase else !isByte || c.toNat < 0x80
  | family negated => !m.byCharacters && !negated
  | textEdge => true
  | wordEdge => !m.byCharacters

/-- Whether a symbol may stand between brackets. -/
def standsInBrackets (m : Mode) : Symbol → Bool
  | character c _ => if m.byCharacters then !m.ignoresCase else c.toNat < 0x80
  | family negated => !m.byCharacters && !negated
  | textEdge | wordEdge => false

end Symbol
end LabExchange.Regex
