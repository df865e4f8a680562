import LabExchange.Regex.Siblings
import LabExchange.Regex.Symbol

/-!
# Brackets of a regular expression

A set of characters between brackets: characters, ranges, named sets and further brackets side by
side, and operators between them, which are taken from the left.
-/
namespace LabExchange.Regex

/-- Brackets that are still open. -/
structure Bracket where
  /-- How deep what stands before an operator is, if there is one. -/
  left : Option Nat
  items : Siblings
  /-- Whether hyphens and the closing bracket still stand for themselves. -/
  atFront : Bool
  deriving DecidableEq, Repr

namespace Bracket

def empty : Bracket := ⟨none, .empty, true⟩

def add (b : Bracket) (depth : Nat) : Bracket := ⟨b.left, b.items.add depth, false⟩

/-- How deep the contents are. -/
def depth (b : Bracket) : Nat :=
  match b.left with
  | some left => max left b.items.depth + 1
  | none => b.items.depth

/-- Takes what has been read so far for the left side of an operator. -/
def operate (b : Bracket) : Bracket := ⟨some b.depth, .empty, false⟩

/-- The names of the sets of characters that are written between colons. -/
def setNames : List String :=
  ["alnum", "alpha", "ascii", "blank", "cntrl", "digit", "graph", "lower", "print", "punct",
    "space", "upper", "word", "xdigit"]

/-- Reads a named set after its opening bracket, and whether it is negated. -/
def namedSet? : List Char → Option (Bool × List Char)
  | ':' :: text =>
    let negated := text.head? == some '^'
    let text := if negated then text.drop 1 else text
    let name := text.takeWhile (· != ':')
    match text.drop name.length with
    | ':' :: ']' :: rest =>
      if setNames.contains (String.ofList name) then some (negated, rest) else none
    | _ => none
  | _ => none

/-- Whether a named set may stand between brackets. -/
def allowsNamedSet (m : Mode) (negated : Bool) : Bool :=
  if m.byCharacters then !m.ignoresCase else !negated

/-- Whether a set may be negated. Taken by bytes it would match parts of characters. -/
def allowsNegation (m : Mode) : Bool := m.byCharacters

/-- Reads a character or a range, and gives what follows. A hyphen before a closing bracket or
another hyphen makes no range. -/
def range? (m : Mode) (text : List Char) : Option (List Char) := do
  let (first, rest) ← Symbol.read? m text
  let single := if first.standsInBrackets m then some (m.skip rest) else none
  match m.skip rest with
  | '-' :: after =>
    if m.peek? after == some ']' || m.peek? after == some '-' then single
    else
      let (last, rest) ← Symbol.read? m (m.skip after)
      match first, last with
      | .character a _, .character b _ =>
        if first.standsInBrackets m && last.standsInBrackets m && a.toNat ≤ b.toNat then some rest
        else none
      | _, _ => none
  | _ => single

end Bracket
end LabExchange.Regex
