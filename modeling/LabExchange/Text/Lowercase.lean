import LabExchange.Text.CaseTable
import LabExchange.Text.Ranges

/-!
# Lower case

Full lower-casing of a text. A capital sigma at the end of a word becomes a final sigma: it has
a letter before it and none after it, characters that are passed over left aside.
-/
namespace LabExchange.Text

def isCased (c : Char) : Bool := inRanges casedRanges c

def isCaseIgnorable (c : Char) : Bool := inRanges ignorableRanges c

/-- The lower case of a character by itself. Only the dotted capital I has two characters. -/
def lowerChar (c : Char) : List Char :=
  let n := c.toNat
  if n < 0x80 then [c.toLower]
  else if n = 0x130 then ['i', '\u0307']
  else
    match lowerRanges.find? fun r => r.first ≤ n && n ≤ r.last && (n - r.first) % r.step == 0 with
    | some r => [Char.ofNat ((n : Int) + r.shift).toNat]
    | none => [c]

/-- Whether a letter with a case comes next, characters that are passed over left aside. -/
def letterFollows (text : List Char) : Bool :=
  (text.dropWhile isCaseIgnorable).head?.any isCased

/-- Lower-cases a text, given what stands before it, last first. -/
def lowerAfter (before : List Char) : List Char → List Char
  | [] => []
  | c :: rest =>
    let here :=
      if c = 'Σ' then
        [if letterFollows before && !letterFollows rest then 'ς' else 'σ']
      else lowerChar c
    here ++ lowerAfter (c :: before) rest

/-- The lower case of a text. -/
def lower (text : String) : List Char := lowerAfter [] text.toList

/-- Whether one list of characters stands somewhere in another. -/
def occursIn (pattern : List Char) : List Char → Bool
  | [] => pattern.isEmpty
  | c :: rest => pattern.isPrefixOf (c :: rest) || occursIn pattern rest

/-- Whether one text stands somewhere in another, case left aside. -/
def occursIgnoringCase (pattern text : String) : Bool := occursIn (lower pattern) (lower text)

end LabExchange.Text
