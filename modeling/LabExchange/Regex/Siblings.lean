/-!
# Depth of a regular expression

A group, a repetition and a pair of brackets are one level deeper than what they hold. So are
several parts side by side, but not one part by itself.
-/
namespace LabExchange.Regex

/-- How many levels a regular expression may have. -/
def maxDepth : Nat := 250

/-- Parts side by side: how many there are, and how deep the deepest is. -/
structure Siblings where
  count : Nat
  deepest : Nat
  deriving DecidableEq, Repr

namespace Siblings

def empty : Siblings := ⟨0, 0⟩

def add (s : Siblings) (depth : Nat) : Siblings := ⟨s.count + 1, max s.deepest depth⟩

/-- The depth of the parts taken together. -/
def depth (s : Siblings) : Nat := if s.count ≤ 1 then s.deepest else s.deepest + 1

end Siblings
end LabExchange.Regex
