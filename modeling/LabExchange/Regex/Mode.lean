import LabExchange.Text.Blank

/-!
# Modes of a regular expression

Flags in a regular expression change how the rest of it is read: `i` leaves case aside, `u` goes by
characters and not by bytes, and `x` passes over blanks and comments. The other flags change only
what is matched.
-/
namespace LabExchange.Regex

open Text (isBlank)

structure Mode where
  ignoresCase : Bool
  byCharacters : Bool
  spaced : Bool
  deriving DecidableEq, Repr

namespace Mode

/-- The mode in which a regular expression begins. -/
def initial : Mode := ⟨false, true, false⟩

/-- The text after blanks and comments, from inside a comment or not. A comment goes from a number
sign to the end of its line. -/
def afterComments : Bool → List Char → List Char
  | _, [] => []
  | true, c :: rest => afterComments (c != '\n') rest
  | false, c :: rest =>
    if isBlank c then afterComments false rest
    else if c = '#' then afterComments true rest
    else c :: rest

/-- The text from where reading goes on. -/
def skip (m : Mode) (text : List Char) : List Char :=
  if m.spaced then afterComments false text else text

/-- The next character after blanks. One number sign among them is passed over as well. -/
def peek? (m : Mode) (text : List Char) : Option Char :=
  if m.spaced then
    match text.dropWhile isBlank with
    | '#' :: rest => (rest.dropWhile isBlank).head?
    | text => text.head?
  else text.head?

def flags : List Char := ['i', 'm', 's', 'U', 'u', 'R', 'x']

/-- Whether a text lists flags that are set and then, after a hyphen, flags that are cleared. None
stands there twice. -/
def areFlags (text : List Char) : Bool :=
  text.all (fun c => c == '-' || flags.contains c) && decide text.Nodup &&
    text.getLast? != some '-'

/-- A flag after a list of flags, if it was set or cleared before. -/
def flagAfter (text : List Char) (flag : Char) (before : Bool) : Bool :=
  if text.contains flag then !(text.dropWhile (· != '-')).contains flag else before

def withFlags (m : Mode) (text : List Char) : Mode :=
  ⟨flagAfter text 'i' m.ignoresCase, flagAfter text 'u' m.byCharacters,
    flagAfter text 'x' m.spaced⟩

end Mode
end LabExchange.Regex
