import LabExchange.Text.Blank
import LabExchange.Time.Timestamp

/-!
# Reading timestamps

Blanks may stand before every number, around the marks of date and time, before the zone and at
the end. A year without a sign has at most four digits, the other fields one or two. The zone is
`Z`, `UTC` or an offset of hours and minutes; the moment is kept as universal time.
-/
namespace LabExchange.Timestamp

open Text (isBlank trimStart)

/-- Reads a number of at least one and at most `width` digits after any blanks. -/
def number? (width : Nat) (text : List Char) : Option (Nat × List Char) :=
  let text := trimStart text
  let digits := (text.takeWhile Char.isDigit).take width
  if digits.isEmpty then none
  else some (Nat.ofDigitChars 10 digits 0, text.drop digits.length)

/-- Reads a year. Behind a sign it has as many digits as there are. -/
def year? (text : List Char) : Option (Int × List Char) :=
  let signed (f : Nat → Int) (rest : List Char) : Option (Int × List Char) :=
    let digits := rest.takeWhile Char.isDigit
    if digits.isEmpty then none
    else some (f (Nat.ofDigitChars 10 digits 0), rest.drop digits.length)
  match trimStart text with
  | '-' :: rest => signed (fun n => -Int.ofNat n) rest
  | '+' :: rest => signed Int.ofNat rest
  | text => (number? 4 text).map fun (n, rest) => (Int.ofNat n, rest)

/-- Reads a mark after any blanks. -/
def mark? (c : Char) (text : List Char) : Option (List Char) :=
  match trimStart text with
  | d :: rest => if d = c then some rest else none
  | [] => none

/-- Reads the part of a second, if there is one, in nanoseconds. Digits after the ninth are
dropped. -/
def fraction? (text : List Char) : Option (Nat × List Char) :=
  match text with
  | '.' :: rest =>
    let digits := rest.takeWhile Char.isDigit
    let first := digits.take 9
    if digits.isEmpty then none
    else some (Nat.ofDigitChars 10 first 0 * Nat.pow 10 (9 - first.length), rest.drop digits.length)
  | text => some (0, text)

/-- Reads two digits. -/
def pair? (text : List Char) : Option (Nat × List Char) :=
  match text with
  | a :: b :: rest =>
    if a.isDigit && b.isDigit then some (Nat.ofDigitChars 10 [a, b] 0, rest) else none
  | _ => none

/-- Reads the hours and minutes of an offset, in minutes. It is less than a day. -/
def offset? (text : List Char) : Option (Nat × List Char) := do
  let (hours, rest) ← pair? text
  let (minutes, rest) ← pair? (rest.dropWhile fun c => c == ':' || isBlank c)
  if minutes < 60 ∧ hours < 24 then some (hours * 60 + minutes, rest) else none

/-- Reads a zone, as the minutes it is ahead of universal time. -/
def zone? (text : List Char) : Option (Int × List Char) :=
  match text with
  | 'Z' :: rest | 'z' :: rest => some (0, rest)
  | '+' :: rest => (offset? rest).map fun (n, rest) => (Int.ofNat n, rest)
  | '-' :: rest | '\u2212' :: rest => (offset? rest).map fun (n, rest) => (-Int.ofNat n, rest)
  | text =>
    if (text.take 3).map Char.toLower = ['u', 't', 'c'] then some (0, text.drop 3) else none

def date? (text : List Char) : Option (Date × List Char) := do
  let (year, text) ← year? text
  let text ← mark? '-' text
  let (month, text) ← number? 2 text
  let text ← mark? '-' text
  let (day, text) ← number? 2 text
  let date ← Date.ofParts? year month day
  some (date, text)

/-- Reads a time of day. Second 60 is the leap second after second 59. -/
def time? (date : Date) (text : List Char) : Option (Timestamp × List Char) := do
  let (hour, text) ← number? 2 text
  let text ← mark? ':' text
  let (minute, text) ← number? 2 text
  let text ← mark? ':' text
  let (second, text) ← number? 2 text
  let (nanosecond, text) ← fraction? text
  let time ←
    if second = 60 then ofParts? date hour minute 59 (1000000000 + nanosecond)
    else ofParts? date hour minute second nanosecond
  some (time, text)

/-- Reads a whole text as a timestamp. -/
def read? (text : List Char) : Option Timestamp := do
  let (date, text) ← date? text
  let text ← match text with
    | c :: rest => if c = 'T' ∨ c = 't' ∨ c = ' ' then some rest else none
    | [] => none
  let (time, text) ← time? date text
  let (minutes, text) ← zone? (trimStart text)
  if (trimStart text).isEmpty then time.earlier? minutes else none

end LabExchange.Timestamp
