import LabExchange.Time.Timestamp

/-!
# Writing timestamps

A timestamp is written in the form of RFC 3339 with `Z`, or, for listings, with a space between
date and time and neither fraction nor zone. A leap second is written as second 60. Years outside
0 to 9999 have a sign and at least four digits.
-/
namespace LabExchange

/-- The digits of a number behind as many zeros as it takes to have a given length. -/
def padded (width n : Nat) : List Char :=
  let digits := Nat.toDigits 10 n
  List.replicate (width - digits.length) '0' ++ digits

namespace Timestamp

def yearText (year : Int) : List Char :=
  if 0 ≤ year ∧ year ≤ 9999 then padded 4 year.natAbs
  else (if year < 0 then '-' else '+') :: padded 4 year.natAbs

/-- The part of a second, with as few of 0, 3, 6 or 9 digits as it needs. -/
def fractionText (nanosecond : Nat) : List Char :=
  if nanosecond = 0 then []
  else if nanosecond % 1000000 = 0 then '.' :: padded 3 (nanosecond / 1000000)
  else if nanosecond % 1000 = 0 then '.' :: padded 6 (nanosecond / 1000)
  else '.' :: padded 9 nanosecond

def dateText (d : Date) : List Char :=
  yearText d.year ++ '-' :: padded 2 d.month ++ '-' :: padded 2 d.day

def timeText (t : Timestamp) : List Char :=
  let second := if t.nanosecond < 1000000000 then t.second else t.second + 1
  padded 2 t.hour ++ ':' :: padded 2 t.minute ++ ':' :: padded 2 second

/-- The timestamp as files hold it. -/
def text (t : Timestamp) : List Char :=
  dateText t.date ++ 'T' :: timeText t ++ fractionText (t.nanosecond % 1000000000) ++ ['Z']

/-- The timestamp as listings show it. -/
def listingText (t : Timestamp) : List Char := dateText t.date ++ ' ' :: timeText t

end Timestamp
end LabExchange
