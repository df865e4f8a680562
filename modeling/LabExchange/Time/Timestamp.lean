import LabExchange.Time.Date

/-!
# Timestamps

A moment of universal time, to the nanosecond. A leap second is the second 59 with a thousand
million nanoseconds or more, so that it comes after its second and before the next one.
-/
namespace LabExchange

/-- A time of day. Only the last second of a minute can be a leap second. -/
def Timestamp.Valid (hour minute second nanosecond : Nat) : Prop :=
  hour < 24 ∧ minute < 60 ∧ second < 60 ∧ nanosecond < 2000000000 ∧
    (1000000000 ≤ nanosecond → second = 59)

instance (hour minute second nanosecond : Nat) :
    Decidable (Timestamp.Valid hour minute second nanosecond) :=
  inferInstanceAs (Decidable (_ ∧ _ ∧ _ ∧ _ ∧ _))

structure Timestamp where
  date : Date
  hour : Nat
  minute : Nat
  second : Nat
  nanosecond : Nat
  valid : Timestamp.Valid hour minute second nanosecond
  deriving DecidableEq

namespace Timestamp

def ofParts? (date : Date) (hour minute second nanosecond : Nat) : Option Timestamp :=
  if h : Valid hour minute second nanosecond then
    some ⟨date, hour, minute, second, nanosecond, h⟩
  else none

/-- A whole number that grows with time; different timestamps have different ones. -/
def key (t : Timestamp) : Int :=
  (((((t.date.year * 12 + t.date.month) * 31 + t.date.day) * 24 + t.hour) * 60 + t.minute) * 60 +
    t.second) * 2000000000 + t.nanosecond

/-- The same moment some minutes earlier, for a shift of less than a day. -/
def earlier? (t : Timestamp) (minutes : Int) : Option Timestamp :=
  let total : Int := t.hour * 60 + t.minute - minutes
  let date? :=
    if total < 0 then t.date.previous?
    else if 1440 ≤ total then t.date.next?
    else some t.date
  let rest := (total % 1440).toNat
  date?.bind fun date => ofParts? date (rest / 60) (rest % 60) t.second t.nanosecond

end Timestamp
end LabExchange
