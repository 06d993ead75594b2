import PullNotices.Text.Basic

/-!
Dates of the Gregorian calendar, carried back before its introduction, and times of day with
microseconds. The distance from Greenwich is kept as it was written, and is absent where the text
named none.
-/
namespace PullNotices

/-- A calendar day. The year 0, which the calendar of payloads does not have, can be written. -/
structure Date where
  year : Nat
  month : Nat
  day : Nat
  deriving DecidableEq, Repr

namespace Date

def isLeapYear (year : Nat) : Bool := year % 4 = 0 && (year % 100 ≠ 0 || year % 400 = 0)

def daysInMonth (year month : Nat) : Nat :=
  if month = 2 then (if isLeapYear year then 29 else 28)
  else if month = 4 ∨ month = 6 ∨ month = 9 ∨ month = 11 then 30
  else 31

def isValid (d : Date) : Bool :=
  1 ≤ d.month && d.month ≤ 12 && 1 ≤ d.day && d.day ≤ daysInMonth d.year d.month

/-- The date so many days after the first day of the year 0. Days are counted on from the March four
hundred years earlier, so that a leap day comes last in its year and in its cycle. -/
def ofDayNumber (n : Nat) : Date :=
  let n := n + 146037
  let cycle := n / 146097
  let dayOfCycle := n % 146097
  let yearOfCycle := (dayOfCycle - dayOfCycle / 1460 + dayOfCycle / 36524 - dayOfCycle / 146096) / 365
  let dayOfYear := dayOfCycle - (365 * yearOfCycle + yearOfCycle / 4 - yearOfCycle / 100)
  let march := (5 * dayOfYear + 2) / 153
  let month := if march < 10 then march + 3 else march - 9
  { year := cycle * 400 + yearOfCycle + (if month ≤ 2 then 1 else 0) - 400
    month
    day := dayOfYear - (153 * march + 2) / 5 + 1 }

def display (d : Date) : Text :=
  Text.ofDecimal 4 d.year ++ "-" ++ Text.ofDecimal 2 d.month ++ "-" ++ Text.ofDecimal 2 d.day

example : ofDayNumber 0 = ⟨0, 1, 1⟩ ∧ ofDayNumber 59 = ⟨0, 2, 29⟩ ∧ ofDayNumber 366 = ⟨1, 1, 1⟩ ∧
    ofDayNumber 719528 = ⟨1970, 1, 1⟩ ∧ ofDayNumber 730544 = ⟨2000, 2, 29⟩ ∧
    ofDayNumber 3652424 = ⟨9999, 12, 31⟩ := by decide

end Date

structure Clock where
  hour : Nat
  minute : Nat
  second : Nat
  microsecond : Nat
  deriving DecidableEq, Repr

namespace Clock

def midnight : Clock := ⟨0, 0, 0, 0⟩

/-- Hours, minutes and seconds, and six digits of a second unless they are zeros. -/
def display (c : Clock) : Text :=
  let fraction : Text := if c.microsecond = 0 then [] else "." ++ Text.ofDecimal 6 c.microsecond
  Text.ofDecimal 2 c.hour ++ ":" ++ Text.ofDecimal 2 c.minute ++ ":" ++ Text.ofDecimal 2 c.second ++
    fraction

end Clock

structure Timestamp where
  date : Date
  clock : Clock
  /-- Minutes east of Greenwich. -/
  zone : Option Int
  deriving DecidableEq, Repr

namespace Timestamp

def displayZone (minutes : Int) : Text :=
  (if minutes < 0 then "-" else "+" : Text) ++ Text.ofDecimal 2 (minutes.natAbs / 60) ++ ":" ++
    Text.ofDecimal 2 (minutes.natAbs % 60)

def display (t : Timestamp) : Text :=
  t.date.display ++ "T" ++ t.clock.display ++
    match t.zone with
    | some minutes => displayZone minutes
    | none => []

end Timestamp
end PullNotices
