import PullNotices.Json.Double
import PullNotices.Timestamp.Basic

/-!
Moments given by a number: seconds since the first of January 1970 in Greenwich, or milliseconds
where a count of seconds would be centuries away. Counts with a fraction are double precision
numbers; what they have beyond the integer below them is rounded to microseconds.
-/
namespace PullNotices.Timestamp

inductive EpochError
  | beyondCalendar
  | yearZero
  deriving DecidableEq, Repr

/-- Greater counts, of either sign, are milliseconds. -/
def secondsLimit : Nat := 20000000000

def secondsToEpoch : Int := 62167219200

def lastSecond : Int := 253402300799

def ofSeconds (seconds : Int) (microseconds : Nat) : Except EpochError Timestamp :=
  let seconds := seconds + (microseconds / 1000000 : Nat)
  if seconds + secondsToEpoch < 0 ∨ lastSecond < seconds then .error .beyondCalendar
  else
    let n := (seconds + secondsToEpoch).toNat
    let date := Date.ofDayNumber (n / 86400)
    if date.year = 0 then .error .yearZero
    else .ok {
      date
      clock := ⟨n / 3600 % 24, n / 60 % 60, n % 60, microseconds % 1000000⟩
      zone := some 0 }

def ofCount (count : Int) : Except EpochError Timestamp :=
  if secondsLimit < count.natAbs then ofSeconds (count / 1000) ((count % 1000).toNat * 1000)
  else ofSeconds count 0

/-- The greatest integer up to a double whose size is below two to the power 63. -/
def floorOf? (x : Float) : Option Int :=
  if x.abs < 9223372036854775808.0 then some x.floor.toInt64.toInt else none

def nearestTo (part : Float) : Nat := part.round.toUInt64.toNat

/-- The moment of a count with a fraction. Its whole part is the integer below it, also for a count
below zero, so that what is left is never negative; that is rounded to microseconds. -/
def ofFraction (x : Float) : Except EpochError Timestamp :=
  match floorOf? x with
  | none => .error .beyondCalendar
  | some whole =>
    let left := x - x.floor
    if Float.ofNat secondsLimit < x.abs then
      ofSeconds (whole / 1000) ((whole % 1000).toNat * 1000 + nearestTo (left * 1000))
    else ofSeconds whole (nearestTo (left * 1000000))

def ofEpoch : Number → Except EpochError Timestamp
  | .int count => ofCount count
  | .decimal negative mantissa exponent => ofFraction (Double.nearest negative mantissa exponent)
  | .infinity _ | .nan => .error .beyondCalendar

def doubleLimit : Nat := 1 <<< 1024 - 1 <<< 970

example : ofCount 951782400 = .ok ⟨⟨2000, 2, 29⟩, .midnight, some 0⟩ := rfl
example : ofCount 20000000001 = .ok ⟨⟨1970, 8, 20⟩, ⟨11, 33, 20, 1000⟩, some 0⟩ := rfl
example : ofCount (-20000000000) = .ok ⟨⟨1336, 3, 23⟩, ⟨12, 26, 40, 0⟩, some 0⟩ := rfl

end PullNotices.Timestamp
