import PullNotices.Json.Reader
import PullNotices.Timestamp.Epoch

/-!
Moments given by a text: a date, a date with a time of day and perhaps a zone, or a number. The
separator behind the date is a letter T, a space or an underscore; seconds and their fraction may be
left out; of a fraction the first six digits count.
-/
namespace PullNotices.Timestamp

inductive ReadError
  | notTime
  | outOfRange
  | notDate
  deriving DecidableEq, Repr

def readDigits? (width : Nat) (t : Text) : Option (Nat × Text) :=
  let digits := t.take width
  if digits.length = width ∧ digits.all CodePoint.isDigit then
    some (Text.digitsValue digits, t.drop width)
  else none

def readDate? (t : Text) : Option (Date × Text) := do
  let (year, t) ← readDigits? 4 t
  let (month, t) ← readDigits? 2 (← Text.after? "-" t)
  let (day, t) ← readDigits? 2 (← Text.after? "-" t)
  let date : Date := ⟨year, month, day⟩
  if date.isValid then some (date, t) else none

def readMinutes? (t : Text) (separator : Text) : Option (Nat × Nat × Text) := do
  let (hour, t) ← readDigits? 2 t
  let (minute, t) ← readDigits? 2 (← Text.after? separator t)
  if hour < 24 ∧ minute < 60 then some (hour, minute, t) else none

def readMicroseconds? (t : Text) : Option (Nat × Text) :=
  match t.span CodePoint.isDigit with
  | ([], _) => none
  | (digits, rest) => some (Text.digitsValue ((digits ++ (List.replicate 6 '0' : Text)).take 6), rest)

def readFraction? (t : Text) : Option (Nat × Text) :=
  match t with
  | [] => some (0, t)
  | c :: rest => if c = '.' ∨ c = ',' then readMicroseconds? rest else some (0, t)

def readClock? (t : Text) : Option (Clock × Text) := do
  let (hour, minute, t) ← readMinutes? t ":"
  match Text.after? ":" t with
  | none => some (⟨hour, minute, 0, 0⟩, t)
  | some t =>
    let (second, t) ← readDigits? 2 t
    let (microsecond, t) ← readFraction? t
    if second < 60 then some (⟨hour, minute, second, microsecond⟩, t) else none

/-- A zone that takes the whole text: none, Greenwich, or a signed distance in hours and minutes. -/
def readZone? (t : Text) : Option (Option Int) :=
  match t with
  | [] => some none
  | c :: rest =>
    if (c = 'Z' ∨ c = 'z') ∧ rest = [] then some (some 0)
    else if c = '+' ∨ c = '-' ∨ c = '\u2212' then
      match (readMinutes? rest ":").or (readMinutes? rest "") with
      | some (hour, minute, []) =>
        let minutes : Int := 60 * hour + minute
        some (some (if c = '+' then minutes else -minutes))
      | _ => none
    else none

def readDateTime? (t : Text) : Option Timestamp := do
  let (date, t) ← readDate? t
  match t with
  | [] => none
  | separator :: t =>
    if separator = 'T' ∨ separator = 't' ∨ separator = ' ' ∨ separator = '_' then
      let (clock, t) ← readClock? t
      let zone ← readZone? t
      some ⟨date, clock, zone⟩
    else none

def readMidnight? (t : Text) : Option Timestamp :=
  match readDate? t with
  | some (date, []) => some ⟨date, .midnight, none⟩
  | _ => none

/-- A number: a sign that may be left out, and digits, or digits with a point before, among or behind
them. An exponent may follow where there is a point. -/
def readNumber? (t : Text) : Option Number :=
  let (negative, body) :=
    match Text.after? "-" t with
    | some body => (true, body)
    | none => (false, (Text.after? "+" t).getD t)
  let (whole, rest) := body.span CodePoint.isDigit
  match Text.after? "." rest with
  | none =>
    let count := Text.digitsValue whole
    if whole ≠ [] ∧ rest = [] then some (.int (if negative then -(count : Int) else count)) else none
  | some rest =>
    let (fraction, rest) := rest.span CodePoint.isDigit
    let decimal (exponent : Int) : Number :=
      .decimal negative (Text.digitsValue (whole ++ fraction)) (exponent - fraction.length)
    if whole = [] ∧ fraction = [] then none
    else if rest = [] then some (decimal 0)
    else
      match Json.readExponent? rest with
      | some (exponent, []) => some (decimal exponent)
      | _ => none

/-- The moment of a number in a text. Out of the calendar it is no date either. -/
def ofWritten (n : Number) : Except ReadError Timestamp :=
  match ofEpoch n with
  | .ok moment => .ok moment
  | .error .yearZero => .error .outOfRange
  | .error .beyondCalendar => .error .notDate

def ofText (t : Text) : Except ReadError Timestamp :=
  match (readDateTime? t).or (readMidnight? t) with
  | some moment => if moment.date.year = 0 then .error .outOfRange else .ok moment
  | none =>
    match readNumber? t with
    | some n => ofWritten n
    | none => .error .notDate

def ofNumber (n : Number) : Except ReadError Timestamp :=
  match n, ofEpoch n with
  | _, .ok moment => .ok moment
  | .int count, .error _ => .error (if doubleLimit ≤ count.natAbs then .notTime else .outOfRange)
  | _, .error _ => .error .outOfRange

example : (ofText "2026-01-01t10:00:00,5\u22120530").toOption.map display =
    some "2026-01-01T10:00:00.500000-05:30" := by decide +kernel
example : ofText "2023-02-29" = .error .notDate ∧ ofText "0000-01-01" = .error .outOfRange :=
  ⟨rfl, rfl⟩

end PullNotices.Timestamp
