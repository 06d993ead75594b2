import PullNotices.Json.Double
import PullNotices.Text.Quoted

/-!
JSON values as messages show them where a text was expected. The words for the values without
digits begin with capitals, texts are quoted, and lists and objects are spaced.
-/
namespace PullNotices.Json

/-- Where the decimal point is written: up to sixteen places behind the first digit, and up to four
in front of it. Elsewhere an exponent of at least two digits is written, with its sign. -/
def displaySize (digits : Text) (point : Int) : Text :=
  if 0 < point ∧ point ≤ 16 then
    let whole := digits.take point.toNat
    let fraction := digits.drop point.toNat
    let zeros : Text := List.replicate (point.toNat - digits.length) '0'
    whole ++ zeros ++ "." ++ (if fraction = [] then "0" else fraction : Text)
  else if -4 < point ∧ point ≤ 0 then
    "0." ++ (List.replicate point.natAbs '0' : Text) ++ digits
  else
    let mark : Text := if 1 < digits.length then "." else []
    let power := point - 1
    let size := Text.ofNat power.natAbs
    let padding : Text := if size.length < 2 then "0" else []
    digits.take 1 ++ mark ++ digits.drop 1 ++ "e" ++ (if power < 0 then "-" else "+" : Text) ++
      padding ++ size

/-- A double in the fewest digits that are read as the same double. -/
def displayDouble (x : Float) : Text :=
  let sign : Text := if x.toBits.toNat >>> 63 = 1 then "-" else []
  if x.isNaN then "nan"
  else if x.isInf then sign ++ "inf"
  else if x == 0 then sign ++ "0.0"
  else
    let (count, exponent) := Double.shortest x
    let digits := Text.ofNat count
    let point := exponent + digits.length
    sign ++ displaySize (Text.dropEndWhile (· = '0') digits) point

def displayNumber : Number → Text
  | .int n => Text.ofInt n
  | .decimal negative mantissa exponent => displayDouble (Double.nearest negative mantissa exponent)
  | .infinity negative => if negative then "-inf" else "inf"
  | .nan => "nan"

mutual

def display : Json → Text
  | .null => "None"
  | .bool b => if b then "True" else "False"
  | .number n => displayNumber n
  | .text t => Text.quoted t
  | .array vs => "[" ++ displayElements vs ++ "]"
  | .object ms => "\x7b" ++ displayMembers ms ++ "\x7d"

def displayElements : List Json → Text
  | [] => []
  | [v] => display v
  | v :: vs => display v ++ ", " ++ displayElements vs

def displayMembers : List (Text × Json) → Text
  | [] => []
  | [(k, v)] => Text.quoted k ++ ": " ++ display v
  | (k, v) :: ms => Text.quoted k ++ ": " ++ display v ++ ", " ++ displayMembers ms

end

end PullNotices.Json
