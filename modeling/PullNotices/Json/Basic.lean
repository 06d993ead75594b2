import PullNotices.Text.Basic

/-!
JSON values. An object keeps its members as they were written; a key that is written twice means
its last value. Numbers written with a fraction or an exponent stay apart from integers.
-/
namespace PullNotices

inductive Number
  | int (n : Int)
  /-- `mantissa` times ten to the power `exponent`, with a sign that zero has as well. -/
  | decimal (negative : Bool) (mantissa : Nat) (exponent : Int)
  | infinity (negative : Bool)
  | nan
  deriving DecidableEq, Repr

inductive Json
  | null
  | bool (b : Bool)
  | number (n : Number)
  | text (t : Text)
  | array (elements : List Json)
  | object (members : List (Text × Json))
  deriving Inhabited

namespace Json

/-- The value of a key, which is the last one written under it. -/
def field? (key : Text) : List (Text × Json) → Option Json
  | [] => none
  | (k, v) :: members =>
    match field? key members with
    | some later => some later
    | none => if k = key then some v else none

end Json
end PullNotices
