import PullNotices.Json.Basic

/-!
Double precision numbers as numbers with a fraction are understood: the nearest double of a decimal,
and the shortest decimal of a double. The shortest one has the fewest digits that are read as the
same double again, and of several the nearest to it; of two that are equally near the even one.
-/
namespace PullNotices.Double

def nearest (negative : Bool) (mantissa : Nat) (exponent : Int) : Float :=
  let places := exponent + (Nat.toDigits 10 mantissa).length
  let x :=
    if mantissa = 0 ∨ places < -400 then 0
    else if 400 < places then 1 / 0
    else Float.ofScientific mantissa (exponent < 0) exponent.natAbs
  if negative then -x else x

/-- All finite doubles are multiples of ten to the power `-finest`. -/
def finest : Nat := 1074

def multiple (x : Float) : Nat :=
  let bits := x.toBits.toNat % (1 <<< 63)
  let exponent := bits >>> 52
  let fraction := bits % (1 <<< 52)
  if exponent = 0 then fraction * Nat.pow 5 finest
  else (fraction + (1 <<< 52)) * (1 <<< (exponent - 1)) * Nat.pow 5 finest

/-- The nearer of the two neighbours with `count` digits that are read as the same size again. -/
def ofDigits? (size : Float) (n length count : Nat) : Option (Nat × Int) :=
  let unit := Nat.pow 10 (length - count)
  let exponent : Int := (length - count : Nat) - finest
  let below := n / unit
  let readsBack (digits : Nat) : Bool := nearest false digits exponent == size
  let isBelowNearer := 2 * (n % unit) < unit ∨ 2 * (n % unit) = unit ∧ below % 2 = 0
  let nearer := if isBelowNearer then [below, below + 1] else [below + 1, below]
  (nearer.find? readsBack).map fun digits => (digits, exponent)

def shortest (x : Float) : Nat × Int :=
  let n := multiple x
  let length := (Nat.toDigits 10 n).length
  ((List.range' 1 17).findSome? (ofDigits? x.abs n length)).getD (n, -finest)

end PullNotices.Double
