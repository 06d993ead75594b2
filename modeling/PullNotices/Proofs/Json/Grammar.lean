import PullNotices.Proofs.Json.Strings

/-! JSON texts, told without a reader: which texts denote a value. Any gap may stand around a token,
and each character of a string may be written in any of its ways. -/
namespace PullNotices.Json
open Text

def spaces : Text := " \t\n\r"

/-- Space between tokens; there need not be any. -/
def IsGap (t : Text) : Prop := ∀ c ∈ t, c ∈ spaces

/-- The letters behind a backslash and what they stand for. -/
def shortEscapes : List (CodePoint × CodePoint) :=
  [(doubleQuote,doubleQuote),(backslash,backslash),('/','/'),('b','\x08'),('f','\x0c'),('n','\n'),('r','\r'),('t','\t')]

/-- The text is the escape of the code point by its four hexadecimal digits, each in either case. -/
def IsUnit (e : Text) (u : CodePoint) : Prop :=
  u.val < 0x10000 ∧ ∃ digits, e = "\\u" ++ digits ∧ digits.map CodePoint.toLower = ofHex 4 u.val

/-- Between quotes the first text stands for the second. -/
inductive Characters : Text → Text → Prop
  | nil : Characters [] []
  | raw {c : CodePoint} {w t : Text} (shown : 0x20 ≤ c.val) (noQuote : c ≠ doubleQuote) (noEscape : c ≠ backslash)
      (rest : Characters w t) : Characters (c :: w) (c :: t)
  | short {letter c : CodePoint} {w t : Text} (listed : (letter,c) ∈ shortEscapes) (rest : Characters w t) :
      Characters (backslash :: letter :: w) (c :: t)
  /-- A high surrogate right before the escape of a low one would make a pair with it. -/
  | unit {e w t : Text} {u : CodePoint} (escape : IsUnit e u)
      (alone : u.isHighSurrogate = true → ∀ f v more, IsUnit f v → v.isLowSurrogate = true → w ≠ f ++ more)
      (rest : Characters w t) : Characters (e ++ w) (u :: t)
  | pair {e f w t : Text} {c : CodePoint} (astral : 0x10000 ≤ c.val) (high : IsUnit e (highUnit c))
      (low : IsUnit f (lowUnit c)) (rest : Characters w t) : Characters (e ++ (f ++ w)) (c :: t)

def inQuotes (w : Text) : Text := doubleQuote :: (w ++ [doubleQuote])

structure Exponent where
  letter : CodePoint
  sign : Text
  digits : Text

/-- A number as it is written. Without a fraction there is no point either. -/
structure Numeral where
  negative : Bool
  whole : Text
  fraction : Text
  exponent : Option Exponent

namespace Exponent

def written (e : Exponent) : Text := e.letter :: (e.sign ++ e.digits)

def value (e : Exponent) : Int := if e.sign = "-" then -(digitsValue e.digits : Int) else digitsValue e.digits

structure IsProper (e : Exponent) : Prop where
  letter : e.letter ∈ ofString "eE"
  sign : e.sign = [] ∨ e.sign = "+" ∨ e.sign = "-"
  digits : ∀ c ∈ e.digits, c.isDigit = true
  nonempty : e.digits ≠ []

end Exponent

namespace Numeral

def point (n : Numeral) : Text := if n.fraction = [] then [] else "." ++ n.fraction

def power (n : Numeral) : Text := (n.exponent.map Exponent.written).getD []

def written (n : Numeral) : Text := (if n.negative then "-" else "") ++ (n.whole ++ (n.point ++ n.power))

def value (n : Numeral) : Number :=
  if n.fraction = [] ∧ n.exponent.isNone then
    .int (if n.negative then -(digitsValue n.whole : Int) else digitsValue n.whole)
  else
    .decimal n.negative (digitsValue (n.whole ++ n.fraction)) ((n.exponent.map Exponent.value).getD 0 - n.fraction.length)

structure IsProper (n : Numeral) : Prop where
  digits : ∀ c ∈ n.whole, c.isDigit = true
  nonempty : n.whole ≠ []
  leading : n.whole = "0" ∨ n.whole.head? ≠ some (CodePoint.ofChar '0')
  fraction : ∀ c ∈ n.fraction, c.isDigit = true
  exponent : ∀ e ∈ n.exponent, e.IsProper
  /-- Integers have no more digits than this. -/
  limit : n.fraction = [] → n.exponent = none → n.whole.length ≤ 4300

end Numeral

mutual

/-- The text is a value without anything before or behind it. -/
inductive Denotes : Text → Json → Prop
  | word {w : Text} {v : Json} (listed : (w,v) ∈ words) : Denotes w v
  | number {n : Numeral} (proper : n.IsProper) : Denotes n.written (.number n.value)
  | text {w t : Text} (spelled : Characters w t) : Denotes (inQuotes w) (.text t)
  | emptyArray {gap : Text} (blank : IsGap gap) : Denotes ("[" ++ (gap ++ "]")) (.array [])
  | array {w : Text} {vs : List Json} (elements : Elements w vs) : Denotes ("[" ++ (w ++ "]")) (.array vs)
  | emptyObject {gap : Text} (blank : IsGap gap) : Denotes ("\x7b" ++ (gap ++ "\x7d")) (.object [])
  | object {w : Text} {ms : List (Text × Json)} (members : Members w ms) : Denotes ("\x7b" ++ (w ++ "\x7d")) (.object ms)

/-- The text is a value with a gap on either side. -/
inductive Element : Text → Json → Prop
  | mk {before w after : Text} {v : Json} (left : IsGap before) (value : Denotes w v) (right : IsGap after) :
      Element (before ++ (w ++ after)) v

/-- What stands between the brackets of an array. -/
inductive Elements : Text → List Json → Prop
  | last {w : Text} {v : Json} (element : Element w v) : Elements w [v]
  | cons {w more : Text} {v : Json} {vs : List Json} (element : Element w v) (rest : Elements more vs) :
      Elements (w ++ ("," ++ more)) (v :: vs)

/-- What stands between the braces of an object. -/
inductive Members : Text → List (Text × Json) → Prop
  | last {before k key gap w : Text} {v : Json} (left : IsGap before) (name : Characters k key) (right : IsGap gap)
      (element : Element w v) : Members (before ++ (inQuotes k ++ (gap ++ (":" ++ w)))) [(key,v)]
  | cons {before k key gap w more : Text} {v : Json} {ms : List (Text × Json)} (left : IsGap before)
      (name : Characters k key) (right : IsGap gap) (element : Element w v) (rest : Members more ms) :
      Members (before ++ (inQuotes k ++ (gap ++ (":" ++ (w ++ ("," ++ more)))))) ((key,v) :: ms)

end

theorem IsGap.nil : IsGap [] := nofun

theorem IsGap.append {gap more : Text} (blank : IsGap gap) (also : IsGap more) : IsGap (gap ++ more) :=
  fun c member => (List.mem_append.mp member).elim (blank c) (also c)

theorem Denotes.element {w : Text} {v : Json} (value : Denotes w v) : Element w v := by
  have plain := Element.mk .nil value .nil
  rw [List.nil_append,List.append_nil] at plain
  exact plain

end PullNotices.Json
