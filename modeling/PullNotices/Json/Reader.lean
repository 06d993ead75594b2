import PullNotices.Json.Basic
import PullNotices.Text.Lines
import PullNotices.Text.Quoted

/-!
Reading JSON. Each step takes the text that is left and returns what is left behind it; a fault
keeps the text from its place on, which is enough to find the line and column. Space, tab, line
feed and carriage return may stand between tokens, `NaN` and the two infinities are numbers, and an
integer has at most 4300 digits.
-/
namespace PullNotices.Json

inductive Reason
  | expectingValue
  | extraData
  | expectingComma
  | expectingColon
  | expectingName
  | unterminatedString
  | controlCharacter
  | invalidEscape
  | invalidUnicodeEscape
  | byteOrderMark
  deriving DecidableEq, Repr

def Reason.message : Reason → Text
  | .expectingValue => "Expecting value"
  | .extraData => "Extra data"
  | .expectingComma => "Expecting ',' delimiter"
  | .expectingColon => "Expecting ':' delimiter"
  | .expectingName => "Expecting property name enclosed in double quotes"
  | .unterminatedString => "Unterminated string starting at"
  | .controlCharacter => "Invalid control character at"
  | .invalidEscape => "Invalid \\escape"
  | .invalidUnicodeEscape => "Invalid \\uXXXX escape"
  | .byteOrderMark => "Unexpected UTF-8 BOM (decode using utf-8-sig)"

inductive Stop
  /-- `rest` is the text from the fault on. -/
  | fault (reason : Reason) (rest : Text)
  | tooManyDigits (count : Nat)
  deriving DecidableEq, Repr

def isSpace (c : CodePoint) : Bool := c = ' ' || c = '\t' || c = '\n' || c = '\r'

def skipSpace (t : Text) : Text := t.dropWhile isSpace

inductive Piece
  | plain (c : CodePoint)
  /-- Four hexadecimal digits; two of these in a row can be one code point. -/
  | unit (u : CodePoint)
  deriving DecidableEq, Repr

def joinSurrogates (high low : CodePoint) : CodePoint :=
  let n := 0x10000 + (high.val - 0xd800) * 0x400 + (low.val - 0xdc00)
  if h : n < 0x110000 then ⟨n, h⟩ else CodePoint.replacement

/-- A surrogate pair written as two escapes is one code point; a surrogate left alone stays. -/
def joinPieces : List Piece → Text
  | [] => []
  | .plain c :: pieces => c :: joinPieces pieces
  | .unit u :: pieces =>
    match pieces with
    | .unit v :: more =>
      if u.isHighSurrogate && v.isLowSurrogate then joinSurrogates u v :: joinPieces more
      else u :: joinPieces (.unit v :: more)
    | pieces => u :: joinPieces pieces

def shortEscape? (c : CodePoint) : Option CodePoint :=
  if c = Text.doubleQuote ∨ c = Text.backslash ∨ c = '/' then some c
  else if c = 'b' then some '\x08'
  else if c = 'f' then some '\x0c'
  else if c = 'n' then some '\n'
  else if c = 'r' then some '\r'
  else if c = 't' then some '\t'
  else none

def unit? (a b c d : CodePoint) : Option CodePoint := do
  let a ← a.hexValue?
  let b ← b.hexValue?
  let c ← c.hexValue?
  let d ← d.hexValue?
  let n := a * 0x1000 + b * 0x100 + c * 0x10 + d
  if h : n < 0x110000 then some ⟨n, h⟩ else none

/-- The pieces up to the closing quote. `whole` is the text from the opening quote on; the digits of
an escape must have something behind them. -/
def readPieces (whole : Text) : Text → Except Stop (List Piece × Text)
  | [] => .error (.fault .unterminatedString whole)
  | c :: rest =>
    if c = Text.doubleQuote then .ok ([], rest)
    else if c = Text.backslash then
      match rest with
      | [] => .error (.fault .unterminatedString whole)
      | e :: digits =>
        if e = 'u' then
          match digits with
          | a :: b :: c :: d :: next :: more =>
            match unit? a b c d with
            | some u => (readPieces whole (next :: more)).map fun (ps, r) => (.unit u :: ps, r)
            | none => .error (.fault .invalidUnicodeEscape (e :: digits))
          | _ => .error (.fault .invalidUnicodeEscape (e :: digits))
        else
          match shortEscape? e with
          | some x => (readPieces whole digits).map fun (ps, r) => (.plain x :: ps, r)
          | none => .error (.fault .invalidEscape (c :: rest))
    else if c.val ≤ 0x1f then .error (.fault .controlCharacter (c :: rest))
    else (readPieces whole rest).map fun (ps, r) => (.plain c :: ps, r)

def readString (whole rest : Text) : Except Stop (Text × Text) :=
  (readPieces whole rest).map fun (pieces, rest) => (joinPieces pieces, rest)

def readWhole? : Text → Option (Text × Text)
  | [] => none
  | c :: rest =>
    if c = '0' then some ([c], rest)
    else if c.isDigit then some ((c :: rest).span CodePoint.isDigit)
    else none

/-- The digits behind a point; without any, the point is not part of the number. -/
def readFraction (t : Text) : Text × Text :=
  match Text.after? "." t with
  | none => ([], t)
  | some rest =>
    match rest.span CodePoint.isDigit with
    | ([], _) => ([], t)
    | found => found

/-- The exponent; without digits, its letter is not part of the number. -/
def readExponent? (t : Text) : Option (Int × Text) :=
  match t with
  | [] => none
  | c :: rest =>
    if c = 'e' ∨ c = 'E' then
      let (negative, rest) :=
        match Text.after? "-" rest with
        | some rest => (true, rest)
        | none => (false, (Text.after? "+" rest).getD rest)
      match rest.span CodePoint.isDigit with
      | ([], _) => none
      | (digits, rest) => some (if negative then -(Text.digitsValue digits : Int) else Text.digitsValue digits, rest)
    else none

def digitLimit : Nat := 4300

def readNumber (t : Text) : Except Stop (Json × Text) :=
  let (negative, body) :=
    match Text.after? "-" t with
    | some body => (true, body)
    | none => (false, t)
  let signed (n : Nat) : Int := if negative then -n else n
  match readWhole? body with
  | none => .error (.fault .expectingValue t)
  | some (whole, rest) =>
    let (fraction, rest) := readFraction rest
    match fraction, readExponent? rest with
    | [], none =>
      if digitLimit < whole.length then .error (.tooManyDigits whole.length)
      else .ok (.number (.int (signed (Text.digitsValue whole))), rest)
    | fraction, exponent =>
      let (exponent, rest) := exponent.getD (0, rest)
      let mantissa := Text.digitsValue (whole ++ fraction)
      .ok (.number (.decimal negative mantissa (exponent - fraction.length)), rest)

def words : List (Text × Json) :=
  [("null", .null), ("true", .bool true), ("false", .bool false), ("NaN", .number .nan),
    ("Infinity", .number (.infinity false)), ("-Infinity", .number (.infinity true))]

def readWord? (t : Text) : Option (Json × Text) :=
  words.findSome? fun (word, value) => (Text.after? word t).map (value, ·)

mutual

def readValue : (fuel : Nat) → Text → Except Stop (Json × Text)
  | 0, t => .error (.fault .expectingValue t)
  | fuel + 1, t =>
    match t with
    | [] => .error (.fault .expectingValue t)
    | c :: rest =>
      if c = Text.doubleQuote then (readString t rest).map fun (s, rest) => (.text s, rest)
      else if c = '[' then
        match Text.after? "]" (skipSpace rest) with
        | some rest => .ok (.array [], rest)
        | none => (readElements fuel (skipSpace rest)).map fun (vs, rest) => (.array vs, rest)
      else if c = '\x7b' then
        match Text.after? "\x7d" (skipSpace rest) with
        | some rest => .ok (.object [], rest)
        | none => (readMembers fuel (skipSpace rest)).map fun (ms, rest) => (.object ms, rest)
      else
        match readWord? t with
        | some found => .ok found
        | none => readNumber t

def readElements : (fuel : Nat) → Text → Except Stop (List Json × Text)
  | 0, t => .error (.fault .expectingValue t)
  | fuel + 1, t =>
    match readValue fuel t with
    | .error stop => .error stop
    | .ok (v, rest) =>
      match skipSpace rest with
      | [] => .error (.fault .expectingComma [])
      | c :: rest =>
        if c = ']' then .ok ([v], rest)
        else if c = ',' then
          (readElements fuel (skipSpace rest)).map fun (vs, rest) => (v :: vs, rest)
        else .error (.fault .expectingComma (c :: rest))

def readMembers : (fuel : Nat) → Text → Except Stop (List (Text × Json) × Text)
  | 0, t => .error (.fault .expectingName t)
  | fuel + 1, t =>
    match t with
    | [] => .error (.fault .expectingName t)
    | c :: rest =>
      if c = Text.doubleQuote then
        match readString t rest with
        | .error stop => .error stop
        | .ok (key, rest) =>
          match Text.after? ":" (skipSpace rest) with
          | none => .error (.fault .expectingColon (skipSpace rest))
          | some rest =>
            match readValue fuel (skipSpace rest) with
            | .error stop => .error stop
            | .ok (v, rest) =>
              match skipSpace rest with
              | [] => .error (.fault .expectingComma [])
              | c :: rest =>
                if c = '\x7d' then .ok ([(key, v)], rest)
                else if c = ',' then
                  (readMembers fuel (skipSpace rest)).map fun (ms, rest) => ((key, v) :: ms, rest)
                else .error (.fault .expectingComma (c :: rest))
      else .error (.fault .expectingName t)

end

/-- Enough for any text: each value and each element takes at least one code point. -/
def fuelFor (t : Text) : Nat := 2 * t.length + 2

def readDocument (t : Text) : Except Stop Json :=
  match readValue (fuelFor t) (skipSpace t) with
  | .error stop => .error stop
  | .ok (v, rest) =>
    match skipSpace rest with
    | [] => .ok v
    | rest => .error (.fault .extraData rest)

inductive ReadError
  /-- `offset` counts code points from 0, `line` and `column` count from 1. -/
  | malformed (reason : Reason) (offset line column : Nat)
  | tooManyDigits (count : Nat)
  deriving DecidableEq, Repr

def ReadError.locate (whole : Text) (reason : Reason) (rest : Text) : ReadError :=
  let offset := whole.length - rest.length
  let before := Text.lines (whole.take offset)
  .malformed reason offset before.length ((before.getLast?.getD []).length + 1)

def ReadError.message : ReadError → Text
  | .malformed reason offset line column =>
    reason.message ++ ": line " ++ Text.ofNat line ++ " column " ++ Text.ofNat column ++
      " (char " ++ Text.ofNat offset ++ ")"
  | .tooManyDigits count =>
    "Exceeds the limit (4300 digits) for integer string conversion: value has " ++
      Text.ofNat count ++ " digits; use sys.set_int_max_str_digits() to increase the limit"

def byteOrderMark : Text := ['\uFEFF']

def parse (t : Text) : Except ReadError Json :=
  match Text.after? byteOrderMark t with
  | some _ => .error (.locate t .byteOrderMark t)
  | none =>
    match readDocument t with
    | .ok v => .ok v
    | .error (.fault reason rest) => .error (.locate t reason rest)
    | .error (.tooManyDigits count) => .error (.tooManyDigits count)

end PullNotices.Json
