import PullNotices.Json.Basic
import PullNotices.Text.Quoted

/-!
Writing JSON in its shortest layout and in ASCII alone. A code point outside printable ASCII is
written by number, one beyond U+FFFF as the two escapes of a surrogate pair.
-/
namespace PullNotices.Json

def unitEscape (n : Nat) : Text := "\\u" ++ Text.ofHex 4 n

def escapePoint (c : CodePoint) : Text :=
  if c = Text.doubleQuote ∨ c = Text.backslash then [Text.backslash, c]
  else if c = '\x08' then "\\b"
  else if c = '\t' then "\\t"
  else if c = '\n' then "\\n"
  else if c = '\x0c' then "\\f"
  else if c = '\r' then "\\r"
  else if 0x20 ≤ c.val ∧ c.val ≤ 0x7e then [c]
  else if c.val < 0x10000 then unitEscape c.val
  else unitEscape (0xd800 + (c.val - 0x10000) / 0x400) ++ unitEscape (0xdc00 + (c.val - 0x10000) % 0x400)

def writeString (t : Text) : Text :=
  Text.doubleQuote :: t.flatMap escapePoint ++ [Text.doubleQuote]

def writeNumber : Number → Text
  | .int n => Text.ofInt n
  | .decimal negative mantissa exponent =>
    (if negative then "-" else "" : Text) ++ Text.ofNat mantissa ++ "e" ++ Text.ofInt exponent
  | .infinity negative => if negative then "-Infinity" else "Infinity"
  | .nan => "NaN"

mutual

def write : Json → Text
  | .null => "null"
  | .bool b => if b then "true" else "false"
  | .number n => writeNumber n
  | .text t => writeString t
  | .array vs => "[" ++ writeElements vs ++ "]"
  | .object ms => "\x7b" ++ writeMembers ms ++ "\x7d"

def writeElements : List Json → Text
  | [] => []
  | [v] => write v
  | v :: vs => write v ++ "," ++ writeElements vs

def writeMembers : List (Text × Json) → Text
  | [] => []
  | [(k, v)] => writeString k ++ ":" ++ write v
  | (k, v) :: ms => writeString k ++ ":" ++ write v ++ "," ++ writeMembers ms

end

example : write (.object [("a", .array [.null, .text [0x1f600]]), ("b", .number (.int (-1)))]) =
    "\x7b\"a\":[null,\"\\ud83d\\ude00\"],\"b\":-1\x7d" := by decide +kernel

end PullNotices.Json
