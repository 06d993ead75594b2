import PullNotices.Text.Printable

/-!
Quoted texts, as messages show them. The mark is an apostrophe, unless the text holds apostrophes
and no double quotes. The mark and the backslash are escaped, line feed, carriage return and tab
have short escapes, and any other unprintable code point is written by its number.
-/
namespace PullNotices.Text

def apostrophe : CodePoint := ⟨0x27, by decide⟩

def doubleQuote : CodePoint := ⟨0x22, by decide⟩

def backslash : CodePoint := ⟨0x5c, by decide⟩

/-- The mark that needs fewer escapes. -/
def quoteMark (t : Text) : CodePoint :=
  if t.contains apostrophe && !t.contains doubleQuote then doubleQuote else apostrophe

def quotePoint (mark c : CodePoint) : Text :=
  if c = mark ∨ c = backslash then [backslash, c]
  else if c = '\t' then "\\t"
  else if c = '\n' then "\\n"
  else if c = '\r' then "\\r"
  else if c.isPrintable then [c]
  else if c.val ≤ 0xff then "\\x" ++ ofHex 2 c.val
  else if c.val ≤ 0xffff then "\\u" ++ ofHex 4 c.val
  else "\\U" ++ ofHex 8 c.val

def quoted (t : Text) : Text :=
  let mark := quoteMark t
  mark :: t.flatMap (quotePoint mark) ++ [mark]

end PullNotices.Text
