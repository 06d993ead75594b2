import PullNotices.Text.Basic

/-!
Blank code points: the white space of Unicode together with the four separators U+001C to U+001F.
A text of blanks alone counts as empty wherever a value or a file is checked for being there, and
an issue id holds none of them.
-/
namespace PullNotices

def CodePoint.isBlank (c : CodePoint) : Bool :=
  (0x09 ≤ c.val && c.val ≤ 0x0d) || (0x1c ≤ c.val && c.val ≤ 0x20) || c.val == 0x85 ||
  c.val == 0xa0 || c.val == 0x1680 || (0x2000 ≤ c.val && c.val ≤ 0x200a) ||
  c.val == 0x2028 || c.val == 0x2029 || c.val == 0x202f || c.val == 0x205f || c.val == 0x3000

def Text.isBlank (t : Text) : Bool := t.all CodePoint.isBlank

end PullNotices
