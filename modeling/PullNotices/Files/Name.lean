import PullNotices.Files.Path
import PullNotices.Text.Utf8

/-!
File names. To a file system they are octets, and as texts they are these octets read as UTF-8, where an
octet that belongs to no code point stands as one of the surrogates U+DC80 to U+DCFF. Any other
surrogate stands for nothing, so a path with such a surrogate is never handed to the file system, and
neither is one with a null.
-/
namespace PullNotices

/-- A surrogate that stands for an octet in a name that is not UTF-8. -/
def CodePoint.isOctet (c : CodePoint) : Bool := 0xdc80 ≤ c.val && c.val ≤ 0xdcff

/-- A surrogate that no name can have. -/
def CodePoint.isStray (c : CodePoint) : Bool := c.isSurrogate && !c.isOctet

abbrev FileName := List UInt8

namespace FileName

def encodePoint (c : CodePoint) : List UInt8 :=
  if c.isOctet then [.ofNat (c.val - 0xdc00)] else Utf8.encodePoint c

def ofText (t : Text) : FileName := t.flatMap encodePoint

def toText : FileName → Text
  | [] => []
  | a :: rest =>
    match Utf8.decode ((a :: rest).take (Utf8.sequenceLength a)) with
    | .ok [c] => c :: toText (rest.drop (Utf8.sequenceLength a - 1))
    | _ => Utf8.point (0xdc00 + a.toNat) :: toText rest
termination_by name => name.length
decreasing_by
  · simp only [List.length_drop, List.length_cons]
    omega
  · simp

end FileName

/-- What keeps a path from being handed to the file system. -/
inductive PathFlaw
  /-- The code point in this position is the first stray surrogate, and `count` surrogates stand there one
  after another. -/
  | surrogates (first : CodePoint) (position count : Nat)
  | null
  deriving DecidableEq, Repr

namespace PathFlaw

/-- The flaw of a text that is to be a path. Stray surrogates are noticed before a null. -/
def ofText? (t : Text) : Option PathFlaw :=
  match t.dropWhile fun c => !c.isStray with
  | c :: rest =>
    some (.surrogates c (t.takeWhile fun c => !c.isStray).length
      (1 + (rest.takeWhile CodePoint.isSurrogate).length))
  | [] => if t.contains '\x00' then some .null else none

def message : PathFlaw → Text
  | .surrogates first position count =>
    let place : Text :=
      if count = 1 then
        "character '\\u" ++ Text.ofHex 4 first.val ++ "' in position " ++ Text.ofNat position
      else
        "characters in position " ++ Text.ofNat position ++ "-" ++ Text.ofNat (position + count - 1)
    "'utf-8' codec can't encode " ++ place ++ ": surrogates not allowed"
  | .null => "embedded null byte"

end PathFlaw

def Path.flaw? (path : Path) : Option PathFlaw := PathFlaw.ofText? path.display

example : (FileName.ofText [0x61, 0xdcc3, 0xe9]).toText = [0x61, 0xdcc3, 0xe9] := by decide +kernel
example : PathFlaw.ofText? [0x61, 0xdc80, 0xd800, 0xdcff, 0] = some (.surrogates 0xd800 2 2) := by
  decide +kernel

end PullNotices
