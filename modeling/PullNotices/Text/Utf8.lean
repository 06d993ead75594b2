import PullNotices.Text.Basic

/-!
UTF-8. `Utf8.decode` accepts the shortest form of each code point that is not a surrogate and
nothing else; a fault names the first octet that cannot be read and how many octets were good
enough to be reported with it.
-/
namespace PullNotices.Utf8

inductive Reason
  | startOctet
  /-- A sequence is broken off by an octet that cannot continue it. -/
  | continuation
  | endOfData
  deriving DecidableEq, Repr

/-- `count` octets from `position` on cannot be read; `octet` is the first of them. -/
structure Fault where
  reason : Reason
  octet : UInt8
  position : Nat
  count : Nat
  deriving DecidableEq, Repr

/-- The octets of a code point; a surrogate takes the three octets that no reader accepts. -/
def encodePoint (c : CodePoint) : List UInt8 :=
  if c.val < 0x80 then [.ofNat c.val]
  else if c.val < 0x800 then [.ofNat (0xc0 + c.val / 0x40), .ofNat (0x80 + c.val % 0x40)]
  else if c.val < 0x10000 then
    [.ofNat (0xe0 + c.val / 0x1000), .ofNat (0x80 + c.val / 0x40 % 0x40), .ofNat (0x80 + c.val % 0x40)]
  else
    [.ofNat (0xf0 + c.val / 0x40000), .ofNat (0x80 + c.val / 0x1000 % 0x40),
      .ofNat (0x80 + c.val / 0x40 % 0x40), .ofNat (0x80 + c.val % 0x40)]

def encode (t : Text) : List UInt8 := t.flatMap encodePoint

def isContinuation (b : UInt8) : Bool := 0x80 ≤ b && b < 0xc0

/-- The second octets that may follow `first`, which excludes long forms, surrogates and numbers
past the last code point. -/
def mayFollow (first second : UInt8) : Bool :=
  isContinuation second &&
  !(first == 0xe0 && second < 0xa0) && !(first == 0xed && 0xa0 ≤ second) &&
  !(first == 0xf0 && second < 0x90) && !(first == 0xf4 && 0x90 ≤ second)

def low (b : UInt8) : Nat := b.toNat % 0x40

def sequenceLength (first : UInt8) : Nat :=
  if first < 0x80 then 1 else if first < 0xc2 then 0 else if first < 0xe0 then 2
  else if first < 0xf0 then 3 else if first < 0xf5 then 4 else 0

def point (n : Nat) : CodePoint := if h : n < 0x110000 then ⟨n, h⟩ else CodePoint.replacement

def decodeFrom (position : Nat) : List UInt8 → Except Fault Text
  | [] => .ok []
  | a :: rest =>
    let stop (reason : Reason) (count : Nat) : Except Fault Text := .error ⟨reason, a, position, count⟩
    match sequenceLength a with
    | 0 => stop .startOctet 1
    | 1 => (decodeFrom (position + 1) rest).map (point a.toNat :: ·)
    | 2 =>
      match rest with
      | [] => stop .endOfData 1
      | b :: rest =>
        if !mayFollow a b then stop .continuation 1
        else (decodeFrom (position + 2) rest).map (point ((a.toNat - 0xc0) * 0x40 + low b) :: ·)
    | 3 =>
      match rest with
      | [] => stop .endOfData 1
      | [b] => if !mayFollow a b then stop .continuation 1 else stop .endOfData 2
      | b :: c :: rest =>
        if !mayFollow a b then stop .continuation 1
        else if !isContinuation c then stop .continuation 2
        else (decodeFrom (position + 3) rest).map
          (point ((a.toNat - 0xe0) * 0x1000 + low b * 0x40 + low c) :: ·)
    | _ =>
      match rest with
      | [] => stop .endOfData 1
      | [b] => if !mayFollow a b then stop .continuation 1 else stop .endOfData 2
      | [b, c] =>
        if !mayFollow a b then stop .continuation 1
        else if !isContinuation c then stop .continuation 2
        else stop .endOfData 3
      | b :: c :: d :: rest =>
        if !mayFollow a b then stop .continuation 1
        else if !isContinuation c then stop .continuation 2
        else if !isContinuation d then stop .continuation 3
        else (decodeFrom (position + 4) rest).map
          (point ((a.toNat - 0xf0) * 0x40000 + low b * 0x1000 + low c * 0x40 + low d) :: ·)

def decode (octets : List UInt8) : Except Fault Text := decodeFrom 0 octets

def Reason.message : Reason → Text
  | .startOctet => "invalid start byte"
  | .continuation => "invalid continuation byte"
  | .endOfData => "unexpected end of data"

def Fault.message (f : Fault) : Text :=
  let place : Text :=
    if f.count = 1 then
      "byte 0x" ++ Text.ofHex 2 f.octet.toNat ++ " in position " ++ Text.ofNat f.position
    else
      "bytes in position " ++ Text.ofNat f.position ++ "-" ++ Text.ofNat (f.position + f.count - 1)
  "'utf-8' codec can't decode " ++ place ++ ": " ++ f.reason.message

example : (decode [0x41, 0xc3, 0xa9, 0xf0, 0x9f, 0x98, 0x80]).toOption = some [0x41, 0xe9, 0x1f600] := by
  decide +kernel
example : decode [0x41, 0xed, 0xa0, 0x80] = .error ⟨.continuation, 0xed, 1, 1⟩ := rfl
example : decode [0xf0, 0x9f, 0x98] = .error ⟨.endOfData, 0xf0, 0, 3⟩ := rfl

end PullNotices.Utf8
