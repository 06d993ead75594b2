import PullNotices.Text.Quoted

/-!
Commit hashes: forty hexadecimal digits, kept in lower case. The hash of zeros alone is no commit;
old history entries use it where none was recorded.
-/
namespace PullNotices

structure Hash where
  digits : Text
  length_digits : digits.length = 40
  isLowerHex_digits : digits.all CodePoint.isLowerHex = true
  deriving DecidableEq

namespace Hash

structure Malformed where
  value : Text
  deriving DecidableEq, Repr

def Malformed.message (e : Malformed) : Text :=
  "not a 40 character hex commit hash: " ++ Text.quoted e.value

def ofDigits? (digits : Text) : Option Hash :=
  if h : digits.length = 40 ∧ digits.all CodePoint.isLowerHex = true then some ⟨digits, h.1, h.2⟩
  else none

/-- Reads a hash in either case. No letter beyond ASCII is the capital of a hexadecimal digit, so
lowering ASCII alone accepts what lowering all of Unicode would. -/
def parse (t : Text) : Except Malformed Hash :=
  match ofDigits? (t.map CodePoint.toLower) with
  | some hash => .ok hash
  | none => .error ⟨t⟩

def zero : Hash := ⟨List.replicate 40 '0', by decide, by decide⟩

def abbreviatedLength : Int := 8

/-- The first `length` digits; a negative length drops that many from the end. -/
def abbreviate (hash : Hash) (length : Int) : Text :=
  if 0 ≤ length then hash.digits.take length.toNat
  else hash.digits.take (40 - length.natAbs)

def inOrder (hashes : List Hash) : List Hash :=
  hashes.mergeSort fun a b => !decide (b.digits < a.digits)

theorem ofDigits?_digits (hash : Hash) : ofDigits? hash.digits = some hash := by
  simp [ofDigits?, hash.length_digits, hash.isLowerHex_digits]

theorem toLower_of_isLowerHex {c : CodePoint} (h : c.isLowerHex = true) : c.toLower = c := by
  have : ¬ (0x41 ≤ c.val ∧ c.val ≤ 0x5a) := by
    simp only [CodePoint.isLowerHex, CodePoint.isDigit, Bool.or_eq_true, Bool.and_eq_true,
      decide_eq_true_eq] at h
    omega
  simp [CodePoint.toLower, this]

theorem parse_digits (hash : Hash) : parse hash.digits = .ok hash := by
  have same : hash.digits.map CodePoint.toLower = hash.digits := by
    conv => rhs; rw [← List.map_id hash.digits]
    exact List.map_congr_left fun c member =>
      toLower_of_isLowerHex (List.all_eq_true.1 hash.isLowerHex_digits c member)
  simp [parse, same, ofDigits?_digits]

end Hash
end PullNotices
