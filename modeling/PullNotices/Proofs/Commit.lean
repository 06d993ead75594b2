import Mathlib.Logic.Function.Defs
import PullNotices.Commit

/-! Commits. The checks of a status and a hash pass whatever is built of a hash or of none, and no two
commits are shown alike. -/
namespace PullNotices.Commit

/-- With the status that goes with it a hash, or none, passes every check. -/
theorem build_ofHash? (hash? : Option Hash) :
    build (if hash?.isSome then .known else .unknown) hash? = .ok (ofHash? hash?) := by
  cases hash? <;> rfl

theorem digits_ne_bracketed (hash : Hash) (words : Text) : hash.digits ≠ "<" ++ words := by
  intro same
  have hex := hash.isLowerHex_digits
  rw [same] at hex
  simp [Text.ofString,(by decide : (CodePoint.ofChar '<').isLowerHex = false)] at hex

theorem display_injective : Function.Injective display := by
  intro a b same
  cases a with
  | unknown =>
    cases b with
    | unknown => rfl
    | placeholder => exact absurd same (by decide)
    | known hash _ => exact absurd same.symm (digits_ne_bracketed hash _)
  | placeholder =>
    cases b with
    | unknown => exact absurd same (by decide)
    | placeholder => rfl
    | known hash _ => exact absurd same.symm (digits_ne_bracketed hash _)
  | known hash _ =>
    cases b with
    | unknown => exact absurd same (digits_ne_bracketed hash _)
    | placeholder => exact absurd same (digits_ne_bracketed hash _)
    | known other _ =>
      have digits : hash.digits = other.digits := same
      cases hash
      cases other
      cases digits
      rfl

end PullNotices.Commit
