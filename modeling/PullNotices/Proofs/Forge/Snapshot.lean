import PullNotices.Forge.Snapshot
import PullNotices.Proofs.Commit
import PullNotices.Proofs.Forge.Evidence

/-! Snapshots under all checks. What a comment announces is a text until it is checked to be a hash, a
commit is checked to have a hash just if it is known, and an entry to have a key. `checkedSnapshot` makes
these checks in the order in which a snapshot meets them, and `checkedSnapshot_eq_ok` says that none of
them fails, whatever the pull request shows. -/
namespace PullNotices

namespace Evidence

def hexDigits? (t : Text) : Option Text :=
  if t.length = 40 ∧ ∀ c ∈ t, c ∈ Text.ofString "0123456789abcdef" then some t else none

/-- The digits of an announcement that the text begins with, as they are written. -/
def writtenHere? (t : Text) : Option Text := do
  let rest ← Text.after? announcement t
  let digits ← hexDigits? (rest.take 40)
  let _ ← Text.after? "." (rest.drop 40)
  return digits

def written? : Text → Option Text
  | [] => none
  | c :: t =>
    match writtenHere? (c :: t) with
    | some digits => some digits
    | none => written? t

theorem hexDigits?_eq (t : Text) : hexDigits? t = (Hash.ofDigits? t).map Hash.digits := by
  have hex : (∀ c ∈ t, c ∈ Text.ofString "0123456789abcdef") ↔ t.all CodePoint.isLowerHex = true := by
    rw [List.all_eq_true]
    exact forall₂_congr fun _ _ => ⟨CodePoint.isLowerHex_of_mem,CodePoint.mem_of_isLowerHex⟩
  unfold hexDigits? Hash.ofDigits?
  simp only [hex]
  split <;> rfl

theorem writtenHere?_eq (t : Text) : writtenHere? t = (here? t).map Hash.digits := by
  unfold writtenHere? here?
  cases Text.after? announcement t with
  | none => rfl
  | some rest =>
    change ((hexDigits? (rest.take 40)).bind _) = ((Hash.ofDigits? (rest.take 40)).bind _).map _
    rw [hexDigits?_eq]
    cases Hash.ofDigits? (rest.take 40) with
    | none => rfl
    | some hash =>
      change ((Text.after? "." (rest.drop 40)).bind _) = ((Text.after? "." (rest.drop 40)).bind _).map _
      cases Text.after? "." (rest.drop 40) <;> rfl

theorem written?_eq (t : Text) : written? t = (find? t).map Hash.digits := by
  induction t with
  | nil => rfl
  | cons c t ih =>
    rw [written?,find?,writtenHere?_eq,ih]
    cases here? (c :: t) <;> rfl

end Evidence

namespace PullRequest

/-- The hash of the announcement that counts, checked as it is found. -/
def checkedHash (pull : PullRequest) (trust : Trust) : Except Hash.Malformed (Option Hash) :=
  if trust.label ∈ pull.labels then
    match (pull.commentsBy trust.integrator).findSome? fun comment => Evidence.written? comment.body with
    | some digits => (Hash.parse digits).map some
    | none => .ok none
  else .ok none

inductive SnapshotError
  | hash (e : Hash.Malformed)
  | commit (e : Commit.BuildError)
  | key (e : Entry.EmptyKey)

def checkedSnapshot (pull : PullRequest) (trust : Trust) : Except SnapshotError Entry := do
  let hash? ← (pull.checkedHash trust).mapError .hash
  let commit ← (Commit.build (if hash?.isSome then .known else .unknown) hash?).mapError .commit
  (Entry.build pull.key (Issue.referenced pull.body) commit).mapError .key

variable (pull : PullRequest) (trust : Trust)

theorem checkedHash_eq_ok : pull.checkedHash trust = .ok (pull.integratedAs? trust) := by
  unfold checkedHash integratedAs?
  split
  · have same : ((pull.commentsBy trust.integrator).findSome? fun comment => Evidence.written? comment.body) =
        ((pull.commentsBy trust.integrator).findSome? fun comment => Evidence.find? comment.body).map Hash.digits := by
      rw [List.map_findSome?]
      exact congrArg (fun f => (pull.commentsBy trust.integrator).findSome? f)
        (funext fun comment => Evidence.written?_eq comment.body)
    rw [same]
    cases (pull.commentsBy trust.integrator).findSome? fun comment => Evidence.find? comment.body with
    | none => rfl
    | some hash =>
      dsimp only [Option.map_some]
      rw [Hash.parse_digits]
      rfl
  · rfl

/-- No check on the way to a snapshot fails. -/
theorem checkedSnapshot_eq_ok : pull.checkedSnapshot trust = .ok (pull.snapshot trust) := by
  have keyed : Entry.build pull.key (Issue.referenced pull.body) (.ofHash? (pull.integratedAs? trust)) =
      .ok (pull.snapshot trust) := dif_neg pull.key_ne_nil
  unfold checkedSnapshot
  rw [checkedHash_eq_ok]
  change ((Commit.build _ (pull.integratedAs? trust)).mapError SnapshotError.commit).bind _ = _
  rw [Commit.build_ofHash?]
  change (Entry.build _ _ (Commit.ofHash? (pull.integratedAs? trust))).mapError SnapshotError.key = _
  rw [keyed]
  rfl

end PullRequest
end PullNotices
