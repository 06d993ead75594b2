import PullNotices.History.Basic

/-!
Differences between two histories, key by key: an entry that only one side has, issues that differ,
a commit that differs. `swap` turns the differences of a pair into those of the reversed pair.
-/
namespace PullNotices.History

inductive Difference
  | added (key : Text)
  | removed (key : Text)
  | issues (key : Text) (old new : IssueSet)
  | commit (key : Text) (old new : Commit)
  deriving DecidableEq

/-- A difference as it is shown: key, field, old value, new value. -/
structure Difference.Row where
  key : Text
  field : Text
  old : Text
  new : Text
  deriving DecidableEq, Repr

def Difference.missing : Text := "<missing>"

def Difference.present : Text := "present"

def Difference.row : Difference → Row
  | .added key => ⟨key, "pr", missing, present⟩
  | .removed key => ⟨key, "pr", present, missing⟩
  | .issues key old new => ⟨key, "issues", old.display, new.display⟩
  | .commit key old new => ⟨key, "commit", old.display, new.display⟩

def Difference.swap : Difference → Difference
  | .added key => .removed key
  | .removed key => .added key
  | .issues key old new => .issues key new old
  | .commit key old new => .commit key new old

def keys (old new : History) : List Text :=
  Ascending.putAll (fun key => key) (new.entries.map Entry.key) (old.entries.map Entry.key)

def differencesAt (old new : History) (key : Text) : List Difference :=
  match old.find? key, new.find? key with
  | none, none => []
  | none, some _ => [.added key]
  | some _, none => [.removed key]
  | some a, some b =>
    (if a.issues = b.issues then [] else [.issues key a.issues b.issues]) ++
      (if a.commit = b.commit then [] else [.commit key a.commit b.commit])

def differences (old new : History) : List Difference :=
  (keys old new).flatMap (differencesAt old new)

end PullNotices.History
