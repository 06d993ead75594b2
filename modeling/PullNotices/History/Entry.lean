import PullNotices.Commit
import PullNotices.Issue.Set

/-!
History entries: what listeners have been told about one pull request. An entry has a key that is
not empty, the issues that were announced, and the commit so far as it is recorded.
-/
namespace PullNotices

/-- What listeners have been told about a pull request. -/
structure Entry where
  key : Text
  issues : IssueSet
  commit : Commit
  key_ne_nil : key ≠ []
  deriving DecidableEq

namespace Entry

structure EmptyKey where
  deriving DecidableEq, Repr

def EmptyKey.message : Text := "pr_id must be non-empty"

def build (key : Text) (issues : IssueSet) (commit : Commit) : Except EmptyKey Entry :=
  if h : key = [] then .error {} else .ok ⟨key, issues, commit, h⟩

def withCommit (e : Entry) (commit : Commit) : Entry := { e with commit }

end Entry
end PullNotices
