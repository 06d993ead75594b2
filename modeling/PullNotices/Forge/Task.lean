import PullNotices.Forge.Basic

/-!
Tasks of a scheduler. Two passes over one pull request exclude each other, and everything else may
overlap with a pass.
-/
namespace PullNotices

inductive Task
  | pass (pull : PullRequest)
  | other
  deriving DecidableEq

namespace PullRequest

/-- Whether passes over the two may run at the same time. -/
def mayOverlap (a b : PullRequest) : Bool := a.id ≠ b.id || a.repository.name ≠ b.repository.name

def passName (pull : PullRequest) : Text :=
  "Notify.PR@" ++ pull.repository.name ++ "#" ++ pull.id

def passDisplay (pull : PullRequest) : Text := "<PullRequestWorkItem " ++ pull.passName ++ ">"

end PullRequest

namespace Task

def mayOverlap (pull : PullRequest) : Task → Bool
  | .pass second => pull.mayOverlap second
  | .other => true

end Task
end PullNotices
