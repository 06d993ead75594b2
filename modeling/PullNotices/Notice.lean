import PullNotices.Forge.Basic
import PullNotices.Hash

/-!
What listeners are told: that something has happened to a pull request.
-/
namespace PullNotices

inductive Event
  | opened
  | issueAdded (id : Text)
  | issueRemoved (id : Text)
  | integrated (hash : Hash)
  deriving DecidableEq

structure Notice where
  pull : PullRequest
  event : Event
  deriving DecidableEq

end PullNotices
