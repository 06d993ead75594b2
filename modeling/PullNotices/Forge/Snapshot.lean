import PullNotices.Forge.Evidence
import PullNotices.History.Entry
import PullNotices.Issue.Reference

/-!
Snapshots: the entry that a pull request would have if listeners knew all that it shows now. Every
pull request has one, whatever its description and comments say.
-/
namespace PullNotices.PullRequest

def snapshot (pull : PullRequest) (trust : Trust) : Entry where
  key := pull.key
  issues := Issue.referenced pull.body
  commit := .ofHash? (pull.integratedAs? trust)
  key_ne_nil := pull.key_ne_nil

end PullNotices.PullRequest
