import PullNotices.Forge.Basic
import PullNotices.Hash
import PullNotices.Log

/-!
Evidence of integration. A pull request counts as integrated once it carries the agreed label and
the integrator has announced the commit in a comment; of several announcements the first one in the
order of the comments counts, and in a comment the leftmost.
-/
namespace PullNotices

/-- Whose announcements are believed, and under which label. -/
structure Trust where
  integrator : Text
  label : Text
  deriving DecidableEq, Repr

def announcement : Text := "Pushed as commit "

namespace Evidence

/-- The hash of an announcement that the text begins with: its digits are in lower case, and a full
stop ends it. -/
def here? (t : Text) : Option Hash := do
  let rest ← Text.after? announcement t
  let hash ← Hash.ofDigits? (rest.take 40)
  let _ ← Text.after? "." (rest.drop 40)
  return hash

def find? : Text → Option Hash
  | [] => none
  | c :: t =>
    match here? (c :: t) with
    | some hash => some hash
    | none => find? t

end Evidence

namespace PullRequest

def integratedAs? (pull : PullRequest) (trust : Trust) : Option Hash :=
  if trust.label ∈ pull.labels then
    (pull.commentsBy trust.integrator).findSome? fun comment => Evidence.find? comment.body
  else none

def evidenceLog (pull : PullRequest) (trust : Trust) : List Log.Line :=
  if trust.label ∈ pull.labels ∧ pull.integratedAs? trust = none then
    [⟨.debug, pull.key ++ " is labeled " ++ Text.quoted trust.label ++
      " but has no pushed-as comment yet"⟩]
  else []

end PullRequest
end PullNotices
