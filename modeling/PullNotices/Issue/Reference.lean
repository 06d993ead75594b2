import PullNotices.Issue.Set
import PullNotices.Issue.Section
import PullNotices.Text.Blank

/-!
Issue references. A line refers to an issue when it reads `[id](link): description`, with a bullet
or without; the id holds no blank and is the longest one that leaves such a line.
-/
namespace PullNotices.Issue

namespace Reference

/-- Whether the text reads on as the rest of a reference behind its id. -/
def closes (t : Text) : Bool :=
  match Text.after? "](" t with
  | some target => Text.holds "): " target
  | none => false

/-- The longest id that the text begins with and a reference can go on behind. -/
def longestId? : Text → Option Text
  | [] => none
  | c :: t =>
    if c.isBlank then none
    else match longestId? t with
      | some id => some (c :: id)
      | none => if closes t then some [c] else none

def ofLine? (line : Text) : Option Text :=
  (Text.after? "[" ((Text.after? Section.bullet line).getD line)).bind longestId?

/-- The ids that the lines of a text refer to; other lines are skipped. -/
def ofLines (t : Text) : IssueSet := .ofList ((Text.lines t).filterMap ofLine?)

example : ofLine? " * [A](b)1](http://x): text" = some "A](b)1" := by decide

end Reference

/-- The issues that a description refers to, all of them in its issues section. -/
def referenced (description : Text) : IssueSet :=
  match Section.find? description with
  | some links => Reference.ofLines links
  | none => .empty

end PullNotices.Issue
