import PullNotices.Text.Lines

/-!
The issues section of a description: an empty line, one of four headings, and the lines directly
below it that look like links. A heading without such a line is passed over.
-/
namespace PullNotices.Issue.Section

def headings : List Text := ["## Issue", "## Issues", "### Issue", "### Issues"]

def bullet : Text := " * "

def isLinkLine (line : Text) : Bool :=
  (Text.after? "[" line).isSome || (Text.after? (bullet ++ "[") line).isSome

/-- The lines behind an empty line and a heading that the text begins with. -/
def body? (t : Text) : Option (List Text) :=
  headings.findSome? fun heading => (Text.after? ("\n\n" ++ heading ++ "\n") t).map Text.lines

/-- The link lines of a section that the text begins with, each behind its line feed. -/
def here? (t : Text) : Option Text :=
  match body? t with
  | none => none
  | some lines =>
    match lines.takeWhile isLinkLine with
    | [] => none
    | links => some (links.flatMap (Text.lineFeed :: ·))

def find? : Text → Option Text
  | [] => none
  | c :: t =>
    match here? (c :: t) with
    | some links => some links
    | none => find? t

example : find? "Fix\n\n### Issues\n\n## Issue\n * [A](u): one\n[B\nend" =
    some "\n * [A](u): one\n[B" := by decide

end PullNotices.Issue.Section
