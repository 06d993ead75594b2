import PullNotices.History.Difference
import PullNotices.Report.Table
import PullNotices.Text.Lines

/-!
What is printed of a history, and of the differences between two: a table with its size below it, or
one sentence where there is nothing to show.
-/
namespace PullNotices.Report

def printed (lines : List Text) : Text := lines.flatMap fun line => line ++ [Text.lineFeed]

def counted {n : Nat} (table : Table n) (things : Text) : Text :=
  let total : Text := Text.ofNat table.rows.length ++ " " ++ things
  printed (table.lines ++ [[], total])

def historyTable (h : History) : Table 3 where
  titles := #v["PR", "Issues", "Commit"]
  rows := h.entries.map fun e => #v[e.key, e.issues.display, e.commit.display]

def ofHistory (h : History) : Text :=
  if h.entries = [] then printed ["History is empty."]
  else counted (historyTable h) "pull request(s)."

def differenceTable (ds : List History.Difference) : Table 4 where
  titles := #v["PR", "Field", "Old", "New"]
  rows := ds.map fun d => #v[d.row.key, d.row.field, d.row.old, d.row.new]

def ofDifferences (ds : List History.Difference) : Text :=
  if ds = [] then printed ["No differences found."]
  else counted (differenceTable ds) "difference(s) found."

end PullNotices.Report
