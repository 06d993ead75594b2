import PullNotices.Text.Basic

/-!
Tables of text. A cell has at most sixty code points: a longer value is cut and ends in three dots.
A column is as wide as its title and its widest cell, two spaces stand between columns, and a rule
below the titles is as long as they are.
-/
namespace PullNotices

structure Table (n : Nat) where
  titles : Vector Text n
  rows : List (Vector Text n)

namespace Table

def cellLimit : Nat := 60

def ellipsis : Text := "..."

def cell (value : Text) : Text :=
  if value.length ≤ cellLimit then value
  else value.take (cellLimit - ellipsis.length) ++ ellipsis

def pad (width : Nat) (t : Text) : Text :=
  t ++ (List.replicate (width - t.length) ' ' : Text)

variable {n : Nat}

def width (table : Table n) (column : Fin n) : Nat :=
  (table.rows.map fun row => (cell row[column]).length).foldl max table.titles[column].length

def line (table : Table n) (texts : Vector Text n) : Text :=
  Text.join "  " (List.ofFn fun column => pad (table.width column) texts[column])

def header (table : Table n) : Text := table.line table.titles

def rule (table : Table n) : Text := List.replicate table.header.length '─'

def lines (table : Table n) : List Text :=
  table.header :: table.rule :: table.rows.map fun row => table.line (row.map cell)

example : (⟨#v["PR", "Commit"], [#v["jdk#1", "x"]]⟩ : Table 2).lines =
    (["PR     Commit", "─────────────", "jdk#1  x     "] : List Text) := by decide +kernel

end Table
end PullNotices
