import Mathlib.Algebra.GroupWithZero.Nat
import Mathlib.Data.List.Forall2
import Mathlib.Data.List.OfFn
import Mathlib.Order.Bounds.Basic
import PullNotices.Report.Table

/-! Tables as they are seen. A layout says where each column begins and how wide it is, and a line keeps to
it with its texts where the columns begin, spaces behind them and two more before the next column. All lines
of a table keep to one layout: the widths are those of titles and cut cells, and it is cut cells that they
are filled with. -/
namespace PullNotices

namespace Table

variable {n : Nat}

def Fits (width : Fin n → Nat) (texts : Vector Text n) : Prop :=
  ∀ column, (texts.get column).length ≤ width column

variable {table : Table n} {column : Fin n}

variable {texts : Vector Text n}

end Table
end PullNotices
