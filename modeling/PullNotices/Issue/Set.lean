import PullNotices.Text.Set

/-!
Sets of issue ids, and how a set is shown in one cell of a table.
-/
namespace PullNotices

abbrev IssueSet := TextSet

def TextSet.display (s : IssueSet) : Text := Text.join "," s.members

end PullNotices
