import PullNotices.Issue.Reference
import PullNotices.Proofs.Commit
import PullNotices.Proofs.History.Difference
import PullNotices.Proofs.Text.Lines

/-! What can be seen of a difference. The values of a row are texts, and a set of issues is shown with commas
between its ids, whatever these hold. So two sets look alike just if their ids, cut at commas, are the same
texts; all other rows show two values that differ. -/
namespace PullNotices

namespace Text

theorem split_injective (separator : CodePoint) : Function.Injective (split separator) := by
  intro t other same
  rw [← join_split separator t,same,join_split]

theorem split_join_flatMap {separator : CodePoint} {ts : List Text} (nonempty : ts ≠ []) :
    split separator (join [separator] ts) = ts.flatMap (split separator) := by
  induction ts with
  | nil => exact absurd rfl nonempty
  | cons t ts ih =>
    cases ts with
    | nil => simp [join]
    | cons second ts =>
      have joined : join [separator] (t :: second :: ts) = t ++ separator :: join [separator] (second :: ts) := by
        simp [join]
      rw [joined,split_append_cons,ih (List.cons_ne_nil _ _)]
      exact List.flatMap_cons.symm

end Text

namespace TextSet

variable {s other : TextSet}

def comma : CodePoint := ','

/-- What is seen of the ids of a set, cut at their commas; of no id as much as of one without a character. -/
def pieces (s : TextSet) : List Text := (if s.members = [] then [[]] else s.members).flatMap (Text.split comma)

theorem split_display (s : TextSet) : Text.split comma s.display = s.pieces := by
  unfold pieces
  split
  · rename_i none
    rw [display,none]
    rfl
  · rename_i some
    exact Text.split_join_flatMap some

theorem display_eq_iff : s.display = other.display ↔ s.pieces = other.pieces := by
  rw [← split_display,← split_display,(Text.split_injective comma).eq_iff]

/-- An id that cutting leaves whole is told from all others. -/
def IsPlain (s : TextSet) : Prop := ∀ id ∈ s, id ≠ [] ∧ comma ∉ id

theorem IsPlain.pieces (plain : s.IsPlain) : s.pieces = if s.members = [] then [[]] else s.members := by
  unfold TextSet.pieces
  split
  · rfl
  · have whole : ∀ id ∈ s.members, Text.split comma id = [id] := fun id member =>
      Text.split_of_not_mem (plain id member).2
    rw [List.flatMap_congr whole,List.flatMap_singleton']

theorem IsPlain.display_inj (left : s.IsPlain) (right : other.IsPlain) : s.display = other.display ↔ s = other := by
  refine ⟨fun same => eq_of_members ?_,fun same => same ▸ rfl⟩
  rw [display_eq_iff,left.pieces,right.pieces] at same
  split at same
  · rename_i none
    split at same
    · rename_i none'
      rw [none,none']
    · have member : [] ∈ other.members := same ▸ List.mem_singleton_self []
      exact absurd rfl (right [] member).1
  · split at same
    · have member : [] ∈ s.members := same ▸ List.mem_singleton_self []
      exact absurd rfl (left [] member).1
    · exact same

end TextSet

namespace History

variable {h other : History} {row : Difference.Row}

theorem eq_of_key {a b : Entry} (left : a ∈ h) (right : b ∈ h) (same : a.key = b.key) : a = b := by
  have found := find?_eq_some.mpr ⟨left,rfl⟩
  rw [same,find?_eq_some.mpr ⟨right,rfl⟩] at found
  exact (Option.some.inj found).symm

/-- Only a row about issues can show one text twice. -/
theorem unseen_iff (member : row ∈ (differences h other).map Difference.row) : row.old = row.new ↔
    row.field = "issues" ∧ ∃ a b, a ∈ h ∧ b ∈ other ∧ a.key = row.key ∧ b.key = row.key ∧
      a.issues.pieces = b.issues.pieces := by
  have apart : Text.ofString "present" ≠ "<missing>" := by decide
  cases row_mem_differences_iff.mp member with
  | added =>
    exact iff_of_false apart.symm fun unseen => absurd unseen.1 (by decide : Text.ofString "pr" ≠ "issues")
  | removed =>
    exact iff_of_false apart fun unseen => absurd unseen.1 (by decide : Text.ofString "pr" ≠ "issues")
  | commit left right same differ =>
    exact iff_of_false (Commit.display_injective.ne differ) fun unseen =>
      absurd unseen.1 (by decide : Text.ofString "commit" ≠ "issues")
  | @issues a b left right same differ =>
    constructor
    · intro alike
      exact ⟨rfl,a,b,left,right,rfl,same.symm,TextSet.display_eq_iff.mp alike⟩
    · rintro ⟨_,a',b',left',right',key,key',alike⟩
      cases eq_of_key left' left key
      cases eq_of_key right' right (key'.trans same)
      exact TextSet.display_eq_iff.mpr alike

/-- Where no id is empty or holds a comma, every row shows two values that differ. -/
theorem seen_of_plain (left : ∀ e ∈ h, e.issues.IsPlain) (right : ∀ e ∈ other, e.issues.IsPlain)
    (member : row ∈ (differences h other).map Difference.row) : row.old ≠ row.new := by
  intro alike
  cases row_mem_differences_iff.mp member with
  | added => exact absurd alike (by decide : Text.ofString "<missing>" ≠ "present")
  | removed => exact absurd alike (by decide : Text.ofString "present" ≠ "<missing>")
  | commit _ _ _ differ => exact differ (Commit.display_injective alike)
  | issues here there _ differ => exact differ (((left _ here).display_inj (right _ there)).mp alike)

/-- A row shows two values that differ unless it is about two sets of issues whose ids, cut at commas, are the
same texts. Ids that are not empty and hold no comma never do that. -/
theorem rows_seen (old new : List Entry) :
    (∀ row ∈ rows old new, (row.old = row.new ↔ row.field = "issues" ∧ ∃ a b : Entry, a.LastIn old ∧ b.LastIn new ∧
      a.key = row.key ∧ b.key = row.key ∧ a.issues.pieces = b.issues.pieces)) ∧
    ((∀ e ∈ old ++ new, ∀ id ∈ e.issues, id ≠ [] ∧ TextSet.comma ∉ id) → ∀ row ∈ rows old new, row.old ≠ row.new) := by
  constructor
  · intro row member
    have unseen := unseen_iff member
    simp only [mem_ofEntries] at unseen
    exact unseen
  · intro plain row member
    refine seen_of_plain ?_ ?_ member
    · intro e inside
      exact plain e (List.mem_append_left _ (mem_ofEntries.mp inside).mem)
    · intro e inside
      exact plain e (List.mem_append_right _ (mem_ofEntries.mp inside).mem)

def beforeCommits : List Entry := [mergedEntry ["A"] .placeholder]

theorem rows_seen_plain :
    rows beforeCommits later = [⟨"jdk#1","issues","A","A,B"⟩,⟨"jdk#1","commit","<placeholder>","<unknown>"⟩] ∧
    ∀ row ∈ rows beforeCommits later, row.old ≠ row.new := by
  have plain : ∀ e ∈ beforeCommits ++ later, ∀ id ∈ e.issues.members, id ≠ [] ∧ TextSet.comma ∉ id := by decide +kernel
  exact ⟨by decide +kernel,(rows_seen beforeCommits later).2 plain⟩

/-- One issue whose id holds a comma looks like two, and both are ids that a description can refer to. -/
theorem rows_unseen_comma :
    Issue.referenced "\n\n## Issue\n[A,B](u): d" = .ofList ["A,B"] ∧
    Issue.referenced "\n\n## Issues\n[A](u): d\n[B](u): d" = .ofList ["A","B"] ∧
    rows [mergedEntry ["A,B"] .unknown] later = [⟨"jdk#1","issues","A,B","A,B"⟩] ∧
    ¬ ∀ old new, ∀ row ∈ rows old new, row.old ≠ row.new := by
  have alike : rows [mergedEntry ["A,B"] .unknown] later = [⟨"jdk#1","issues","A,B","A,B"⟩] := by decide +kernel
  refine ⟨by decide +kernel,by decide +kernel,alike,fun always => ?_⟩
  exact always _ _ _ (alike ▸ List.mem_singleton_self _) rfl

end History
end PullNotices
