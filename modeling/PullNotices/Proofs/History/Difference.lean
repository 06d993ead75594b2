import PullNotices.Proofs.History.Merge
import PullNotices.Report.Viewer

/-! Differences, told without the comparison: what is to be reported of two sides follows from the entries
that count on each. The rows of a comparison are these and no others, in the one order they can stand in,
so there is none just if both sides are the same, and the rows of the reversed comparison are the same rows
with their values exchanged. -/
namespace PullNotices
namespace History

variable {old new : History} {key : Text}

theorem mem_keys : key ∈ keys old new ↔ (∃ e ∈ new, e.key = key) ∨ ∃ e ∈ old, e.key = key := by
  unfold keys
  rw [TextSet.mem_putAll,List.mem_map,List.mem_map]
  rfl

theorem keys_ascending (old new : History) : Ascending (fun key => key) (keys old new) :=
  Ascending.putAll_ascending (List.pairwise_map.mpr old.ascending)

theorem keys_swap (old new : History) : keys new old = keys old new := by
  apply Ascending.eq_of_mem_iff (keys_ascending new old) (keys_ascending old new)
  intro key
  rw [mem_keys,mem_keys]
  exact or_comm

theorem find?_eq_none_iff {h : History} : h.find? key = none ↔ ∀ e ∈ h, e.key ≠ key := by
  constructor
  · rintro missing e member rfl
    rw [find?_eq_some.mpr ⟨member,rfl⟩] at missing
    cases missing
  · intro others
    cases found : h.find? key with
    | none => rfl
    | some e =>
      obtain ⟨member,same⟩ := find?_eq_some.mp found
      exact absurd same (others e member)

theorem key_of_mem_differencesAt {d : Difference} (member : d ∈ differencesAt old new key) : d.row.key = key := by
  unfold differencesAt at member
  split at member
  · cases member
  · cases List.mem_singleton.mp member
    rfl
  · cases List.mem_singleton.mp member
    rfl
  · rcases List.mem_append.mp member with early | late
    · split at early
      · cases early
      · cases List.mem_singleton.mp early
        rfl
    · split at late
      · cases late
      · cases List.mem_singleton.mp late
        rfl

theorem differencesAt_swap (old new : History) (key : Text) :
    differencesAt new old key = (differencesAt old new key).map Difference.swap := by
  unfold differencesAt
  cases old.find? key with
  | none => cases new.find? key <;> rfl
  | some a =>
    cases new.find? key with
    | none => rfl
    | some b =>
      dsimp only
      rw [List.map_append]
      congr 1
      · by_cases same : a.issues = b.issues
        · rw [if_pos same,if_pos same.symm]
          rfl
        · rw [if_neg same,if_neg (Ne.symm same)]
          rfl
      · by_cases same : a.commit = b.commit
        · rw [if_pos same,if_pos same.symm]
          rfl
        · rw [if_neg same,if_neg (Ne.symm same)]
          rfl

theorem differencesAt_eq_nil_iff : differencesAt old new key = [] ↔ old.find? key = new.find? key := by
  unfold differencesAt
  cases left : old.find? key with
  | none => cases new.find? key <;> simp
  | some a =>
    cases right : new.find? key with
    | none => simp
    | some b =>
      have key : a.key = b.key := (key_of_find? left).trans (key_of_find? right).symm
      simp only [List.append_eq_nil_iff,ite_eq_left_iff,List.cons_ne_nil,imp_false,not_not,Option.some.injEq]
      constructor
      · rintro ⟨issues,commit⟩
        exact Entry.eq_of_fields key issues commit
      · rintro rfl
        exact ⟨rfl,rfl⟩

theorem find?_eq_of_not_mem_keys (absent : key ∉ keys old new) : old.find? key = new.find? key := by
  rw [mem_keys,not_or] at absent
  push Not at absent
  rw [find?_eq_none_iff.mpr absent.1,find?_eq_none_iff.mpr absent.2]

/-- What differs under a key that neither side has is nothing. -/
theorem mem_differences_iff {d : Difference} :
    d ∈ differences old new ↔ d ∈ differencesAt old new d.row.key := by
  unfold differences
  rw [List.mem_flatMap]
  constructor
  · rintro ⟨key,_,member⟩
    rw [key_of_mem_differencesAt member]
    exact member
  · intro member
    refine ⟨d.row.key,?_,member⟩
    by_contra absent
    rw [differencesAt_eq_nil_iff.mpr (find?_eq_of_not_mem_keys absent)] at member
    cases member

theorem differences_eq_nil_iff : differences old new = [] ↔ old = new := by
  unfold differences
  rw [List.flatMap_eq_nil_iff]
  simp only [differencesAt_eq_nil_iff]
  constructor
  · intro same
    apply eq_of_find?
    intro key
    by_cases inside : key ∈ keys old new
    · exact same key inside
    · exact find?_eq_of_not_mem_keys inside
  · rintro rfl key _
    rfl

theorem differences_swap (old new : History) :
    differences new old = (differences old new).map Difference.swap := by
  unfold differences
  rw [keys_swap,List.map_flatMap]
  exact List.flatMap_congr fun key _ => differencesAt_swap old new key

namespace Difference

namespace Row

def swap (row : Row) : Row := { row with old := row.new, new := row.old }

/-- Rows stand in the order of their keys, and of two rows with one key the first is about the issues and
the second about the commit. -/
def Before (row other : Row) : Prop :=
  row.key < other.key ∨ row.key = other.key ∧ row.field = "issues" ∧ other.field = "commit"

/-- The row is to be reported of two sides on which these entries count. -/
inductive Reported (before after : Entry → Prop) : Row → Prop
  | added {e : Entry} (here : after e) (others : ∀ other, before other → other.key ≠ e.key) :
      Reported before after ⟨e.key,"pr","<missing>","present"⟩
  | removed {e : Entry} (here : before e) (others : ∀ other, after other → other.key ≠ e.key) :
      Reported before after ⟨e.key,"pr","present","<missing>"⟩
  | issues {a b : Entry} (left : before a) (right : after b) (same : a.key = b.key) (differ : a.issues ≠ b.issues) :
      Reported before after ⟨a.key,"issues",a.issues.display,b.issues.display⟩
  | commit {a b : Entry} (left : before a) (right : after b) (same : a.key = b.key) (differ : a.commit ≠ b.commit) :
      Reported before after ⟨a.key,"commit",a.commit.display,b.commit.display⟩

end Row

theorem row_swap (d : Difference) : d.swap.row = d.row.swap := by cases d <;> rfl

end Difference

theorem differencesAt_before (old new : History) (key : Text) :
    (differencesAt old new key).Pairwise fun d other => d.row.Before other.row := by
  unfold differencesAt
  split
  · exact .nil
  · exact List.pairwise_singleton ..
  · exact List.pairwise_singleton ..
  · split_ifs
    · exact .nil
    · exact List.pairwise_singleton ..
    · exact List.pairwise_singleton ..
    · exact List.pairwise_pair.mpr (.inr ⟨rfl,rfl,rfl⟩)

/-- No row stands twice, and none can stand elsewhere. -/
theorem differences_before (old new : History) :
    (differences old new).Pairwise fun d other => d.row.Before other.row := by
  unfold differences
  rw [List.pairwise_flatMap]
  refine ⟨fun key _ => differencesAt_before old new key,(keys_ascending old new).imp ?_⟩
  intro key other before d here e there
  left
  rw [key_of_mem_differencesAt here,key_of_mem_differencesAt there]
  exact before

theorem row_mem_differences_iff {row : Difference.Row} : row ∈ (differences old new).map Difference.row ↔
    row.Reported (· ∈ old) (· ∈ new) := by
  rw [List.mem_map]
  constructor
  · rintro ⟨d,member,rfl⟩
    have here := mem_differences_iff.mp member
    generalize d.row.key = key at here
    unfold differencesAt at here
    split at here
    · cases here
    · rename_i e missing found
      cases List.mem_singleton.mp here
      obtain ⟨inside,rfl⟩ := find?_eq_some.mp found
      exact .added inside (find?_eq_none_iff.mp missing)
    · rename_i e found missing
      cases List.mem_singleton.mp here
      obtain ⟨inside,rfl⟩ := find?_eq_some.mp found
      exact .removed inside (find?_eq_none_iff.mp missing)
    · rename_i a b found other
      obtain ⟨left,rfl⟩ := find?_eq_some.mp found
      obtain ⟨right,same⟩ := find?_eq_some.mp other
      rcases List.mem_append.mp here with early | late
      · split at early
        · cases early
        · rename_i differ
          cases List.mem_singleton.mp early
          exact .issues left right same.symm differ
      · split at late
        · cases late
        · rename_i differ
          cases List.mem_singleton.mp late
          exact .commit left right same.symm differ
  · intro reported
    cases reported with
    | @added e here others =>
      refine ⟨.added e.key,mem_differences_iff.mpr ?_,rfl⟩
      change _ ∈ differencesAt old new e.key
      rw [differencesAt,find?_eq_none_iff.mpr others,find?_eq_some.mpr ⟨here,rfl⟩]
      exact List.mem_singleton_self _
    | @removed e here others =>
      refine ⟨.removed e.key,mem_differences_iff.mpr ?_,rfl⟩
      change _ ∈ differencesAt old new e.key
      rw [differencesAt,find?_eq_none_iff.mpr others,find?_eq_some.mpr ⟨here,rfl⟩]
      exact List.mem_singleton_self _
    | @issues a b left right same differ =>
      refine ⟨.issues a.key a.issues b.issues,mem_differences_iff.mpr ?_,rfl⟩
      change _ ∈ differencesAt old new a.key
      rw [differencesAt,find?_eq_some.mpr ⟨left,rfl⟩,find?_eq_some.mpr ⟨right,same.symm⟩]
      dsimp only
      rw [if_neg differ]
      exact List.mem_append_left _ (List.mem_singleton_self _)
    | @commit a b left right same differ =>
      refine ⟨.commit a.key a.commit b.commit,mem_differences_iff.mpr ?_,rfl⟩
      change _ ∈ differencesAt old new a.key
      rw [differencesAt,find?_eq_some.mpr ⟨left,rfl⟩,find?_eq_some.mpr ⟨right,same.symm⟩]
      dsimp only
      rw [if_neg differ]
      exact List.mem_append_right _ (List.mem_singleton_self _)

end History

namespace Report

variable {read : Path → Except FileFault (List UInt8)} {path other : Path} {before after : History.Decoded}

theorem ofDifferences_eq_iff {ds : List History.Difference} :
    ofDifferences ds = printed ["No differences found."] ↔ ds = [] := by
  unfold ofDifferences
  split
  · rename_i none
    exact iff_of_true rfl none
  · rename_i differ
    refine iff_of_false ?_ differ
    -- a table begins with the title of its first column
    intro same
    have first : (counted (differenceTable ds) "difference(s) found.").head? = (printed ["No differences found."]).head? :=
      congrArg List.head? same
    have table : (counted (differenceTable ds) "difference(s) found.").head? = some (CodePoint.ofChar 'P') := rfl
    rw [table] at first
    exact absurd first (by decide)

theorem printed_append (lines more : List Text) : printed (lines ++ more) = printed lines ++ printed more :=
  List.flatMap_append

theorem text_compareHistories (left : load (read path) = .ok before) (right : load (read other) = .ok after) :
    (compareHistories read path other).text = printed ["Old: " ++ path.display,"New: " ++ other.display,[]] ++
      ofDifferences (History.differences before.history after.history) := by
  unfold compareHistories withHistory
  rw [left,right]
  rfl

end Report

namespace History

/-- The rows of two lists of entries, in each of which the last entry under a key counts. -/
def rows (old new : List Entry) : List Difference.Row :=
  (differences (ofEntries old) (ofEntries new)).map Difference.row

/-- A comparison reports what differs and nothing else, in the one order it can stand in. So it has no rows
just if on both sides the same entries count, which is when the viewer finds no differences; and from the
other side it has the same rows with their values exchanged. -/
theorem rows_exact (old new : List Entry) :
    (rows old new).Pairwise Difference.Row.Before ∧
    (∀ row, row ∈ rows old new ↔ row.Reported (Entry.LastIn · old) (Entry.LastIn · new)) ∧
    (rows old new = [] ↔ ∀ e : Entry, e.LastIn old ↔ e.LastIn new) ∧
    (∀ read path other m n, Report.load (read path) = .ok ⟨ofEntries old,m⟩ →
      Report.load (read other) = .ok ⟨ofEntries new,n⟩ →
      ((Report.compareHistories read path other).text =
        Report.printed ["Old: " ++ path.display,"New: " ++ other.display,[],"No differences found."] ↔
          rows old new = [])) ∧
    rows new old = (rows old new).map Difference.Row.swap := by
  refine ⟨List.pairwise_map.mpr (differences_before _ _),?_,?_,?_,?_⟩
  · intro row
    have same := @row_mem_differences_iff (ofEntries old) (ofEntries new) row
    simp only [mem_ofEntries] at same
    exact same
  · unfold rows
    rw [List.map_eq_nil_iff,differences_eq_nil_iff]
    constructor
    · intro same e
      rw [← mem_ofEntries,same,mem_ofEntries]
    · intro same
      apply eq_of_mem_iff
      intro e
      rw [mem_ofEntries,same,mem_ofEntries]
  · intro read path other m n left right
    have whole := Report.printed_append ["Old: " ++ path.display,"New: " ++ other.display,[]] ["No differences found."]
    rw [List.cons_append,List.cons_append,List.cons_append,List.nil_append] at whole
    rw [Report.text_compareHistories left right,whole,List.append_right_inj,Report.ofDifferences_eq_iff]
    exact List.map_eq_nil_iff.symm
  · unfold rows
    rw [differences_swap,List.map_map,List.map_map]
    exact List.map_congr_left fun d _ => d.row_swap

/-- The second of two records under one key is what the other file holds. -/
def earlier : List Entry := [mergedEntry ["A"] .placeholder,mergedEntry ["B","A"] .unknown]

def later : List Entry := [mergedEntry ["A","B"] .unknown]

def viewed (path : Path) : Except FileFault (List UInt8) :=
  let es := if path.display = "old" then earlier else later
  .ok (Utf8.encode ("[" ++ Text.join "," (es.map fun e => (Record.ofEntry e).line) ++ "]"))

theorem rows_exact_repeated : rows earlier later = [] ∧
    (Report.compareHistories viewed (.ofText "old") (.ofText "new")).text =
      Report.printed ["Old: old","New: new",[],"No differences found."] := by
  have left : Report.load (viewed (.ofText "old")) = .ok ⟨ofEntries earlier,1⟩ := by decide +kernel
  have right : Report.load (viewed (.ofText "new")) = .ok ⟨ofEntries later,0⟩ := by decide +kernel
  have none : rows earlier later = [] := by decide +kernel
  exact ⟨none,((rows_exact earlier later).2.2.2.1 _ _ _ _ _ left right).mpr none⟩

end History
end PullNotices
