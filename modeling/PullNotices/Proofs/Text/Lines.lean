import Mathlib.Data.List.Basic
import PullNotices.Proofs.Text.Pairs

/-! The lines of a text. A line lies between two line feeds, or the ends of the text, and holds none; lines
that are put one behind the other, each behind a line feed, are the lines of what they make. -/
namespace PullNotices.Text

variable {separator : CodePoint}

theorem not_mem_of_mem_split {t piece : Text} (member : piece ∈ split separator t) : separator ∉ piece := by
  induction t generalizing piece with
  | nil =>
    rw [List.mem_singleton.mp member]
    exact List.not_mem_nil
  | cons c t ih =>
    unfold split at member
    split at member
    · rcases List.mem_cons.mp member with rfl | later
      · exact List.not_mem_nil
      · exact ih later
    · rename_i other
      split at member
      · rw [List.mem_singleton.mp member]
        exact List.not_mem_cons_of_ne_of_not_mem (Ne.symm other) List.not_mem_nil
      · rename_i first rest found
        rcases List.mem_cons.mp member with rfl | later
        · exact List.not_mem_cons_of_ne_of_not_mem (Ne.symm other) (ih (by simp [found]))
        · exact ih (by simp [found,later])

theorem split_append_cons (t rest : Text) :
    split separator (t ++ separator :: rest) = split separator t ++ split separator rest := by
  induction t with
  | nil => simp [split]
  | cons c t ih =>
    rw [List.cons_append,split,ih]
    conv => rhs; rw [split]
    split
    · rfl
    · cases pieces : split separator t with
      | nil => exact absurd pieces (split_ne_nil _ _)
      | cons first more => rfl

theorem join_cons (t : Text) (ts : List Text) :
    join [separator] (t :: ts) = t ++ ts.flatMap (separator :: ·) := by
  induction ts generalizing t with
  | nil => simp [join]
  | cons second ts ih =>
    rw [List.flatMap_cons]
    simp [join,ih]

/-- With a separator in front of each, the pieces make the text with a separator in front. -/
theorem flatMap_split (t : Text) : (split separator t).flatMap (separator :: ·) = separator :: t := by
  obtain ⟨first,more,pieces⟩ := List.exists_cons_of_ne_nil (split_ne_nil separator t)
  have whole := join_split separator t
  rw [pieces,join_cons] at whole
  rw [pieces,List.flatMap_cons,List.cons_append,whole]

theorem split_append_flatMap {t : Text} {ts : List Text} (absent : ∀ u ∈ t :: ts, separator ∉ u) :
    split separator (t ++ ts.flatMap (separator :: ·)) = t :: ts := by
  rw [← join_cons]
  exact split_join (List.cons_ne_nil _ _) absent

theorem flatMap_eq_nil_or_cons (separator : CodePoint) (ts : List Text) :
    ts.flatMap (separator :: ·) = [] ∨ ∃ rest, ts.flatMap (separator :: ·) = separator :: rest := by
  cases ts with
  | nil => exact .inl rfl
  | cons first more => exact .inr ⟨_,rfl⟩

/-- What begins a text and holds no separator ends before any separator of the text. -/
theorem prefix_before {start piece behind : Text} (absent : separator ∉ start)
    (stop : behind = [] ∨ ∃ rest, behind = separator :: rest) (begins : start <+: piece ++ behind) :
    start <+: piece := by
  obtain ⟨after,whole⟩ := begins
  rcases List.append_eq_append_iff.mp whole with ⟨rest,rfl,_⟩ | ⟨beyond,rfl,same⟩
  · exact List.prefix_append start rest
  · cases beyond with
    | nil => exact ⟨[],by simp⟩
    | cons c beyond =>
      rcases stop with rfl | ⟨rest,rfl⟩
      · cases same
      · rw [← (List.cons.inj same).1] at absent
        exact absurd (List.mem_append_right _ List.mem_cons_self) absent

/-- The line holds no line feed, begins at the start of the text or behind a line feed, and ends before
a line feed or at the end of the text. -/
def HasLine (t line : Text) : Prop :=
  lineFeed ∉ line ∧ ∃ before behind, t = before ++ line ++ behind ∧
    (before = [] ∨ ∃ start, before = start ++ [lineFeed]) ∧ (behind = [] ∨ ∃ rest, behind = lineFeed :: rest)

theorem mem_lines_iff {t line : Text} : line ∈ lines t ↔ t.HasLine line := by
  constructor
  · intro member
    refine ⟨not_mem_of_mem_split member,?_⟩
    obtain ⟨earlier,later,pieces⟩ := List.append_of_mem member
    have stop := flatMap_eq_nil_or_cons lineFeed later
    have whole := join_split lineFeed t
    change split lineFeed t = _ at pieces
    rw [pieces] at whole
    cases earlier with
    | nil =>
      rw [List.nil_append,join_cons] at whole
      exact ⟨[],_,whole.symm,.inl rfl,stop⟩
    | cons first more =>
      rw [List.cons_append,join_cons,List.flatMap_append,List.flatMap_cons] at whole
      refine ⟨first ++ more.flatMap (lineFeed :: ·) ++ [lineFeed],_,?_,.inr ⟨_,rfl⟩,stop⟩
      rw [← whole]
      simp only [List.append_assoc,List.cons_append,List.nil_append]
  · rintro ⟨unbroken,before,behind,rfl,start,stop⟩
    have last : line ∈ split lineFeed (line ++ behind) := by
      rcases stop with rfl | ⟨rest,rfl⟩
      · rw [List.append_nil,split_of_not_mem unbroken]
        exact List.mem_singleton_self line
      · rw [split_append unbroken]
        exact List.mem_cons_self
    rw [lines,List.append_assoc]
    rcases start with rfl | ⟨start,rfl⟩
    · exact last
    · rw [List.append_assoc,List.singleton_append,split_append_cons]
      exact List.mem_append_right _ last

theorem lines_append (first second : Text) :
    lines (first ++ "\n" ++ second) = lines first ++ lines second := by
  rw [List.append_assoc]
  exact split_append_cons first second

end PullNotices.Text
