import PullNotices.Issue.Reference
import PullNotices.Proofs.Text.Lines
import PullNotices.Proofs.Text.Search

/-! References to issues, line by line. A line may be cut into a reference at several places, since an id may
hold brackets; what it refers to is the longest id that some cut leaves. -/
namespace PullNotices.Issue.Reference
open Text

/-- The line can be cut so that it refers to the id, which is not empty and holds no blank. -/
def Fits (line id : Text) : Prop :=
  id ≠ [] ∧ (∀ c ∈ id, c.isBlank = false) ∧ ∃ bullet target words : Text, (bullet = [] ∨ bullet = " * ") ∧
    line = bullet ++ "[" ++ id ++ "](" ++ target ++ "): " ++ words

structure Names (line id : Text) : Prop where
  fits : Fits line id
  longest : ∀ other, Fits line other → other.length ≤ id.length

/-- The text goes on as a reference to the id does behind its first bracket. -/
def Continues (t id : Text) : Prop :=
  id ≠ [] ∧ (∀ c ∈ id, c.isBlank = false) ∧ ∃ target words : Text, t = id ++ "](" ++ target ++ "): " ++ words

theorem closes_iff {t : Text} : closes t = true ↔ ∃ target words : Text, t = "](" ++ target ++ "): " ++ words := by
  have opened {rest : Text} : after? "](" t = some rest ↔ t = "](" ++ rest := after?_eq_some
  unfold closes
  split
  · rename_i rest here
    rw [holds_iff,opened.mp here]
    constructor
    · rintro ⟨target,words,rfl⟩
      exact ⟨target,words,by simp only [List.append_assoc]⟩
    · rintro ⟨target,words,same⟩
      simp only [List.append_assoc,List.append_cancel_left_eq] at same
      exact ⟨target,words,by rw [same,List.append_assoc]⟩
  · rename_i none
    refine ⟨nofun,?_⟩
    rintro ⟨target,words,same⟩
    rw [List.append_assoc _ target,List.append_assoc] at same
    rw [opened.mpr same] at none
    cases none

theorem Continues.isPrefix {t id : Text} (continued : Continues t id) : id <+: t := by
  obtain ⟨_,_,target,words,rfl⟩ := continued
  exact ⟨"](" ++ target ++ "): " ++ words,by simp only [List.append_assoc]⟩

theorem continues_nil {id : Text} : ¬ Continues [] id := by
  rintro ⟨nonempty,_,target,words,same⟩
  simp only [List.append_assoc,List.nil_eq,List.append_eq_nil_iff] at same
  exact nonempty same.1

theorem continues_cons {c : CodePoint} {t id : Text} : Continues (c :: t) id ↔
    c.isBlank = false ∧ ∃ rest, id = c :: rest ∧ (rest = [] ∧ closes t = true ∨ Continues t rest) := by
  constructor
  · rintro ⟨nonempty,plain,target,words,same⟩
    obtain ⟨d,rest,rfl⟩ := List.exists_cons_of_ne_nil nonempty
    obtain ⟨rfl,behind⟩ := List.cons.inj same
    refine ⟨plain c List.mem_cons_self,rest,rfl,?_⟩
    by_cases last : rest = []
    · subst last
      exact .inl ⟨rfl,closes_iff.mpr ⟨target,words,behind⟩⟩
    · exact .inr ⟨last,fun d member => plain d (List.mem_cons_of_mem c member),target,words,behind⟩
  · rintro ⟨plain,rest,rfl,⟨rfl,closing⟩ | ⟨_,others,target,words,rfl⟩⟩
    · obtain ⟨target,words,rfl⟩ := closes_iff.mp closing
      exact ⟨List.cons_ne_nil _ _,by simpa using plain,target,words,rfl⟩
    · refine ⟨List.cons_ne_nil _ _,?_,target,words,rfl⟩
      intro d member
      rcases List.mem_cons.mp member with rfl | later
      · exact plain
      · exact others d later

theorem longestId?_eq_none {t : Text} (none : longestId? t = none) (id : Text) : ¬ Continues t id := by
  fun_induction longestId? t generalizing id with
  | case1 => exact continues_nil
  | case2 c t blank =>
    rw [continues_cons,blank]
    exact fun continued => absurd continued.1 (by decide)
  | case3 => cases none
  | case4 => cases none
  | case5 c t plain rest apart ih =>
    rw [continues_cons]
    rintro ⟨_,behind,rfl,⟨_,closing⟩ | later⟩
    · exact apart closing
    · exact ih rest behind later

theorem longestId?_eq_some {t id : Text} (found : longestId? t = some id) :
    Continues t id ∧ ∀ other, Continues t other → other.length ≤ id.length := by
  fun_induction longestId? t generalizing id with
  | case1 => cases found
  | case2 => cases found
  | case3 c t plain rest here ih =>
    cases found
    obtain ⟨continued,longest⟩ := ih here
    refine ⟨continues_cons.mpr ⟨by simpa using plain,rest,rfl,.inr continued⟩,?_⟩
    intro other fits
    obtain ⟨_,behind,rfl,⟨rfl,_⟩ | later⟩ := continues_cons.mp fits
    · simp
    · simpa using longest behind later
  | case4 c t plain none closing ih =>
    cases found
    refine ⟨continues_cons.mpr ⟨by simpa using plain,[],rfl,.inl ⟨rfl,closing⟩⟩,?_⟩
    intro other fits
    obtain ⟨_,behind,rfl,⟨rfl,_⟩ | later⟩ := continues_cons.mp fits
    · exact Nat.le_refl _
    · exact absurd later (longestId?_eq_none none behind)
  | case5 => cases found

theorem longestId?_eq_some_iff {t id : Text} :
    longestId? t = some id ↔ Continues t id ∧ ∀ other, Continues t other → other.length ≤ id.length := by
  refine ⟨longestId?_eq_some,?_⟩
  rintro ⟨continued,longest⟩
  cases found : longestId? t with
  | none => exact absurd continued (longestId?_eq_none found id)
  | some best =>
    obtain ⟨fits,shorter⟩ := longestId?_eq_some found
    have same : best = id :=
      (List.prefix_of_prefix_length_le fits.isPrefix continued.isPrefix (longest best fits)).eq_of_length_le
        (shorter id continued)
    rw [same]

theorem opening_iff {line rest : Text} : after? "[" ((after? Section.bullet line).getD line) = some rest ↔
    ∃ bullet : Text, (bullet = [] ∨ bullet = " * ") ∧ line = bullet ++ "[" ++ rest := by
  constructor
  · intro here
    cases bulleted : after? Section.bullet line with
    | none =>
      rw [bulleted] at here
      exact ⟨[],.inl rfl,after?_eq_some.mp here⟩
    | some behind =>
      rw [bulleted] at here
      refine ⟨" * ",.inr rfl,?_⟩
      rw [List.append_assoc,← after?_eq_some.mp here]
      exact after?_eq_some.mp bulleted
  · rintro ⟨_,rfl | rfl,rfl⟩ <;> rfl

theorem fits_iff {line id : Text} : Fits line id ↔
    ∃ rest, after? "[" ((after? Section.bullet line).getD line) = some rest ∧ Continues rest id := by
  simp only [opening_iff]
  constructor
  · rintro ⟨nonempty,plain,bullet,target,words,listed,rfl⟩
    refine ⟨id ++ "](" ++ target ++ "): " ++ words,⟨bullet,listed,?_⟩,nonempty,plain,target,words,rfl⟩
    simp only [List.append_assoc]
  · rintro ⟨_,⟨bullet,listed,rfl⟩,nonempty,plain,target,words,rfl⟩
    exact ⟨nonempty,plain,bullet,target,words,listed,by simp only [List.append_assoc]⟩

theorem ofLine?_eq_some_iff {line id : Text} : ofLine? line = some id ↔ Names line id := by
  unfold ofLine?
  rw [Option.bind_eq_some_iff]
  constructor
  · rintro ⟨rest,here,found⟩
    obtain ⟨continued,longest⟩ := longestId?_eq_some_iff.mp found
    refine ⟨fits_iff.mpr ⟨rest,here,continued⟩,?_⟩
    intro other fits
    obtain ⟨same,again,shorter⟩ := fits_iff.mp fits
    rw [here] at again
    cases again
    exact longest other shorter
  · rintro ⟨fits,longest⟩
    obtain ⟨rest,here,continued⟩ := fits_iff.mp fits
    refine ⟨rest,here,longestId?_eq_some_iff.mpr ⟨continued,?_⟩⟩
    intro other shorter
    exact longest other (fits_iff.mpr ⟨rest,here,shorter⟩)

theorem Names.unique {line id other : Text} (names : Names line id) (again : Names line other) : id = other :=
  Option.some.inj ((ofLine?_eq_some_iff.mpr names).symm.trans (ofLine?_eq_some_iff.mpr again))

theorem mem_ofLines_iff {t id : Text} : id ∈ ofLines t ↔ ∃ line ∈ lines t, Names line id := by
  rw [ofLines,TextSet.mem_ofList,List.mem_filterMap]
  exact exists_congr fun line => and_congr_right fun _ => ofLine?_eq_some_iff

/-- The lines of a text refer to issues each on its own: an id is referred to when it is the longest one
that some line can be cut for. So no line refers to two, and two texts with a line feed in between refer
to what one of them or the other does. -/
theorem ofLines_longest :
    (∀ t id, id ∈ ofLines t ↔ ∃ line, t.HasLine line ∧ Names line id) ∧
      (∀ line id other, Names line id → Names line other → id = other) ∧
      (∀ line, lineFeed ∉ line → (ofLines line).size ≤ 1) ∧
      ∀ first second id, id ∈ ofLines (first ++ "\n" ++ second) ↔ id ∈ ofLines first ∨ id ∈ ofLines second := by
  refine ⟨?_,fun _ _ _ => Names.unique,?_,?_⟩
  · intro t id
    simp only [mem_ofLines_iff,mem_lines_iff]
  · intro line unbroken
    rw [ofLines,lines,split_of_not_mem unbroken]
    cases named : ofLine? line with
    | none =>
      rw [List.filterMap_cons_none named]
      exact Nat.zero_le 1
    | some id =>
      rw [List.filterMap_cons_some named]
      exact Nat.le_refl 1
  · intro first second id
    simp only [mem_ofLines_iff,lines_append,List.mem_append,or_and_right,exists_or]

/-- A line that can be cut for two ids. -/
def bracketed : Text := " * [A](b)1](http://x): text"

theorem ofLines_longest_bracketed : (∃ line, bracketed.HasLine line ∧ Names line "A](b)1") ∧
    lineFeed ∉ bracketed ∧ (ofLines bracketed).size ≤ 1 := by
  obtain ⟨named,_,single,_⟩ := ofLines_longest
  exact ⟨(named _ _).mp (by decide),by decide,single _ (by decide)⟩

end PullNotices.Issue.Reference
