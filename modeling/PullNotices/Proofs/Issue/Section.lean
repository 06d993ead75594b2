import PullNotices.Issue.Section
import PullNotices.Proofs.Text.Lines
import PullNotices.Proofs.Text.Search

/-! The issues section of a description. A section is described by what it reads, without regard to how it
is looked for: the one that counts begins first, and it has all the link lines that follow its heading. -/
namespace PullNotices.Issue.Section
open Text

def IsHeading (t : Text) : Prop :=
  t = "## Issue" ∨ t = "## Issues" ∨ t = "### Issue" ∨ t = "### Issues"

/-- A line feed, perhaps a bullet, a bracket, and then anything up to the end of the line. -/
def IsLink (line : Text) : Prop :=
  ∃ words : Text, lineFeed ∉ words ∧ (line = "\n[" ++ words ∨ line = "\n * [" ++ words)

/-- The text ends here, or a line begins that is no link. -/
def Ends (rest : Text) : Prop :=
  rest = [] ∨ (∃ more, rest = lineFeed :: more) ∧ ∀ line, IsLink line → ¬ line <+: rest

/-- A section begins the text and has these links: an empty line, a heading, and one link or more, after
the last of which the section ends. -/
def Begins (t links : Text) : Prop :=
  ∃ (heading : Text) (lines : List Text) (rest : Text), IsHeading heading ∧ lines ≠ [] ∧
    (∀ line ∈ lines, IsLink line) ∧ links = lines.flatten ∧ t = "\n\n" ++ heading ++ links ++ rest ∧ Ends rest

theorem isLinkLine_iff {line : Text} : isLinkLine line = true ↔ ofString "[" <+: line ∨ ofString " * [" <+: line := by
  rw [isLinkLine,Bool.or_eq_true,isSome_after?_iff,isSome_after?_iff]
  rfl

theorem isLink_iff {line : Text} :
    IsLink line ↔ ∃ words, line = lineFeed :: words ∧ lineFeed ∉ words ∧ isLinkLine words = true := by
  simp only [isLinkLine_iff]
  constructor
  · rintro ⟨words,unbroken,rfl | rfl⟩
    · refine ⟨"[" ++ words,rfl,?_,.inl (List.prefix_append _ _)⟩
      simp only [List.mem_append,not_or]
      exact ⟨by decide,unbroken⟩
    · refine ⟨" * [" ++ words,rfl,?_,.inr (List.prefix_append _ _)⟩
      simp only [List.mem_append,not_or]
      exact ⟨by decide,unbroken⟩
  · rintro ⟨_,rfl,unbroken,⟨words,rfl⟩ | ⟨words,rfl⟩⟩
    · exact ⟨words,fun member => unbroken (List.mem_append_right _ member),.inl rfl⟩
    · exact ⟨words,fun member => unbroken (List.mem_append_right _ member),.inr rfl⟩

/-- Lines that follow one another end a section unless the first of them is a link. -/
theorem ends_iff {others : List Text} (unbroken : ∀ line ∈ others, lineFeed ∉ line) :
    Ends (others.flatMap (lineFeed :: ·)) ↔ ∀ first ∈ others.head?, isLinkLine first = false := by
  cases others with
  | nil => simp [Ends]
  | cons first more =>
    simp only [List.head?_cons,Option.mem_some_iff,forall_eq',List.flatMap_cons]
    constructor
    · rintro (empty | ⟨_,apart⟩)
      · cases empty
      · by_contra link
        refine apart (lineFeed :: first) (isLink_iff.mpr ⟨first,rfl,unbroken first List.mem_cons_self,?_⟩) ?_
        · simpa using link
        · exact List.prefix_append _ _
    · intro plain
      refine .inr ⟨⟨_,rfl⟩,?_⟩
      intro line link begins
      obtain ⟨words,rfl,free,opened⟩ := isLink_iff.mp link
      -- a link that begins here ends with the first line at the latest, so that line opens like a link
      have inside := prefix_before free (flatMap_eq_nil_or_cons _ more) ((List.prefix_cons_inj _).mp begins)
      have linked : isLinkLine first = true :=
        isLinkLine_iff.mpr ((isLinkLine_iff.mp opened).imp (·.trans inside) (·.trans inside))
      rw [plain] at linked
      cases linked

theorem exists_words {links : List Text} (each : ∀ line ∈ links, IsLink line) :
    ∃ words : List Text, links = words.map (lineFeed :: ·) ∧
      ∀ line ∈ words, lineFeed ∉ line ∧ isLinkLine line = true := by
  induction links with
  | nil => exact ⟨[],rfl,nofun⟩
  | cons link links ih =>
    obtain ⟨line,rfl,shape⟩ := isLink_iff.mp (each link List.mem_cons_self)
    obtain ⟨words,rfl,shapes⟩ := ih fun other member => each other (List.mem_cons_of_mem _ member)
    exact ⟨line :: words,rfl,List.forall_mem_cons.mpr ⟨shape,shapes⟩⟩

theorem Ends.exists_lines {rest : Text} (stop : Ends rest) :
    ∃ others : List Text, rest = others.flatMap (lineFeed :: ·) ∧ ∀ line ∈ others, lineFeed ∉ line := by
  rcases stop with rfl | ⟨⟨more,rfl⟩,_⟩
  · exact ⟨[],rfl,nofun⟩
  · exact ⟨split lineFeed more,(flatMap_split more).symm,fun _ => not_mem_of_mem_split⟩

theorem mem_headings_iff {heading : Text} : heading ∈ headings ↔ IsHeading heading := by
  simp [headings,IsHeading]

theorem body?_heading {heading : Text} (listed : IsHeading heading) (rest : Text) :
    body? ("\n\n" ++ heading ++ "\n" ++ rest) = some (lines rest) := by
  rcases listed with rfl | rfl | rfl | rfl <;> rfl

theorem body?_eq_some_iff {t : Text} {ls : List Text} : body? t = some ls ↔
    ∃ heading, IsHeading heading ∧ ls ≠ [] ∧ (∀ line ∈ ls, lineFeed ∉ line) ∧
      t = "\n\n" ++ heading ++ ls.flatMap (lineFeed :: ·) := by
  constructor
  · intro found
    obtain ⟨heading,listed,here⟩ := List.exists_of_findSome?_eq_some found
    obtain ⟨rest,behind,rfl⟩ := Option.map_eq_some_iff.mp here
    refine ⟨heading,mem_headings_iff.mp listed,split_ne_nil _ _,fun _ => not_mem_of_mem_split,?_⟩
    rw [after?_eq_some.mp behind,lines,flatMap_split,List.append_assoc]
    rfl
  · rintro ⟨heading,listed,nonempty,unbroken,rfl⟩
    obtain ⟨first,more,rfl⟩ := List.exists_cons_of_ne_nil nonempty
    have whole : "\n\n" ++ heading ++ (first :: more).flatMap (lineFeed :: ·) =
        "\n\n" ++ heading ++ "\n" ++ (first ++ more.flatMap (lineFeed :: ·)) := by
      rw [List.flatMap_cons,List.append_assoc _ (ofString "\n")]
      rfl
    rw [whole,body?_heading listed,lines,split_append_flatMap unbroken]

/-- A section in terms of lines: links, and others behind them of which the first is no link. -/
theorem begins_iff {t links : Text} : Begins t links ↔ ∃ (heading : Text) (words others : List Text),
    IsHeading heading ∧ words ≠ [] ∧ (∀ line ∈ words, lineFeed ∉ line ∧ isLinkLine line = true) ∧
      (∀ line ∈ others, lineFeed ∉ line) ∧ (∀ first ∈ others.head?, isLinkLine first = false) ∧
      links = words.flatMap (lineFeed :: ·) ∧ t = "\n\n" ++ heading ++ (words ++ others).flatMap (lineFeed :: ·) := by
  simp only [List.flatMap_append,← List.append_assoc]
  constructor
  · rintro ⟨heading,links,rest,listed,nonempty,each,rfl,rfl,stop⟩
    obtain ⟨words,rfl,shapes⟩ := exists_words each
    obtain ⟨others,rfl,unbroken⟩ := stop.exists_lines
    refine ⟨heading,words,others,listed,by simpa using nonempty,shapes,unbroken,(ends_iff unbroken).mp stop,?_,?_⟩
    · rw [List.flatMap_def]
    · rw [← List.flatMap_def]
  · rintro ⟨heading,words,others,listed,nonempty,shapes,unbroken,apart,rfl,rfl⟩
    refine ⟨heading,words.map (lineFeed :: ·),_,listed,by simpa using nonempty,?_,?_,rfl,(ends_iff unbroken).mpr apart⟩
    · intro line member
      obtain ⟨words,inside,rfl⟩ := List.mem_map.mp member
      exact isLink_iff.mpr ⟨words,rfl,shapes words inside⟩
    · rw [List.flatMap_def]

theorem here?_eq_some_iff {t links : Text} : here? t = some links ↔ Begins t links := by
  rw [begins_iff]
  constructor
  · intro found
    unfold here? at found
    split at found
    · cases found
    · rename_i ls body
      obtain ⟨heading,listed,_,unbroken,rfl⟩ := body?_eq_some_iff.mp body
      split at found
      · cases found
      · rename_i nonempty
        cases found
        refine ⟨heading,_,ls.dropWhile isLinkLine,listed,nonempty,?_,?_,?_,rfl,?_⟩
        · intro line member
          exact ⟨unbroken line (List.takeWhile_prefix _ |>.subset member),List.mem_takeWhile_imp member⟩
        · intro line member
          exact unbroken line (List.dropWhile_suffix _ |>.subset member)
        · intro first member
          have stopped := List.head?_dropWhile_not isLinkLine ls
          rw [member] at stopped
          exact stopped
        · rw [List.takeWhile_append_dropWhile]
  · rintro ⟨heading,words,others,listed,nonempty,shapes,unbroken,apart,rfl,rfl⟩
    have body := body?_eq_some_iff.mpr ⟨heading,listed,List.append_ne_nil_of_left_ne_nil nonempty others,
      List.forall_mem_append.mpr ⟨fun line member => (shapes line member).1,unbroken⟩,rfl⟩
    have cut := span_append_stop (fun line member => (shapes line member).2) apart
    rw [List.span_eq_takeWhile_dropWhile] at cut
    unfold here?
    rw [body]
    dsimp only
    rw [(Prod.mk.inj cut).1]
    split
    · exact absurd rfl nonempty
    · rfl

theorem scans : Scans here? find? where
  nil := rfl
  cons c t := by
    rw [find?]
    cases here? (c :: t) <;> rfl

theorem find?_eq_some_iff {t links : Text} :
    find? t = some links ↔ ∃ i, IsLeast {i | ∃ links, Begins (t.drop i) links} i ∧ Begins (t.drop i) links :=
  scans.eq_some_iff fun _ _ => here?_eq_some_iff

theorem find?_eq_none_iff {t : Text} : find? t = none ↔ ∀ i links, ¬ Begins (t.drop i) links :=
  scans.eq_none_iff fun _ _ => here?_eq_some_iff

/-- The section that counts is the one that begins first, with all its links; without a section nothing
is found. -/
theorem find?_first (t : Text) :
    (∀ links, find? t = some links ↔
      ∃ i, IsLeast {i | ∃ links, Begins (t.drop i) links} i ∧ Begins (t.drop i) links) ∧
    (find? t = none ↔ ∀ i links, ¬ Begins (t.drop i) links) :=
  ⟨fun _ => find?_eq_some_iff,find?_eq_none_iff⟩

end PullNotices.Issue.Section
