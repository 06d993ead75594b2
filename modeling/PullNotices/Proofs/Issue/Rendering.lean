import PullNotices.Proofs.Issue.Reference
import PullNotices.Proofs.Issue.Section

/-! Issues sections that are laid out from a list of links, and what is read of them. Nothing that stands
around the section adds an id to it, takes one away or makes one longer, unless a section stands before it. -/
namespace PullNotices.Issue
open Text

/-- A line of an issues section that refers to an issue. -/
structure Link where
  bulleted : Bool
  id : Text
  target : Text
  words : Text
  id_ne_nil : id ≠ []
  id_plain : ∀ c ∈ id, c.isBlank = false
  target_unbroken : lineFeed ∉ target
  target_plain : ¬ ofString "](" <:+: target
  words_unbroken : lineFeed ∉ words

namespace Link

def bullet (link : Link) : Text := if link.bulleted then " * " else []

def line (link : Link) : Text :=
  link.bullet ++ "[" ++ link.id ++ "](" ++ link.target ++ "): " ++ link.words

theorem bullet_listed (link : Link) : link.bullet = [] ∨ link.bullet = " * " := by
  unfold bullet
  split
  · exact .inr rfl
  · exact .inl rfl

theorem line_unbroken (link : Link) : lineFeed ∉ link.line := by
  have bullet : lineFeed ∉ link.bullet := by
    rcases link.bullet_listed with same | same <;> rw [same] <;> decide
  have id : lineFeed ∉ link.id := by
    intro member
    exact absurd (link.id_plain lineFeed member) (by decide)
  simp only [line,List.mem_append,not_or]
  exact ⟨⟨⟨⟨⟨⟨bullet,by decide⟩,id⟩,by decide⟩,link.target_unbroken⟩,by decide⟩,link.words_unbroken⟩

theorem isLink (link : Link) : Section.IsLink (lineFeed :: link.line) := by
  refine Section.isLink_iff.mpr ⟨link.line,rfl,link.line_unbroken,Section.isLinkLine_iff.mpr ?_⟩
  have rest : link.line = link.bullet ++ "[" ++ (link.id ++ "](" ++ link.target ++ "): " ++ link.words) := by
    simp only [line,List.append_assoc]
  rw [rest]
  rcases link.bullet_listed with same | same <;> rw [same]
  · exact .inl (List.prefix_append _ _)
  · exact .inr (List.prefix_append _ _)

/-- Within the rest of a reference, what ends an id stands in the target or behind a space. -/
theorem infix_or_space {target words inner rest : Text}
    (same : target ++ ("): " ++ words) = inner ++ ("](" ++ rest)) :
    ofString "](" <:+: target ∨ CodePoint.ofChar ' ' ∈ inner := by
  rcases List.append_eq_append_iff.mp same with ⟨beyond,rfl,closing⟩ | ⟨beyond,rfl,closing⟩
  · have begins : ofString "): " <+: beyond ++ ("](" ++ rest) := ⟨words,closing⟩
    have inside : ofString "): " <+: beyond := prefix_before (by decide) (.inr ⟨_,rfl⟩) begins
    exact .inr (List.mem_append_right _ (inside.subset (by decide)))
  · have begins : ofString "](" <+: beyond ++ ("): " ++ words) := ⟨rest,closing⟩
    have inside : ofString "](" <+: beyond := prefix_before (by decide) (.inr ⟨_,rfl⟩) begins
    exact .inl (inside.isInfix.trans (List.suffix_append inner beyond).isInfix)

/-- No id can be cut longer than the one that the link has. -/
theorem length_le_of_continues (link : Link) {other : Text}
    (continued : Reference.Continues (link.id ++ "](" ++ link.target ++ "): " ++ link.words) other) :
    other.length ≤ link.id.length := by
  by_contra longer
  have start : link.id <+: link.id ++ "](" ++ link.target ++ "): " ++ link.words :=
    ⟨"](" ++ link.target ++ "): " ++ link.words,by simp only [List.append_assoc]⟩
  obtain ⟨beyond,rfl⟩ := List.prefix_of_prefix_length_le start continued.isPrefix (by omega)
  obtain ⟨_,plain,target,words,same⟩ := continued
  simp only [List.append_assoc,List.append_cancel_left_eq] at same
  cases beyond with
  | nil => simp at longer
  | cons c beyond =>
    have behind := (List.cons.inj same).2
    obtain ⟨inner,rfl⟩ : ofString "(" <+: beyond := prefix_before (by decide) (.inr ⟨_,rfl⟩) ⟨_,behind⟩
    rcases infix_or_space (List.cons.inj behind).2 with inside | space
    · exact link.target_plain inside
    · have within := List.mem_cons_of_mem c (List.mem_append_right (ofString "(") space)
      exact absurd (plain _ (List.mem_append_right link.id within)) (by decide)

theorem names (link : Link) : Reference.Names link.line link.id := by
  have here : after? "[" ((after? Section.bullet link.line).getD link.line) =
      some (link.id ++ "](" ++ link.target ++ "): " ++ link.words) :=
    Reference.opening_iff.mpr ⟨link.bullet,link.bullet_listed,by simp only [line,List.append_assoc]⟩
  refine ⟨⟨link.id_ne_nil,link.id_plain,link.bullet,link.target,link.words,link.bullet_listed,rfl⟩,?_⟩
  intro other fits
  obtain ⟨rest,again,continued⟩ := Reference.fits_iff.mp fits
  rw [here] at again
  cases again
  exact link.length_le_of_continues continued

end Link

/-- The links of a section, each on a line of its own. -/
def rendered (links : List Link) : Text := links.flatMap fun link => lineFeed :: link.line

theorem ofLines_rendered (links : List Link) :
    Reference.ofLines (rendered links) = .ofList (links.map Link.id) := by
  have unbroken : ∀ line ∈ [] :: links.map Link.line, lineFeed ∉ line := by
    intro line member
    rcases List.mem_cons.mp member with rfl | inside
    · exact List.not_mem_nil
    · obtain ⟨link,_,rfl⟩ := List.mem_map.mp inside
      exact link.line_unbroken
  have whole : lines (rendered links) = [] :: links.map Link.line := by
    have split := split_append_flatMap unbroken
    rw [List.flatMap_map] at split
    exact split
  have named : Reference.ofLine? ∘ Link.line = some ∘ Link.id :=
    funext fun link => Reference.ofLine?_eq_some_iff.mpr link.names
  have empty : Reference.ofLine? [] = none := rfl
  rw [Reference.ofLines,whole,List.filterMap_cons_none empty,List.filterMap_map,named,List.filterMap_eq_map]

namespace Section

/-- What a section begins with, up to the bracket of its first link. -/
def openings : List Text :=
  headings.flatMap fun heading => [ofString "[",ofString " * ["].map fun mark => "\n\n" ++ heading ++ "\n" ++ mark

theorem mem_openings_iff {opening : Text} : opening ∈ openings ↔ ∃ heading mark : Text,
    IsHeading heading ∧ (mark = "[" ∨ mark = " * [") ∧ opening = "\n\n" ++ heading ++ "\n" ++ mark := by
  simp only [openings,List.mem_flatMap,List.mem_map,List.mem_cons,List.not_mem_nil,or_false,mem_headings_iff,
    exists_and_left,eq_comm (a := opening)]

theorem exists_begins_iff {t : Text} : (∃ links, Begins t links) ↔ ∃ opening ∈ openings, opening <+: t := by
  constructor
  · rintro ⟨_,heading,ls,rest,listed,nonempty,each,rfl,rfl,_⟩
    obtain ⟨first,more,rfl⟩ := List.exists_cons_of_ne_nil nonempty
    obtain ⟨mark,words,marked,rfl⟩ : ∃ mark words : Text, (mark = "[" ∨ mark = " * [") ∧
        first = "\n" ++ mark ++ words := by
      obtain ⟨words,_,rfl | rfl⟩ := each first List.mem_cons_self
      · exact ⟨"[",words,.inl rfl,rfl⟩
      · exact ⟨" * [",words,.inr rfl,rfl⟩
    refine ⟨_,mem_openings_iff.mpr ⟨heading,mark,listed,marked,rfl⟩,words ++ more.flatten ++ rest,?_⟩
    simp only [List.flatten_cons,List.append_assoc]
  · rintro ⟨_,member,rest,rfl⟩
    obtain ⟨heading,mark,listed,link,rfl⟩ := mem_openings_iff.mp member
    rw [List.append_assoc _ mark]
    have body := body?_heading listed (mark ++ rest)
    obtain ⟨first,more,pieces⟩ := List.exists_cons_of_ne_nil (split_ne_nil lineFeed (mark ++ rest))
    have whole := join_split lineFeed (mark ++ rest)
    rw [pieces,join_cons] at whole
    have unbroken : lineFeed ∉ mark := by
      rcases link with rfl | rfl <;> decide
    have begins : mark <+: first := prefix_before unbroken (flatMap_eq_nil_or_cons _ more) ⟨rest,whole.symm⟩
    have linked : isLinkLine first = true := by
      rw [isLinkLine_iff]
      rcases link with rfl | rfl
      · exact .inl begins
      · exact .inr begins
    cases found : here? ("\n\n" ++ heading ++ "\n" ++ (mark ++ rest)) with
    | some links => exact ⟨links,here?_eq_some_iff.mp found⟩
    | none =>
      unfold here? at found
      rw [body,lines,pieces] at found
      simp [List.takeWhile_cons_of_pos linked] at found

/-- An opening that begins in front of an empty line ends in front of it as well, as no opening holds a
line feed in front of an empty line or ends with one. -/
theorem prefix_of_opening {opening front rest : Text} (listed : opening ∈ openings) (nonempty : front ≠ [])
    (begins : opening <+: front ++ ("\n\n" ++ rest)) : opening <+: front := by
  have apart : ∀ opening ∈ openings, ∀ k < opening.length, 0 < k → ¬ (opening.drop k).take 2 <+: "\n\n" := by
    decide
  obtain ⟨behind,whole⟩ := begins
  rcases List.append_eq_append_iff.mp whole with ⟨more,same,_⟩ | ⟨beyond,same,crossing⟩
  · exact ⟨more,same.symm⟩
  · by_cases ended : beyond = []
    · rw [same,ended,List.append_nil]
    · have inside : opening.drop front.length = beyond := by rw [same,List.drop_left]
      have next : beyond.take 2 <+: "\n\n" := (List.IsPrefix.take ⟨behind,crossing.symm⟩ 2)
      have short : front.length < opening.length := by
        rw [same,List.length_append]
        exact Nat.lt_add_of_pos_right (List.length_pos_iff.mpr ended)
      exact absurd (inside ▸ next) (apart opening listed front.length short (List.length_pos_iff.mpr nonempty))

/-- A text that holds no section leaves the one behind it the first. -/
theorem find?_append {before rest links : Text} (nothing : find? before = none)
    (begins : Begins ("\n\n" ++ rest) links) : find? (before ++ ("\n\n" ++ rest)) = some links := by
  have here : Begins ((before ++ ("\n\n" ++ rest)).drop before.length) links := by
    rw [List.drop_left]
    exact begins
  refine find?_eq_some_iff.mpr ⟨before.length,⟨⟨links,here⟩,?_⟩,here⟩
  intro i earlier
  by_contra early
  obtain ⟨opening,listed,opens⟩ := exists_begins_iff.mp earlier
  rw [List.drop_append_of_le_length (by omega)] at opens
  have front : before.drop i ≠ [] := by
    rw [Ne,List.drop_eq_nil_iff]
    omega
  obtain ⟨other,inside⟩ := exists_begins_iff.mpr ⟨opening,listed,prefix_of_opening listed front opens⟩
  exact find?_eq_none_iff.mp nothing i other inside

theorem ends_of_plain {behind : Text} (stop : behind = [] ∨
    ∃ more : Text, behind = lineFeed :: more ∧ ¬ ofString "[" <+: more ∧ ¬ ofString " * [" <+: more) : Ends behind := by
  rcases stop with rfl | ⟨more,rfl,plain,unmarked⟩
  · exact .inl rfl
  · refine .inr ⟨⟨more,rfl⟩,?_⟩
    intro line link begins
    obtain ⟨words,rfl,_,opened⟩ := isLink_iff.mp link
    have inside : words <+: more := (List.prefix_cons_inj _).mp begins
    rcases isLinkLine_iff.mp opened with mark | mark
    · exact plain (mark.trans inside)
    · exact unmarked (mark.trans inside)

theorem begins_rendered {heading behind : Text} {links : List Link} (listed : IsHeading heading) (nonempty : links ≠ [])
    (stop : Ends behind) : Begins ("\n\n" ++ (heading ++ rendered links ++ behind)) (rendered links) := by
  refine ⟨heading,links.map fun link => lineFeed :: link.line,behind,listed,by simpa using nonempty,?_,?_,?_,stop⟩
  · intro line member
    obtain ⟨link,_,rfl⟩ := List.mem_map.mp member
    exact link.isLink
  · rw [rendered,List.flatMap_def]
  · simp only [List.append_assoc]

end Section

/-- The issues that an issues section lists are those that the whole description refers to, whatever stands
behind the section, and whatever stands before it unless that holds a section already. -/
theorem referenced_rendered {before heading behind : Text} {links : List Link}
    (nothing : Section.find? before = none) (listed : Section.IsHeading heading) (nonempty : links ≠ [])
    (stop : behind = [] ∨
      ∃ more : Text, behind = lineFeed :: more ∧ ¬ ofString "[" <+: more ∧ ¬ ofString " * [" <+: more) (id : Text) :
    id ∈ referenced (before ++ "\n\n" ++ heading ++ rendered links ++ behind) ↔
      ∃ link ∈ links, link.id = id := by
  have begins := Section.begins_rendered listed nonempty (Section.ends_of_plain stop)
  have found := Section.find?_append nothing begins
  simp only [List.append_assoc] at found ⊢
  rw [referenced,found]
  dsimp only
  rw [ofLines_rendered,TextSet.mem_ofList,List.mem_map]

def Link.bracketed : Link where
  bulleted := true
  id := "A](b)"
  target := "u"
  words := "one"
  id_ne_nil := by decide
  id_plain := by simp [ofString]; decide
  target_unbroken := by decide
  target_plain := by decide
  words_unbroken := by decide

def Link.bare : Link where
  bulleted := false
  id := "[B"
  target := []
  words := []
  id_ne_nil := by decide
  id_plain := by simp [ofString]; decide
  target_unbroken := by decide
  target_plain := by decide
  words_unbroken := by decide

/-- A section behind a heading without links, with brackets in its ids, in front of another section. -/
theorem referenced_rendered_amid : Section.find? "Fix\n\n## Issue\n" = none ∧
    ∀ id, id ∈ referenced ("Fix\n\n## Issue\n" ++ "\n\n" ++ "### Issues" ++ rendered [Link.bracketed,Link.bare] ++
      "\n\n## Issue\n[C](u): two") ↔ ∃ link ∈ [Link.bracketed,Link.bare], link.id = id := by
  have nothing : Section.find? "Fix\n\n## Issue\n" = none := by decide +kernel
  refine ⟨nothing,fun id => referenced_rendered nothing ?_ (List.cons_ne_nil _ _) ?_ id⟩
  · exact .inr (.inr (.inr rfl))
  · exact .inr ⟨"\n## Issue\n[C](u): two",rfl,by decide +kernel,by decide +kernel⟩

end PullNotices.Issue
