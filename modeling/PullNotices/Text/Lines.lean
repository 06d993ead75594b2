import PullNotices.Text.Basic

/-!
Splitting a text at a code point, and lines. A line ends at a line feed and nowhere else;
`normalizeBreaks` makes that so for a file whose lines end in carriage returns. Main statements:
joining the pieces gives the text back, and splitting what was joined gives the pieces back.
-/
namespace PullNotices.Text

/-- The pieces of a text between the places where `separator` stands; there is always one. -/
def split (separator : CodePoint) : Text → List Text
  | [] => [[]]
  | c :: t =>
    if c = separator then [] :: split separator t
    else match split separator t with
      | [] => [[c]]
      | piece :: rest => (c :: piece) :: rest

theorem split_ne_nil (separator : CodePoint) (t : Text) : split separator t ≠ [] := by
  cases t with
  | nil => simp [split]
  | cons c t => unfold split; split <;> (try split) <;> simp

theorem join_split (separator : CodePoint) (t : Text) : join [separator] (split separator t) = t := by
  induction t with
  | nil => rfl
  | cons c t ih =>
    unfold split
    split
    · rename_i h
      subst h
      cases rest : split c t with
      | nil => exact absurd rest (split_ne_nil c t)
      | cons piece more => simpa [join, rest] using ih
    · cases rest : split separator t with
      | nil => exact absurd rest (split_ne_nil separator t)
      | cons piece more =>
        rw [rest] at ih
        cases more <;> simp_all [join]

theorem split_of_not_mem {separator : CodePoint} {t : Text} (absent : separator ∉ t) :
    split separator t = [t] := by
  induction t with
  | nil => rfl
  | cons c t ih =>
    have other : c ≠ separator := fun same => absent (by simp [same])
    have rest : separator ∉ t := fun member => absent (List.mem_cons_of_mem c member)
    rw [split, if_neg other, ih rest]

theorem split_append {separator : CodePoint} {t : Text} (absent : separator ∉ t) (rest : Text) :
    split separator (t ++ separator :: rest) = t :: split separator rest := by
  induction t with
  | nil => simp [split]
  | cons c t ih =>
    have other : c ≠ separator := fun same => absent (by simp [same])
    have later : separator ∉ t := fun member => absent (List.mem_cons_of_mem c member)
    rw [List.cons_append, split, if_neg other, ih later]

theorem split_join {separator : CodePoint} {ts : List Text} (nonempty : ts ≠ [])
    (absent : ∀ t ∈ ts, separator ∉ t) : split separator (join [separator] ts) = ts := by
  induction ts with
  | nil => exact absurd rfl nonempty
  | cons t ts ih =>
    have first := absent t (by simp)
    cases ts with
    | nil => exact split_of_not_mem first
    | cons second ts =>
      have rest := ih (by simp) fun u member => absent u (List.mem_cons_of_mem t member)
      have joined : join [separator] (t :: second :: ts) =
          t ++ separator :: join [separator] (second :: ts) := by simp [join]
      rw [joined, split_append first, rest]

def lineFeed : CodePoint := '\n'

def carriageReturn : CodePoint := '\r'

def lines (t : Text) : List Text := split lineFeed t

/-- A carriage return, with the line feed behind it if there is one, becomes a line feed. -/
def normalizeBreaks : Text → Text
  | [] => []
  | c :: t =>
    if c = carriageReturn then
      match t with
      | [] => [lineFeed]
      | d :: r => if d = lineFeed then lineFeed :: normalizeBreaks r
        else lineFeed :: normalizeBreaks (d :: r)
    else c :: normalizeBreaks t

theorem normalizeBreaks_eq_self {t : Text} (h : ∀ c ∈ t, c ≠ carriageReturn) : normalizeBreaks t = t := by
  induction t with
  | nil => rfl
  | cons c t ih =>
    have hc : c ≠ carriageReturn := h c (by simp)
    rw [normalizeBreaks.eq_def]
    simp only [hc, if_false]
    rw [ih fun d hd => h d (by simp [hd])]

end PullNotices.Text
