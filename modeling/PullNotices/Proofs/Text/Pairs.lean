import Mathlib.Data.List.Chain
import PullNotices.Text.Lines

/-! Surrogates in texts. A file is read as characters, so a surrogate gets into a text only through
an escape, and one that opens a pair never stands in front of one that closes it: two such escapes
are one character. Texts of that kind are the ones that are read back as they were written. -/
namespace PullNotices

theorem CodePoint.isSurrogate_ofChar (c : Char) : (ofChar c).isSurrogate = false := by
  have valid : c.val.toNat < 0xd800 ∨ 0xdfff < c.val.toNat ∧ c.val.toNat < 0x110000 := c.valid
  have same : (ofChar c).val = c.val.toNat := rfl
  simp only [isSurrogate,isHighSurrogate,isLowSurrogate,Bool.or_eq_false_iff,Bool.and_eq_false_iff,
    decide_eq_false_iff_not,same]
  omega

namespace Text

def IsScalar (t : Text) : Prop := ∀ c ∈ t, c.isSurrogate = false

/-- No surrogate that opens a pair stands in front of one that closes a pair. -/
def PairFree (t : Text) : Prop :=
  t.IsChain fun a b => ¬ (a.isHighSurrogate = true ∧ b.isLowSurrogate = true)

instance (t : Text) : Decidable t.IsScalar := inferInstanceAs (Decidable (∀ c ∈ t, _))

instance (t : Text) : Decidable t.PairFree := inferInstanceAs (Decidable (List.IsChain _ t))

def IsAscii (t : Text) : Prop := ∀ c ∈ t, c.val < 0x80

theorem IsScalar.pairFree {t : Text} (scalar : t.IsScalar) : t.PairFree := by
  induction t with
  | nil => exact .nil
  | cons c t ih =>
    have first := scalar c (by simp)
    refine List.isChain_cons.mpr ⟨?_,ih fun d member => scalar d (by simp [member])⟩
    intro d _ pair
    simp [CodePoint.isSurrogate,pair.1] at first

theorem map_ofChar_scalar (chars : List Char) : IsScalar (chars.map CodePoint.ofChar) := by
  intro c member
  obtain ⟨char,_,rfl⟩ := List.mem_map.mp member
  exact CodePoint.isSurrogate_ofChar char

theorem isScalar_append {first second : Text} : (first ++ second).IsScalar ↔ first.IsScalar ∧ second.IsScalar :=
  List.forall_mem_append

theorem IsScalar.suffix {t rest : Text} (scalar : t.IsScalar) (tail : rest <:+ t) : rest.IsScalar :=
  fun c member => scalar c (tail.subset member)

theorem PairFree.part {t part : Text} (free : t.PairFree) (inside : part <:+: t) : part.PairFree := by
  obtain ⟨before,behind,rfl⟩ := inside
  exact (List.IsChain.left_of_append free).right_of_append

theorem PairFree.append_cons {first second : Text} {c : CodePoint} (plain : c.isSurrogate = false)
    (left : first.PairFree) (right : second.PairFree) : (first ++ c :: second).PairFree := by
  obtain ⟨high,low⟩ : c.isHighSurrogate = false ∧ c.isLowSurrogate = false := by
    simpa [CodePoint.isSurrogate] using plain
  refine List.IsChain.append left (List.isChain_cons.mpr ⟨?_,right⟩) ?_
  · intro d _ pair
    simp [high] at pair
  · intro a _ b member pair
    simp only [List.head?_cons,Option.mem_def,Option.some.injEq] at member
    subst b
    simp [low] at pair

theorem PairFree.cons {t : Text} {c : CodePoint} (free : t.PairFree) (plain : c.isSurrogate = false) :
    PairFree (c :: t) := by
  have joined : PairFree ([] ++ c :: t) := .append_cons plain .nil free
  exact joined

theorem after?_eq_some {start t rest : Text} : after? start t = some rest ↔ t = start ++ rest := by
  induction start generalizing t with
  | nil => simp [after?,eq_comm]
  | cons a start ih =>
    cases t with
    | nil => simp [after?]
    | cons b t =>
      by_cases same : a = b
      · simp [after?,same,ih]
      · simp [after?,same,Ne.symm same]

theorem after?_append (start rest : Text) : after? start (start ++ rest) = some rest :=
  after?_eq_some.mpr rfl

theorem infix_of_mem_split {separator : CodePoint} {t piece : Text}
    (member : piece ∈ split separator t) : piece <:+: t := by
  induction t generalizing piece with
  | nil =>
    have : piece = [] := by simpa [split] using member
    exact this ▸ List.infix_rfl
  | cons c t ih =>
    unfold split at member
    split at member
    · rcases List.mem_cons.mp member with rfl | member
      · exact List.nil_infix
      · exact (ih member).trans (List.infix_cons List.infix_rfl)
    · split at member
      · rename_i none
        exact absurd none (split_ne_nil separator t)
      · rename_i first rest found
        rcases List.mem_cons.mp member with rfl | member
        · -- the first piece is a prefix of what it was split from
          have whole := join_split separator t
          rw [found] at whole
          have start : first <+: t := by
            rw [← whole]
            cases rest with
            | nil => exact List.prefix_rfl
            | cons => simp [join,List.append_assoc]
          exact ((List.prefix_cons_inj c).mpr start).isInfix
        · exact (ih (by simp [found,member])).trans (List.infix_cons List.infix_rfl)

theorem normalizeBreaks_scalar {t : Text} (scalar : t.IsScalar) : (normalizeBreaks t).IsScalar := by
  fun_induction normalizeBreaks t with
  | case1 => exact scalar
  | case2 => intro c member; simp at member; subst c; decide
  | case3 r ih =>
    intro c member
    rcases List.mem_cons.mp member with rfl | member
    · decide
    · exact ih (fun d inside => scalar d (by simp [inside])) c member
  | case4 d r other ih =>
    intro c member
    rcases List.mem_cons.mp member with rfl | member
    · decide
    · exact ih (fun e inside => scalar e (List.mem_cons_of_mem _ inside)) c member
  | case5 c t other ih =>
    intro d member
    rcases List.mem_cons.mp member with rfl | member
    · exact scalar d (by simp)
    · exact ih (fun e inside => scalar e (by simp [inside])) d member

end Text

end PullNotices
