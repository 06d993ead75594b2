import Mathlib.Data.List.Infix
import Mathlib.Data.List.TakeWhile
import Mathlib.Order.Bounds.Basic
import PullNotices.Proofs.Text.Pairs

/-! Searching. What tries one position of a text after the other finds what begins at the least position
where anything does. -/
namespace PullNotices

theorem findSome?_eq_some_iff_getElem? {α β : Type} {f : α → Option β} {l : List α} {b : β} :
    l.findSome? f = some b ↔
      ∃ (i : Nat) (x : α), l[i]? = some x ∧ f x = some b ∧ ∀ j < i, ∀ y, l[j]? = some y → f y = none := by
  rw [List.findSome?_eq_some_iff]
  constructor
  · rintro ⟨before,x,behind,rfl,found,none⟩
    refine ⟨before.length,x,by simp,found,?_⟩
    intro j early y here
    rw [List.getElem?_append_left early] at here
    exact none y (List.mem_of_getElem? here)
  · rintro ⟨i,x,here,found,none⟩
    obtain ⟨bound,rfl⟩ := List.getElem?_eq_some_iff.mp here
    refine ⟨l.take i,l[i],l.drop (i + 1),?_,found,?_⟩
    · rw [List.getElem_cons_drop,List.take_append_drop]
    · intro y member
      obtain ⟨j,early,rfl⟩ := List.mem_take_iff_getElem.mp member
      exact none j (by omega) _ (List.getElem?_eq_getElem _)

theorem findSome?_filter {α β : Type} {p : α → Bool} {f : α → Option β} (l : List α) :
    (l.filter p).findSome? f = l.findSome? fun x => if p x = true then f x else none := by
  induction l with
  | nil => rfl
  | cons x l ih =>
    rw [List.filter_cons,List.findSome?_cons]
    split <;> simp [List.findSome?_cons,ih]

/-- What is cut off the front ends where the first element fails. -/
theorem span_append_stop {α : Type} {p : α → Bool} {l rest : List α} (all : ∀ x ∈ l, p x = true)
    (stop : ∀ x ∈ rest.head?, p x = false) : (l ++ rest).span p = (l,rest) := by
  have none : rest.takeWhile p = [] ∧ rest.dropWhile p = rest := by
    cases rest with
    | nil => exact ⟨rfl,rfl⟩
    | cons x rest => simp [stop x rfl]
  rw [List.span_eq_takeWhile_dropWhile,List.takeWhile_append_of_pos all,List.dropWhile_append_of_pos all,
    none.1,none.2,List.append_nil]

namespace Text

theorem isSome_after?_iff {start t : Text} : (after? start t).isSome = true ↔ start <+: t := by
  rw [Option.isSome_iff_exists]
  exact exists_congr fun rest => after?_eq_some.trans eq_comm

theorem holds_iff {part t : Text} : holds part t = true ↔ part <:+: t := by
  induction t with
  | nil => simp [holds]
  | cons c t ih => rw [holds,Bool.or_eq_true,ih,isSome_after?_iff,List.infix_cons_iff]

/-- One function tries a single position, the other one position after the other. -/
structure Scans {α : Type} (here? find? : Text → Option α) : Prop where
  nil : find? [] = here? []
  cons (c : CodePoint) (t : Text) : find? (c :: t) = (here? (c :: t)).or (find? t)

namespace Scans

variable {α : Type} {here? find? : Text → Option α} {At : Text → α → Prop} {t : Text} {a : α}

theorem eq_findSome? (scans : Scans here? find?) (t : Text) : find? t = t.tails.findSome? here? := by
  induction t with
  | nil => simp [scans.nil]
  | cons c t ih =>
    rw [scans.cons,List.tails_cons,List.findSome?_cons,ih]
    cases here? (c :: t) <;> rfl

theorem eq_none_iff (scans : Scans here? find?) (exact : ∀ u a, here? u = some a ↔ At u a) :
    find? t = none ↔ ∀ i a, ¬ At (t.drop i) a := by
  rw [scans.eq_findSome?,List.findSome?_eq_none_iff]
  constructor
  · intro none i a begins
    have here := none (t.drop i) ((List.mem_tails _ _).mpr (List.drop_suffix i t))
    rw [(exact _ _).mpr begins] at here
    cases here
  · intro none u member
    obtain ⟨before,rfl⟩ := (List.mem_tails _ _).mp member
    have never := none before.length
    rw [List.drop_left] at never
    cases here : here? u with
    | none => rfl
    | some a => exact absurd ((exact _ _).mp here) (never a)

theorem eq_some_iff (scans : Scans here? find?) (exact : ∀ u a, here? u = some a ↔ At u a) :
    find? t = some a ↔ ∃ i, IsLeast {i | ∃ a, At (t.drop i) a} i ∧ At (t.drop i) a := by
  have inside (i : Nat) (bound : i ≤ t.length) : t.tails[i]? = some (t.drop i) := by
    rw [List.getElem?_eq_getElem (by rw [List.length_tails]; omega),List.getElem_tails]
  rw [scans.eq_findSome?,findSome?_eq_some_iff_getElem?]
  constructor
  · rintro ⟨i,u,reached,found,none⟩
    obtain ⟨bound,rfl⟩ := List.getElem?_eq_some_iff.mp reached
    rw [List.length_tails] at bound
    rw [List.getElem_tails] at found
    have begins := (exact _ _).mp found
    refine ⟨i,⟨⟨a,begins⟩,?_⟩,begins⟩
    rintro j ⟨other,earlier⟩
    by_contra before
    have nothing := none j (by omega) _ (inside j (by omega))
    rw [(exact _ _).mpr earlier] at nothing
    cases nothing
  · rintro ⟨i,⟨_,least⟩,begins⟩
    have bound : i ≤ t.length := by
      by_contra late
      have rest : t.drop i = t.drop t.length := by
        rw [List.drop_eq_nil_of_le (by omega),List.drop_length]
      exact late (least ⟨a,rest ▸ begins⟩)
    refine ⟨i,t.drop i,inside i bound,(exact _ _).mpr begins,?_⟩
    intro j before u reached
    rw [inside j (by omega)] at reached
    cases reached
    cases here : here? (t.drop j) with
    | none => rfl
    | some other => exact absurd (least ⟨other,(exact _ _).mp here⟩) (by omega)

end Scans
end Text
end PullNotices
