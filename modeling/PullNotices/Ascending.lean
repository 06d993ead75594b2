import PullNotices.Text.Basic

/-!
Lists that ascend strictly by a text key. They serve as finite sets and finite maps with one
representation each: two of them with the same elements are the same list. `put` is the only way
in; its statements say which element it leaves under which key, and that the order is kept.
-/
namespace PullNotices

variable {α : Type}

/-- Each key is greater than those before it, so no key occurs twice. -/
abbrev Ascending (key : α → Text) (xs : List α) : Prop :=
  xs.Pairwise fun a b => key a < key b

namespace Ascending

def put (key : α → Text) (a : α) : List α → List α
  | [] => [a]
  | b :: xs =>
    if key a < key b then a :: b :: xs
    else if key b < key a then b :: put key a xs
    else a :: xs

def putAll (key : α → Text) (xs base : List α) : List α :=
  xs.foldl (fun base a => put key a base) base

def find? (key : α → Text) (k : Text) (xs : List α) : Option α :=
  xs.find? fun a => key a = k

variable {key : α → Text}

private theorem key_of_mem_put {a b : α} {xs : List α} (h : b ∈ put key a xs) : b = a ∨ b ∈ xs := by
  induction xs with
  | nil => simpa [put] using h
  | cons c xs ih =>
    unfold put at h
    split at h
    · simpa using h
    · split at h
      · rcases List.mem_cons.1 h with rfl | h
        · simp
        · rcases ih h with rfl | h <;> simp_all
      · rcases List.mem_cons.1 h with rfl | h <;> simp_all

theorem put_ascending {a : α} {xs : List α} (h : Ascending key xs) : Ascending key (put key a xs) := by
  induction xs with
  | nil => simp [put]
  | cons b xs ih =>
    obtain ⟨first, rest⟩ := List.pairwise_cons.1 h
    unfold put
    split
    · rename_i before
      refine List.pairwise_cons.2 ⟨fun c hc => ?_, h⟩
      rcases List.mem_cons.1 hc with rfl | hc
      · exact before
      · exact List.lt_trans before (first c hc)
    · split
      · rename_i after
        refine List.pairwise_cons.2 ⟨fun c hc => ?_, ih rest⟩
        rcases key_of_mem_put hc with rfl | hc
        · exact after
        · exact first c hc
      · rename_i notBefore notAfter
        have same : key a = key b := List.le_antisymm notAfter notBefore
        refine List.pairwise_cons.2 ⟨fun c hc => ?_, rest⟩
        rw [same]
        exact first c hc

theorem putAll_ascending {xs base : List α} (h : Ascending key base) :
    Ascending key (putAll key xs base) := by
  induction xs generalizing base with
  | nil => exact h
  | cons a xs ih => exact ih (put_ascending h)

/-- After `put`, the new element stands under its key and all others stand where they were. -/
theorem find?_put {a : α} {xs : List α} (h : Ascending key xs) (k : Text) :
    find? key k (put key a xs) = if key a = k then some a else find? key k xs := by
  induction xs with
  | nil => by_cases hk : key a = k <;> simp [find?, put, hk]
  | cons b xs ih =>
    obtain ⟨first, rest⟩ := List.pairwise_cons.1 h
    unfold put
    split
    · by_cases hk : key a = k <;> simp [find?, List.find?, hk]
    · split
      · rename_i after
        have apart : key b = k → key a ≠ k := by
          rintro rfl same
          rw [same] at after
          exact List.lt_irrefl _ after
        have ih := ih rest
        unfold find? at ih ⊢
        rw [List.find?_cons, List.find?_cons, ih]
        by_cases hk : key b = k
        · simp [hk, apart hk]
        · simp [hk]
      · rename_i notBefore notAfter
        have same : key a = key b := List.le_antisymm notAfter notBefore
        by_cases hk : key a = k
        · simp [find?, List.find?, hk]
        · have : key b ≠ k := same ▸ hk
          simp [find?, List.find?, hk, this]

end Ascending
end PullNotices
