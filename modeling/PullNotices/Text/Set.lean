import PullNotices.Ascending

/-!
Finite sets of texts. The members ascend, so two sets with the same members are equal and a set has
one order to be announced, shown and written in.
-/
namespace PullNotices

structure TextSet where
  members : List Text
  ascending : Ascending (fun t => t) members
  deriving DecidableEq

namespace TextSet

def empty : TextSet := ⟨[], .nil⟩

def ofList (texts : List Text) : TextSet :=
  ⟨Ascending.putAll (fun t => t) texts [], Ascending.putAll_ascending .nil⟩

instance : Membership Text TextSet := ⟨fun s t => t ∈ s.members⟩

instance (t : Text) (s : TextSet) : Decidable (t ∈ s) := inferInstanceAs (Decidable (t ∈ s.members))

def without (s other : TextSet) : TextSet :=
  ⟨s.members.filter fun t => t ∉ other, s.ascending.filter _⟩

def size (s : TextSet) : Nat := s.members.length

theorem mem_without {s other : TextSet} {t : Text} : t ∈ s.without other ↔ t ∈ s ∧ t ∉ other := by
  change t ∈ s.members.filter (fun t => t ∉ other) ↔ t ∈ s.members ∧ t ∉ other
  simp

private theorem mem_put {t a : Text} {base : List Text} :
    t ∈ Ascending.put (fun t => t) a base ↔ t = a ∨ t ∈ base := by
  induction base with
  | nil => simp [Ascending.put]
  | cons b base ih =>
    unfold Ascending.put
    split
    · simp
    · split
      · simp only [List.mem_cons, ih]
        grind
      · rename_i notBefore notAfter
        have same : a = b := List.le_antisymm notAfter notBefore
        simp [same]

theorem mem_putAll {texts base : List Text} {t : Text} :
    t ∈ Ascending.putAll (fun t => t) texts base ↔ t ∈ texts ∨ t ∈ base := by
  induction texts generalizing base with
  | nil => simp [Ascending.putAll]
  | cons a texts ih =>
    have rest := @ih (Ascending.put (fun t => t) a base)
    simp only [Ascending.putAll, List.foldl_cons, List.mem_cons] at rest ⊢
    rw [rest, mem_put]
    grind

theorem mem_ofList {texts : List Text} {t : Text} : t ∈ ofList texts ↔ t ∈ texts := by
  change t ∈ Ascending.putAll (fun t => t) texts [] ↔ t ∈ texts
  simp [mem_putAll]

end TextSet
end PullNotices
