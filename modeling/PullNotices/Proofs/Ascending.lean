import Mathlib.Data.List.Sort
import PullNotices.History.Basic
import PullNotices.Issue.Set

/-! Ascending lists are known by what is found in them. So two sets with the same members are one
set, and two histories in which every key finds the same entry are one history. -/
namespace PullNotices

namespace Ascending

variable {α : Type} {key : α → Text}

theorem eq_of_mem_iff {xs ys : List α} (left : Ascending key xs) (right : Ascending key ys)
    (same : ∀ a, a ∈ xs ↔ a ∈ ys) : xs = ys := by
  have : Std.Antisymm fun a b : α => key a < key b :=
    ⟨fun a b first second => absurd (List.lt_trans first second) (List.lt_irrefl _)⟩
  have : Std.Irrefl fun a b : α => key a < key b := ⟨fun a => List.lt_irrefl (key a)⟩
  exact List.Pairwise.eq_of_mem_iff left right same

theorem mem_of_find? {xs : List α} {k : Text} {a : α} (found : find? key k xs = some a) :
    a ∈ xs ∧ key a = k := by
  have member := List.mem_of_find?_eq_some found
  have here := List.find?_some found
  exact ⟨member,by simpa using here⟩

theorem find?_of_mem {xs : List α} (order : Ascending key xs) {a : α} (member : a ∈ xs) :
    find? key (key a) xs = some a := by
  induction xs with
  | nil => cases member
  | cons b xs ih =>
    obtain ⟨first,rest⟩ := List.pairwise_cons.mp order
    rcases List.mem_cons.mp member with rfl | member
    · simp [find?]
    · have other : key b ≠ key a := by
        intro same
        have before := first a member
        rw [same] at before
        exact List.lt_irrefl _ before
      have ih := ih rest member
      unfold find? at ih ⊢
      rw [List.find?_cons,ih]
      simp [other]

theorem find?_eq_some {xs : List α} (order : Ascending key xs) {k : Text} {a : α} :
    find? key k xs = some a ↔ a ∈ xs ∧ key a = k := by
  constructor
  · exact mem_of_find?
  · rintro ⟨member,rfl⟩
    exact find?_of_mem order member

theorem ext_find? {xs ys : List α} (left : Ascending key xs) (right : Ascending key ys)
    (same : ∀ k, find? key k xs = find? key k ys) : xs = ys := by
  apply eq_of_mem_iff left right
  intro a
  have here := same (key a)
  constructor
  · intro member
    rw [find?_of_mem left member] at here
    exact (mem_of_find? here.symm).1
  · intro member
    rw [find?_of_mem right member] at here
    exact (mem_of_find? here).1

end Ascending

namespace TextSet

theorem eq_of_members {s other : TextSet} (same : s.members = other.members) : s = other := by
  cases s
  cases other
  cases same
  rfl

theorem eq_of_mem_iff {s other : TextSet} (same : ∀ t, t ∈ s ↔ t ∈ other) : s = other :=
  eq_of_members (Ascending.eq_of_mem_iff s.ascending other.ascending same)

theorem ofList_members (s : TextSet) : ofList s.members = s :=
  eq_of_mem_iff fun _ => mem_ofList

end TextSet

theorem Entry.eq_of_fields {e other : Entry} (key : e.key = other.key) (issues : e.issues = other.issues)
    (commit : e.commit = other.commit) : e = other := by
  cases e
  cases other
  cases key
  cases issues
  cases commit
  rfl

namespace History

theorem find?_eq_some {h : History} {key : Text} {e : Entry} :
    h.find? key = some e ↔ e ∈ h ∧ e.key = key := Ascending.find?_eq_some h.ascending

theorem key_of_find? {h : History} {key : Text} {e : Entry} (found : h.find? key = some e) : e.key = key :=
  (find?_eq_some.mp found).2

theorem eq_of_entries {h other : History} (same : h.entries = other.entries) : h = other := by
  cases h
  cases other
  cases same
  rfl

theorem eq_of_mem_iff {h other : History} (same : ∀ e, e ∈ h ↔ e ∈ other) : h = other :=
  eq_of_entries (Ascending.eq_of_mem_iff h.ascending other.ascending same)

theorem eq_of_find? {h other : History} (same : ∀ key, h.find? key = other.find? key) : h = other :=
  eq_of_entries (Ascending.ext_find? h.ascending other.ascending same)

theorem put_of_find? {h : History} {key : Text} {e : Entry} (found : h.find? key = some e) : h.put e = h := by
  apply eq_of_find?
  intro k
  rw [find?_put]
  split
  · rename_i same
    rw [← same,key_of_find? found,found]
  · rfl

theorem find?_put_self (h : History) (e : Entry) : (h.put e).find? e.key = some e := by
  rw [find?_put,if_pos rfl]

theorem find?_put_ne (h : History) {e : Entry} {key : Text} (other : e.key ≠ key) :
    (h.put e).find? key = h.find? key := by rw [find?_put,if_neg other]

/-- Two entries put in under different keys, and everything else as it was. -/
theorem eq_put_put_iff {h other : History} {first second : Entry} (apart : first.key ≠ second.key)
    (rest : ∀ key, first.key ≠ key → second.key ≠ key → other.find? key = h.find? key) :
    other = (h.put first).put second ↔
      other.find? first.key = some first ∧ other.find? second.key = some second := by
  constructor
  · rintro rfl
    refine ⟨?_,find?_put_self _ second⟩
    rw [find?_put_ne _ apart.symm,find?_put_self]
  · rintro ⟨left,right⟩
    apply eq_of_find?
    intro key
    rw [find?_put,find?_put]
    split
    · rename_i same
      rw [← same,right]
    · rename_i late
      split
      · rename_i same
        rw [← same,left]
      · rename_i early
        exact rest key early late

theorem ofEntries_entries (h : History) : ofEntries h.entries = h := by
  apply eq_of_find?
  intro key
  unfold ofEntries
  rw [find?_putAll]
  split
  · rename_i e found
    have member := List.mem_of_find?_eq_some found
    have here := List.find?_some found
    have entry : e ∈ h := List.mem_reverse.mp member
    exact (find?_eq_some.mpr ⟨entry,by simpa using here⟩).symm
  · rename_i missing
    cases found : h.find? key with
    | none => rfl
    | some e =>
      obtain ⟨entry,here⟩ := find?_eq_some.mp found
      have other := List.find?_eq_none.mp missing e (List.mem_reverse.mpr entry)
      exact absurd here (by simpa using other)

end History

end PullNotices
