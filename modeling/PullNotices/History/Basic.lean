import PullNotices.History.Entry

/-!
Histories: at most one entry for each key, in the order of the keys. Two histories with the same
entries are equal. `History.find?_put` and `History.find?_putAll` say what is left after entries
are put in: the last one for each key, and everything else as it was.
-/
namespace PullNotices

structure History where
  entries : List Entry
  ascending : Ascending Entry.key entries
  deriving DecidableEq

namespace History

def empty : History := ⟨[], .nil⟩

def find? (h : History) (key : Text) : Option Entry := Ascending.find? Entry.key key h.entries

def put (h : History) (e : Entry) : History :=
  ⟨Ascending.put Entry.key e h.entries, Ascending.put_ascending h.ascending⟩

def putAll (h : History) (es : List Entry) : History :=
  ⟨Ascending.putAll Entry.key es h.entries, Ascending.putAll_ascending h.ascending⟩

def ofEntries (es : List Entry) : History := empty.putAll es

def size (h : History) : Nat := h.entries.length

instance : Membership Entry History := ⟨fun h e => e ∈ h.entries⟩

instance (e : Entry) (h : History) : Decidable (e ∈ h) := inferInstanceAs (Decidable (e ∈ h.entries))

theorem find?_put (h : History) (e : Entry) (key : Text) :
    (h.put e).find? key = if e.key = key then some e else h.find? key :=
  Ascending.find?_put h.ascending key

theorem putAll_cons (h : History) (e : Entry) (es : List Entry) :
    h.putAll (e :: es) = (h.put e).putAll es := rfl

/-- The last of the entries put in under a key is found there. -/
theorem find?_putAll (h : History) (es : List Entry) (key : Text) :
    (h.putAll es).find? key =
      match es.reverse.find? (fun e => e.key = key) with
      | some e => some e
      | none => h.find? key := by
  induction es generalizing h with
  | nil => rfl
  | cons e es ih =>
    rw [putAll_cons, ih, find?_put, List.reverse_cons, List.find?_append]
    cases List.find? (fun e => decide (e.key = key)) es.reverse with
    | some _ => rfl
    | none => by_cases he : e.key = key <;> simp [he]

end History
end PullNotices
