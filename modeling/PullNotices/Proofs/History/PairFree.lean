import PullNotices.History.Encoding
import PullNotices.Proofs.Ascending
import PullNotices.Proofs.Json.PairFree

/-! Histories without surrogate pairs in their keys and issue ids. Whatever a file of characters
holds is one, and it stays one as long as such entries are put in. -/
namespace PullNotices

def Entry.PairFree (e : Entry) : Prop := e.key.PairFree ∧ ∀ id ∈ e.issues, id.PairFree

instance (e : Entry) : Decidable e.PairFree :=
  inferInstanceAs (Decidable (e.key.PairFree ∧ ∀ id ∈ e.issues.members, id.PairFree))

def History.PairFree (h : History) : Prop := ∀ e ∈ h, e.PairFree

def Record.PairFree (r : Record) : Prop := r.key.PairFree ∧ ∀ id ∈ r.issues, id.PairFree

namespace Json.Checked

theorem both_eq_ok {α β : Type} {first : Checked α} {second : Checked β} {a : α} {b : β}
    (h : both first second = .ok (a,b)) : first = .ok a ∧ second = .ok b := by
  cases first <;> cases second <;> cases h
  exact ⟨rfl,rfl⟩

theorem within_eq_ok {α : Type} {step : Step} {c : Checked α} {a : α} (h : within step c = .ok a) :
    c = .ok a := by
  cases c <;> cases h
  rfl

theorem each_eq_ok {α : Type} {check : Json → Checked α} {vs : List Json} {position : Nat} {as : List α}
    (h : each check position vs = .ok as) : ∀ a ∈ as, ∃ v ∈ vs, check v = .ok a := by
  induction vs generalizing position as with
  | nil =>
    cases h
    simp
  | cons v vs ih =>
    obtain ⟨⟨first,others⟩,found,same⟩ := map_eq_ok h
    cases same
    obtain ⟨here,rest⟩ := both_eq_ok found
    intro a member
    rcases List.mem_cons.mp member with rfl | member
    · exact ⟨v,by simp,within_eq_ok here⟩
    · obtain ⟨w,inside,checked⟩ := ih rest a member
      exact ⟨w,List.mem_cons_of_mem _ inside,checked⟩

end Json.Checked

theorem Json.required_eq_ok {α : Type} {key : Text} {check : Json → Checked α} {ms : List (Text × Json)} {a : α}
    (h : required key check ms = .ok a) : ∃ v, field? key ms = some v ∧ check v = .ok a := by
  have checked := Checked.within_eq_ok h
  split at checked
  · rename_i v found
    exact ⟨v,found,checked⟩
  · cases checked

theorem Json.asText_eq_ok {v : Json} {t : Text} (h : asText v = .ok t) : v = .text t := by
  cases v <;> cases h
  rfl

theorem Json.PairFree.asText {v : Json} {t : Text} (free : v.PairFree) (h : Json.asText v = .ok t) :
    t.PairFree := by
  rw [Json.asText_eq_ok h] at free
  cases free
  assumption

theorem Record.ofJson_pairFree {v : Json} {r : Record} (free : v.PairFree) (h : ofJson v = .ok r) :
    r.PairFree := by
  cases free with
  | @object ms each =>
    obtain ⟨⟨key,issues,commit⟩,found,same⟩ := Json.map_eq_ok h
    cases same
    obtain ⟨first,others⟩ := Json.Checked.both_eq_ok found
    obtain ⟨second,_⟩ := Json.Checked.both_eq_ok others
    obtain ⟨k,keyed,keyText⟩ := Json.required_eq_ok first
    obtain ⟨list,listed,checked⟩ := Json.required_eq_ok second
    refine ⟨(Json.PairFree.field? each keyed).asText keyText,?_⟩
    cases Json.PairFree.field? each listed with
    | @array vs texts =>
      intro id member
      obtain ⟨w,inside,text⟩ := Json.Checked.each_eq_ok checked id member
      exact (texts w inside).asText text
    | _ => cases checked
  | _ => cases h

theorem Record.toEntry_pairFree {r : Record} {e : Entry} (free : r.PairFree) (h : r.toEntry = .ok e) :
    e.PairFree := by
  unfold toEntry at h
  split at h
  · cases h
  · split at h
    · cases h
    · rename_i entry built
      cases h
      unfold Entry.build at built
      split at built
      · cases built
      · cases built
        exact ⟨free.1,fun id member => free.2 id (TextSet.mem_ofList.mp member)⟩

namespace History

theorem empty_pairFree : empty.PairFree := by
  intro e member
  cases member

theorem PairFree.put {h : History} {e : Entry} (free : h.PairFree) (entry : e.PairFree) :
    (h.put e).PairFree := by
  intro a member
  have found := (find?_eq_some (h := h.put e)).mpr ⟨member,rfl⟩
  rw [find?_put] at found
  split at found
  · cases found
    exact entry
  · exact free a (find?_eq_some.mp found).1

theorem PairFree.putAll {h : History} {es : List Entry} (free : h.PairFree) (entries : ∀ e ∈ es, e.PairFree) :
    (h.putAll es).PairFree := by
  induction es generalizing h with
  | nil => exact free
  | cons e es ih =>
    rw [putAll_cons]
    exact ih (free.put (entries e (by simp))) fun a member => entries a (List.mem_cons_of_mem _ member)

theorem PairFree.find? {h : History} {key : Text} {e : Entry} (free : h.PairFree)
    (found : h.find? key = some e) : e.PairFree := free e (find?_eq_some.mp found).1

theorem entriesOf_pairFree {rs : List Record} {es : List Entry} (free : ∀ r ∈ rs, r.PairFree)
    (h : entriesOf rs = .ok es) : ∀ e ∈ es, e.PairFree := by
  induction rs generalizing es with
  | nil =>
    cases h
    simp
  | cons r rs ih =>
    unfold entriesOf at h
    split at h
    · cases h
    · rename_i entry first
      obtain ⟨others,rest,same⟩ := Json.map_eq_ok h
      cases same
      intro e member
      rcases List.mem_cons.mp member with rfl | member
      · exact Record.toEntry_pairFree (free r (by simp)) first
      · exact ih (fun r inside => free r (List.mem_cons_of_mem _ inside)) rest e member

/-- A history that is written in characters holds no surrogate pair. -/
theorem decode_pairFree {t : Text} {found : Decoded} (scalar : t.IsScalar) (read : decode t = .ok found) :
    found.history.PairFree := by
  unfold decode at read
  split at read
  · cases read
    exact empty_pairFree
  · split at read
    · cases read
    · rename_i v parsed
      have free := Json.parse_pairFree scalar parsed
      unfold ofJson at read
      split at read
      · cases read
      · rename_i rs records
        have each : ∀ r ∈ rs, r.PairFree := by
          cases free with
          | @array vs values =>
            intro r member
            obtain ⟨w,inside,checked⟩ := Json.Checked.each_eq_ok records r member
            exact Record.ofJson_pairFree (values w inside) checked
          | _ => cases records
        unfold ofRecords at read
        split at read
        · cases read
        · rename_i entries built
          cases read
          exact empty_pairFree.putAll (entriesOf_pairFree each built)

end History

end PullNotices
