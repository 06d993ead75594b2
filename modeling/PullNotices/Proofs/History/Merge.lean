import PullNotices.Proofs.History.RoundTrip

/-! Merging. Entries that are added take the place of those that exist, and of several under one key
the last counts; the text that is written of both is read back as just that. -/
namespace PullNotices

/-- Of the entries under its key it is the last one in the list. -/
def Entry.LastIn (e : Entry) (es : List Entry) : Prop :=
  ∃ before later, es = before ++ e :: later ∧ ∀ other ∈ later, other.key ≠ e.key

theorem Entry.lastIn_iff {e : Entry} {es : List Entry} :
    e.LastIn es ↔ es.reverse.find? (fun other => other.key = e.key) = some e := by
  rw [List.find?_eq_some_iff_append]
  constructor
  · rintro ⟨before,later,rfl,others⟩
    refine ⟨by simp,later.reverse,before.reverse,by simp,?_⟩
    intro other member
    simpa using others other (List.mem_reverse.mp member)
  · rintro ⟨_,later,before,whole,others⟩
    refine ⟨before.reverse,later.reverse,?_,?_⟩
    · rw [← List.reverse_reverse es,whole]
      simp
    · intro other member
      simpa using others other (List.mem_reverse.mp member)

theorem Entry.LastIn.mem {e : Entry} {es : List Entry} (last : e.LastIn es) : e ∈ es := by
  obtain ⟨before,later,rfl,_⟩ := last
  simp

instance (e : Entry) (es : List Entry) : Decidable (e.LastIn es) :=
  decidable_of_iff _ Entry.lastIn_iff.symm

namespace History

theorem mem_putAll {h : History} {es : List Entry} {e : Entry} :
    e ∈ h.putAll es ↔ e.LastIn es ∨ (∀ other ∈ es, other.key ≠ e.key) ∧ e ∈ h := by
  have found : e ∈ h.putAll es ↔ (h.putAll es).find? e.key = some e := by simp [find?_eq_some]
  rw [found,find?_putAll,Entry.lastIn_iff]
  cases last : es.reverse.find? fun other => other.key = e.key with
  | none =>
    have others : ∀ other ∈ es, other.key ≠ e.key := by simpa using List.find?_eq_none.mp last
    constructor
    · intro here
      exact .inr ⟨others,(find?_eq_some.mp here).1⟩
    · rintro (wrong | ⟨_,here⟩)
      · cases wrong
      · exact find?_eq_some.mpr ⟨here,rfl⟩
  | some other =>
    have member := List.mem_reverse.mp (List.mem_of_find?_eq_some last)
    have same : other.key = e.key := by simpa using List.find?_some last
    constructor
    · exact .inl
    · rintro (here | ⟨others,_⟩)
      · exact here
      · exact absurd same (others other member)

theorem mem_ofEntries {es : List Entry} {e : Entry} : e ∈ ofEntries es ↔ e.LastIn es := by
  have none : ¬ e ∈ empty := List.not_mem_nil
  unfold ofEntries
  rw [mem_putAll]
  simp [none]

/-- What is written of added and existing entries is read back, without a duplicate: under each key
the last entry that was added, and where none was added the last that existed. -/
theorem decode_merged (added existing : List Entry) (addedFree : ∀ e ∈ added, e.PairFree)
    (existingFree : ∀ e ∈ existing, e.PairFree) :
    ∃ merged, decode ((ofEntries existing).putAll added).encode = .ok ⟨merged,0⟩ ∧
      ∀ e, e ∈ merged ↔
        e.LastIn added ∨ (∀ other ∈ added, other.key ≠ e.key) ∧ e.LastIn existing := by
  have free := (empty_pairFree.putAll existingFree).putAll addedFree
  refine ⟨_,decode_encode free,fun e => ?_⟩
  rw [mem_putAll,mem_ofEntries]

def loneSurrogate : Text := [⟨0xd800,by decide⟩,'"']

def mergedEntry (issues : List Text) (commit : Commit) : Entry := ⟨"jdk#1",.ofList issues,commit,by decide⟩

/-- An entry that exists, and two that are added under its key, the last of which refers to an issue
whose id is a surrogate alone and a quotation mark. -/
theorem decode_merged_loneSurrogate :
    ∃ merged, decode ((ofEntries [mergedEntry [] .placeholder]).putAll
        [mergedEntry [] .unknown,mergedEntry [loneSurrogate] .unknown]).encode = .ok ⟨merged,0⟩ ∧
      mergedEntry [loneSurrogate] .unknown ∈ merged ∧ mergedEntry [] .unknown ∉ merged ∧
      mergedEntry [] .placeholder ∉ merged := by
  obtain ⟨merged,read,members⟩ := decode_merged [mergedEntry [] .unknown,mergedEntry [loneSurrogate] .unknown]
    [mergedEntry [] .placeholder] (by decide +kernel) (by decide +kernel)
  refine ⟨merged,read,?_,?_,?_⟩
  · exact (members _).mpr (by decide +kernel)
  · exact mt (members _).mp (by decide +kernel)
  · exact mt (members _).mp (by decide +kernel)

end History

end PullNotices
