import PullNotices.Proofs.History.Records
import PullNotices.Proofs.Store.Contents

/-! Which texts are accepted as a history, and what is then read. A blank text is the empty history.
Any other has to be a JSON array of records, each one of them good, and of those with one key the last
is read; a warning says how many were left out. -/
namespace PullNotices

theorem Json.readValue_blank {c : CodePoint} (blank : c.isBlank = true) (fuel : Nat) (rest : Text) :
    readValue fuel (c :: rest) = .error (.fault .expectingValue (c :: rest)) := by
  have other {x : CodePoint} (shown : x.isBlank = false) : c ≠ x := by
    rintro rfl
    rw [shown] at blank
    cases blank
  have noWord : readWord? (c :: rest) = none := by
    unfold readWord?
    rw [List.findSome?_eq_none_iff]
    intro word member
    simp only [words,List.mem_cons,List.not_mem_nil,or_false] at member
    rcases member with rfl | rfl | rfl | rfl | rfl | rfl
    all_goals
      rw [Option.map_eq_none_iff]
      exact after?_cons_ne _ rest (other (by decide)).symm
  have noSign : Text.after? "-" (c :: rest) = none := after?_cons_ne [] rest (other (by decide)).symm
  have noDigit : c.isDigit = false := by
    simp only [CodePoint.isBlank,CodePoint.isDigit,Bool.or_eq_true,Bool.and_eq_true,decide_eq_true_eq,
      beq_iff_eq,Bool.and_eq_false_iff,decide_eq_false_iff_not] at blank ⊢
    omega
  have noWhole : readWhole? (c :: rest) = none := by
    have noZero : c ≠ CodePoint.ofChar '0' := other (by decide)
    simp [readWhole?,noZero,noDigit]
  cases fuel with
  | zero => rw [readValue.eq_def]
  | succ fuel =>
    rw [readValue.eq_def]
    simp only [other (by decide : Text.doubleQuote.isBlank = false),
      other (by decide : (CodePoint.ofChar '[').isBlank = false),
      other (by decide : (CodePoint.ofChar '\x7b').isBlank = false),if_false,noWord,readNumber,noSign,noWhole]

theorem Json.not_blank_of_parse {t : Text} {v : Json} (read : parse t = .ok v) : t.isBlank = false := by
  rw [Bool.eq_false_iff]
  intro blank
  have refused : ∃ stop, readDocument t = .error stop := by
    unfold readDocument
    cases left : skipSpace t with
    | nil =>
      refine ⟨.fault .expectingValue [],?_⟩
      simp only [fuelFor,readValue.eq_def]
    | cons c rest =>
      have part : (c :: rest) <:+ t := left ▸ List.dropWhile_suffix isSpace
      have here := List.all_eq_true.mp blank c (part.subset (List.mem_cons_self ..))
      refine ⟨.fault .expectingValue (c :: rest),?_⟩
      simp only [readValue_blank here]
  obtain ⟨stop,refused⟩ := refused
  unfold parse at read
  split at read
  · cases read
  · rw [refused] at read
    cases stop <;> cases read

namespace History

theorem decode_blank {t : Text} (blank : t.isBlank = true) : decode t = .ok ⟨empty,0⟩ := by
  unfold decode
  rw [if_pos blank]

theorem decode_parsed {t : Text} {v : Json} (read : Json.parse t = .ok v) : decode t = ofJson v := by
  have shown := Json.not_blank_of_parse read
  unfold decode
  rw [if_neg (by rw [shown]; decide),read]

theorem ofJson_eq_ok_iff {v : Json} {found : Decoded} : ofJson v = .ok found ↔
    ∃ ws rs es, v = .array ws ∧ List.Forall₂ Record.WrittenAs rs ws ∧ List.Forall₂ Entry.Of es rs ∧
      found = ⟨ofEntries es,es.length - (ofEntries es).size⟩ := by
  unfold ofJson
  constructor
  · intro made
    split at made
    · cases made
    · rename_i rs listed
      obtain ⟨ws,rfl,written⟩ := Record.listOfJson_eq_ok_iff.mp listed
      unfold ofRecords at made
      split at made
      · cases made
      · rename_i es entries
        cases made
        exact ⟨ws,rs,es,rfl,written,entriesOf_eq_ok_iff.mp entries,rfl⟩
  · rintro ⟨ws,rs,es,rfl,written,entries,rfl⟩
    rw [Record.listOfJson_eq_ok_iff.mpr ⟨ws,rfl,written⟩]
    dsimp only
    rw [ofRecords,entriesOf_eq_ok_iff.mpr entries]

end History

theorem Entry.Of.unique {e other : Entry} {r : Record} (entry : e.Of r) (also : other.Of r) : e = other := by
  have left := Record.toEntry_eq_ok_iff.mpr entry
  rw [Record.toEntry_eq_ok_iff.mpr also] at left
  exact (Except.ok.inj left).symm

/-- Of the records under its key it is the last. -/
def Record.LastIn (r : Record) (rs : List Record) : Prop :=
  ∃ before later, rs = before ++ r :: later ∧ ∀ other ∈ later, other.key ≠ r.key

namespace History

variable {es : List Entry} {rs : List Record}

end History

end PullNotices
