import Mathlib.Data.List.Dedup
import Mathlib.Data.List.Forall2
import PullNotices.Proofs.History.Canonical

/-! Which texts are histories. A value is a record if it is an object with a key, a list of issue ids
and a commit that is missing, null or a hash; what else stands in it does not matter, nor does a
member that is written again behind. A text is read as a history just if it is a list of records, and
then the last record of each key is the entry under it. -/
namespace PullNotices
open Text

namespace Json

/-- The value is the last one that is written under the key. -/
def LastUnder (key : Text) (ms : List (Text × Json)) (v : Json) : Prop :=
  ∃ before later, ms = before ++ (key,v) :: later ∧ ∀ m ∈ later, m.1 ≠ key

theorem field?_eq_none_iff {key : Text} {ms : List (Text × Json)} :
    field? key ms = none ↔ ∀ m ∈ ms, m.1 ≠ key := by
  induction ms with
  | nil => simp [field?]
  | cons m ms ih =>
    obtain ⟨k,v⟩ := m
    cases later : field? key ms with
    | none =>
      rw [later] at ih
      have others := ih.mp rfl
      by_cases here : k = key
      · simp [field?,later,here]
      · simpa [field?,later,here] using others
    | some w =>
      rw [later] at ih
      have some : ¬ ∀ m ∈ ms, m.1 ≠ key := fun all => by cases ih.mpr all
      refine ⟨?_,fun all => absurd (fun m member => all m (List.mem_cons_of_mem _ member)) some⟩
      simp [field?,later]

theorem field?_eq_some_iff {key : Text} {ms : List (Text × Json)} {v : Json} :
    field? key ms = some v ↔ LastUnder key ms v := by
  constructor
  · intro found
    induction ms with
    | nil => cases found
    | cons m ms ih =>
      obtain ⟨k,w⟩ := m
      unfold field? at found
      split at found
      · rename_i later here
        cases found
        obtain ⟨before,behind,rfl,others⟩ := ih here
        exact ⟨(k,w) :: before,behind,rfl,others⟩
      · rename_i none
        split at found
        · rename_i same
          cases found
          subst k
          exact ⟨[],ms,rfl,field?_eq_none_iff.mp none⟩
        · cases found
  · rintro ⟨before,later,rfl,others⟩
    have none := field?_eq_none_iff.mpr others
    induction before with
    | nil => simp [field?,none]
    | cons m before ih =>
      obtain ⟨k,w⟩ := m
      simp [field?,ih]

namespace Checked

theorem both_ok {α β : Type} (a : α) (b : β) : both (.ok a) (.ok b) = .ok (a,b) := rfl

theorem within_ok {α : Type} (step : Step) (a : α) : within step (.ok a) = .ok a := rfl

theorem each_eq_ok_iff {α : Type} {check : Json → Checked α} {vs : List Json} {position : Nat} {as : List α} :
    each check position vs = .ok as ↔ List.Forall₂ (fun a v => check v = .ok a) as vs := by
  constructor
  · intro checked
    induction vs generalizing position as with
    | nil =>
      cases checked
      exact .nil
    | cons v vs ih =>
      obtain ⟨⟨first,others⟩,found,same⟩ := map_eq_ok checked
      cases same
      obtain ⟨here,rest⟩ := both_eq_ok found
      exact .cons (within_eq_ok here) (ih rest)
  · intro checked
    induction checked generalizing position with
    | nil => rfl
    | cons here _ ih =>
      rw [each,here,ih,within_ok,both_ok]
      rfl

end Checked

theorem required_eq_ok_iff {α : Type} {key : Text} {check : Json → Checked α} {ms : List (Text × Json)} {a : α} :
    required key check ms = .ok a ↔ ∃ v, LastUnder key ms v ∧ check v = .ok a := by
  constructor
  · intro checked
    obtain ⟨v,found,here⟩ := required_eq_ok checked
    exact ⟨v,field?_eq_some_iff.mp found,here⟩
  · rintro ⟨v,last,here⟩
    simp only [required,field?_eq_some_iff.mpr last,here]
    rfl

theorem optional_eq_ok_iff {α : Type} {key : Text} {absent : α} {check : Json → Checked α}
    {ms : List (Text × Json)} {a : α} : optional key absent check ms = .ok a ↔
      (∀ m ∈ ms, m.1 ≠ key) ∧ a = absent ∨ ∃ v, LastUnder key ms v ∧ check v = .ok a := by
  unfold optional
  cases found : field? key ms with
  | none =>
    have none := field?_eq_none_iff.mp found
    constructor
    · intro same
      cases same
      exact .inl ⟨none,rfl⟩
    · rintro (⟨_,rfl⟩ | ⟨v,last,_⟩)
      · rfl
      · rw [field?_eq_some_iff.mpr last] at found
        cases found
  | some w =>
    have last := field?_eq_some_iff.mp found
    constructor
    · intro checked
      exact .inr ⟨w,last,Checked.within_eq_ok checked⟩
    · rintro (⟨none,_⟩ | ⟨v,also,here⟩)
      · rw [field?_eq_none_iff.mpr none] at found
        cases found
      · rw [field?_eq_some_iff.mpr also] at found
        cases found
        change Checked.within _ (check w) = _
        rw [here]
        rfl

end Json

/-- The members of an object say this about the commit. -/
def CommitMember.WrittenIn (ms : List (Text × Json)) : CommitMember → Prop
  | .absent => ∀ m ∈ ms, m.1 ≠ "commit"
  | .null => Json.LastUnder "commit" ms .null
  | .text t => Json.LastUnder "commit" ms (.text t)

/-- The value is an object that stands for the record. -/
def Record.WrittenAs (r : Record) (w : Json) : Prop :=
  ∃ ms, w = .object ms ∧ Json.LastUnder "pr" ms (.text r.key) ∧
    Json.LastUnder "issues" ms (.array (r.issues.map .text)) ∧ r.commit.WrittenIn ms

namespace Record

theorem issuesOfJson_eq_ok_iff {v : Json} {ids : List Text} :
    issuesOfJson v = .ok ids ↔ v = .array (ids.map .text) := by
  have texts {vs : List Json} {ids : List Text} :
      List.Forall₂ (fun id v => Json.asText v = .ok id) ids vs ↔ vs = ids.map .text := by
    constructor
    · intro checked
      induction checked with
      | nil => rfl
      | cons here _ ih => rw [Json.asText_eq_ok here,ih,List.map_cons]
    · rintro rfl
      rw [List.forall₂_map_right_iff,List.forall₂_same]
      exact fun id _ => rfl
  cases v with
  | array vs =>
    unfold issuesOfJson
    rw [Json.Checked.each_eq_ok_iff,texts,Json.array.injEq]
  | _ => exact ⟨nofun,nofun⟩

theorem commitOfJson_eq_ok_iff {v : Json} {member : CommitMember} : commitOfJson v = .ok member ↔
    v = .null ∧ member = .null ∨ ∃ t, v = .text t ∧ member = .text t := by
  cases v <;> simp [commitOfJson,Json.Checked.fault,eq_comm]

theorem commit_eq_ok_iff {ms : List (Text × Json)} {member : CommitMember} :
    Json.optional "commit" .absent commitOfJson ms = .ok member ↔ member.WrittenIn ms := by
  rw [Json.optional_eq_ok_iff]
  simp only [commitOfJson_eq_ok_iff]
  cases member <;> simp [CommitMember.WrittenIn]

theorem ofJson_eq_ok_iff {w : Json} {r : Record} : ofJson w = .ok r ↔ r.WrittenAs w := by
  constructor
  · intro checked
    cases w with
    | object ms =>
      obtain ⟨⟨key,issues,commit⟩,found,same⟩ := Json.map_eq_ok checked
      cases same
      obtain ⟨first,others⟩ := Json.Checked.both_eq_ok found
      obtain ⟨second,third⟩ := Json.Checked.both_eq_ok others
      obtain ⟨k,keyed,text⟩ := Json.required_eq_ok_iff.mp first
      obtain ⟨list,listed,ids⟩ := Json.required_eq_ok_iff.mp second
      rw [Json.asText_eq_ok text] at keyed
      rw [issuesOfJson_eq_ok_iff.mp ids] at listed
      exact ⟨ms,rfl,keyed,listed,commit_eq_ok_iff.mp third⟩
    | _ => cases checked
  · rintro ⟨ms,rfl,keyed,listed,commit⟩
    have first : Json.required "pr" Json.asText ms = .ok r.key :=
      Json.required_eq_ok_iff.mpr ⟨_,keyed,rfl⟩
    have second : Json.required "issues" issuesOfJson ms = .ok r.issues :=
      Json.required_eq_ok_iff.mpr ⟨_,listed,issuesOfJson_eq_ok_iff.mpr rfl⟩
    simp only [ofJson,first,second,commit_eq_ok_iff.mpr commit]
    rfl

theorem listOfJson_eq_ok_iff {v : Json} {rs : List Record} :
    listOfJson v = .ok rs ↔ ∃ ws, v = .array ws ∧ List.Forall₂ WrittenAs rs ws := by
  cases v with
  | array ws =>
    unfold listOfJson
    rw [Json.Checked.each_eq_ok_iff]
    simp only [ofJson_eq_ok_iff,Json.array.injEq]
    constructor
    · intro written
      exact ⟨ws,rfl,written⟩
    · rintro ⟨_,rfl,written⟩
      exact written
  | _ => exact ⟨nofun,nofun⟩

end Record

/-- A hexadecimal digit in either case. -/
def CodePoint.isHex (c : CodePoint) : Bool := c.hexValue?.isSome

theorem CodePoint.isLowerHex_toLower (c : CodePoint) : c.toLower.isLowerHex = c.isHex := by
  rw [Bool.eq_iff_iff]
  unfold toLower isHex hexValue? isLowerHex isDigit
  split_ifs <;> simp_all <;> omega

theorem Hash.parse_eq_ok_iff {t : Text} {hash : Hash} : parse t = .ok hash ↔
    t.length = 40 ∧ (∀ c ∈ t, c.isHex = true) ∧ hash.digits = t.map CodePoint.toLower := by
  have hex : (t.map CodePoint.toLower).all CodePoint.isLowerHex = true ↔ ∀ c ∈ t, c.isHex = true := by
    simp [List.all_map,CodePoint.isLowerHex_toLower]
  unfold parse
  constructor
  · intro read
    split at read
    · rename_i found here
      cases read
      unfold ofDigits? at here
      split at here
      · rename_i fits
        cases here
        exact ⟨by simpa using fits.1,hex.mp fits.2,rfl⟩
      · cases here
    · cases read
  · rintro ⟨length,digits,same⟩
    rw [← same,ofDigits?_digits]

/-- What a record says of the commit is the commit of its entry. -/
inductive CommitMember.Gives : CommitMember → Commit → Prop
  | absent : Gives .absent .placeholder
  | null : Gives .null .unknown
  | zeros : Gives (.text (List.replicate 40 '0')) .placeholder
  | digits {t : Text} {hash : Hash} {ne_zero : hash ≠ Hash.zero} (length : t.length = 40)
      (hex : ∀ c ∈ t, c.isHex = true) (lowered : hash.digits = t.map CodePoint.toLower) :
      Gives (.text t) (.known hash ne_zero)

/-- The entry that a record stands for. -/
structure Entry.Of (e : Entry) (r : Record) : Prop where
  key : e.key = r.key
  issues : ∀ id, id ∈ e.issues ↔ id ∈ r.issues
  commit : r.commit.Gives e.commit

/-- What a record may say of the commit: nothing, null, or forty hexadecimal digits. -/
def CommitMember.IsValid : CommitMember → Prop
  | .text t => t.length = 40 ∧ ∀ c ∈ t, c.isHex = true
  | _ => True

theorem Hash.eq_zero_of_lowered {t : Text} (zeros : t.map CodePoint.toLower = Hash.zero.digits) :
    t = List.replicate 40 (CodePoint.ofChar '0') := by
  have length : t.length = 40 := by simpa [Hash.zero] using congrArg List.length zeros
  refine List.eq_replicate_iff.mpr ⟨length,fun c member => ?_⟩
  have lowered : c.toLower ∈ Hash.zero.digits := zeros ▸ List.mem_map_of_mem member
  have zero : c.toLower = CodePoint.ofChar '0' := List.eq_of_mem_replicate lowered
  unfold CodePoint.toLower at zero
  split at zero
  · have value := congrArg Fin.val zero
    change c.val + 0x20 = 0x30 at value
    omega
  · exact zero

theorem Record.commitOf_eq_ok_iff {member : CommitMember} {commit : Commit} :
    commitOf member = .ok commit ↔ member.Gives commit := by
  constructor
  · intro given
    cases member with
    | absent =>
      cases given
      exact .absent
    | null =>
      cases given
      exact .null
    | text t =>
      obtain ⟨hash,parsed,same⟩ := Json.map_eq_ok given
      cases same
      obtain ⟨length,hex,lowered⟩ := Hash.parse_eq_ok_iff.mp parsed
      unfold Commit.ofHash
      split
      · rename_i zero
        subst hash
        rw [Hash.eq_zero_of_lowered lowered.symm]
        exact .zeros
      · exact .digits length hex lowered
  · intro given
    cases given with
    | absent => rfl
    | null => rfl
    | zeros =>
      have parsed := Hash.parse_digits Hash.zero
      change Hash.parse (List.replicate 40 (CodePoint.ofChar '0')) = _ at parsed
      rw [commitOf,parsed]
      simp [Except.map,Commit.ofHash]
    | @digits t hash ne_zero length hex lowered =>
      rw [commitOf,Hash.parse_eq_ok_iff.mpr ⟨length,hex,lowered⟩]
      simp [Except.map,Commit.ofHash,ne_zero]

theorem CommitMember.isValid_iff {member : CommitMember} : member.IsValid ↔ ∃ commit, member.Gives commit := by
  constructor
  · intro valid
    cases member with
    | absent => exact ⟨_,.absent⟩
    | null => exact ⟨_,.null⟩
    | text t =>
      have hex : (t.map CodePoint.toLower).all CodePoint.isLowerHex = true := by
        simpa [List.all_map,CodePoint.isLowerHex_toLower] using valid.2
      have parsed : Hash.parse t = .ok ⟨t.map CodePoint.toLower,by simpa using valid.1,hex⟩ :=
        Hash.parse_eq_ok_iff.mpr ⟨valid.1,valid.2,rfl⟩
      exact ⟨_,Record.commitOf_eq_ok_iff.mp (by rw [Record.commitOf,parsed]; rfl)⟩
  · rintro ⟨commit,given⟩
    cases given with
    | absent => trivial
    | null => trivial
    | zeros =>
      refine ⟨List.length_replicate,fun c member => ?_⟩
      rw [List.eq_of_mem_replicate member]
      decide
    | digits length hex => exact ⟨length,hex⟩

theorem CommitMember.eq_text_of_not_isValid {member : CommitMember} (bad : ¬ member.IsValid) :
    ∃ t, member = .text t := by
  cases member with
  | text t => exact ⟨t,rfl⟩
  | absent => exact absurd trivial bad
  | null => exact absurd trivial bad

theorem Record.toEntry_eq_ok_iff {r : Record} {e : Entry} : r.toEntry = .ok e ↔ e.Of r := by
  constructor
  · intro given
    unfold toEntry at given
    split at given
    · cases given
    · rename_i commit here
      unfold Entry.build at given
      split at given
      · cases given
      · rename_i entry built
        split at built
        · cases built
        · cases built
          cases given
          exact ⟨rfl,fun id => TextSet.mem_ofList,commitOf_eq_ok_iff.mp here⟩
  · rintro ⟨key,issues,commit⟩
    obtain ⟨k,ids,c,nonempty⟩ := e
    have set : TextSet.ofList r.issues = ids := TextSet.eq_of_mem_iff fun id => by
      rw [TextSet.mem_ofList]
      exact (issues id).symm
    dsimp only at key commit
    subst key
    rw [toEntry,commitOf_eq_ok_iff.mpr commit]
    dsimp only
    rw [Entry.build,dif_neg nonempty,set]

/-- A hash that is none is noticed before a key that is empty. -/
theorem Record.toEntry_eq_malformed_iff {r : Record} {e : Hash.Malformed} :
    r.toEntry = .error (.malformedHash e) ↔ ¬ r.commit.IsValid ∧ r.commit = .text e.value := by
  unfold toEntry
  cases given : commitOf r.commit with
  | ok commit =>
    have valid := CommitMember.isValid_iff.mpr ⟨commit,commitOf_eq_ok_iff.mp given⟩
    dsimp only
    constructor
    · intro failed
      split at failed <;> cases failed
    · rintro ⟨invalid,_⟩
      exact absurd valid invalid
  | error stop =>
    have invalid : ¬ r.commit.IsValid := by
      intro valid
      obtain ⟨commit,given'⟩ := CommitMember.isValid_iff.mp valid
      rw [commitOf_eq_ok_iff.mpr given'] at given
      cases given
    have text : r.commit = .text stop.value := by
      cases member : r.commit with
      | absent => rw [member] at given; cases given
      | null => rw [member] at given; cases given
      | text t =>
        rw [member,commitOf,Hash.parse] at given
        split at given <;> cases given
        rfl
    dsimp only
    rw [text,Except.error.injEq,EntryError.malformedHash.injEq]
    constructor
    · rintro rfl
      exact ⟨text ▸ invalid,rfl⟩
    · rintro ⟨_,same⟩
      obtain ⟨value⟩ := stop
      obtain ⟨other⟩ := e
      cases same
      rfl

theorem Record.toEntry_eq_emptyKey_iff {r : Record} :
    r.toEntry = .error .emptyKey ↔ r.commit.IsValid ∧ r.key = [] := by
  unfold toEntry
  rw [CommitMember.isValid_iff]
  cases given : commitOf r.commit with
  | ok commit =>
    have some : ∃ commit, r.commit.Gives commit := ⟨commit,commitOf_eq_ok_iff.mp given⟩
    by_cases empty : r.key = []
    · simp [Entry.build,empty,some]
    · simp [Entry.build,empty]
  | error stop =>
    have none : ¬ ∃ commit, r.commit.Gives commit := by
      rintro ⟨commit,given'⟩
      rw [commitOf_eq_ok_iff.mpr given'] at given
      cases given
    simp [none]

theorem Record.exists_entry_iff {r : Record} : (∃ e : Entry, e.Of r) ↔ r.key ≠ [] ∧ r.commit.IsValid := by
  rw [CommitMember.isValid_iff]
  constructor
  · rintro ⟨e,key,_,commit⟩
    exact ⟨key ▸ e.key_ne_nil,e.commit,commit⟩
  · rintro ⟨nonempty,commit,given⟩
    exact ⟨⟨r.key,.ofList r.issues,commit,nonempty⟩,rfl,fun id => TextSet.mem_ofList,given⟩

theorem Record.WrittenAs.unique {r other : Record} {w : Json} (written : r.WrittenAs w) (also : other.WrittenAs w) :
    r = other := by
  have left := ofJson_eq_ok_iff.mpr written
  rw [ofJson_eq_ok_iff.mpr also] at left
  exact (Except.ok.inj left).symm

namespace History

theorem entriesOf_eq_ok_iff {rs : List Record} {es : List Entry} :
    entriesOf rs = .ok es ↔ List.Forall₂ Entry.Of es rs := by
  constructor
  · intro made
    induction rs generalizing es with
    | nil =>
      cases made
      exact .nil
    | cons r rs ih =>
      unfold entriesOf at made
      split at made
      · cases made
      · rename_i entry first
        obtain ⟨others,rest,same⟩ := Json.map_eq_ok made
        cases same
        exact .cons (Record.toEntry_eq_ok_iff.mp first) (ih rest)
  · intro made
    induction made with
    | nil => rfl
    | cons first _ ih =>
      rw [entriesOf,Record.toEntry_eq_ok_iff.mpr first,ih]
      rfl

/-- The first record that makes no entry says why there is no history. -/
theorem entriesOf_eq_error_iff {rs : List Record} {stop : Record.EntryError} : entriesOf rs = .error stop ↔
    ∃ before r later, rs = before ++ r :: later ∧ (∀ other ∈ before, ∃ e : Entry, e.Of other) ∧
      r.toEntry = .error stop := by
  constructor
  · intro failed
    induction rs with
    | nil => cases failed
    | cons r rs ih =>
      unfold entriesOf at failed
      split at failed
      · rename_i first
        cases failed
        exact ⟨[],r,rs,rfl,nofun,first⟩
      · rename_i entry first
        cases rest : entriesOf rs with
        | ok es => rw [rest] at failed; cases failed
        | error other =>
          rw [rest] at failed
          cases failed
          obtain ⟨before,s,later,rfl,good,bad⟩ := ih rest
          refine ⟨r :: before,s,later,rfl,?_,bad⟩
          intro other member
          rcases List.mem_cons.mp member with rfl | member
          · exact ⟨entry,Record.toEntry_eq_ok_iff.mp first⟩
          · exact good other member
  · rintro ⟨before,r,later,rfl,good,bad⟩
    induction before with
    | nil => rw [List.nil_append,entriesOf,bad]
    | cons first before ih =>
      obtain ⟨e,entry⟩ := good first (by simp)
      have rest := ih fun other member => good other (List.mem_cons_of_mem _ member)
      rw [List.cons_append,entriesOf,Record.toEntry_eq_ok_iff.mpr entry,rest]
      rfl

end History

end PullNotices
