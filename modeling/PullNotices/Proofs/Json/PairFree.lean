import PullNotices.Proofs.Json.Acceptance

/-! What is read from characters holds no surrogate pair: a string has a surrogate only where there is
an escape for it, and the escapes of a pair stand for one character. -/
namespace PullNotices.Json
open Text

/-- No string in the value holds a surrogate pair as two code points. -/
inductive PairFree : Json → Prop
  | null : PairFree .null
  | bool (b : Bool) : PairFree (.bool b)
  | number (n : Number) : PairFree (.number n)
  | text {t : Text} (free : t.PairFree) : PairFree (.text t)
  | array {vs : List Json} (each : ∀ v ∈ vs, PairFree v) : PairFree (.array vs)
  | object {ms : List (Text × Json)} (each : ∀ m ∈ ms, PairFree m.2) : PairFree (.object ms)

theorem shortEscapes_plain {letter c : CodePoint} (listed : (letter,c) ∈ shortEscapes) : c.isSurrogate = false := by
  have all : shortEscapes.all (fun pair => !pair.2.isSurrogate) = true := by decide
  simpa using List.all_eq_true.mp all _ listed

theorem isSurrogate_of_astral {c : CodePoint} (astral : 0x10000 ≤ c.val) : c.isSurrogate = false := by
  simp only [CodePoint.isSurrogate,CodePoint.isHighSurrogate,CodePoint.isLowSurrogate,Bool.or_eq_false_iff,
    Bool.and_eq_false_iff,decide_eq_false_iff_not]
  omega

theorem isScalar_of_inQuotes {w : Text} (scalar : (inQuotes w).IsScalar) : w.IsScalar :=
  fun c member => scalar c (by simp [inQuotes,member])

namespace Characters

variable {w t : Text}

/-- Where the text begins with a surrogate, there is the escape of one. -/
theorem unit_of_head {v : CodePoint} (spelled : Characters w (v :: t)) (scalar : w.IsScalar)
    (surrogate : v.isSurrogate = true) : ∃ f more, IsUnit f v ∧ w = f ++ more := by
  have plain (none : v.isSurrogate = false) : ∃ f more, IsUnit f v ∧ w = f ++ more := by
    rw [surrogate] at none
    cases none
  cases spelled with
  | raw => exact plain (scalar v (by simp))
  | short listed => exact plain (shortEscapes_plain listed)
  | unit escape => exact ⟨_,_,escape,rfl⟩
  | pair astral => exact plain (isSurrogate_of_astral astral)

theorem pairFree (spelled : Characters w t) (scalar : w.IsScalar) : t.PairFree := by
  induction spelled with
  | nil => exact .nil
  | @raw c w t _ _ _ _ ih => exact (ih (scalar.suffix (List.suffix_cons c w))).cons (scalar c (by simp))
  | @short letter c w t listed _ ih =>
    exact (ih (scalar.suffix ⟨[backslash,letter],rfl⟩)).cons (shortEscapes_plain listed)
  | @unit e w t u escape alone rest ih =>
    have scalar := scalar.suffix (List.suffix_append e w)
    refine List.isChain_cons.mpr ⟨?_,ih scalar⟩
    rintro v here ⟨high,low⟩
    obtain ⟨more,rfl⟩ := List.head?_eq_some_iff.mp here
    obtain ⟨f,behind,unit,shape⟩ := rest.unit_of_head scalar (by simp [CodePoint.isSurrogate,low])
    exact alone high f v behind unit low shape
  | @pair e f w t c astral _ _ _ ih =>
    exact (ih (scalar.suffix ⟨e ++ f,List.append_assoc e f w⟩)).cons (isSurrogate_of_astral astral)

end Characters

mutual

theorem Denotes.pairFree {w : Text} {v : Json} (value : Denotes w v) (scalar : w.IsScalar) : v.PairFree := by
  cases value with
  | word listed =>
    simp only [words,List.mem_cons,Prod.mk.injEq,List.not_mem_nil,or_false] at listed
    rcases listed with ⟨_,rfl⟩ | ⟨_,rfl⟩ | ⟨_,rfl⟩ | ⟨_,rfl⟩ | ⟨_,rfl⟩ | ⟨_,rfl⟩ <;> constructor
  | number => exact .number _
  | text spelled => exact .text (spelled.pairFree (isScalar_of_inQuotes scalar))
  | emptyArray => exact .array (by simp)
  | array elements =>
    simp only [isScalar_append] at scalar
    exact .array (elements.pairFree scalar.2.1)
  | emptyObject => exact .object (by simp)
  | object members =>
    simp only [isScalar_append] at scalar
    exact .object (members.pairFree scalar.2.1)

theorem Element.pairFree {w : Text} {v : Json} (element : Element w v) (scalar : w.IsScalar) : v.PairFree := by
  cases element with
  | mk _ value _ =>
    simp only [isScalar_append] at scalar
    exact value.pairFree scalar.2.1

theorem Elements.pairFree {w : Text} {vs : List Json} (elements : Elements w vs) (scalar : w.IsScalar) :
    ∀ v ∈ vs, v.PairFree := by
  cases elements with
  | last element => exact List.forall_mem_singleton.mpr (element.pairFree scalar)
  | cons element rest =>
    simp only [isScalar_append] at scalar
    exact List.forall_mem_cons.mpr ⟨element.pairFree scalar.1,rest.pairFree scalar.2.2⟩

theorem Members.pairFree {w : Text} {ms : List (Text × Json)} (members : Members w ms) (scalar : w.IsScalar) :
    ∀ m ∈ ms, m.2.PairFree := by
  cases members with
  | last _ _ _ element =>
    simp only [isScalar_append] at scalar
    exact List.forall_mem_singleton.mpr (element.pairFree scalar.2.2.2.2)
  | cons _ _ _ element rest =>
    simp only [isScalar_append] at scalar
    exact List.forall_mem_cons.mpr ⟨element.pairFree scalar.2.2.2.2.1,rest.pairFree scalar.2.2.2.2.2.2⟩

end

/-- A value that is written in characters holds no surrogate pair. -/
theorem parse_pairFree {t : Text} {v : Json} (scalar : t.IsScalar) (read : parse t = .ok v) : v.PairFree :=
  (parse_eq_ok_iff.mp read).pairFree scalar

theorem PairFree.field? {key : Text} {ms : List (Text × Json)} {v : Json} (free : ∀ m ∈ ms, m.2.PairFree)
    (found : Json.field? key ms = some v) : v.PairFree := by
  induction ms with
  | nil => cases found
  | cons m ms ih =>
    obtain ⟨k,w⟩ := m
    have ih := ih fun m member => free m (List.mem_cons_of_mem _ member)
    unfold Json.field? at found
    split at found
    · rename_i later here
      cases found
      exact ih here
    · split at found
      · cases found
        exact free (k,v) (by simp)
      · cases found

end PullNotices.Json
