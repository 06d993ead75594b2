import Mathlib.Data.Nat.Digits.Defs
import PullNotices.Proofs.History.Records

/-! Rewriting of JSON values. Whoever reads an object looks up the keys that are known to it. So it makes no
difference to reorder the members or to add one under an unknown key, and to rewrite the value under a known key
makes no more difference than these two values do. An integer, as far as its digits go, is the text that it is
written as. -/
namespace PullNotices

namespace Text

theorem digitsValue_concat (digits : Text) (c : CodePoint) :
    digitsValue (digits ++ [c]) = 10 * digitsValue digits + (c.val - 0x30) := by
  simp [digitsValue]

theorem ofChar_digitChar {c : CodePoint} (digit : c.isDigit = true) :
    CodePoint.ofChar (Nat.digitChar (c.val - 0x30)) = c := by
  have each : ∀ d < 10, (CodePoint.ofChar (Nat.digitChar d)).val = 0x30 + d := by decide
  obtain ⟨low,high⟩ : 0x30 ≤ c.val ∧ c.val ≤ 0x39 := by simpa [CodePoint.isDigit] using digit
  apply Fin.ext
  rw [each _ (by omega)]
  omega

theorem ofNat_zero : ofNat 0 = "0" := by decide

/-- Digits without a zero in front are those that their value is written with. -/
theorem ofNat_digitsValue {digits : Text} (each : ∀ c ∈ digits, c.isDigit = true) (nonempty : digits ≠ [])
    (leading : digits = "0" ∨ digits.head? ≠ some (CodePoint.ofChar '0')) : ofNat (digitsValue digits) = digits := by
  induction digits using List.reverseRecOn with
  | nil => exact absurd rfl nonempty
  | append_singleton front c ih =>
    have digit := each c (by simp)
    have small : c.val - 0x30 < 10 := by
      have high : c.val ≤ 0x39 := by simpa [CodePoint.isDigit] using (Bool.and_eq_true_iff.mp digit).2
      omega
    have last : ofNat (c.val - 0x30) = [c] := by
      rw [ofNat,Nat.toDigits_of_lt_base small,List.map_singleton,ofChar_digitChar digit]
    by_cases alone : front = []
    · rw [alone,digitsValue_concat]
      simpa [digitsValue] using last
    · have started : front.head? ≠ some (CodePoint.ofChar '0') := by
        rcases leading with zero | other
        · have length := congrArg List.length zero
          have short : front.length = 0 := by simpa [ofString] using length
          exact absurd (List.length_eq_zero_iff.mp short) alone
        · rwa [List.head?_append_of_ne_nil front alone] at other
      have written := ih (fun c member => each c (by simp [member])) alone (.inr started)
      have positive : 0 < digitsValue front := by
        apply Nat.pos_of_ne_zero
        intro zero
        rw [zero,ofNat_zero] at written
        rw [← written] at started
        exact started rfl
      have split := Nat.toDigits_append_toDigits (by decide : 1 < 10) positive small
      unfold ofNat at written last ⊢
      rw [digitsValue_concat,← split,List.map_append,written,last]

end Text

/-- An integer is the text that it is written as, where zero is written without a sign. -/
theorem Json.Numeral.ofInt_value {n : Numeral} {k : Int} (proper : n.IsProper) (whole : n.value = .int k)
    (signed : n.negative = true → n.whole ≠ "0") : Text.ofInt k = n.written := by
  obtain ⟨integer,value⟩ : (n.fraction = [] ∧ n.exponent.isNone) ∧
      (if n.negative then -(Text.digitsValue n.whole : Int) else Text.digitsValue n.whole) = k := by
    unfold value at whole
    split at whole
    · rename_i integer
      exact ⟨integer,Number.int.inj whole⟩
    · cases whole
  have digits := Text.ofNat_digitsValue proper.digits proper.nonempty proper.leading
  have written : n.written = (if n.negative then "-" else "") ++ n.whole := by
    simp [Numeral.written,point,power,integer.1,Option.isNone_iff_eq_none.mp integer.2]
  rw [written,← value]
  cases sign : n.negative with
  | false => exact digits
  | true =>
    have positive : 0 < Text.digitsValue n.whole := by
      apply Nat.pos_of_ne_zero
      intro zero
      rw [zero,Text.ofNat_zero] at digits
      exact signed sign digits.symm
    obtain ⟨before,succ⟩ := Nat.exists_eq_succ_of_ne_zero positive.ne'
    rw [succ] at digits
    simp only [if_true,succ]
    change "-" ++ Text.ofNat (before + 1) = _
    rw [digits]

namespace Json

variable {key : Text} {ms others before after : List (Text × Json)} {v w : Json}

theorem field?_around {other : Text} (apart : other ≠ key) :
    field? key (before ++ (other,v) :: after) = field? key (before ++ after) := by
  induction before with
  | nil =>
    rw [List.nil_append,List.nil_append,field?,if_neg apart]
    cases field? key after <;> rfl
  | cons m before ih =>
    rw [List.cons_append,List.cons_append,field?,field?,ih]

/-- The value of a member is found unless there is one under its key behind it, which is found then. -/
theorem field?_here (key : Text) (before after : List (Text × Json)) (v : Json) :
    field? key (before ++ (key,v) :: after) = some ((field? key after).getD v) := by
  induction before with
  | nil =>
    rw [List.nil_append,field?]
    cases field? key after <;> simp
  | cons m before ih => rw [List.cons_append,field?,ih]

theorem field?_eq_some_iff_mem (distinct : (ms.map Prod.fst).Nodup) : field? key ms = some v ↔ (key,v) ∈ ms := by
  rw [field?_eq_some_iff]
  constructor
  · rintro ⟨before,later,rfl,_⟩
    simp
  · intro member
    obtain ⟨before,later,rfl⟩ := List.append_of_mem member
    refine ⟨before,later,rfl,?_⟩
    intro m inside same
    rw [List.map_append,List.map_cons] at distinct
    apply (List.nodup_cons.mp distinct.of_append_right).1
    exact List.mem_map.mpr ⟨m,inside,same⟩

theorem field?_perm (perm : ms.Perm others) (distinct : (ms.map Prod.fst).Nodup) (key : Text) :
    field? key ms = field? key others := by
  have also : (others.map Prod.fst).Nodup := (perm.map Prod.fst).nodup_iff.mp distinct
  apply Option.ext
  intro v
  rw [field?_eq_some_iff_mem distinct,field?_eq_some_iff_mem also,perm.mem_iff]

section Checks

variable {α β : Type} {check : Json → Checked α}

theorem Checked.toOption_eq_iff {c d : Checked α} : c.toOption = d.toOption ↔ ∀ a, c = .ok a ↔ d = .ok a := by
  cases c <;> cases d <;> simp [Except.toOption,eq_comm]

theorem Checked.toOption_map (c : Checked α) (f : α → β) : (c.map f).toOption = c.toOption.map f := by
  cases c <;> rfl

theorem Checked.toOption_both (c : Checked α) (d : Checked β) :
    (both c d).toOption = c.toOption.bind fun a => d.toOption.map fun b => (a,b) := by
  cases c <;> cases d <;> rfl

theorem Checked.toOption_within (step : Step) (c : Checked α) : (within step c).toOption = c.toOption := by
  cases c <;> rfl

theorem Checked.toOption_each (position : Nat) (vs : List Json) :
    (each check position vs).toOption = vs.mapM fun v => (check v).toOption := by
  induction vs generalizing position with
  | nil => rfl
  | cons v vs ih =>
    rw [each,toOption_map,toOption_both,toOption_within,ih,List.mapM_cons]
    cases (check v).toOption with
    | none => rfl
    | some a => cases vs.mapM fun v => (check v).toOption <;> rfl

theorem toOption_required : (required key check ms).toOption = (field? key ms).bind fun v => (check v).toOption := by
  unfold required
  rw [Checked.toOption_within]
  cases field? key ms <;> rfl

theorem toOption_optional {absent : α} : (optional key absent check ms).toOption =
    ((field? key ms).map fun v => (check v).toOption).getD (some absent) := by
  unfold optional
  cases field? key ms with
  | none => rfl
  | some v => exact Checked.toOption_within _ _

end Checks

/-- The keys that are known in an object, each with the ways to rewrite the value under it. -/
abbrev Format := List (Text × (Json → Json → Prop))

/-- A value that stays as it is. -/
def Kept (_ _ : Json) : Prop := False

/-- One rewriting of an object: its members are reordered, a member is added that nobody knows, or a value
under a known key is rewritten. -/
inductive Format.Step (format : Format) : Json → Json → Prop
  | reorder {ms others : List (Text × Json)} (perm : ms.Perm others) (distinct : (ms.map Prod.fst).Nodup) :
      Step format (.object ms) (.object others)
  | unknown {before after : List (Text × Json)} {key : Text} {v : Json} (new : key ∉ format.map Prod.fst) :
      Step format (.object (before ++ after)) (.object (before ++ (key,v) :: after))
  | value {before after : List (Text × Json)} {key : Text} {v w : Json} {rewrites : Json → Json → Prop}
      (listed : (key,rewrites) ∈ format) (rewritten : rewrites v w) :
      Step format (.object (before ++ (key,v) :: after)) (.object (before ++ (key,w) :: after))

/-- Under a known key two objects hold the same, or one value and what it is rewritten to. -/
def Format.Matches (format : Format) (ms others : List (Text × Json)) : Prop :=
  ∀ key rewrites, (key,rewrites) ∈ format → field? key ms = field? key others ∨
    ∃ v w, rewrites v w ∧ field? key ms = some v ∧ field? key others = some w

theorem Format.ne_of_unknown {format : Format} {key known : Text} {rewrites : Json → Json → Prop}
    (unknown : key ∉ format.map Prod.fst) (listed : (known,rewrites) ∈ format) : key ≠ known := by
  rintro rfl
  exact unknown (List.mem_map.mpr ⟨_,listed,rfl⟩)

/-- All that a rewriting can do to an object. -/
theorem Format.Step.inv {format : Format} {v w : Json} (distinct : (format.map Prod.fst).Nodup)
    (step : format.Step v w) : ∃ ms others, v = .object ms ∧ w = .object others ∧ format.Matches ms others := by
  cases step with
  | reorder perm apart => exact ⟨_,_,rfl,rfl,fun key _ _ => .inl (field?_perm perm apart key)⟩
  | unknown new =>
    exact ⟨_,_,rfl,rfl,fun _ _ listed => .inl (field?_around (ne_of_unknown new listed)).symm⟩
  | @value before after key v w rewrites here rewritten =>
    refine ⟨_,_,rfl,rfl,fun known other listed => ?_⟩
    by_cases same : key = known
    · subst known
      obtain rfl : other = rewrites :=
        congrArg Prod.snd (List.inj_on_of_nodup_map distinct listed here rfl)
      rw [field?_here,field?_here]
      cases field? key after with
      | none => exact .inr ⟨v,w,rewritten,rfl,rfl⟩
      | some later => exact .inl rfl
    · exact .inl ((field?_around same).trans (field?_around same).symm)

namespace Format.Matches

variable {α : Type} {format : Format} {check : Json → Checked α} {rewrites : Json → Json → Prop}

theorem subset {part : Format} (found : format.Matches ms others) (listed : part ⊆ format) : part.Matches ms others :=
  fun key rewrites member => found key rewrites (listed member)

theorem kept (found : format.Matches ms others) (listed : (key,Kept) ∈ format) : field? key ms = field? key others := by
  rcases found key Kept listed with same | ⟨_,_,never,_⟩
  · exact same
  · exact never.elim

theorem required (found : format.Matches ms others) (listed : (key,rewrites) ∈ format)
    (alike : ∀ v w, rewrites v w → (check v).toOption = (check w).toOption) :
    (Json.required key check ms).toOption = (Json.required key check others).toOption := by
  rw [toOption_required,toOption_required]
  rcases found key rewrites listed with same | ⟨v,w,rewritten,left,right⟩
  · rw [same]
  · rw [left,right,Option.bind_some,Option.bind_some,alike v w rewritten]

theorem optional {absent : α} (found : format.Matches ms others) (listed : (key,rewrites) ∈ format)
    (alike : ∀ v w, rewrites v w → (check v).toOption = (check w).toOption) :
    (Json.optional key absent check ms).toOption = (Json.optional key absent check others).toOption := by
  rw [toOption_optional,toOption_optional]
  rcases found key rewrites listed with same | ⟨v,w,rewritten,left,right⟩
  · rw [same]
  · rw [left,right,Option.map_some,Option.map_some,alike v w rewritten]

end Format.Matches

end Json

end PullNotices
