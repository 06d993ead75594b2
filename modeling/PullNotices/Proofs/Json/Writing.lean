import Mathlib.Data.List.Forall2
import PullNotices.Json.Writer
import PullNotices.Proofs.Json.Reading

/-! What is written denotes what it was written for: the escapes of a text without surrogate pairs stand
for it, and arrays and objects are put together from the texts of their values. -/
namespace PullNotices.Json
open Text

theorem toLower_hexDigit : ∀ n < 16, (CodePoint.hexDigit n).toLower = CodePoint.hexDigit n := by decide

theorem ofHex_lowered (width n : Nat) : (ofHex width n).map CodePoint.toLower = ofHex width n := by
  induction width generalizing n with
  | zero => rfl
  | succ width ih =>
    have digit := toLower_hexDigit (n % 16) (Nat.mod_lt n (by decide))
    rw [ofHex,List.map_append,ih,List.map_singleton,digit]

theorem isUnit_unitEscape {u : CodePoint} (bound : u.val < 0x10000) : IsUnit (unitEscape u.val) u :=
  ⟨bound,_,rfl,ofHex_lowered 4 u.val⟩

/-- What begins with the escape of a low surrogate stands for a text that begins with it. -/
theorem Characters.low_head {f more t : Text} {v : CodePoint} (spelled : Characters (f ++ more) t) (escape : IsUnit f v)
    (low : v.isLowSurrogate = true) : ∃ rest, t = v :: rest := by
  obtain ⟨ps,pieces,rfl⟩ := spelled.pieces
  obtain ⟨others,rfl⟩ := pieces.unit_iff.mp ⟨f,more,escape,rfl⟩
  refine ⟨joinPieces others,joinPieces_unit ?_⟩
  rintro _ _ _ ⟨high,_⟩
  simp only [CodePoint.isHighSurrogate,CodePoint.isLowSurrogate,Bool.and_eq_true,decide_eq_true_eq] at high low
  omega

theorem Characters.escapePoint {w t : Text} {c : CodePoint} (free : Text.PairFree (c :: t)) (rest : Characters w t) :
    Characters (escapePoint c ++ w) (c :: t) := by
  unfold Json.escapePoint
  split_ifs with special back tab feed page ret shown basic
  · rcases special with rfl | rfl <;> exact .short (by decide) rest
  · subst back
    exact .short (by decide) rest
  · subst tab
    exact .short (by decide) rest
  · subst feed
    exact .short (by decide) rest
  · subst page
    exact .short (by decide) rest
  · subst ret
    exact .short (by decide) rest
  · exact .raw shown.1 (fun same => special (.inl same)) (fun same => special (.inr same)) rest
  · refine .unit (isUnit_unitEscape basic) ?_ rest
    rintro high f v more escape low rfl
    obtain ⟨_,rfl⟩ := rest.low_head escape low
    exact (List.isChain_cons_cons.mp free).1 ⟨high,low⟩
  · have high : IsUnit (unitEscape (highUnit c).val) (highUnit c) := isUnit_unitEscape (by
      rw [highUnit_val]
      omega)
    have low : IsUnit (unitEscape (lowUnit c).val) (lowUnit c) := isUnit_unitEscape (by
      rw [lowUnit_val]
      omega)
    rw [highUnit_val] at high
    rw [lowUnit_val] at low
    rw [List.append_assoc]
    exact .pair (not_lt.mp basic) high low rest

/-- The escapes of a text stand for it. -/
theorem Characters.escaped {t : Text} (free : t.PairFree) : Characters (t.flatMap Json.escapePoint) t := by
  induction t with
  | nil => exact .nil
  | cons c t ih =>
    rw [List.flatMap_cons]
    exact .escapePoint free (ih (List.isChain_cons.mp free).2)

theorem Denotes.writeString {t : Text} (free : t.PairFree) : Denotes (writeString t) (.text t) :=
  .text (.escaped free)

theorem Denotes.null : Denotes "null" .null := .word (by simp [words])

theorem join_cons_cons (separator first second : Text) (rest : List Text) :
    join separator (first :: second :: rest) = first ++ separator ++ join separator (second :: rest) := rfl

theorem Elements.joined {gap close : Text} (blank : IsGap gap) (tail : IsGap close) {ws : List Text} {vs : List Json}
    (each : List.Forall₂ Denotes ws vs) (nonempty : ws ≠ []) :
    Elements (gap ++ (join ("," ++ gap) ws ++ close)) vs := by
  induction each with
  | nil => exact absurd rfl nonempty
  | @cons w v ws vs value others ih =>
    cases others with
    | nil => exact .last (.mk blank value tail)
    | @cons second other ws vs next others =>
      have shape : gap ++ (join ("," ++ gap) (w :: second :: ws) ++ close) =
          gap ++ (w ++ []) ++ (ofString "," ++ (gap ++ (join ("," ++ gap) (second :: ws) ++ close))) := by
        simp [join_cons_cons]
      rw [shape]
      exact .cons (.mk blank value .nil) (ih (by simp))

/-- An array of joined texts denotes the values that these denote. -/
theorem Denotes.joined {gap close : Text} (blank : IsGap gap) (tail : IsGap close) {ws : List Text} {vs : List Json}
    (each : List.Forall₂ Denotes ws vs) :
    Denotes (CodePoint.ofChar '[' :: (gap ++ join (CodePoint.ofChar ',' :: gap) ws ++
      (close ++ [CodePoint.ofChar ']']))) (.array vs) := by
  cases each with
  | nil =>
    have empty := Denotes.emptyArray (blank.append tail)
    simpa [join,ofString] using empty
  | cons value others =>
    have array := Denotes.array (Elements.joined blank tail (.cons value others) (by simp))
    simpa [ofString] using array

def memberTexts (ms : List (Text × Text)) : List Text :=
  ms.map fun (k,w) => writeString k ++ CodePoint.ofChar ':' :: w

theorem Members.joined {ms : List (Text × Text)} {vs : List (Text × Json)}
    (each : List.Forall₂ (fun m v => m.1 = v.1 ∧ m.1.PairFree ∧ Denotes m.2 v.2) ms vs) (nonempty : ms ≠ []) :
    Members (join "," (memberTexts ms)) vs := by
  induction each with
  | nil => exact absurd rfl nonempty
  | @cons m v ms vs first others ih =>
    obtain ⟨k,w⟩ := m
    obtain ⟨_,v⟩ := v
    obtain ⟨rfl,free,value⟩ := first
    have name := Characters.escaped free
    cases others with
    | nil =>
      have last := Members.last .nil name .nil value.element
      simpa [memberTexts,join,writeString,inQuotes,ofString] using last
    | cons next others =>
      have members := Members.cons .nil name .nil value.element (ih (by simp))
      simpa [memberTexts,join_cons_cons,writeString,inQuotes,ofString] using members

theorem Denotes.members {ms : List (Text × Text)} {vs : List (Text × Json)} (nonempty : ms ≠ [])
    (each : List.Forall₂ (fun m v => m.1 = v.1 ∧ m.1.PairFree ∧ Denotes m.2 v.2) ms vs) :
    Denotes (CodePoint.ofChar '\x7b' :: (join "," (memberTexts ms) ++ [CodePoint.ofChar '\x7d'])) (.object vs) :=
  .object (.joined each nonempty)

end PullNotices.Json
