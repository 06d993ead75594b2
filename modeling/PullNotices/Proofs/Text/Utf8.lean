import PullNotices.Proofs.Text.Pairs
import PullNotices.Text.Utf8

/-! Reading UTF-8: what is read are characters, and a text in ASCII is read back as it was written. -/
namespace PullNotices.Utf8

theorem sequenceLength_spec (a : UInt8) :
    (sequenceLength a = 1 → a.toNat < 0x80) ∧ (sequenceLength a = 2 → a.toNat < 0xe0) ∧
      (sequenceLength a = 3 → 0xe0 ≤ a.toNat ∧ a.toNat < 0xf0) ∧
      (3 < sequenceLength a → 0xf0 ≤ a.toNat) := by
  simp only [sequenceLength,UInt8.lt_iff_toNat_lt,UInt8.toNat_ofNat]
  split_ifs <;> simp <;> omega

theorem mayFollow_spec {a b : UInt8} (follows : mayFollow a b = true) :
    (a.toNat = 0xed → b.toNat < 0xa0) ∧ (a.toNat = 0xf0 → 0x90 ≤ b.toNat) ∧ 0x80 ≤ b.toNat ∧
      b.toNat < 0xc0 := by
  simp only [mayFollow,isContinuation,Bool.and_eq_true,Bool.not_eq_true',Bool.and_eq_false_iff,
    beq_eq_false_iff_ne,decide_eq_true_eq,decide_eq_false_iff_not,ne_eq,UInt8.le_iff_toNat_le,UInt8.lt_iff_toNat_lt,
    ← UInt8.toNat_inj,UInt8.toNat_ofNat] at follows
  omega

theorem point_scalar {n : Nat} (plain : n < 0xd800 ∨ 0xe000 ≤ n) : (point n).isSurrogate = false := by
  unfold point
  split
  · simp only [CodePoint.isSurrogate,CodePoint.isHighSurrogate,CodePoint.isLowSurrogate,
      Bool.or_eq_false_iff,Bool.and_eq_false_iff,decide_eq_false_iff_not]
    omega
  · decide

private theorem scalar_of_map {n : Nat} {rest : Except Fault Text} {t : Text} (plain : n < 0xd800 ∨ 0xe000 ≤ n)
    (read : rest.map (point n :: ·) = .ok t) (ih : ∀ t, rest = .ok t → t.IsScalar) : t.IsScalar := by
  cases rest with
  | error e => cases read
  | ok rest =>
    cases read
    intro c member
    rcases List.mem_cons.mp member with rfl | member
    · exact point_scalar plain
    · exact ih rest rfl c member

theorem decodeFrom_scalar {position : Nat} {octets : List UInt8} {t : Text}
    (read : decodeFrom position octets = .ok t) : t.IsScalar := by
  fun_induction decodeFrom position octets generalizing t with
  | case1 => cases read; simp [Text.IsScalar]
  | case3 _ a rest one ih =>
    have bound := (sequenceLength_spec a).1 one
    exact scalar_of_map (by omega) read fun _ => ih
  | case6 _ a two b rest follows ih =>
    have bound := (sequenceLength_spec a).2.1 two
    exact scalar_of_map (by unfold low; omega) read fun _ => ih
  | case12 _ a three b c rest follows continues ih =>
    have bound := (sequenceLength_spec a).2.2.1 three
    obtain ⟨capped,_⟩ := mayFollow_spec (a := a) (b := b) (by simpa using follows)
    refine scalar_of_map ?_ read fun _ => ih
    unfold low
    omega
  | case22 _ a b c d rest follows _ _ zero one two three ih =>
    have long : 3 < sequenceLength a := by
      change sequenceLength a ≠ 0 at zero
      change sequenceLength a ≠ 1 at one
      change sequenceLength a ≠ 2 at two
      change sequenceLength a ≠ 3 at three
      omega
    have bound := (sequenceLength_spec a).2.2.2 long
    obtain ⟨_,first,_⟩ := mayFollow_spec (a := a) (b := b) (by simpa using follows)
    refine scalar_of_map (.inr ?_) read fun _ => ih
    unfold low
    omega
  | _ => cases read

theorem encode_ascii {t : Text} (ascii : t.IsAscii) : encode t = t.map fun c => .ofNat c.val := by
  induction t with
  | nil => rfl
  | cons c t ih =>
    have small := ascii c (by simp)
    have rest := ih fun d member => ascii d (by simp [member])
    unfold encode at rest ⊢
    simp [encodePoint,small,rest]

/-- A text in ASCII is read back from its octets. -/
theorem decode_encode_ascii {t : Text} (ascii : t.IsAscii) : decode (encode t) = .ok t := by
  rw [encode_ascii ascii]
  unfold decode
  generalize 0 = position
  induction t generalizing position with
  | nil => rfl
  | cons c t ih =>
    have small := ascii c (by simp)
    have value : (UInt8.ofNat c.val).toNat = c.val := by
      simp only [UInt8.toNat_ofNat']
      omega
    have length : sequenceLength (.ofNat c.val) = 1 := by
      have : UInt8.ofNat c.val < 0x80 := by
        rw [UInt8.lt_iff_toNat_lt,value]
        exact small
      simp [sequenceLength,this]
    have same : point c.val = c := by simp [point]
    unfold decodeFrom
    simp only [List.map_cons,length,value,same]
    rw [ih (fun d member => ascii d (by simp [member]))]
    rfl

end PullNotices.Utf8
