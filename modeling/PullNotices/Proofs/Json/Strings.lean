import PullNotices.Json.Reader
import PullNotices.Proofs.Text.Pairs

/-! JSON strings, piece by piece: what is read of an escape, and what the pieces are joined to. -/
namespace PullNotices.Json
open Text

theorem map_eq_ok {ε α β : Type} {f : α → β} {r : Except ε α} {b : β} (h : r.map f = .ok b) :
    ∃ a, r = .ok a ∧ f a = b := by
  cases r with
  | error e => cases h
  | ok a => exact ⟨a,rfl,Except.ok.inj h⟩

def codeUnit (n : Nat) : CodePoint := Fin.ofNat 0x110000 n

theorem codeUnit_val {n : Nat} (bound : n < 0x110000) : (codeUnit n).val = n := Nat.mod_eq_of_lt bound

def highUnit (c : CodePoint) : CodePoint := codeUnit (0xd800 + (c.val - 0x10000) / 0x400)

def lowUnit (c : CodePoint) : CodePoint := codeUnit (0xdc00 + (c.val - 0x10000) % 0x400)

theorem hexValue?_hexDigit : ∀ n < 16, (CodePoint.hexDigit n).hexValue? = some n := by decide

theorem readPieces_letter (whole more : Text) (letter x : CodePoint) (short : shortEscape? letter = some x)
    (other : letter ≠ CodePoint.ofChar 'u') :
    readPieces whole (backslash :: letter :: more) =
      (readPieces whole more).map fun (ps,r) => (.plain x :: ps,r) := by
  rw [readPieces.eq_def]
  simp only [(by decide : backslash ≠ doubleQuote),if_false,if_true,if_neg other,short]

theorem readPieces_itself (whole more : Text) {c : CodePoint} (noQuote : c ≠ doubleQuote)
    (noEscape : c ≠ backslash) (shown : 0x20 ≤ c.val) :
    readPieces whole (c :: more) = (readPieces whole more).map fun (ps,r) => (.plain c :: ps,r) := by
  rw [readPieces.eq_def]
  simp only [noQuote,noEscape,if_false]
  rw [if_neg (by omega)]

theorem joinPieces_unit {u : CodePoint} {pieces : List Piece}
    (apart : ∀ v more, pieces = .unit v :: more → ¬ (u.isHighSurrogate = true ∧ v.isLowSurrogate = true)) :
    joinPieces (.unit u :: pieces) = u :: joinPieces pieces := by
  cases pieces with
  | nil => simp [joinPieces]
  | cons piece more =>
    cases piece with
    | plain c => simp [joinPieces]
    | unit v =>
      have apart := apart v more rfl
      rw [joinPieces.eq_def]
      simp only [Bool.and_eq_true,apart,if_false]

theorem highUnit_val {c : CodePoint} : (highUnit c).val = 0xd800 + (c.val - 0x10000) / 0x400 :=
  codeUnit_val (by have := c.isLt; omega)

theorem lowUnit_val {c : CodePoint} : (lowUnit c).val = 0xdc00 + (c.val - 0x10000) % 0x400 :=
  codeUnit_val (by omega)

theorem isHighSurrogate_highUnit (c : CodePoint) : (highUnit c).isHighSurrogate = true := by
  have bound := c.isLt
  simp only [CodePoint.isHighSurrogate,highUnit_val,Bool.and_eq_true,decide_eq_true_eq]
  omega

theorem isLowSurrogate_lowUnit (c : CodePoint) : (lowUnit c).isLowSurrogate = true := by
  simp only [CodePoint.isLowSurrogate,lowUnit_val,Bool.and_eq_true,decide_eq_true_eq]
  omega

theorem joinSurrogates_units {c : CodePoint} (astral : ¬ c.val < 0x10000) :
    joinSurrogates (highUnit c) (lowUnit c) = c := by
  have bound := c.isLt
  have same : 0x10000 + (0xd800 + (c.val - 0x10000) / 0x400 - 0xd800) * 0x400 +
      (0xdc00 + (c.val - 0x10000) % 0x400 - 0xdc00) = c.val := by omega
  simp only [joinSurrogates,highUnit_val,lowUnit_val,same,bound,dif_pos]

end PullNotices.Json
