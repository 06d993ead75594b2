import PullNotices.Forge.Evidence
import PullNotices.Proofs.Text.Pairs

/-! What is found as evidence stands there in full: the announcement, the forty digits of the hash and
the full stop, in a comment of the integrator on a pull request that carries the label. -/
namespace PullNotices
open Text

theorem CodePoint.mem_of_isLowerHex {c : CodePoint} (hex : c.isLowerHex = true) :
    c ∈ Text.ofString "0123456789abcdef" := by
  have all : ∀ n : Fin 128, isLowerHex (n.castLE (by decide)) = true →
      n.castLE (by decide) ∈ Text.ofString "0123456789abcdef" := by decide
  have small : c.val < 128 := by
    simp only [isLowerHex,isDigit,Bool.or_eq_true,Bool.and_eq_true,decide_eq_true_eq] at hex
    omega
  exact all ⟨c.val,small⟩ hex

theorem CodePoint.isLowerHex_of_mem {c : CodePoint} (member : c ∈ Text.ofString "0123456789abcdef") :
    c.isLowerHex = true := by
  have all : (Text.ofString "0123456789abcdef").all isLowerHex = true := by decide
  exact List.all_eq_true.mp all c member

theorem Hash.mem_of_mem_digits {hash : Hash} {c : CodePoint} (member : c ∈ hash.digits) :
    c ∈ Text.ofString "0123456789abcdef" :=
  CodePoint.mem_of_isLowerHex (List.all_eq_true.mp hash.isLowerHex_digits c member)

theorem Hash.exists_ne_zero {hash : Hash} (real : hash ≠ Hash.zero) : ∃ c ∈ hash.digits, c ≠ '0' := by
  by_contra! zeros
  have same : hash.digits = List.replicate 40 (CodePoint.ofChar '0') :=
    List.eq_replicate_iff.mpr ⟨hash.length_digits,zeros⟩
  apply real
  cases hash
  cases same
  rfl

/-- The words that announce the hash. -/
def Hash.announced (hash : Hash) : Text := "Pushed as commit " ++ hash.digits ++ "."

theorem Hash.ofDigits?_eq_some_iff {digits : Text} {hash : Hash} : ofDigits? digits = some hash ↔ hash.digits = digits := by
  constructor
  · intro found
    unfold ofDigits? at found
    split at found
    · cases found
      rfl
    · cases found
  · rintro rfl
    exact ofDigits?_digits hash

namespace Evidence

theorem here?_eq_some_iff {t : Text} {hash : Hash} : here? t = some hash ↔ hash.announced <+: t := by
  unfold here? Hash.announced announcement
  simp only [Option.bind_eq_bind,Option.bind_eq_some_iff,after?_eq_some,Hash.ofDigits?_eq_some_iff,Option.pure_def,
    Option.some.injEq]
  constructor
  · rintro ⟨rest,rfl,found,digits,behind,stop,rfl⟩
    refine ⟨behind,?_⟩
    rw [digits,List.append_assoc,List.append_assoc,← stop,List.take_append_drop]
  · rintro ⟨behind,rfl⟩
    refine ⟨hash.digits ++ ("." ++ behind),by simp,hash,?_,behind,?_,rfl⟩
    · rw [← hash.length_digits,List.take_left]
    · rw [← hash.length_digits,List.drop_left]

theorem infix_of_find? {t : Text} {hash : Hash} (found : find? t = some hash) : hash.announced <:+: t := by
  induction t with
  | nil => cases found
  | cons c t ih =>
    unfold find? at found
    split at found
    · rename_i first here
      cases found
      exact (here?_eq_some_iff.mp here).isInfix
    · exact (ih found).trans (List.infix_cons List.infix_rfl)

end Evidence

theorem PullRequest.evidence_of_integratedAs? {pull : PullRequest} {trust : Trust} {hash : Hash}
    (found : pull.integratedAs? trust = some hash) : trust.label ∈ pull.labels ∧
      ∃ comment ∈ pull.comments, comment.author.id = trust.integrator ∧ hash.announced <:+: comment.body := by
  unfold integratedAs? at found
  split at found
  · rename_i label
    obtain ⟨comment,member,here⟩ := List.exists_of_findSome?_eq_some found
    obtain ⟨inside,author⟩ := List.mem_filter.mp member
    exact ⟨label,comment,inside,by simpa using author,Evidence.infix_of_find? here⟩
  · cases found

end PullNotices
