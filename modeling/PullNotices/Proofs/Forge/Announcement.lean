import PullNotices.Proofs.Forge.Evidence
import PullNotices.Proofs.Text.Search

/-! Which announcement counts. A pull request with the label counts as integrated as the commit that the
leftmost announcement in the first comment of the integrator that holds one names; what reads nearly like
an announcement is passed over, and so is every later comment. -/
namespace PullNotices
open Text

namespace Evidence

/-- A commit of these digits is announced where the text begins. -/
def Announces (t digits : Text) : Prop :=
  digits.length = 40 ∧ (∀ c ∈ digits, c ∈ ofString "0123456789abcdef") ∧
    ofString "Pushed as commit " ++ digits ++ ofString "." <+: t

def HasAnnouncement (t : Text) : Prop := ∃ i digits, Announces (t.drop i) digits

theorem announces_iff {t : Text} {hash : Hash} : here? t = some hash ↔ Announces t hash.digits := by
  rw [here?_eq_some_iff]
  exact ⟨fun begins => ⟨hash.length_digits,fun _ => Hash.mem_of_mem_digits,begins⟩,fun announces => announces.2.2⟩

theorem exists_announces_iff {t : Text} : (∃ digits, Announces t digits) ↔ ∃ hash : Hash, Announces t hash.digits := by
  constructor
  · rintro ⟨digits,announces⟩
    have hex : digits.all CodePoint.isLowerHex = true :=
      List.all_eq_true.mpr fun c member => CodePoint.isLowerHex_of_mem (announces.2.1 c member)
    exact ⟨⟨digits,announces.1,hex⟩,announces⟩
  · rintro ⟨hash,announces⟩
    exact ⟨hash.digits,announces⟩

theorem scans : Scans here? find? where
  nil := rfl
  cons c t := by
    rw [find?]
    cases here? (c :: t) <;> rfl

theorem find?_eq_some_iff {t : Text} {hash : Hash} : find? t = some hash ↔
    ∃ i, IsLeast {i | ∃ digits, Announces (t.drop i) digits} i ∧ Announces (t.drop i) hash.digits := by
  simp only [exists_announces_iff]
  exact scans.eq_some_iff fun _ _ => announces_iff

theorem find?_eq_none_iff {t : Text} : find? t = none ↔ ¬ HasAnnouncement t := by
  simp only [HasAnnouncement,exists_announces_iff,not_exists]
  exact scans.eq_none_iff fun _ _ => announces_iff

end Evidence

namespace PullRequest

variable {pull : PullRequest} {trust : Trust} {hash : Hash}

theorem integratedAs?_eq_some_iff : pull.integratedAs? trust = some hash ↔ trust.label ∈ pull.labels ∧
    ∃ (j : Nat) (comment : Comment), pull.comments[j]? = some comment ∧ comment.author.id = trust.integrator ∧
      (∀ i < j, ∀ earlier, pull.comments[i]? = some earlier → earlier.author.id = trust.integrator →
        ¬ Evidence.HasAnnouncement earlier.body) ∧
      ∃ k, IsLeast {k | ∃ digits, Evidence.Announces (comment.body.drop k) digits} k ∧
        Evidence.Announces (comment.body.drop k) hash.digits := by
  unfold integratedAs? commentsBy
  split
  · rename_i label
    rw [findSome?_filter,findSome?_eq_some_iff_getElem?]
    simp only [label,true_and,decide_eq_true_eq,Option.ite_none_right_eq_some,ite_eq_right_iff,
      Evidence.find?_eq_none_iff,Evidence.find?_eq_some_iff]
    refine exists_congr fun j => exists_congr fun comment => and_congr_right fun _ => ?_
    rw [and_assoc]
    exact and_congr_right fun _ => and_comm
  · rename_i unlabelled
    exact ⟨nofun,fun found => absurd found.1 unlabelled⟩

theorem integratedAs?_eq_none_iff : pull.integratedAs? trust = none ↔ trust.label ∉ pull.labels ∨
    ∀ comment ∈ pull.comments, comment.author.id = trust.integrator → ¬ Evidence.HasAnnouncement comment.body := by
  unfold integratedAs? commentsBy
  split
  · rename_i label
    simp only [label,not_true_eq_false,false_or,List.findSome?_eq_none_iff,List.mem_filter,decide_eq_true_eq,
      and_imp,Evidence.find?_eq_none_iff]
  · rename_i unlabelled
    exact ⟨fun _ => .inl unlabelled,fun _ => rfl⟩

theorem integratedAs?_append (more : List Comment) (found : pull.integratedAs? trust = some hash) :
    { pull with comments := pull.comments ++ more }.integratedAs? trust = some hash := by
  unfold integratedAs? commentsBy at found ⊢
  split at found
  · rename_i label
    rw [if_pos label,List.filter_append,List.findSome?_append,found]
    rfl
  · cases found

/-- The commit that a pull request was integrated as: with the label, the one that is announced leftmost in
the first comment of the integrator with an announcement in it, and none without the label or without such a
comment. So comments that come later, whoever wrote them, change nothing. -/
theorem integratedAs?_first (pull : PullRequest) (trust : Trust) :
    (∀ hash, pull.integratedAs? trust = some hash ↔ trust.label ∈ pull.labels ∧
      ∃ (j : Nat) (comment : Comment), pull.comments[j]? = some comment ∧ comment.author.id = trust.integrator ∧
        (∀ i < j, ∀ earlier, pull.comments[i]? = some earlier → earlier.author.id = trust.integrator →
          ¬ Evidence.HasAnnouncement earlier.body) ∧
        ∃ k, IsLeast {k | ∃ digits, Evidence.Announces (comment.body.drop k) digits} k ∧
          Evidence.Announces (comment.body.drop k) hash.digits) ∧
    (pull.integratedAs? trust = none ↔ trust.label ∉ pull.labels ∨
      ∀ comment ∈ pull.comments, comment.author.id = trust.integrator → ¬ Evidence.HasAnnouncement comment.body) ∧
    ∀ hash more, pull.integratedAs? trust = some hash →
      { pull with comments := pull.comments ++ more }.integratedAs? trust = some hash :=
  ⟨fun _ => integratedAs?_eq_some_iff,integratedAs?_eq_none_iff,fun _ more => integratedAs?_append more⟩

def comment (author body : String) : Comment := ⟨⟨author,""⟩,body,"",none⟩

/-- An announcement of somebody else, then nearly one of the integrator, and then one that begins twice. -/
def announcedLate : PullRequest where
  id := "1"
  repository := ⟨"jfx","",by decide⟩
  title := ""
  body := ""
  labels := .ofList ["integrated"]
  comments := [comment "ann" "Pushed as commit 2222222222222222222222222222222222222222.",
    comment "bot" "Pushed as commit 2222222222222222222222222222222222222222",
    comment "bot" "Pushed as commit Pushed as commit 1111111111111111111111111111111111111111."]

def announcedHash : Hash := ⟨List.replicate 40 '1',by decide,by decide⟩

theorem integratedAs?_first_late : announcedLate.integratedAs? ⟨"bot","integrated"⟩ = some announcedHash ∧
    { announcedLate with comments := announcedLate.comments ++ announcedLate.comments }.integratedAs?
      ⟨"bot","integrated"⟩ = some announcedHash := by
  have found : announcedLate.integratedAs? ⟨"bot","integrated"⟩ = some announcedHash := by decide +kernel
  exact ⟨found,(integratedAs?_first announcedLate _).2.2 _ _ found⟩

end PullRequest
end PullNotices
