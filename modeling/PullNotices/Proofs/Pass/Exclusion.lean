import PullNotices.Forge.Task
import PullNotices.Proofs.Pass.Agenda

/-! Exclusion. Two passes meet where one of them changes what the other has to do, and that they can do
exactly when their pull requests have one key. Passes that exclude each other do have one. But a key
does not show where the name of a repository ends and an id begins, so pull requests of different
names and ids can have one key as well, and their passes may overlap. -/
namespace PullNotices

namespace PullRequest

/-- The name of the first goes on, behind a separator, with what the id of the second begins with. -/
def Straddles (first second : PullRequest) : Prop :=
  ∃ part, first.repository.name = second.repository.name ++ separator :: part ∧
    second.id = part ++ separator :: first.id

variable {first second : PullRequest}

theorem Straddles.separator_mem (straddles : first.Straddles second) :
    separator ∈ first.repository.name ∧ separator ∈ second.id := by
  obtain ⟨part,name,id⟩ := straddles
  rw [name,id]
  simp

theorem Straddles.name_ne (straddles : first.Straddles second) :
    first.repository.name ≠ second.repository.name := by
  obtain ⟨part,name,_⟩ := straddles
  intro same
  have longer := congrArg List.length name
  rw [same,List.length_append,List.length_cons] at longer
  omega

theorem Straddles.key_eq_key (straddles : first.Straddles second) : first.key = second.key := by
  obtain ⟨part,name,id⟩ := straddles
  rw [key_eq,key_eq,name,id,List.append_assoc,List.cons_append]

/-- Two ways to cut one key: at the same separator, or at two of them with a part in between. -/
theorem key_eq_key_iff : first.key = second.key ↔
    (first.repository.name = second.repository.name ∧ first.id = second.id) ∨
      first.Straddles second ∨ second.Straddles first := by
  constructor
  · intro same
    rw [key_eq,key_eq] at same
    rcases List.append_eq_append_iff.mp same with ⟨middle,name,rest⟩ | ⟨middle,name,rest⟩
    · cases middle with
      | nil => exact .inl ⟨by simpa using name.symm,(List.cons.inj rest).2⟩
      | cons c part =>
        obtain ⟨rfl,id⟩ := List.cons.inj rest
        exact .inr (.inr ⟨part,name,id⟩)
    · cases middle with
      | nil => exact .inl ⟨by simpa using name,(List.cons.inj rest).2.symm⟩
      | cons c part =>
        obtain ⟨rfl,id⟩ := List.cons.inj rest
        exact .inr (.inl ⟨part,name,id⟩)
  · rintro (⟨name,id⟩ | straddles | straddles)
    · rw [key_eq,key_eq,name,id]
    · exact straddles.key_eq_key
    · exact straddles.key_eq_key.symm

theorem mayOverlap_comm (first second : PullRequest) : first.mayOverlap second = second.mayOverlap first := by
  simp only [mayOverlap,ne_comm]

theorem mayOverlap_eq_false :
    first.mayOverlap second = false ↔ first.repository.name = second.repository.name ∧ first.id = second.id := by
  simp [mayOverlap,and_comm]

theorem mayOverlap_of_key_ne (apart : first.key ≠ second.key) : first.mayOverlap second = true := by
  cases overlap : first.mayOverlap second with
  | true => rfl
  | false => exact absurd (key_eq_key_iff.mpr (.inl (mayOverlap_eq_false.mp overlap))) apart

theorem excluded_iff : first.mayOverlap second = false ↔
    first.key = second.key ∧ ¬ first.Straddles second ∧ ¬ second.Straddles first := by
  constructor
  · intro overlap
    have parts := mayOverlap_eq_false.mp overlap
    refine ⟨key_eq_key_iff.mpr (.inl parts),?_,?_⟩
    · exact fun straddles => straddles.name_ne parts.1
    · exact fun straddles => straddles.name_ne parts.1.symm
  · rintro ⟨same,left,right⟩
    rcases key_eq_key_iff.mp same with parts | straddles | straddles
    · exact mayOverlap_eq_false.mpr parts
    · exact absurd straddles left
    · exact absurd straddles right

end PullRequest

namespace Pass

/-- In some history, what the first pass puts there changes what the second one has to do. -/
def Meets (first second : Pass) : Prop :=
  ∃ h : History, second.agenda (h.putAll (Errand.entries (first.agenda h))) ≠ second.agenda h

variable {first second : Pass}

theorem opened_mem_notices {pass : Pass} {h : History} :
    ⟨pass.pull,.opened⟩ ∈ Errand.notices (pass.agenda h) ↔ h.find? pass.pull.key = none := by
  constructor
  · intro member
    have told := (notices_agenda member).2
    unfold news at told
    split at told
    · assumption
    · simp [Entry.changes,Entry.integration] at told
  · intro missing
    rw [notices_agenda_eq,missing,if_neg (by simp)]
    unfold news
    rw [missing]
    simp [Entry.introduction]

theorem meets_iff : first.Meets second ↔ first.pull.key = second.pull.key := by
  constructor
  · rintro ⟨h,changed⟩
    by_contra apart
    refine changed (agenda_congr (History.find?_putAll_of_ne ?_))
    intro e member
    rw [key_of_mem_agenda member]
    exact apart
  · -- where nothing is recorded the second pass opens its pull request, unless the first one has
    intro same
    refine ⟨.empty,fun kept => ?_⟩
    have opened : ⟨second.pull,.opened⟩ ∈ Errand.notices (second.agenda .empty) := opened_mem_notices.mpr rfl
    rw [← kept,opened_mem_notices,putAll_agenda,← same,← entryOver_key,History.find?_put_self] at opened
    cases opened

/-- Exclusion is mutual, and passes that exclude each other meet. Those that meet exclude each other
unless, of their pull requests, the name of one goes on behind a separator with what the id of the
other begins with. Where no id holds a separator there are no such pull requests. -/
theorem excludes_iff (first second : Pass) :
    first.pull.mayOverlap second.pull = second.pull.mayOverlap first.pull ∧
      (first.Meets second ↔ first.pull.key = second.pull.key) ∧
      (first.pull.mayOverlap second.pull = false ↔ first.pull.key = second.pull.key ∧
        ¬ first.pull.Straddles second.pull ∧ ¬ second.pull.Straddles first.pull) ∧
      (PullRequest.separator ∉ first.pull.id → PullRequest.separator ∉ second.pull.id →
        (first.pull.mayOverlap second.pull = false ↔ first.pull.key = second.pull.key)) := by
  refine ⟨PullRequest.mayOverlap_comm _ _,meets_iff,PullRequest.excluded_iff,?_⟩
  intro left right
  have apart : ¬ first.pull.Straddles second.pull := fun straddles => right straddles.separator_mem.2
  have apart' : ¬ second.pull.Straddles first.pull := fun straddles => left straddles.separator_mem.2
  rw [PullRequest.excluded_iff]
  exact and_iff_left ⟨apart,apart'⟩

end Pass

def PullRequest.named (name id : String) (nonempty : Text.ofString name ≠ []) : PullRequest :=
  ⟨id,⟨name,"",nonempty⟩,"","",.empty,[]⟩

/-- Pull requests of one key do not always exclude each other. -/
theorem PullRequest.overlap_of_one_key :
    ¬ ∀ first second : PullRequest, first.mayOverlap second = false ↔ first.key = second.key := by
  intro claim
  have same : (named "a#b" "c" (by decide)).key = (named "a" "b#c" (by decide)).key := by decide
  have overlap : (named "a#b" "c" (by decide)).mayOverlap (named "a" "b#c" (by decide)) = true := by decide
  rw [(claim _ _).mpr same] at overlap
  cases overlap

end PullNotices
