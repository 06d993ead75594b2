import PullNotices.Forge.Payload
import PullNotices.Forge.Snapshot
import PullNotices.Proofs.History.PairFree

/-! Pull requests without surrogate pairs. Every payload that was read from JSON describes one, and
its snapshot is an entry that a history can be read back with. -/
namespace PullNotices
open Text

/-- No text that becomes part of the history holds a surrogate pair. -/
structure PullRequest.PairFree (pull : PullRequest) : Prop where
  name : pull.repository.name.PairFree
  id : pull.id.PairFree
  body : pull.body.PairFree

theorem PullRequest.PairFree.of_scalar {pull : PullRequest} (name : pull.repository.name.IsScalar)
    (id : pull.id.IsScalar) (body : pull.body.IsScalar) : pull.PairFree :=
  ⟨name.pairFree,id.pairFree,body.pairFree⟩

namespace Issue

theorem Reference.longestId?_prefix {t id : Text} (found : longestId? t = some id) : id <+: t := by
  induction t generalizing id with
  | nil => cases found
  | cons c t ih =>
    unfold longestId? at found
    split at found
    · cases found
    · split at found
      · rename_i longer here
        cases found
        exact (List.prefix_cons_inj c).mpr (ih here)
      · split at found
        · cases found
          exact ⟨t,rfl⟩
        · cases found

theorem Reference.ofLine?_infix {line id : Text} (found : ofLine? line = some id) : id <:+: line := by
  obtain ⟨rest,bracket,longest⟩ := Option.bind_eq_some_iff.mp found
  have start : rest <:+ (after? Section.bullet line).getD line := by
    rw [after?_eq_some.mp bracket]
    exact List.suffix_append _ _
  have whole : (after? Section.bullet line).getD line <:+ line := by
    cases bulleted : after? Section.bullet line with
    | none => exact List.suffix_rfl
    | some behind =>
      rw [after?_eq_some.mp bulleted]
      exact List.suffix_append _ _
  exact (Reference.longestId?_prefix longest).isInfix.trans (start.trans whole).isInfix

theorem Reference.ofLines_pairFree {t id : Text} (free : t.PairFree) (member : id ∈ ofLines t) : id.PairFree := by
  obtain ⟨line,inside,found⟩ := List.mem_filterMap.mp (TextSet.mem_ofList.mp member)
  exact (free.part (infix_of_mem_split inside)).part (Reference.ofLine?_infix found)

theorem Section.body?_infix {t : Text} {ls : List Text} (found : body? t = some ls) :
    ∀ line ∈ ls, line <:+: t := by
  obtain ⟨heading,_,here⟩ := List.exists_of_findSome?_eq_some found
  obtain ⟨rest,after,rfl⟩ := Option.map_eq_some_iff.mp here
  intro line member
  have tail : rest <:+ t := by
    rw [after?_eq_some.mp after]
    exact List.suffix_append _ _
  exact (infix_of_mem_split member).trans tail.isInfix

theorem Section.here?_pairFree {t links : Text} (free : t.PairFree) (found : here? t = some links) :
    links.PairFree := by
  unfold here? at found
  split at found
  · cases found
  · rename_i ls here
    have each : ∀ line ∈ ls.takeWhile isLinkLine, line.PairFree := by
      intro line member
      exact free.part (Section.body?_infix here line (List.takeWhile_prefix isLinkLine |>.subset member))
    split at found
    · cases found
    · cases found
      generalize ls.takeWhile isLinkLine = lines at each
      induction lines with
      | nil => exact .nil
      | cons line lines ih =>
        have rest := ih fun other member => each other (List.mem_cons_of_mem _ member)
        have first := each line (by simp)
        have feed : lineFeed.isSurrogate = false := by decide
        cases lines with
        | nil => simpa using first.cons feed
        | cons second more =>
          rw [List.flatMap_cons] at rest
          have joined : (line ++ lineFeed :: (second ++ more.flatMap (lineFeed :: ·))).PairFree :=
            .append_cons feed first (List.isChain_cons.mp rest).2
          simpa using joined.cons feed

theorem Section.find?_pairFree {t links : Text} (free : t.PairFree) (found : find? t = some links) :
    links.PairFree := by
  induction t with
  | nil => cases found
  | cons c t ih =>
    unfold find? at found
    split at found
    · rename_i links here
      cases found
      exact Section.here?_pairFree free here
    · exact ih (List.isChain_cons.mp free).2 found

theorem referenced_pairFree {body id : Text} (free : body.PairFree) (member : id ∈ referenced body) :
    id.PairFree := by
  unfold referenced at member
  split at member
  · rename_i links found
    exact Reference.ofLines_pairFree (Section.find?_pairFree free found) member
  · cases member

end Issue

def PullRequest.separator : CodePoint := '#'

theorem PullRequest.key_eq (pull : PullRequest) : pull.key = pull.repository.name ++ separator :: pull.id := by
  simp [key,separator,ofString]

theorem PullRequest.PairFree.key {pull : PullRequest} (free : pull.PairFree) : pull.key.PairFree := by
  rw [PullRequest.key_eq]
  exact .append_cons (by decide) free.name free.id

theorem PullRequest.PairFree.snapshot {pull : PullRequest} (free : pull.PairFree) (trust : Trust) :
    (pull.snapshot trust).PairFree :=
  ⟨free.key,fun _ member => Issue.referenced_pairFree free.body member⟩

theorem Text.ofInt_scalar (n : Int) : (ofInt n).IsScalar := by
  cases n with
  | ofNat n => exact map_ofChar_scalar _
  | negSucc n =>
    intro c member
    rcases List.mem_append.mp member with sign | digit
    · exact map_ofChar_scalar _ c sign
    · exact map_ofChar_scalar _ c digit

namespace Json

theorem PairFree.idOfJson {v : Json} {id : Text} (free : v.PairFree) (h : Payload.idOfJson v = .ok id) :
    id.PairFree := by
  unfold Payload.idOfJson at h
  split at h
  · cases h
    exact (ofInt_scalar _).pairFree
  · rename_i b
    cases h
    cases b <;> exact (map_ofChar_scalar _).pairFree
  · exact free.asText h

theorem PairFree.bodyOfJson {v : Json} {body : Text} (free : v.PairFree) (h : Payload.bodyOfJson v = .ok body) :
    body.PairFree := by
  unfold Payload.bodyOfJson at h
  split at h
  · cases h
    exact .nil
  · exact free.asText h

theorem PairFree.nameOfJson {v : Json} {name : { name : Text // name ≠ [] }} (free : v.PairFree)
    (h : Payload.nameOfJson v = .ok name) : name.val.PairFree := by
  unfold Payload.nameOfJson at h
  split at h
  · cases h
  · rename_i text here
    split at h
    · cases h
    · cases h
      exact free.asText here

theorem PairFree.repositoryOfJson {v : Json} {repository : Repository} (free : v.PairFree)
    (h : Payload.repositoryOfJson v = .ok repository) : repository.name.PairFree := by
  cases free with
  | @object ms each =>
    obtain ⟨⟨name,url⟩,found,same⟩ := map_eq_ok h
    cases same
    obtain ⟨value,here,checked⟩ := required_eq_ok (Checked.both_eq_ok found).1
    exact (PairFree.field? each here).nameOfJson checked
  | _ => cases h

end Json

/-- What a payload without surrogate pairs describes has none either. -/
theorem PullRequest.ofJson_pairFree {v : Json} {pull : PullRequest} (free : v.PairFree) (h : ofJson v = .ok pull) :
    pull.PairFree := by
  cases free with
  | @object ms each =>
    obtain ⟨⟨id,repository,title,body,labels,comments⟩,found,same⟩ := Json.map_eq_ok h
    cases same
    obtain ⟨first,others⟩ := Json.Checked.both_eq_ok found
    obtain ⟨second,others⟩ := Json.Checked.both_eq_ok others
    obtain ⟨_,others⟩ := Json.Checked.both_eq_ok others
    obtain ⟨described,_⟩ := Json.Checked.both_eq_ok others
    obtain ⟨idValue,idHere,idRead⟩ := Json.required_eq_ok first
    obtain ⟨repositoryValue,repositoryHere,repositoryRead⟩ := Json.required_eq_ok second
    refine ⟨(Json.PairFree.field? each repositoryHere).repositoryOfJson repositoryRead,
      (Json.PairFree.field? each idHere).idOfJson idRead,?_⟩
    unfold Json.optional at described
    split at described
    · rename_i bodyValue bodyHere
      exact (Json.PairFree.field? each bodyHere).bodyOfJson (Json.Checked.within_eq_ok described)
    · cases described
      exact .nil
  | _ => cases h

end PullNotices
