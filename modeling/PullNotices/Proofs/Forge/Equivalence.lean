import Mathlib.Data.Set.List
import Mathlib.Logic.Relation
import PullNotices.Proofs.Forge.PairFree
import PullNotices.Proofs.Json.Rewriting

/-! Payloads that mean the same. A forge may write an id as a number or as a text, leave an empty
description out or make it null, call the time of a comment by either of its names, repeat and reorder
labels, and add and reorder members in every object. However these rewritings are combined, one payload
describes a pull request just if the other does, and then it is the same pull request. -/
namespace PullNotices

namespace Payload
open Json Text

/-- An integer becomes the text that it is written as. -/
inductive IdStep : Json → Json → Prop
  | decimal {n : Numeral} {k : Int} (proper : n.IsProper) (whole : n.value = .int k)
      (signed : n.negative = true → n.whole ≠ "0") : IdStep (.number (.int k)) (.text n.written)

inductive BodyStep : Json → Json → Prop
  | empty : BodyStep .null (.text [])

/-- Labels are repeated and reordered. -/
inductive LabelsStep : Json → Json → Prop
  | same {vs ws : List Json} (members : ∀ v, v ∈ vs ↔ v ∈ ws) : LabelsStep (.array vs) (.array ws)

def userFormat : Format := [("id",IdStep),("username",Kept)]

def repositoryFormat : Format := [("name",Kept),("url",Kept)]

def remarkFormat : Format := [("author",userFormat.Step),("body",Kept),("id",Kept)]

def timesFormat : Format := [("createdAt",Kept),("created_at",Kept)]

def commentFormat : Format := remarkFormat ++ timesFormat

inductive CommentStep : Json → Json → Prop
  | object {v w : Json} (step : commentFormat.Step v w) : CommentStep v w
  /-- The time of a comment gets the second of its names where it has the first alone. -/
  | renamed {before after : List (Text × Json)} {v : Json}
      (alone : ∀ m ∈ before ++ after, m.1 ≠ "createdAt" ∧ m.1 ≠ "created_at") :
      CommentStep (.object (before ++ (ofString "createdAt",v) :: after))
        (.object (before ++ (ofString "created_at",v) :: after))

inductive CommentsStep : Json → Json → Prop
  | comment {before after : List Json} {v w : Json} (step : CommentStep v w) :
      CommentsStep (.array (before ++ v :: after)) (.array (before ++ w :: after))

def headFormat : Format :=
  [("id",IdStep),("repository",repositoryFormat.Step),("title",Kept),("labels",LabelsStep),("comments",CommentsStep)]

def bodyFormat : Format := [("body",BodyStep)]

def pullFormat : Format := headFormat ++ bodyFormat

inductive PullStep : Json → Json → Prop
  | object {v w : Json} (step : pullFormat.Step v w) : PullStep v w
  /-- A description that is null is left out. -/
  | noBody {before after : List (Text × Json)} (alone : ∀ m ∈ before ++ after, m.1 ≠ "body") :
      PullStep (.object (before ++ (ofString "body",.null) :: after)) (.object (before ++ after))

/-- One of the payloads comes from the other by rewritings, in any number and either direction. -/
abbrev Equivalent : Json → Json → Prop := Relation.EqvGen PullStep

variable {v w : Json} {ms others : List (Text × Json)}

theorem alike_of_kept {α : Type} {check : Json → Checked α} (v w : Json) (never : Kept v w) :
    (check v).toOption = (check w).toOption := never.elim

theorem idOfJson_step (v w : Json) (step : IdStep v w) : (idOfJson v).toOption = (idOfJson w).toOption := by
  cases step with
  | decimal proper whole signed => exact congrArg some (Numeral.ofInt_value proper whole signed)

theorem bodyOfJson_step (v w : Json) (step : BodyStep v w) : (bodyOfJson v).toOption = (bodyOfJson w).toOption := by
  cases step
  rfl

/-- Labels are texts, and what counts is which texts they are. -/
theorem labelsOfJson_eq_ok_iff {vs : List Json} {labels : LabelSet} : labelsOfJson (.array vs) = .ok labels ↔
    (∀ v ∈ vs, v ∈ Set.range Json.text) ∧ ∀ t, t ∈ labels ↔ Json.text t ∈ vs := by
  constructor
  · intro read
    obtain ⟨ts,each,same⟩ := map_eq_ok read
    have listed : Record.issuesOfJson (.array vs) = .ok ts := each
    obtain rfl : vs = ts.map .text := Json.array.inj (Record.issuesOfJson_eq_ok_iff.mp listed)
    rw [← same]
    exact ⟨by simp,fun t => by simp [TextSet.mem_ofList]⟩
  · rintro ⟨texts,members⟩
    have listed : vs ∈ Set.range (List.map Json.text) := by rwa [Set.range_list_map]
    obtain ⟨ts,rfl⟩ := listed
    have each : Checked.each asText 0 (ts.map .text) = .ok ts := Record.issuesOfJson_eq_ok_iff.mpr rfl
    have same : labels = .ofList ts := by
      apply TextSet.eq_of_mem_iff
      intro t
      rw [members,TextSet.mem_ofList]
      simp
    rw [same,labelsOfJson,each]
    rfl

theorem labelsOfJson_step (v w : Json) (step : LabelsStep v w) :
    (labelsOfJson v).toOption = (labelsOfJson w).toOption := by
  cases step with
  | same members =>
    apply Checked.toOption_eq_iff.mpr
    intro labels
    simp only [labelsOfJson_eq_ok_iff,members]

theorem userOfJson_step (v w : Json) (step : userFormat.Step v w) :
    (userOfJson v).toOption = (userOfJson w).toOption := by
  obtain ⟨ms,others,rfl,rfl,found⟩ := step.inv (by decide)
  have id : (required "id" idOfJson ms).toOption = (required "id" idOfJson others).toOption :=
    found.required (by simp [userFormat]) idOfJson_step
  have username : (optional "username" [] asText ms).toOption = (optional "username" [] asText others).toOption :=
    found.optional (by simp [userFormat]) alike_of_kept
  simp only [userOfJson,Checked.toOption_map,Checked.toOption_both,id,username]

theorem repositoryOfJson_step (v w : Json) (step : repositoryFormat.Step v w) :
    (repositoryOfJson v).toOption = (repositoryOfJson w).toOption := by
  obtain ⟨ms,others,rfl,rfl,found⟩ := step.inv (by decide)
  have name : (required "name" nameOfJson ms).toOption = (required "name" nameOfJson others).toOption :=
    found.required (by simp [repositoryFormat]) alike_of_kept
  have url : (optional "url" [] asText ms).toOption = (optional "url" [] asText others).toOption :=
    found.optional (by simp [repositoryFormat]) alike_of_kept
  simp only [repositoryOfJson,Checked.toOption_map,Checked.toOption_both,name,url]

/-- Of a time under both names the first counts. -/
theorem toOption_createdAt : (createdAt ms).toOption =
    (((field? "createdAt" ms).or (field? "created_at" ms)).map fun v => (momentOfJson v).toOption).getD (some none) := by
  unfold createdAt
  rw [toOption_optional]
  cases found : field? "createdAt" ms with
  | none => rfl
  | some v => simp [found]

theorem commentOfJson_alike (found : remarkFormat.Matches ms others)
    (time : (createdAt ms).toOption = (createdAt others).toOption) :
    (commentOfJson (.object ms)).toOption = (commentOfJson (.object others)).toOption := by
  have author : (required "author" userOfJson ms).toOption = (required "author" userOfJson others).toOption :=
    found.required (by simp [remarkFormat]) userOfJson_step
  have body : (optional "body" [] asText ms).toOption = (optional "body" [] asText others).toOption :=
    found.optional (by simp [remarkFormat]) alike_of_kept
  have id : (optional "id" [] asText ms).toOption = (optional "id" [] asText others).toOption :=
    found.optional (by simp [remarkFormat]) alike_of_kept
  simp only [commentOfJson,Checked.toOption_map,Checked.toOption_both,author,body,id,time]

theorem commentOfJson_step (v w : Json) (step : CommentStep v w) :
    (commentOfJson v).toOption = (commentOfJson w).toOption := by
  cases step with
  | object step =>
    obtain ⟨ms,others,rfl,rfl,found⟩ := step.inv (by decide)
    apply commentOfJson_alike (found.subset (List.subset_append_left _ _))
    have times := found.subset (List.subset_append_right remarkFormat timesFormat)
    have first : field? "createdAt" ms = field? "createdAt" others := times.kept (by simp [timesFormat])
    have second : field? "created_at" ms = field? "created_at" others := times.kept (by simp [timesFormat])
    rw [toOption_createdAt,toOption_createdAt,first,second]
  | @renamed before after v alone =>
    have first : ofString "createdAt" ∉ remarkFormat.map Prod.fst := by decide
    have second : ofString "created_at" ∉ remarkFormat.map Prod.fst := by decide
    have firstMissing : field? "createdAt" (before ++ after) = none :=
      field?_eq_none_iff.mpr fun m member => (alone m member).1
    have firstLast : field? "createdAt" after = none :=
      field?_eq_none_iff.mpr fun m member => (alone m (List.mem_append_right before member)).1
    have secondLast : field? "created_at" after = none :=
      field?_eq_none_iff.mpr fun m member => (alone m (List.mem_append_right before member)).2
    apply commentOfJson_alike
    · intro key rewrites listed
      apply Or.inl
      rw [field?_around (Format.ne_of_unknown first listed),field?_around (Format.ne_of_unknown second listed)]
    · rw [toOption_createdAt,toOption_createdAt,field?_here,field?_here,firstLast,secondLast,
        field?_around (by decide : ofString "created_at" ≠ "createdAt"),firstMissing]
      rfl

theorem commentsOfJson_step (v w : Json) (step : CommentsStep v w) :
    (commentsOfJson v).toOption = (commentsOfJson w).toOption := by
  cases step with
  | comment step =>
    simp only [commentsOfJson,Checked.toOption_each,List.mapM_append,List.mapM_cons,commentOfJson_step _ _ step]

theorem ofJson_alike (found : headFormat.Matches ms others)
    (body : (optional "body" [] bodyOfJson ms).toOption = (optional "body" [] bodyOfJson others).toOption) :
    (PullRequest.ofJson (.object ms)).toOption = (PullRequest.ofJson (.object others)).toOption := by
  have id : (required "id" idOfJson ms).toOption = (required "id" idOfJson others).toOption :=
    found.required (by simp [headFormat]) idOfJson_step
  have repository : (required "repository" repositoryOfJson ms).toOption =
      (required "repository" repositoryOfJson others).toOption :=
    found.required (by simp [headFormat]) repositoryOfJson_step
  have title : (optional "title" [] asText ms).toOption = (optional "title" [] asText others).toOption :=
    found.optional (by simp [headFormat]) alike_of_kept
  have labels : (optional "labels" .empty labelsOfJson ms).toOption =
      (optional "labels" .empty labelsOfJson others).toOption :=
    found.optional (by simp [headFormat]) labelsOfJson_step
  have comments : (optional "comments" [] commentsOfJson ms).toOption =
      (optional "comments" [] commentsOfJson others).toOption :=
    found.optional (by simp [headFormat]) commentsOfJson_step
  simp only [PullRequest.ofJson,Checked.toOption_map,Checked.toOption_both,id,repository,title,body,labels,comments]

/-- One rewriting leaves the pull request as it is. -/
theorem ofJson_step (v w : Json) (step : PullStep v w) :
    (PullRequest.ofJson v).toOption = (PullRequest.ofJson w).toOption := by
  cases step with
  | object step =>
    obtain ⟨ms,others,rfl,rfl,found⟩ := step.inv (by decide)
    apply ofJson_alike (found.subset (List.subset_append_left _ _))
    have described := found.subset (List.subset_append_right headFormat bodyFormat)
    exact described.optional (by simp [bodyFormat]) bodyOfJson_step
  | @noBody before after alone =>
    have body : ofString "body" ∉ headFormat.map Prod.fst := by decide
    have missing : field? "body" (before ++ after) = none := field?_eq_none_iff.mpr alone
    have last : field? "body" after = none :=
      field?_eq_none_iff.mpr fun m member => alone m (List.mem_append_right before member)
    apply ofJson_alike
    · intro key rewrites listed
      exact .inl (field?_around (Format.ne_of_unknown body listed))
    · rw [toOption_optional,toOption_optional,field?_here,last,missing]
      rfl

end Payload

/-- Of equivalent payloads each describes the pull request that the other describes, or neither describes any. -/
theorem PullRequest.ofJson_equivalent {v w : Json} (same : Payload.Equivalent v w) (pull : PullRequest) :
    ofJson v = .ok pull ↔ ofJson w = .ok pull := by
  have alike : (ofJson v).toOption = (ofJson w).toOption := by
    induction same with
    | rel v w step => exact Payload.ofJson_step v w step
    | refl => rfl
    | symm v w _ ih => exact ih.symm
    | trans u v w _ _ first second => exact first.trans second
  exact Json.Checked.toOption_eq_iff.mp alike pull

namespace Payload
open Json Text

def numbered : Json := .object [("id",.number (.int 42))]

def lettered : Json := .object [("id",.text "42")]

def extended : Json := .object [("bot",.bool true),("id",.text "42")]

def remark (author : Json) (timeKey : Text) : Json :=
  .object [("author",author),("body",.text "hello"),(timeKey,.text "2026-01-01T10:00:00Z")]

def labelsOnce : List Text := ["rfr","integrated"]

def labelsTwice : List Text := ["integrated","rfr","integrated"]

def described (id : Json) (labels : List Text) (comment : Json) : List (Text × Json) :=
  [("id",id),("repository",.object [("name",.text "skara")]),("labels",.array (labels.map .text)),
    ("comments",.array [comment])]

theorem described_keys (id : Json) (labels : List Text) (comment : Json) :
    (described id labels comment).map Prod.fst = (["id","repository","labels","comments"] : List Text) := rfl

def sent : Json :=
  .object (described (.number (.int 42)) labelsOnce (remark numbered "createdAt") ++ [(ofString "body",.null)])

/-- What becomes of the payload by one rewriting of each kind. -/
def resent : Json := .object (described (.text "42") labelsTwice (remark extended "created_at")).reverse

def sentPull : PullRequest := ⟨"42",⟨"skara",[],by decide⟩,[],[],.ofList labelsOnce,
  [⟨⟨"42",[]⟩,"hello",[],some ⟨⟨2026,1,1⟩,⟨10,0,0,0⟩,some 0⟩⟩]⟩

theorem idStep_42 : IdStep (.number (.int 42)) (.text "42") := by
  let numeral : Numeral := ⟨false,"42",[],none⟩
  have length : numeral.whole.length = 2 := rfl
  have proper : numeral.IsProper :=
    { digits := List.all_eq_true.mp (by decide)
      nonempty := by decide
      leading := .inr (by decide)
      fraction := nofun
      exponent := nofun
      limit := fun _ _ => by omega }
  exact .decimal proper rfl nofun

theorem remark_rewritten :
    Relation.ReflTransGen CommentStep (remark numbered "createdAt") (remark extended "created_at") := by
  have number : userFormat.Step numbered lettered :=
    @Format.Step.value userFormat [] [] _ _ _ IdStep (by simp [userFormat]) idStep_42
  have bot : userFormat.Step lettered extended :=
    @Format.Step.unknown userFormat [] _ (ofString "bot") _ (by decide)
  have author {v w : Json} (step : userFormat.Step v w) : CommentStep (remark v "createdAt") (remark w "createdAt") :=
    .object (@Format.Step.value commentFormat [] _ (ofString "author") _ _ _ (by simp [commentFormat,remarkFormat]) step)
  have time : CommentStep (remark extended "createdAt") (remark extended "created_at") :=
    @CommentStep.renamed [_,_] [] _ (by decide +kernel)
  exact ((Relation.ReflTransGen.single (author number)).tail (author bot)).tail time

theorem sent_rewritten : Relation.ReflTransGen PullStep sent resent := by
  let asked := remark numbered "createdAt"
  let answered (v : Json) := Json.object (described (.text "42") labelsTwice v)
  have named : ∀ key ∈ (described (.number (.int 42)) labelsOnce asked).map Prod.fst, key ≠ "body" := by
    rw [described_keys]
    decide
  have body : PullStep sent (.object (described (.number (.int 42)) labelsOnce asked)) :=
    @PullStep.noBody (described _ _ _) [] fun m member => named m.1 (List.mem_map_of_mem (by simpa using member))
  have id : PullStep (.object (described (.number (.int 42)) labelsOnce asked))
      (.object (described (.text "42") labelsOnce asked)) :=
    .object (@Format.Step.value pullFormat [] _ (ofString "id") _ _ IdStep (by simp [pullFormat,headFormat]) idStep_42)
  have labels : PullStep (.object (described (.text "42") labelsOnce asked)) (answered asked) :=
    .object (@Format.Step.value pullFormat [_,_] _ (ofString "labels") _ _ LabelsStep
      (by simp [pullFormat,headFormat]) (.same (by simp [labelsOnce,labelsTwice,or_comm])))
  have comment (v w : Json) (step : CommentStep v w) : PullStep (answered v) (answered w) :=
    .object (@Format.Step.value pullFormat [_,_,_] _ (ofString "comments") _ _ CommentsStep
      (by simp [pullFormat,headFormat]) (@CommentsStep.comment [] [] _ _ step))
  have order (v : Json) : PullStep (answered v) (.object (described (.text "42") labelsTwice v).reverse) :=
    .object (.reorder (List.reverse_perm _).symm (by
      rw [described_keys]
      decide))
  have opened := ((Relation.ReflTransGen.single body).tail id).tail labels
  exact opened.trans ((remark_rewritten.lift answered comment).tail (order _))

end Payload

theorem PullRequest.ofJson_equivalent_resent : Payload.Equivalent Payload.sent Payload.resent ∧
    ofJson Payload.sent = .ok Payload.sentPull ∧ ofJson Payload.resent = .ok Payload.sentPull := by
  have same : Payload.Equivalent Payload.sent Payload.resent :=
    Relation.EqvGen.reflTransGen_le_eqvGen _ _ _ Payload.sent_rewritten
  have read : ofJson Payload.sent = .ok Payload.sentPull := by decide +kernel
  exact ⟨same,read,(ofJson_equivalent same _).mp read⟩

end PullNotices
