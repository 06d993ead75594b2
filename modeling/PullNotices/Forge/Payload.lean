import PullNotices.Forge.Basic
import PullNotices.Json.Shape
import PullNotices.Timestamp.Reader

/-!
Pull requests from the values that a forge sends. Ids may be numbers, a description may be null, the
time of a comment goes by two names, labels may repeat, and members that nothing is known about are
skipped. All faults of a payload are found at once.
-/
namespace PullNotices

namespace Payload
open Json

/-- An id: a text, or an integer or truth value in its place. -/
def idOfJson (v : Json) : Checked Text :=
  match v with
  | .number (.int n) => .ok (Text.ofInt n)
  | .bool b => .ok (if b then "True" else "False")
  | v => asText v

/-- A description; null is an empty one. -/
def bodyOfJson (v : Json) : Checked Text :=
  match v with
  | .null => .ok []
  | v => asText v

def labelsOfJson (v : Json) : Checked LabelSet :=
  match v with
  | .array vs => (Checked.each asText 0 vs).map TextSet.ofList
  | _ => .fault .notSet

def timeFault : Timestamp.ReadError → FaultKind
  | .notTime => .notTime
  | .outOfRange => .timeOutOfRange
  | .notDate => .notDate

def momentOfJson (v : Json) : Checked (Option Timestamp) :=
  let checked : Except Timestamp.ReadError Timestamp → Checked (Option Timestamp)
    | .ok moment => .ok (some moment)
    | .error e => .fault (timeFault e)
  match v with
  | .null => .ok none
  | .text t => checked (Timestamp.ofText t)
  | .number n => checked (Timestamp.ofNumber n)
  | _ => .fault .notTime

/-- The time of a comment, under the first of its names that is there. -/
def createdAt (ms : List (Text × Json)) : Checked (Option Timestamp) :=
  let key : Text := if (field? "createdAt" ms).isSome then "createdAt" else "created_at"
  optional key none momentOfJson ms

def userOfJson (v : Json) : Checked User :=
  match v with
  | .object ms =>
    (Checked.both (required "id" idOfJson ms) (optional "username" [] asText ms)).map
      fun (id, username) => ⟨id, username⟩
  | _ => .fault (.notObject "User")

def commentOfJson (v : Json) : Checked Comment :=
  match v with
  | .object ms =>
    (Checked.both (required "author" userOfJson ms)
      (Checked.both (optional "body" [] asText ms)
        (Checked.both (optional "id" [] asText ms) (createdAt ms)))).map
      fun (author, body, id, createdAt) => ⟨author, body, id, createdAt⟩
  | _ => .fault (.notObject "Comment")

def commentsOfJson (v : Json) : Checked (List Comment) :=
  match v with
  | .array vs => Checked.each commentOfJson 0 vs
  | _ => .fault .notTuple

def nameOfJson (v : Json) : Checked { name : Text // name ≠ [] } :=
  match asText v with
  | .error faults => .error faults
  | .ok name => if h : name = [] then .fault .emptyRepositoryName else .ok ⟨name, h⟩

def repositoryOfJson (v : Json) : Checked Repository :=
  match v with
  | .object ms =>
    (Checked.both (required "name" nameOfJson ms) (optional "url" [] asText ms)).map
      fun (name, url) => ⟨name.val, url, name.property⟩
  | _ => .fault (.notObject "Repository")

end Payload

def PullRequest.ofJson (v : Json) : Json.Checked PullRequest :=
  match v with
  | .object ms =>
    (Json.Checked.both (Json.required "id" Payload.idOfJson ms)
      (Json.Checked.both (Json.required "repository" Payload.repositoryOfJson ms)
        (Json.Checked.both (Json.optional "title" [] Json.asText ms)
          (Json.Checked.both (Json.optional "body" [] Payload.bodyOfJson ms)
            (Json.Checked.both (Json.optional "labels" .empty Payload.labelsOfJson ms)
              (Json.optional "comments" [] Payload.commentsOfJson ms)))))).map
      fun (id, repository, title, body, labels, comments) =>
        ⟨id, repository, title, body, labels, comments⟩
  | _ => .fault (.notObject "PullRequest")

end PullNotices
