import PullNotices.History.Entry
import PullNotices.Json.Shape
import PullNotices.Json.Writer

/-!
History records: one JSON object for each entry. A record without a commit member was written
before commits were recorded, and a null one belongs to a pull request that is not integrated.
Other members are skipped.
-/
namespace PullNotices

inductive CommitMember
  | absent
  | null
  | text (t : Text)
  deriving DecidableEq, Repr

structure Record where
  key : Text
  issues : List Text
  commit : CommitMember
  deriving DecidableEq, Repr

namespace Record

inductive EntryError
  | malformedHash (e : Hash.Malformed)
  | emptyKey
  deriving DecidableEq, Repr

def EntryError.message : EntryError → Text
  | .malformedHash e => e.message
  | .emptyKey => Entry.EmptyKey.message

def issuesOfJson (v : Json) : Json.Checked (List Text) :=
  match v with
  | .array vs => .each Json.asText 0 vs
  | _ => .fault .notList

def commitOfJson (v : Json) : Json.Checked CommitMember :=
  match v with
  | .null => .ok .null
  | .text t => .ok (.text t)
  | _ => .fault .notText

def ofJson (v : Json) : Json.Checked Record :=
  match v with
  | .object ms =>
    (Json.Checked.both (Json.required "pr" Json.asText ms)
      (Json.Checked.both (Json.required "issues" issuesOfJson ms)
        (Json.optional "commit" .absent commitOfJson ms))).map
      fun (key, issues, commit) => ⟨key, issues, commit⟩
  | _ => .fault (.notObject "HistoryRecord")

def listOfJson (v : Json) : Json.Checked (List Record) :=
  match v with
  | .array vs => .each ofJson 0 vs
  | _ => .fault .notList

def toJson (r : Record) : Json :=
  let commit : List (Text × Json) :=
    match r.commit with
    | .absent => []
    | .null => [("commit", .null)]
    | .text t => [("commit", .text t)]
  .object (("pr", .text r.key) :: ("issues", .array (r.issues.map Json.text)) :: commit)

def line (r : Record) : Text := r.toJson.write

def commitOf : CommitMember → Except Hash.Malformed Commit
  | .absent => .ok .placeholder
  | .null => .ok .unknown
  | .text t => (Hash.parse t).map Commit.ofHash

/-- The entry that a record stands for; a malformed hash is noticed before an empty key. -/
def toEntry (r : Record) : Except EntryError Entry :=
  match commitOf r.commit with
  | .error e => .error (.malformedHash e)
  | .ok commit =>
    match Entry.build r.key (.ofList r.issues) commit with
    | .error _ => .error .emptyKey
    | .ok entry => .ok entry

def ofEntry (e : Entry) : Record where
  key := e.key
  issues := e.issues.members
  commit :=
    match e.commit with
    | .placeholder => .absent
    | .unknown => .null
    | .known hash _ => .text hash.digits

end Record
end PullNotices
