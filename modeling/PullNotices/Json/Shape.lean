import PullNotices.Json.Basic

/-!
Checking the shape of JSON values. A check answers with what it reads or with every fault it finds,
in the order of the fields and then of the list positions; each fault carries the way to its place.
-/
namespace PullNotices.Json

inductive Step
  | field (name : Text)
  | index (position : Nat)
  deriving DecidableEq, Repr

inductive FaultKind
  | missing
  | notText
  | notList
  | notSet
  | notTuple
  /-- `model` names what the object was to describe. -/
  | notObject (model : Text)
  | emptyRepositoryName
  | notTime
  | timeOutOfRange
  | notDate
  deriving DecidableEq, Repr

structure Fault where
  kind : FaultKind
  place : List Step
  deriving DecidableEq, Repr

def FaultKind.message : FaultKind → Text
  | .missing => "Field required"
  | .notText => "Input should be a valid string"
  | .notList => "Input should be a valid list"
  | .notSet => "Input should be a valid frozenset"
  | .notTuple => "Input should be a valid tuple"
  | .notObject model => "Input should be a valid dictionary or instance of " ++ model
  | .emptyRepositoryName => "Value error, repository name must be non-empty"
  | .notTime => "Input should be a valid datetime"
  | .timeOutOfRange => "Input should be a valid datetime in the years 1 to 9999"
  | .notDate => "Input should be a valid datetime or date"

def faultSummary (count : Nat) (model : Text) : Text :=
  Text.ofNat count ++ (if count = 1 then " validation error for " else " validation errors for ") ++ model

/-- What was read, or every fault. -/
abbrev Checked (α : Type) := Except (List Fault) α

namespace Checked

variable {α β γ : Type}

def fault (kind : FaultKind) : Checked α := .error [⟨kind, []⟩]

/-- Both parts; the faults of the first stand before those of the second. -/
def both : Checked α → Checked β → Checked (α × β)
  | .ok a, .ok b => .ok (a, b)
  | .ok _, .error fs => .error fs
  | .error fs, .ok _ => .error fs
  | .error fs, .error gs => .error (fs ++ gs)

def within (step : Step) (c : Checked α) : Checked α :=
  c.mapError fun fs => fs.map fun f => { f with place := step :: f.place }

/-- Checks every element; the first stands at `position`. -/
def each (check : Json → Checked α) (position : Nat) : List Json → Checked (List α)
  | [] => .ok []
  | v :: vs => (both (within (.index position) (check v)) (each check (position + 1) vs)).map
      fun (a, rest) => a :: rest

end Checked

def asText : Json → Checked Text
  | .text t => .ok t
  | _ => .fault .notText

def required {α : Type} (key : Text) (check : Json → Checked α) (ms : List (Text × Json)) : Checked α :=
  .within (.field key) <|
    match field? key ms with
    | some v => check v
    | none => .fault .missing

def optional {α : Type} (key : Text) (absent : α) (check : Json → Checked α)
    (ms : List (Text × Json)) : Checked α :=
  match field? key ms with
  | some v => .within (.field key) (check v)
  | none => .ok absent

end PullNotices.Json
