import PullNotices.History.Basic
import PullNotices.History.Record
import PullNotices.Json.Reader
import PullNotices.Text.Blank

/-!
Histories as texts: a JSON array with one record on each line. A blank text is the empty history.
Of records with one key the last counts; how many were dropped is told beside the history.
-/
namespace PullNotices.History

/-- The history as a text, one record on each line between two brackets. -/
def encode (h : History) : Text :=
  "[\n" ++ Text.join ",\n" (h.entries.map fun e => (Record.ofEntry e).line) ++ "\n]"

inductive DecodeError
  | unreadable (e : Json.ReadError)
  | misshapen (faults : List Json.Fault)
  | badRecord (e : Record.EntryError)
  deriving DecidableEq, Repr

def DecodeError.message : DecodeError → Text
  | .unreadable (.tooManyDigits count) => Json.ReadError.message (.tooManyDigits count)
  | .unreadable e => "history is not valid JSON: " ++ e.message
  | .misshapen faults =>
    "history records are malformed: " ++ Json.faultSummary faults.length "list[HistoryRecord]"
  | .badRecord e => e.message

structure Decoded where
  history : History
  duplicates : Nat
  deriving DecidableEq

/-- The entries of records, in order, up to the first that makes none. -/
def entriesOf : List Record → Except Record.EntryError (List Entry)
  | [] => .ok []
  | r :: rs =>
    match r.toEntry with
    | .error e => .error e
    | .ok entry => (entriesOf rs).map (entry :: ·)

def ofRecords (rs : List Record) : Except DecodeError Decoded :=
  match entriesOf rs with
  | .error e => .error (.badRecord e)
  | .ok entries =>
    let history := ofEntries entries
    .ok ⟨history, entries.length - history.size⟩

def ofJson (v : Json) : Except DecodeError Decoded :=
  match Record.listOfJson v with
  | .error faults => .error (.misshapen faults)
  | .ok records => ofRecords records

def decode (t : Text) : Except DecodeError Decoded :=
  if t.isBlank then .ok ⟨empty, 0⟩
  else match Json.parse t with
    | .error e => .error (.unreadable e)
    | .ok v => ofJson v

end PullNotices.History
