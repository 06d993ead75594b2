import PullNotices.Proofs.History.Acceptance
import PullNotices.Proofs.Json.Acceptance

/-! The layout of a history. A list of records may be written in many ways: with any space between the
tokens, with the members of an object in any order and others among them, and with any spelling of the
characters of a string. What is decoded hangs on the records alone. -/
namespace PullNotices
open Text

/-- The text is a JSON array of values that stand for the records. -/
def Record.Denoted (t : Text) (rs : List Record) : Prop :=
  ∃ ws, Json.Element t (.array ws) ∧ List.Forall₂ WrittenAs rs ws

theorem Record.denoted_iff {t : Text} {rs : List Record} :
    Denoted t rs ↔ ∃ v, Json.parse t = .ok v ∧ listOfJson v = .ok rs := by
  simp only [Denoted,listOfJson_eq_ok_iff,Json.parse_eq_ok_iff]
  constructor
  · rintro ⟨ws,document,written⟩
    exact ⟨_,document,ws,rfl,written⟩
  · rintro ⟨_,document,ws,rfl,written⟩
    exact ⟨ws,document,written⟩

namespace History

variable {t other : Text} {rs : List Record}

theorem decode_denoted (denoted : Record.Denoted t rs) : decode t = ofRecords rs := by
  obtain ⟨v,read,listed⟩ := Record.denoted_iff.mp denoted
  rw [decode_parsed read,ofJson,listed]

/-- Two texts of the same records have the same outcome, be it a history or an error: the one that the
records have. -/
theorem decode_relaid (denoted : Record.Denoted t rs) (again : Record.Denoted other rs) :
    decode t = decode other ∧ decode t = ofRecords rs := by
  have same := decode_denoted denoted
  exact ⟨same.trans (decode_denoted again).symm,same⟩

/-- A record with a member more and with its key in escapes. -/
def layoutByHand : Text :=
  "\t[ \x7b\"n\": -1.50E+2,\r\n\"\\u0070r\" :\"\\uD83d\\uDE00\",\"issues\":[ ],\"commit\":null\x7d ]\n"

def layoutAsWritten : Text := "[\n\x7b\"pr\":\"\\ud83d\\ude00\",\"issues\":[],\"commit\":null\x7d\n]"

def laidOut : Record := ⟨"😀",[],.null⟩

theorem decode_relaid_byHand : Record.Denoted layoutByHand [laidOut] ∧ Record.Denoted layoutAsWritten [laidOut] ∧
    decode layoutByHand = decode layoutAsWritten ∧
    (decode layoutAsWritten).map (fun found => found.history.entries.map Entry.key) = .ok [ofString "😀"] := by
  have denoted {t : Text} (listed : (Json.parse t).map Record.listOfJson = .ok (.ok [laidOut])) :
      Record.Denoted t [laidOut] := by
    obtain ⟨v,read,records⟩ := Json.map_eq_ok listed
    exact Record.denoted_iff.mpr ⟨v,read,records⟩
  have byHand : Record.Denoted layoutByHand [laidOut] := denoted (by decide +kernel)
  have written : Record.Denoted layoutAsWritten [laidOut] := denoted (by decide +kernel)
  exact ⟨byHand,written,(decode_relaid byHand written).1,by decide +kernel⟩

end History

end PullNotices
