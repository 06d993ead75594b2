import PullNotices.Proofs.History.Acceptance
import PullNotices.Proofs.Store.Update

/-! What is complained of when a store fails. There are complaints about the format of the history, about a
commit that is no hash, and about the file. Four flaws are not complained of but come through as they
are: a flaw of the path, octets that are no text, an integer of too many digits, and a record without a
key. `Flaw` says what is wrong with a file and what comes of it, and a store fails in no other way but
when a file cannot be replaced. -/
namespace PullNotices

inductive Complaint
  | historyFormat
  | malformedHash
  | storage
  deriving DecidableEq, Repr

/-- The complaint that a failure is, if it is one. -/
def Failure.complaint? : Failure → Option Complaint
  | .cannotCreate _ _ => some .storage
  | .cannotRead _ _ => some .storage
  | .cannotWrite _ _ => some .storage
  | .undecodable (.unreadable (.malformed _ _ _ _)) => some .historyFormat
  | .undecodable (.misshapen _) => some .historyFormat
  | .undecodable (.badRecord (.malformedHash _)) => some .malformedHash
  | _ => none

namespace History

/-- This is wrong with the text, and this is the complaint about it, if there is one. -/
inductive Flaw (t : Text) : Option Complaint → Prop
  | noJson {reason : Json.Reason} {offset line column : Nat} (shown : t.isBlank = false)
      (read : Json.parse t = .error (.malformed reason offset line column)) : Flaw t (some .historyFormat)
  | digits {count : Nat} (shown : t.isBlank = false) (read : Json.parse t = .error (.tooManyDigits count)) : Flaw t none
  | noRecords {v : Json} (read : Json.parse t = .ok v)
      (other : ∀ ws rs, v = .array ws → ¬ List.Forall₂ Record.WrittenAs rs ws) : Flaw t (some .historyFormat)
  | hash {ws : List Json} {before later : List Record} {r : Record} (read : Json.parse t = .ok (.array ws))
      (written : List.Forall₂ Record.WrittenAs (before ++ r :: later) ws)
      (good : ∀ other ∈ before, other.key ≠ [] ∧ other.commit.IsValid) (bad : ¬ r.commit.IsValid) :
      Flaw t (some .malformedHash)
  | key {ws : List Json} {before later : List Record} {r : Record} (read : Json.parse t = .ok (.array ws))
      (written : List.Forall₂ Record.WrittenAs (before ++ r :: later) ws)
      (good : ∀ other ∈ before, other.key ≠ [] ∧ other.commit.IsValid) (valid : r.commit.IsValid)
      (empty : r.key = []) : Flaw t none

variable {t : Text} {kind : Option Complaint}

theorem decode_unparsed {e : Json.ReadError} (shown : t.isBlank = false) (read : Json.parse t = .error e) :
    decode t = .error (.unreadable e) := by
  unfold decode
  rw [if_neg (by rw [shown]; decide),read]

theorem decode_listed {v : Json} {rs : List Record} (read : Json.parse t = .ok v)
    (listed : Record.listOfJson v = .ok rs) : decode t = ofRecords rs := by
  rw [decode_parsed read,ofJson,listed]

theorem decode_stopped {ws : List Json} {before later : List Record} {r : Record} {stop : Record.EntryError}
    (read : Json.parse t = .ok (.array ws)) (written : List.Forall₂ Record.WrittenAs (before ++ r :: later) ws)
    (good : ∀ other ∈ before, other.key ≠ [] ∧ other.commit.IsValid) (bad : r.toEntry = .error stop) :
    decode t = .error (.badRecord stop) := by
  have failed : entriesOf (before ++ r :: later) = .error stop := entriesOf_eq_error_iff.mpr
    ⟨before,r,later,rfl,fun other member => Record.exists_entry_iff.mpr (good other member),bad⟩
  rw [decode_listed read (Record.listOfJson_eq_ok_iff.mpr ⟨ws,rfl,written⟩),ofRecords,failed]

theorem flaw_of_decode {e : DecodeError} (failed : decode t = .error e) : Flaw t (Failure.undecodable e).complaint? := by
  cases shown : t.isBlank with
  | true =>
    rw [decode_blank shown] at failed
    cases failed
  | false =>
    cases read : Json.parse t with
    | error stop =>
      rw [decode_unparsed shown read] at failed
      cases failed
      cases stop with
      | malformed reason offset line column => exact .noJson shown read
      | tooManyDigits count => exact .digits shown read
    | ok v =>
      cases listed : Record.listOfJson v with
      | error faults =>
        rw [decode_parsed read,ofJson,listed] at failed
        cases failed
        refine .noRecords read fun ws rs same written => ?_
        rw [Record.listOfJson_eq_ok_iff.mpr ⟨ws,same,written⟩] at listed
        cases listed
      | ok rs =>
        obtain ⟨ws,rfl,written⟩ := Record.listOfJson_eq_ok_iff.mp listed
        rw [decode_listed read listed,ofRecords] at failed
        split at failed
        · rename_i stop made
          cases failed
          obtain ⟨before,r,later,rfl,good,bad⟩ := entriesOf_eq_error_iff.mp made
          have good := fun other member => Record.exists_entry_iff.mp (good other member)
          cases stop with
          | malformedHash e => exact .hash read written good (Record.toEntry_eq_malformed_iff.mp bad).1
          | emptyKey =>
            obtain ⟨valid,empty⟩ := Record.toEntry_eq_emptyKey_iff.mp bad
            exact .key read written good valid empty
        · cases failed

/-- A text is refused just if something is wrong with it. -/
theorem decode_error_iff :
    (∃ e, decode t = .error e ∧ (Failure.undecodable e).complaint? = kind) ↔ Flaw t kind := by
  constructor
  · rintro ⟨e,failed,rfl⟩
    exact flaw_of_decode failed
  · intro flaw
    cases flaw with
    | noJson shown read => exact ⟨_,decode_unparsed shown read,rfl⟩
    | digits shown read => exact ⟨_,decode_unparsed shown read,rfl⟩
    | @noRecords v read other =>
      cases listed : Record.listOfJson v with
      | error faults =>
        refine ⟨.misshapen faults,?_,rfl⟩
        rw [decode_parsed read,ofJson,listed]
      | ok rs =>
        obtain ⟨ws,same,written⟩ := Record.listOfJson_eq_ok_iff.mp listed
        exact absurd written (other ws rs same)
    | @hash ws before later r read written good bad =>
      obtain ⟨value,member⟩ := CommitMember.eq_text_of_not_isValid bad
      have stop : r.toEntry = .error (.malformedHash ⟨value⟩) := Record.toEntry_eq_malformed_iff.mpr ⟨bad,member⟩
      exact ⟨_,decode_stopped read written good stop,rfl⟩
    | key read written good valid empty =>
      have stop := Record.toEntry_eq_emptyKey_iff.mpr ⟨valid,empty⟩
      exact ⟨_,decode_stopped read written good stop,rfl⟩

end History

namespace Store

/-- This is wrong with the file, and this is the complaint about it, if there is one. A missing file is not
wrong. -/
inductive Flaw (path : Path) (files : FileTree) : Option Complaint → Prop
  | unusable {flaw : PathFlaw} (never : files.octetsAt path = .error (.unusable flaw)) : Flaw path files none
  | refused {refusal : Refusal} {named : Path} (refused : files.octetsAt path = .error (.refused refusal named))
      (other : refusal ≠ .notFound) : Flaw path files (some .storage)
  | notUtf8 {octets : List UInt8} {fault : Utf8.Fault} (held : files.octetsAt path = .ok octets)
      (unreadable : Utf8.decode octets = .error fault) : Flaw path files none
  | text {octets : List UInt8} {t : Text} {kind : Option Complaint} (held : files.octetsAt path = .ok octets)
      (decoded : Utf8.decode octets = .ok t) (flaw : History.Flaw t.normalizeBreaks kind) : Flaw path files kind

variable {path : Path} {files : FileTree} {kind : Option Complaint}

theorem text_of_octets {octets : List UInt8} (held : files.octetsAt path = .ok octets) :
    (ofHistory path).text files = Request.textOf octets := by
  change Request.answerRead path (files.octetsAt path) = _
  rw [held]
  rfl

theorem contents_of_text {octets : List UInt8} {t : Text} (held : files.octetsAt path = .ok octets)
    (decoded : Utf8.decode octets = .ok t) :
    (ofHistory path).contents files = (History.decode t.normalizeBreaks).mapError .undecodable := by
  apply contents_eq
  rw [text_of_octets held,Request.textOf,decoded]

theorem flaw_of_contents {failure : Failure} (failed : (ofHistory path).contents files = .error failure) :
    Flaw path files failure.complaint? := by
  have read : (ofHistory path).text files = Request.answerRead path (files.octetsAt path) := rfl
  cases held : files.octetsAt path with
  | error fault =>
    rw [held] at read
    cases fault with
    | unusable flaw =>
      rw [contents,read] at failed
      cases failed
      exact .unusable held
    | refused refusal named =>
      by_cases missing : refusal = .notFound
      · subst missing
        rw [contents_eq read] at failed
        cases failed
      · have read : (ofHistory path).text files = .error (.cannotRead path (.refused refusal named)) := by
          rw [read]
          cases refusal <;> first | rfl | exact absurd rfl missing
        rw [contents,read] at failed
        cases failed
        exact .refused held missing
  | ok octets =>
    cases decoded : Utf8.decode octets with
    | error fault =>
      rw [contents,text_of_octets held,Request.textOf,decoded] at failed
      cases failed
      exact .notUtf8 held decoded
    | ok t =>
      rw [contents_of_text held decoded] at failed
      cases decoding : History.decode t.normalizeBreaks with
      | ok found =>
        rw [decoding] at failed
        cases failed
      | error e =>
        rw [decoding] at failed
        cases failed
        exact .text held decoded (History.flaw_of_decode decoding)

/-- A file cannot be read as a history just if something is wrong with it. -/
theorem contents_error_iff :
    (∃ failure, (ofHistory path).contents files = .error failure ∧ failure.complaint? = kind) ↔
      Flaw path files kind := by
  constructor
  · rintro ⟨failure,failed,rfl⟩
    exact flaw_of_contents failed
  · intro flaw
    have read : (ofHistory path).text files = Request.answerRead path (files.octetsAt path) := rfl
    cases flaw with
    | @unusable flaw never =>
      rw [never] at read
      exact ⟨.unusablePath flaw,by rw [contents,read]; rfl,rfl⟩
    | @refused refusal named refused other =>
      refine ⟨.cannotRead path (.refused refusal named),?_,rfl⟩
      rw [refused] at read
      rw [contents,read]
      cases refusal <;> first | rfl | exact absurd rfl other
    | @notUtf8 octets fault held unreadable =>
      refine ⟨.notUtf8 fault,?_,rfl⟩
      rw [contents,text_of_octets held,Request.textOf,unreadable]
    | @text octets t _ held decoded flaw =>
      obtain ⟨e,failed,complaint⟩ := History.decode_error_iff.mpr flaw
      refine ⟨.undecodable e,?_,complaint⟩
      rw [contents_of_text held decoded,failed]
      rfl

theorem saved_of_unreadable {store : Store} {es : List Entry} {failure : Failure}
    (failed : store.contents files = .error failure) : store.saved es files = .error failure := by
  unfold saved
  cases read : store.text files with
  | error other =>
    rw [contents,read] at failed
    cases failed
    rfl
  | ok t =>
    rw [contents_eq read] at failed
    cases decoding : store.decode t with
    | error e =>
      rw [decoding] at failed
      cases failed
      dsimp only
      rw [decoding]
    | ok found =>
      rw [decoding] at failed
      cases failed

/-- A path that could be read has no flaw, so what keeps its file from being replaced is the file. -/
theorem complaint_of_refused {t : Text} {octets : List UInt8} {fault : FileFault}
    (read : (ofHistory path).text files = .ok t) (refused : files.replaceFile path octets = .error fault) :
    ((ofHistory path).refusal fault).complaint? = some .storage := by
  cases fault with
  | refused refusal named => rfl
  | unusable flaw =>
    have flawed := FileTree.checked_eq_unusable refused
    have never : files.octetsAt path = .error (.unusable flaw) := by rw [FileTree.octetsAt,FileTree.checked,flawed]
    have read : Request.answerRead path (files.octetsAt path) = .ok t := read
    rw [never] at read
    cases read

theorem saved_error_iff {es : List Entry} :
    (∃ failure, (ofHistory path).saved es files = .error failure ∧ failure.complaint? = kind) ↔
      Flaw path files kind ∨ kind = some .storage ∧ ∃ t found, (ofHistory path).text files = .ok t ∧
        History.decode t = .ok found ∧ (found.history.putAll es).encode ≠ t ∧ ¬ Writable path files := by
  rw [← contents_error_iff]
  constructor
  · rintro ⟨failure,failed,rfl⟩
    cases read : (ofHistory path).text files with
    | error other =>
      have unreadable : (ofHistory path).contents files = .error other := by rw [contents,read]
      rw [saved_of_unreadable unreadable] at failed
      cases failed
      exact .inl ⟨_,unreadable,rfl⟩
    | ok t =>
      cases decoding : History.decode t with
      | error e =>
        have unreadable : (ofHistory path).contents files = .error (.undecodable e) := by
          have decoding : (ofHistory path).decode t = .error e := decoding
          rw [contents_eq read,decoding]
          rfl
        rw [saved_of_unreadable unreadable] at failed
        cases failed
        exact .inl ⟨_,unreadable,rfl⟩
      | ok found =>
        have never : ¬ ∃ made, (ofHistory path).saved es files = .ok made := by
          rintro ⟨made,done⟩
          rw [done] at failed
          cases failed
        rw [exists_saved_iff read decoding,not_or] at never
        obtain ⟨other,refused⟩ := never
        rw [saved_eq read decoding,if_neg other] at failed
        obtain ⟨fault,attempt⟩ := replaceFile_of_not_writable refused (Utf8.encode (found.history.putAll es).encode)
        rw [attempt] at failed
        cases failed
        exact .inr ⟨complaint_of_refused read attempt,t,found,rfl,decoding,other,refused⟩
  · rintro (⟨failure,unreadable,rfl⟩ | ⟨rfl,t,found,read,decoding,other,refused⟩)
    · exact ⟨failure,saved_of_unreadable unreadable,rfl⟩
    · obtain ⟨fault,attempt⟩ := replaceFile_of_not_writable refused (Utf8.encode (found.history.putAll es).encode)
      refine ⟨(ofHistory path).refusal fault,?_,complaint_of_refused read attempt⟩
      rw [saved_eq read decoding,if_neg other,attempt]
      rfl

/-- How a store fails. To look at a history fails just if something is wrong with its file, and with the
complaint about that; there is none about octets that are no text, an integer of too many digits, a
record without a key, or a flaw of the path. To put entries fails in the same way, and but for that
only if the file has to be replaced and cannot be. -/
theorem fails_iff (path : Path) (world : World) (listeners : List Listener) (kind : Option Complaint) :
    ((∃ failure, ((ofHistory path).current.run listeners world).2 = .error failure ∧ failure.complaint? = kind) ↔
      Flaw path world.files kind) ∧
    (∀ first rest, (∃ failure, (((ofHistory path).putAll (first :: rest)).run listeners world).2 = .error failure ∧
        failure.complaint? = kind) ↔
      Flaw path world.files kind ∨ kind = some .storage ∧ ∃ t found, (ofHistory path).text world.files = .ok t ∧
        History.decode t = .ok found ∧ (found.history.putAll (first :: rest)).encode ≠ t ∧
        ¬ Writable path world.files) ∧
    (((ofHistory path).putAll []).run listeners world).2 = .ok () := by
  refine ⟨?_,?_,rfl⟩
  · rw [← contents_error_iff,run_current]
    cases (ofHistory path).contents world.files <;> simp
  · intro first rest
    obtain ⟨lines,run⟩ := run_putAll (ofHistory path) listeners world (List.cons_ne_nil first rest)
    rw [← saved_error_iff,run]
    cases (ofHistory path).saved (first :: rest) world.files <;> simp

def keyless : Text := Text.ofString "[\x7b\"pr\":\"\",\"issues\":[]\x7d]"

/-- Of an octet that no text begins with nobody complains, nor of a record whose key is empty. -/
theorem fails_without_complaint :
    ((ofHistory returnsPath).current.run [] (worldWith [0xff])).2 = .error (.notUtf8 ⟨.startOctet,0xff,0,1⟩) ∧
    ((ofHistory returnsPath).current.run [] (worldWith (Utf8.encode keyless))).2 =
      .error (.undecodable (.badRecord .emptyKey)) ∧
    ¬ ∀ octets failure, ((ofHistory returnsPath).current.run [] (worldWith octets)).2 = .error failure →
      failure.complaint? ≠ none := by
  have octet : ((ofHistory returnsPath).current.run [] (worldWith [0xff])).2 =
      .error (.notUtf8 ⟨.startOctet,0xff,0,1⟩) := by decide +kernel
  refine ⟨octet,by decide +kernel,fun always => ?_⟩
  exact always _ _ octet rfl

end Store

end PullNotices
