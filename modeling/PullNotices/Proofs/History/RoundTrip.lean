import PullNotices.Program
import PullNotices.Proofs.History.PairFree
import PullNotices.Proofs.Json.Writing
import PullNotices.Proofs.Text.Utf8

/-! A history without surrogate pairs is read back from what is written of it, from the text and
from the octets of the file. All that is written are printable characters of ASCII and line feeds. -/
namespace PullNotices
open Text

def CodePoint.isShown (c : CodePoint) : Bool := 0x20 ≤ c.val && c.val ≤ 0x7e

def CodePoint.isWritten (c : CodePoint) : Bool := c = lineFeed || (0x20 ≤ c.val && c.val ≤ 0x7e)

theorem CodePoint.isWritten_of_isShown {c : CodePoint} (shown : c.isShown = true) : c.isWritten = true := by
  unfold isWritten
  rw [Bool.or_eq_true]
  exact .inr shown

theorem CodePoint.isShown_hexDigit (n : Nat) : (hexDigit n).isShown = true := by
  unfold hexDigit
  split
  · simp [isShown]
    omega
  · split
    · simp [isShown]
      omega
    · decide

theorem ofHex_shown (width n : Nat) : (ofHex width n).all CodePoint.isShown = true := by
  induction width generalizing n with
  | zero => rfl
  | succ width ih => simp [ofHex,List.all_append,ih,CodePoint.isShown_hexDigit]

theorem all_join {p : CodePoint → Bool} {separator : Text} {ts : List Text} (between : separator.all p = true)
    (each : ∀ t ∈ ts, t.all p = true) : (join separator ts).all p = true := by
  induction ts with
  | nil => rfl
  | cons t ts ih =>
    have first := each t (by simp)
    have ih := ih fun t member => each t (List.mem_cons_of_mem _ member)
    cases ts with
    | nil => exact first
    | cons second ts => rw [Json.join_cons_cons,List.all_append,List.all_append,first,between,ih]; rfl

namespace Json

theorem unitEscape_shown (n : Nat) : (unitEscape n).all CodePoint.isShown = true := by
  unfold unitEscape
  rw [List.all_append,ofHex_shown]
  decide

theorem escapePoint_shown (c : CodePoint) : (escapePoint c).all CodePoint.isShown = true := by
  unfold escapePoint
  split
  · rename_i special
    rcases special with rfl | rfl <;> decide
  · split_ifs with _ _ _ _ _ shown
    · decide
    · decide
    · decide
    · decide
    · decide
    · simp [CodePoint.isShown,shown]
    · exact unitEscape_shown c.val
    · rw [List.all_append,unitEscape_shown,unitEscape_shown]
      rfl

theorem writeString_shown (t : Text) : (writeString t).all CodePoint.isShown = true := by
  have inner : (t.flatMap escapePoint).all CodePoint.isShown = true := by
    rw [List.all_flatMap]
    simp [escapePoint_shown]
  simp only [writeString,List.all_append,List.all_cons,List.all_nil,inner,Bool.and_true,Bool.and_self]
  decide

theorem writeElements_eq_join (vs : List Json) : writeElements vs = join "," (vs.map write) := by
  induction vs with
  | nil => rfl
  | cons v vs ih =>
    cases vs with
    | nil => rfl
    | cons second vs =>
      rw [writeElements,ih]
      · rfl
      · simp

theorem writeMembers_eq_join (ms : List (Text × Json)) :
    writeMembers ms = join "," (memberTexts (ms.map fun (k,v) => (k,write v))) := by
  induction ms with
  | nil => rfl
  | cons m ms ih =>
    obtain ⟨k,v⟩ := m
    cases ms with
    | nil => simp [writeMembers,memberTexts,join,ofString]
    | cons second ms =>
      rw [writeMembers,ih]
      · simp [memberTexts,join_cons_cons,ofString]
      · simp

end Json

namespace Record
open Json

def commitMembers : CommitMember → List (Text × Json)
  | .absent => []
  | .null => [("commit",.null)]
  | .text t => [("commit",.text t)]

theorem toJson_eq (r : Record) : r.toJson =
    .object (("pr",.text r.key) :: ("issues",.array (r.issues.map Json.text)) :: commitMembers r.commit) := by
  unfold toJson commitMembers
  cases r.commit <;> rfl

theorem line_eq (r : Record) : r.line = CodePoint.ofChar '\x7b' :: (join "," (memberTexts
    (("pr",writeString r.key) :: ("issues",write (.array (r.issues.map Json.text))) ::
      (commitMembers r.commit).map fun (k,v) => (k,write v))) ++ [CodePoint.ofChar '\x7d']) := by
  have object (ms : List (Text × Json)) :
      write (.object ms) = ofString "\x7b" ++ writeMembers ms ++ ofString "\x7d" := by rw [write]
  rw [line,toJson_eq,object,writeMembers_eq_join]
  rfl

theorem issues_eq (ids : List Text) : write (.array (ids.map Json.text)) =
    CodePoint.ofChar '[' :: ([] ++ join (CodePoint.ofChar ',' :: []) (ids.map writeString) ++
      ([] ++ [CodePoint.ofChar ']'])) := by
  have texts : (ids.map Json.text).map write = ids.map writeString := by
    rw [List.map_map]
    rfl
  rw [write,writeElements_eq_join,texts]
  rfl

theorem memberTexts_shown {ms : List (Text × Text)} (values : ∀ m ∈ ms, m.2.all CodePoint.isShown = true) :
    (join "," (memberTexts ms)).all CodePoint.isShown = true := by
  apply all_join (by decide)
  intro t member
  obtain ⟨⟨k,w⟩,inside,rfl⟩ := List.mem_map.mp member
  have value := values (k,w) inside
  dsimp only at value ⊢
  rw [List.all_append,List.all_cons,writeString_shown,value]
  decide

theorem line_shown (r : Record) : r.line.all CodePoint.isShown = true := by
  have ids : (write (.array (r.issues.map Json.text))).all CodePoint.isShown = true := by
    have inner : (join (CodePoint.ofChar ',' :: []) (r.issues.map writeString)).all CodePoint.isShown = true := by
      apply all_join (by decide)
      intro t member
      obtain ⟨id,_,rfl⟩ := List.mem_map.mp member
      exact writeString_shown id
    rw [issues_eq]
    simp only [List.nil_append,List.all_cons,List.all_append,List.all_nil,inner]
    decide
  have commit : ∀ m ∈ commitMembers r.commit, (write m.2).all CodePoint.isShown = true := by
    intro m member
    cases here : r.commit with
    | absent => simp [here,commitMembers] at member
    | null =>
      obtain rfl : m = (ofString "commit",Json.null) := by simpa [here,commitMembers] using member
      decide
    | text t =>
      obtain rfl : m = (ofString "commit",Json.text t) := by simpa [here,commitMembers] using member
      exact writeString_shown t
  rw [line_eq,List.all_cons,List.all_append,memberTexts_shown]
  · decide
  · intro m member
    rcases List.mem_cons.mp member with rfl | member
    · exact writeString_shown r.key
    rcases List.mem_cons.mp member with rfl | member
    · exact ids
    · obtain ⟨m,inside,rfl⟩ := List.mem_map.mp member
      exact commit m inside

theorem ofJson_toJson (r : Record) : ofJson r.toJson = .ok r := by
  have each (ids : List Text) (position : Nat) :
      Checked.each asText position (ids.map Json.text) = .ok ids := by
    induction ids generalizing position with
    | nil => rfl
    | cons id ids ih =>
      rw [List.map_cons,Checked.each,ih]
      rfl
  have issues : issuesOfJson (.array (r.issues.map Json.text)) = .ok r.issues := each r.issues 0
  obtain ⟨key,ids,commit⟩ := r
  rw [toJson_eq]
  cases commit with
  | absent =>
    have keyed : field? "pr" [(ofString "pr",Json.text key),(ofString "issues",.array (ids.map Json.text))] =
        some (.text key) := rfl
    have listed : field? "issues" [(ofString "pr",Json.text key),(ofString "issues",.array (ids.map Json.text))] =
        some (.array (ids.map Json.text)) := rfl
    have none : field? "commit" [(ofString "pr",Json.text key),(ofString "issues",.array (ids.map Json.text))] =
        Option.none := rfl
    simp only [ofJson,commitMembers,Json.required,Json.optional,keyed,listed,none,issues]
    rfl
  | null =>
    have keyed : field? "pr" [(ofString "pr",Json.text key),(ofString "issues",.array (ids.map Json.text)),
        (ofString "commit",.null)] = some (.text key) := rfl
    have listed : field? "issues" [(ofString "pr",Json.text key),(ofString "issues",.array (ids.map Json.text)),
        (ofString "commit",.null)] = some (.array (ids.map Json.text)) := rfl
    have found : field? "commit" [(ofString "pr",Json.text key),(ofString "issues",.array (ids.map Json.text)),
        (ofString "commit",.null)] = some .null := rfl
    simp only [ofJson,commitMembers,Json.required,Json.optional,keyed,listed,found,issues]
    rfl
  | text t =>
    have keyed : field? "pr" [(ofString "pr",Json.text key),(ofString "issues",.array (ids.map Json.text)),
        (ofString "commit",.text t)] = some (.text key) := rfl
    have listed : field? "issues" [(ofString "pr",Json.text key),(ofString "issues",.array (ids.map Json.text)),
        (ofString "commit",.text t)] = some (.array (ids.map Json.text)) := rfl
    have found : field? "commit" [(ofString "pr",Json.text key),(ofString "issues",.array (ids.map Json.text)),
        (ofString "commit",.text t)] = some (.text t) := rfl
    simp only [ofJson,commitMembers,Json.required,Json.optional,keyed,listed,found,issues]
    rfl

theorem toEntry_ofEntry (e : Entry) : (ofEntry e).toEntry = .ok e := by
  have commit : commitOf (ofEntry e).commit = .ok e.commit := by
    unfold ofEntry
    cases e.commit with
    | unknown => rfl
    | placeholder => rfl
    | known hash nonzero => simp [commitOf,Hash.parse_digits,Except.map,Commit.ofHash,nonzero]
  have built : Entry.build (ofEntry e).key (.ofList (ofEntry e).issues) e.commit = .ok e := by
    have issues : TextSet.ofList (ofEntry e).issues = e.issues := e.issues.ofList_members
    have keyed : (ofEntry e).key ≠ [] := e.key_ne_nil
    unfold Entry.build
    rw [dif_neg keyed,issues]
    rfl
  unfold toEntry
  rw [commit]
  dsimp only
  rw [built]

theorem listOfJson_ofEntries (es : List Entry) :
    listOfJson (.array (es.map fun e => (ofEntry e).toJson)) = .ok (es.map ofEntry) := by
  unfold listOfJson
  dsimp only
  generalize 0 = position
  induction es generalizing position with
  | nil => rfl
  | cons e es ih =>
    rw [List.map_cons,Checked.each,ofJson_toJson,ih]
    rfl

theorem line_denotes {e : Entry} (free : e.PairFree) : Denotes (ofEntry e).line (ofEntry e).toJson := by
  have ids : Denotes (write (.array ((ofEntry e).issues.map Json.text))) (.array ((ofEntry e).issues.map Json.text)) := by
    have texts : List.Forall₂ Denotes ((ofEntry e).issues.map writeString) ((ofEntry e).issues.map Json.text) := by
      rw [List.forall₂_map_left_iff,List.forall₂_map_right_iff,List.forall₂_same]
      intro id member
      exact .writeString (free.2 id member)
    rw [issues_eq]
    exact .joined .nil .nil texts
  have member : Text.PairFree "commit" := by decide
  have commit : List.Forall₂ (fun m v => m.1 = v.1 ∧ m.1.PairFree ∧ Denotes m.2 v.2)
      ((commitMembers (ofEntry e).commit).map fun (k,v) => (k,write v)) (commitMembers (ofEntry e).commit) := by
    cases here : e.commit with
    | unknown =>
      have null : (ofEntry e).commit = .null := by simp [ofEntry,here]
      rw [null]
      exact .cons ⟨rfl,member,.null⟩ .nil
    | placeholder =>
      have absent : (ofEntry e).commit = .absent := by simp [ofEntry,here]
      rw [absent]
      exact .nil
    | known hash nonzero =>
      have text : (ofEntry e).commit = .text hash.digits := by simp [ofEntry,here]
      have digits : hash.digits.PairFree := by
        apply IsScalar.pairFree
        intro c member
        have hex := List.all_eq_true.mp hash.isLowerHex_digits c member
        simp only [CodePoint.isLowerHex,CodePoint.isDigit,Bool.or_eq_true,Bool.and_eq_true,
          decide_eq_true_eq] at hex
        simp only [CodePoint.isSurrogate,CodePoint.isHighSurrogate,CodePoint.isLowSurrogate,
          Bool.or_eq_false_iff,Bool.and_eq_false_iff,decide_eq_false_iff_not]
        omega
      rw [text]
      exact .cons ⟨rfl,member,.writeString digits⟩ .nil
  rw [line_eq,toJson_eq]
  have key : Text.PairFree "pr" := by decide
  have issues : Text.PairFree "issues" := by decide
  exact .members (by simp) (.cons ⟨rfl,key,.writeString free.1⟩ (.cons ⟨rfl,issues,ids⟩ commit))

end Record

namespace History

theorem entriesOf_ofEntries (es : List Entry) : entriesOf (es.map Record.ofEntry) = .ok es := by
  induction es with
  | nil => rfl
  | cons e es ih =>
    rw [List.map_cons,entriesOf,Record.toEntry_ofEntry,ih]
    rfl

theorem encode_eq (h : History) : h.encode = CodePoint.ofChar '[' :: ([lineFeed] ++
    join (CodePoint.ofChar ',' :: [lineFeed]) (h.entries.map fun e => (Record.ofEntry e).line) ++
      ([lineFeed] ++ [CodePoint.ofChar ']'])) := rfl

theorem encode_written (h : History) : h.encode.all CodePoint.isWritten = true := by
  have inner : (join (CodePoint.ofChar ',' :: [lineFeed])
      (h.entries.map fun e => (Record.ofEntry e).line)).all CodePoint.isWritten = true := by
    apply all_join (by decide)
    intro t member
    obtain ⟨e,_,rfl⟩ := List.mem_map.mp member
    exact List.all_eq_true.mpr fun c inside =>
      CodePoint.isWritten_of_isShown (List.all_eq_true.mp (Record.line_shown _) c inside)
  rw [encode_eq]
  simp only [List.all_cons,List.all_append,List.all_nil,inner]
  decide

theorem encode_denotes {h : History} (free : h.PairFree) :
    Json.Denotes h.encode (.array (h.entries.map fun e => (Record.ofEntry e).toJson)) := by
  have records : List.Forall₂ Json.Denotes (h.entries.map fun e => (Record.ofEntry e).line)
      (h.entries.map fun e => (Record.ofEntry e).toJson) := by
    rw [List.forall₂_map_left_iff,List.forall₂_map_right_iff,List.forall₂_same]
    intro e member
    exact Record.line_denotes (free e member)
  have space : Json.IsGap [lineFeed] := by
    intro c member
    rw [List.mem_singleton.mp member]
    decide
  rw [encode_eq]
  exact .joined space space records

/-- A history is read back from its text. -/
theorem decode_encode {h : History} (free : h.PairFree) : decode h.encode = .ok ⟨h,0⟩ := by
  have parsed := (encode_denotes free).element.parse
  have shown : h.encode.isBlank = false := by
    rw [encode_eq,isBlank,List.all_cons]
    simp [(by decide : (CodePoint.ofChar '[').isBlank = false)]
  unfold decode
  rw [shown,parsed]
  simp only [Bool.false_eq_true,if_false,ofJson,Record.listOfJson_ofEntries,ofRecords,
    entriesOf_ofEntries,ofEntries_entries,size,Nat.sub_self]

end History

theorem History.encode_ascii (h : History) : h.encode.IsAscii := by
  intro c member
  have here := List.all_eq_true.mp h.encode_written c member
  simp only [CodePoint.isWritten,Bool.or_eq_true,Bool.and_eq_true,decide_eq_true_eq] at here
  rcases here with rfl | shown
  · decide
  · omega

theorem Request.textOf_encode (h : History) : textOf (Utf8.encode h.encode) = .ok h.encode := by
  have breaks : normalizeBreaks h.encode = h.encode := by
    apply normalizeBreaks_eq_self
    intro c member
    have here := List.all_eq_true.mp h.encode_written c member
    rintro rfl
    exact absurd here (by decide)
  unfold textOf
  rw [Utf8.decode_encode_ascii h.encode_ascii]
  dsimp only
  rw [breaks]

theorem Request.textOf_scalar {octets : List UInt8} {t : Text} (read : textOf octets = .ok t) : t.IsScalar := by
  unfold textOf at read
  split at read
  · rename_i found decoded
    cases read
    exact normalizeBreaks_scalar (Utf8.decodeFrom_scalar decoded)
  · cases read

theorem Request.answerRead_scalar {path : Path} {answer : Except FileFault (List UInt8)} {t : Text}
    (read : answerRead path answer = .ok t) : t.IsScalar := by
  unfold answerRead at read
  split at read
  · exact textOf_scalar read
  · cases read
    simp [IsScalar]
  · cases read
  · cases read

end PullNotices
