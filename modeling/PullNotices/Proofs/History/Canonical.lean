import PullNotices.Proofs.History.Merge

/-! The canonical text of a history. Whatever is left out, repeated or spelled otherwise in a text that
can be read, what is written of it depends on the history alone and is read back as that history. It
has one record a line, in the order of the keys, and each record has its issues in order. -/
namespace PullNotices
open Text

namespace Text

/-- Each text but the last with the mark behind it. -/
def marked (mark : Text) : List Text → List Text
  | [] => []
  | [t] => [t]
  | t :: ts => (t ++ mark) :: marked mark ts

theorem mem_marked {mark t : Text} {ts : List Text} (member : t ∈ marked mark ts) :
    ∃ u ∈ ts, t = u ∨ t = u ++ mark := by
  induction ts with
  | nil => cases member
  | cons first ts ih =>
    cases ts with
    | nil => exact ⟨t,member,.inl rfl⟩
    | cons second ts =>
      rcases List.mem_cons.mp member with rfl | later
      · exact ⟨first,by simp,.inr rfl⟩
      · obtain ⟨u,inside,same⟩ := ih later
        exact ⟨u,List.mem_cons_of_mem _ inside,same⟩

theorem marked_ne_nil (mark : Text) {ts : List Text} (nonempty : ts ≠ []) : marked mark ts ≠ [] := by
  cases ts with
  | nil => exact absurd rfl nonempty
  | cons first ts => cases ts <;> exact List.cons_ne_nil _ _

theorem join_marked (separator mark : Text) (ts : List Text) :
    join separator (marked mark ts) = join (mark ++ separator) ts := by
  induction ts with
  | nil => rfl
  | cons first ts ih =>
    cases ts with
    | nil => rfl
    | cons second ts =>
      obtain ⟨next,rest,whole⟩ := List.exists_cons_of_ne_nil (marked_ne_nil mark (List.cons_ne_nil second ts))
      have step : marked mark (first :: second :: ts) = (first ++ mark) :: marked mark (second :: ts) := rfl
      rw [step,Json.join_cons_cons,← ih,whole,Json.join_cons_cons]
      simp only [List.append_assoc]

theorem join_concat (separator : Text) {ts : List Text} (nonempty : ts ≠ []) (last : Text) :
    join separator (ts ++ [last]) = join separator ts ++ separator ++ last := by
  induction ts with
  | nil => exact absurd rfl nonempty
  | cons first ts ih =>
    cases ts with
    | nil => rfl
    | cons second ts =>
      have rest := ih (List.cons_ne_nil second ts)
      rw [List.cons_append,List.cons_append,Json.join_cons_cons,Json.join_cons_cons,← List.cons_append,rest]
      simp only [List.append_assoc]

end Text

theorem Record.lineFeed_not_mem_line (r : Record) : lineFeed ∉ r.line := by
  intro member
  have shown := List.all_eq_true.mp r.line_shown lineFeed member
  exact absurd shown (by decide)

theorem History.lines_encode {h : History} (nonempty : h.entries ≠ []) : lines h.encode =
    ofString "[" :: marked "," (h.entries.map fun e => (Record.ofEntry e).line) ++ [ofString "]"] := by
  have records : h.entries.map (fun e => (Record.ofEntry e).line) ≠ [] := by simpa using nonempty
  have whole : h.encode = join [lineFeed]
      (ofString "[" :: marked "," (h.entries.map fun e => (Record.ofEntry e).line) ++ [ofString "]"]) := by
    obtain ⟨first,rest,parts⟩ := List.exists_cons_of_ne_nil (marked_ne_nil "," records)
    have joined := join_marked [lineFeed] "," (h.entries.map fun e => (Record.ofEntry e).line)
    rw [join_concat [lineFeed] (List.cons_ne_nil _ _),parts,Json.join_cons_cons,← parts,joined]
    simp [encode_eq,ofString]
  unfold lines
  rw [whole,split_join (by simp)]
  intro t member
  rcases List.mem_append.mp member with early | last
  · rcases List.mem_cons.mp early with rfl | inside
    · decide
    · obtain ⟨u,record,spelled⟩ := mem_marked inside
      obtain ⟨e,_,rfl⟩ := List.mem_map.mp record
      have plain := (Record.ofEntry e).lineFeed_not_mem_line
      rcases spelled with rfl | rfl
      · exact plain
      · simp only [List.mem_append,not_or]
        exact ⟨plain,by decide⟩
  · rw [List.mem_singleton.mp last]
    decide

/-- The entry is left when the added ones have taken the place of those that exist. -/
def Entry.MergedFrom (added existing : List Entry) (e : Entry) : Prop :=
  e.LastIn added ∨ (∀ other ∈ added, other.key ≠ e.key) ∧ e.LastIn existing

namespace Entry

variable {e : Entry} {es others : List Entry}

theorem lastIn_of_nodup (distinct : (es.map Entry.key).Nodup) : e.LastIn es ↔ e ∈ es := by
  refine ⟨LastIn.mem,fun member => ?_⟩
  obtain ⟨before,later,rfl⟩ := List.append_of_mem member
  refine ⟨before,later,rfl,?_⟩
  intro other inside same
  rw [List.map_append,List.map_cons] at distinct
  have once := (List.nodup_cons.mp (List.Nodup.of_append_right distinct)).1
  exact once (List.mem_map.mpr ⟨other,inside,same⟩)

theorem lastIn_iff_filter : e.LastIn es ↔ (es.filter fun other => other.key = e.key).getLast? = some e := by
  rw [lastIn_iff,← List.head?_filter,List.filter_reverse,List.head?_reverse]

/-- The order of different keys has no part in it. -/
theorem mergedFrom_of_filter {added more existing present : List Entry}
    (same : ∀ key, (added.filter fun e => e.key = key) = more.filter fun e => e.key = key)
    (sameToo : ∀ key, (existing.filter fun e => e.key = key) = present.filter fun e => e.key = key) :
    e.MergedFrom added existing ↔ e.MergedFrom more present := by
  have none : (∀ other ∈ added, other.key ≠ e.key) ↔ ∀ other ∈ more, other.key ≠ e.key := by
    have left := List.filter_eq_nil_iff (p := fun other : Entry => other.key = e.key) (l := added)
    have right := List.filter_eq_nil_iff (p := fun other : Entry => other.key = e.key) (l := more)
    rw [same] at left
    simpa using left.symm.trans right
  unfold MergedFrom
  rw [lastIn_iff_filter,lastIn_iff_filter,lastIn_iff_filter,lastIn_iff_filter,same,sameToo,none]

end Entry

namespace History

theorem encode_inj {h other : History} (free : h.PairFree) (freeToo : other.PairFree) :
    h.encode = other.encode ↔ h = other := by
  constructor
  · intro same
    have left := decode_encode free
    rw [same,decode_encode freeToo] at left
    cases left
    rfl
  · rintro rfl
    rfl

/-- The text that is written when entries are added to those that exist. -/
def written (added existing : List Entry) : Text := ((ofEntries existing).putAll added).encode

/-- What is written of a text once it was read. -/
def normalize (t : Text) : Except DecodeError Text :=
  (decode t).map fun found => written [] found.history.entries

theorem mem_merged {added existing : List Entry} {e : Entry} :
    e ∈ (ofEntries existing).putAll added ↔ e.MergedFrom added existing := by
  rw [mem_putAll,mem_ofEntries]
  rfl

theorem written_congr {added more existing present : List Entry}
    (same : ∀ e, Entry.MergedFrom added existing e ↔ Entry.MergedFrom more present e) :
    written added existing = written more present := by
  have equal : (ofEntries existing).putAll added = (ofEntries present).putAll more := by
    apply eq_of_mem_iff
    intro e
    rw [mem_merged,mem_merged]
    exact same e
  unfold written
  rw [equal]

theorem nodup_keys (h : History) : (h.entries.map Entry.key).Nodup := by
  have order : (h.entries.map Entry.key).Pairwise (· < ·) := List.pairwise_map.mpr h.ascending
  exact order.imp fun before same => by
    subst same
    exact List.lt_irrefl _ before

theorem written_enumeration {h : History} {order : List Entry} (enumerated : order.Perm h.entries) :
    written [] order = h.encode := by
  have distinct : (order.map Entry.key).Nodup := (enumerated.map Entry.key).nodup_iff.mpr h.nodup_keys
  have equal : ofEntries order = h := by
    apply eq_of_mem_iff
    intro e
    rw [mem_ofEntries,Entry.lastIn_of_nodup distinct]
    exact enumerated.mem_iff
  unfold written
  rw [equal]
  rfl

theorem normalize_eq {t : Text} {found : Decoded} (read : decode t = .ok found) :
    normalize t = .ok found.history.encode := by
  unfold normalize
  rw [read]
  exact congrArg Except.ok (written_enumeration (List.Perm.refl _))

/-- The records that are written are those of the merged entries, one a line and all in order. -/
theorem written_records (added existing : List Entry) : ∃ records : List Record,
    (∀ r, r ∈ records ↔ ∃ e, Entry.MergedFrom added existing e ∧ r = .ofEntry e) ∧
    (records ≠ [] → lines (written added existing) =
      ofString "[" :: marked "," (records.map Record.line) ++ [ofString "]"]) ∧
    (records.Pairwise fun a b => a.key < b.key) ∧ ∀ r ∈ records, r.issues.Pairwise (· < ·) := by
  let merged := (ofEntries existing).putAll added
  refine ⟨merged.entries.map Record.ofEntry,?_,?_,?_,?_⟩
  · intro r
    rw [List.mem_map]
    constructor
    · rintro ⟨e,member,rfl⟩
      exact ⟨e,mem_merged.mp member,rfl⟩
    · rintro ⟨e,left,rfl⟩
      exact ⟨e,mem_merged.mpr left,rfl⟩
  · intro some
    rw [List.map_map]
    have nonempty : merged.entries ≠ [] := by simpa using some
    exact lines_encode nonempty
  · exact List.pairwise_map.mpr merged.ascending
  · intro r member
    obtain ⟨e,_,rfl⟩ := List.mem_map.mp member
    exact e.issues.ascending

/-- What is written is canonical. For texts in characters that can be read, and for all that hold no pair
of surrogates, it is read back as the same history, it is what is written again, and it is the same
for two texts just if they hold the same history. It depends on the merged entries alone, in whatever
order keys and issues are given. It is in ASCII, and but for the empty history it has one record on
each line between two brackets, with keys that ascend and issues that ascend. -/
theorem written_canonical {t other : Text} {found others : Decoded} (read : decode t = .ok found)
    (readToo : decode other = .ok others) (plain : t.IsScalar ∨ found.history.PairFree)
    (plainToo : other.IsScalar ∨ others.history.PairFree) (added existing : List Entry) :
    (∃ canonical, normalize t = .ok canonical ∧ decode canonical = .ok ⟨found.history,0⟩ ∧
      normalize canonical = .ok canonical ∧
      ∀ order, order.Perm found.history.entries → written [] order = canonical) ∧
    (normalize t = normalize other ↔ found.history = others.history) ∧
    (∀ more present, (∀ e, Entry.MergedFrom added existing e ↔ Entry.MergedFrom more present e) →
      written added existing = written more present) ∧
    (∀ more present, (∀ key, (added.filter fun e => e.key = key) = more.filter fun e => e.key = key) →
      (∀ key, (existing.filter fun e => e.key = key) = present.filter fun e => e.key = key) →
      written added existing = written more present) ∧
    (∀ key ids again commit, (∀ id, id ∈ ids ↔ id ∈ again) →
      Entry.build key (.ofList ids) commit = Entry.build key (.ofList again) commit) ∧
    (written added existing).IsAscii ∧
    ∃ records : List Record, (∀ r, r ∈ records ↔ ∃ e, Entry.MergedFrom added existing e ∧ r = .ofEntry e) ∧
      (records ≠ [] → lines (written added existing) =
        ofString "[" :: marked "," (records.map Record.line) ++ [ofString "]"]) ∧
      (records.Pairwise fun a b => a.key < b.key) ∧ ∀ r ∈ records, r.issues.Pairwise (· < ·) := by
  have free : found.history.PairFree := plain.elim (fun scalar => decode_pairFree scalar read) id
  have freeToo : others.history.PairFree := plainToo.elim (fun scalar => decode_pairFree scalar readToo) id
  refine ⟨?_,?_,fun _ _ => written_congr,?_,?_,encode_ascii _,written_records added existing⟩
  · have again : decode found.history.encode = .ok ⟨found.history,0⟩ := decode_encode free
    have settled := normalize_eq again
    exact ⟨_,normalize_eq read,again,settled,fun order enumerated => written_enumeration enumerated⟩
  · rw [normalize_eq read,normalize_eq readToo,Except.ok.injEq]
    exact encode_inj free freeToo
  · intro more present same sameToo
    exact written_congr fun e => Entry.mergedFrom_of_filter same sameToo
  · intro key ids again commit same
    have issues : TextSet.ofList ids = TextSet.ofList again :=
      TextSet.eq_of_mem_iff fun id => by rw [TextSet.mem_ofList,TextSet.mem_ofList,same]
    rw [issues]

/-- A record and an issue given twice, a hash in capitals, a key spelled with an escape and a member that is
skipped. -/
def respelled : Text := Text.ofString
  ("[\x7b\"pr\":\"b\",\"issues\":[]\x7d,\x7b\"issues\":[\"B\",\"A\",\"B\"],\"by\":1,\"pr\":\"\\u0062\"," ++
    "\"commit\":\"ABCDEF0000000000000000000000000000000000\"\x7d]")

def spelled : Text := Text.ofString
  ("[\n\x7b\"pr\":\"b\",\"issues\":[\"A\",\"B\"]," ++
    "\"commit\":\"abcdef0000000000000000000000000000000000\"\x7d\n]")

def spelledHash : Hash := ⟨Text.ofString "abcdef0000000000000000000000000000000000",by decide +kernel,by decide +kernel⟩

def spelledEntry : Entry := ⟨"b",.ofList ["A","B"],.known spelledHash (by decide +kernel),by decide⟩

theorem written_canonical_respelled : normalize respelled = .ok spelled ∧
    decode spelled = .ok ⟨ofEntries [spelledEntry],0⟩ ∧ normalize spelled = .ok spelled := by
  have read : decode respelled = .ok ⟨ofEntries [spelledEntry],1⟩ := by decide +kernel
  have readToo : decode spelled = .ok ⟨ofEntries [spelledEntry],0⟩ := by decide +kernel
  obtain ⟨⟨canonical,left,back,again,_⟩,same,_⟩ := written_canonical read readToo (.inl (Text.map_ofChar_scalar _))
    (.inl (Text.map_ofChar_scalar _)) [] []
  have settled : normalize spelled = .ok spelled := by decide +kernel
  have equal := same.mpr rfl
  rw [settled,left] at equal
  cases equal
  exact ⟨left,back,again⟩

end History

end PullNotices
