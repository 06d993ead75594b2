import PullNotices.Proofs.History.Canonical
import PullNotices.Proofs.Store.Contents

/-! A store as a map. Putting entries into a file that can be read replaces what the map holds under
their keys. Whatever was spelled otherwise in the file, the octets change only if its text does, and
then they are those of the canonical text. Entries can be put all together or in parts. -/
namespace PullNotices.Store

variable {path : Path} {files made : FileTree} {t : Text} {found : History.Decoded} {es : List Entry}

/-- Whether the file can be replaced; it does not matter by what. -/
def Writable (path : Path) (files : FileTree) : Prop := ∃ made, files.replaceFile path [] = .ok made

theorem Writable.replaceFile (writable : Writable path files) (octets : List UInt8) :
    ∃ made, files.replaceFile path octets = .ok made := by
  obtain ⟨made,possible⟩ := writable
  cases attempt : files.replaceFile path octets with
  | ok other => exact ⟨other,rfl⟩
  | error fault =>
    rw [FileTree.replaceFile_error attempt []] at possible
    cases possible

theorem replaceFile_of_not_writable (refused : ¬ Writable path files) (octets : List UInt8) :
    ∃ fault, files.replaceFile path octets = .error fault := by
  cases attempt : files.replaceFile path [] with
  | ok made => exact absurd ⟨made,attempt⟩ refused
  | error fault => exact ⟨fault,FileTree.replaceFile_error attempt octets⟩

section Saved
variable (read : (ofHistory path).text files = .ok t) (decoding : History.decode t = .ok found)
include read decoding

theorem saved_eq : (ofHistory path).saved es files =
    if (found.history.putAll es).encode = t then .ok files
    else (files.replaceFile path (Utf8.encode (found.history.putAll es).encode)).mapError (ofHistory path).refusal := by
  have decoding : (ofHistory path).decode t = .ok found := decoding
  unfold saved
  rw [read]
  dsimp only
  rw [decoding]
  rfl

theorem saved_eq_ok (done : (ofHistory path).saved es files = .ok made) :
    (ofHistory path).text made = .ok (found.history.putAll es).encode ∧
      made.octetsAt path = if (found.history.putAll es).encode = t then files.octetsAt path
        else .ok (Utf8.encode (found.history.putAll es).encode) := by
  rw [saved_eq read decoding] at done
  split at done
  · rename_i same
    cases done
    rw [if_pos same,same]
    exact ⟨read,rfl⟩
  · rename_i other
    rw [if_neg other]
    cases attempt : files.replaceFile path (Utf8.encode (found.history.putAll es).encode) with
    | error fault =>
      rw [attempt] at done
      cases done
    | ok left =>
      rw [attempt] at done
      cases done
      have octets := FileTree.octetsAt_replaceFile attempt
      refine ⟨?_,octets⟩
      change Request.answerRead path (made.octetsAt path) = _
      rw [octets,Request.answerRead,Request.textOf_encode]

theorem exists_saved_iff (es : List Entry) : (∃ made, (ofHistory path).saved es files = .ok made) ↔
    (found.history.putAll es).encode = t ∨ Writable path files := by
  rw [saved_eq read decoding]
  constructor
  · rintro ⟨made,done⟩
    split at done
    · rename_i same
      exact .inl same
    · by_contra neither
      obtain ⟨fault,refused⟩ := replaceFile_of_not_writable (fun writable => neither (.inr writable)) _
      rw [refused] at done
      cases done
  · rintro (same | writable)
    · exact ⟨files,if_pos same⟩
    · split
      · exact ⟨files,rfl⟩
      · obtain ⟨made,written⟩ := writable.replaceFile (Utf8.encode (found.history.putAll es).encode)
        exact ⟨made,by rw [written]; rfl⟩

end Saved

/-- When entries are put, the text of the file is the one they make, or the file is replaced. -/
theorem saved_cases {store : Store} (done : store.saved es files = .ok made) :
    (made = files ∧ ∃ h : History, store.text files = .ok (store.encode (h.putAll es))) ∨
      ∃ octets, files.replaceFile store.path octets = .ok made := by
  unfold saved at done
  split at done
  · cases done
  · rename_i t read
    split at done
    · cases done
    · rename_i decoded _
      split at done
      · rename_i same
        cases done
        rw [← same] at read
        exact .inl ⟨rfl,decoded.history,read⟩
      · refine .inr ⟨Utf8.encode (store.encode (decoded.history.putAll es)),?_⟩
        cases attempt : files.replaceFile store.path (Utf8.encode (store.encode (decoded.history.putAll es))) with
        | error fault =>
          rw [attempt] at done
          cases done
        | ok other =>
          rw [attempt] at done
          cases done
          rfl

/-- Putting entries fails as reading them does, or as the file is refused. -/
theorem saved_failed {store : Store} {failure : Failure} (failed : store.saved es files = .error failure) :
    store.contents files = .error failure ∨
      ∃ octets fault, files.replaceFile store.path octets = .error fault ∧ failure = store.refusal fault := by
  unfold saved at failed
  cases read : store.text files with
  | error unread =>
    rw [read] at failed
    cases failed
    exact .inl (by rw [contents,read])
  | ok t =>
    rw [contents_eq read]
    rw [read] at failed
    dsimp only at failed
    split at failed
    · rename_i decoding
      cases failed
      exact .inl (by rw [decoding]; rfl)
    · rename_i decoded _
      split at failed
      · cases failed
      · cases attempt : files.replaceFile store.path (Utf8.encode (store.encode (decoded.history.putAll es))) with
        | ok other =>
          rw [attempt] at failed
          cases failed
        | error fault =>
          rw [attempt] at failed
          cases failed
          exact .inr ⟨_,fault,attempt,rfl⟩

theorem Writable.saved (writable : Writable path files) (done : (ofHistory path).saved es files = .ok made) :
    Writable path made := by
  rcases saved_cases done with ⟨rfl,_⟩ | ⟨octets,written⟩
  · exact writable
  · exact FileTree.replaceFile_again written []

/-- The file that is left when entries were put, be it in vain. -/
def left (store : Store) (files : FileTree) : List Entry → FileTree
  | [] => files
  | e :: es => (store.saved (e :: es) files).toOption.getD files

theorem left_of_saved {store : Store} (nonempty : es ≠ []) (done : store.saved es files = .ok made) :
    store.left files es = made := by
  obtain ⟨first,rest,rfl⟩ := List.exists_cons_of_ne_nil nonempty
  rw [left,done]
  rfl

theorem left_of_refused {store : Store} {failure : Failure} (nonempty : es ≠ [])
    (refused : store.saved es files = .error failure) : store.left files es = files := by
  obtain ⟨first,rest,rfl⟩ := List.exists_cons_of_ne_nil nonempty
  rw [left,refused]
  rfl

theorem files_run_putAll (store : Store) (es : List Entry) (listeners : List Listener) (world : World) :
    ((store.putAll es).run listeners world).1.files = store.left world.files es := by
  cases es with
  | nil => rfl
  | cons first rest =>
    obtain ⟨lines,run⟩ := store.run_putAll listeners world (List.cons_ne_nil first rest)
    rw [run]
    cases done : store.saved (first :: rest) world.files with
    | error failure => exact (left_of_refused (List.cons_ne_nil first rest) done).symm
    | ok made => exact (left_of_saved (List.cons_ne_nil first rest) done).symm

theorem run_putAll_ok_iff (store : Store) (es : List Entry) (listeners : List Listener) (world : World) :
    ((store.putAll es).run listeners world).2 = .ok () ↔ es = [] ∨ ∃ made, store.saved es world.files = .ok made := by
  by_cases empty : es = []
  · subst es
    exact ⟨fun _ => .inl rfl,fun _ => rfl⟩
  · obtain ⟨lines,run⟩ := store.run_putAll listeners world empty
    rw [run]
    cases store.saved es world.files with
    | error failure => simp [empty]
    | ok made => simp [empty]

theorem left_of_not_writable (refused : ¬ Writable path files) : (ofHistory path).left files es = files := by
  by_cases empty : es = []
  · subst es
    rfl
  · cases done : (ofHistory path).saved es files with
    | error failure => exact left_of_refused empty done
    | ok made =>
      rw [left_of_saved empty done]
      rcases saved_cases done with ⟨same,_⟩ | ⟨octets,written⟩
      · exact same
      · have written : files.replaceFile path octets = .ok made := written
        obtain ⟨fault,never⟩ := replaceFile_of_not_writable refused octets
        rw [never] at written
        cases written

theorem text_left (es : List Entry) (read : (ofHistory path).text files = .ok t) (decoding : History.decode t = .ok found)
    (writable : Writable path files) : Writable path ((ofHistory path).left files es) ∧
      (ofHistory path).text ((ofHistory path).left files es) =
        .ok (if es = [] then t else (found.history.putAll es).encode) := by
  by_cases empty : es = []
  · subst es
    exact ⟨writable,read⟩
  · obtain ⟨made,done⟩ := (exists_saved_iff read decoding es).mpr (.inr writable)
    rw [left_of_saved empty done,if_neg empty]
    exact ⟨writable.saved done,(saved_eq_ok read decoding done).1⟩

/-- Putting entries in two parts leaves a file that is read as if they had been put together. -/
theorem text_left_append {xs ys : List Entry} (read : (ofHistory path).text files = .ok t)
    (decoding : History.decode t = .ok found) (free : ∀ e ∈ xs, e.PairFree) :
    (ofHistory path).text ((ofHistory path).left ((ofHistory path).left files xs) ys) =
      (ofHistory path).text ((ofHistory path).left files (xs ++ ys)) := by
  by_cases writable : Writable path files
  · obtain ⟨_,readAll⟩ := text_left (xs ++ ys) read decoding writable
    rw [readAll]
    by_cases none : xs = []
    · subst xs
      exact (text_left ys read decoding writable).2
    · obtain ⟨still,readOne⟩ := text_left xs read decoding writable
      rw [if_neg none] at readOne
      have plain := (History.decode_pairFree (Request.answerRead_scalar read) decoding).putAll free
      obtain ⟨_,readTwo⟩ := text_left ys readOne (History.decode_encode plain) still
      rw [readTwo,History.putAll_append]
      by_cases last : ys = []
      · subst ys
        simp only [List.append_nil,none,if_true,if_false]
        rfl
      · simp [last]
  · rw [left_of_not_writable writable,left_of_not_writable writable,left_of_not_writable writable]

variable {world : World}

theorem run_current_of_decode (read : (ofHistory path).text world.files = .ok t)
    (decoding : History.decode t = .ok found) (listeners : List Listener) :
    (ofHistory path).current.run listeners world = (world.note (duplicatesLog found.duplicates),.ok found.history) := by
  have decoding : (ofHistory path).decode t = .ok found := decoding
  rw [run_current,contents_eq_ok read decoding]

theorem text_bind {xs ys : List Entry} {listeners : List Listener} (read : (ofHistory path).text world.files = .ok t)
    (decoding : History.decode t = .ok found) (free : ∀ e ∈ xs, e.PairFree) :
    (ofHistory path).text ((((ofHistory path).putAll xs).bind fun _ => (ofHistory path).putAll ys).run
        listeners world).1.files =
      (ofHistory path).text (((ofHistory path).putAll (xs ++ ys)).run listeners world).1.files := by
  have first := files_run_putAll (ofHistory path) xs listeners world
  rw [files_run_putAll,← text_left_append read decoding free,Program.run_bind]
  cases run : ((ofHistory path).putAll xs).run listeners world with
  | mk mid result =>
    rw [run] at first
    cases result with
    | ok done =>
      dsimp only at first ⊢
      rw [files_run_putAll,first]
    | error failure =>
      -- the first part failed, so nothing can be written at all
      have refused : ¬ Writable path world.files := by
        intro writable
        have granted := (run_putAll_ok_iff (ofHistory path) xs listeners world).mpr
          (.inr ((exists_saved_iff read decoding xs).mpr (.inr writable)))
        rw [run] at granted
        cases granted
      dsimp only at first ⊢
      rw [first,left_of_not_writable refused,left_of_not_writable refused]

/-- Putting entries into a file that can be read is an update of a map. When it succeeds, the history that
is read afterwards holds the last of the entries for each of their keys and what it held under all
others, and nothing twice. The octets stay if the new text is the one that was read, and are those of the
new text otherwise; it fails only if they have to be written and the file cannot be replaced. Entries
put in two parts, one after the other, leave the same text as all together, and no entries at all ask
nothing of any file. -/
theorem putAll_updates (read : (ofHistory path).text world.files = .ok t) (decoding : History.decode t = .ok found)
    (free : ∀ e ∈ es, e.PairFree) (listeners : List Listener) :
    ((ofHistory path).current.run listeners world).2 = .ok found.history ∧
    (∀ after, ((ofHistory path).putAll es).run listeners world = (after,.ok ()) →
      (∃ h, ((ofHistory path).current.run listeners after).2 = .ok h ∧ (h.entries.map Entry.key).Nodup ∧
        ∀ e, e ∈ h ↔ e.LastIn es ∨ (∀ other ∈ es, other.key ≠ e.key) ∧ e ∈ found.history) ∧
      after.files.octetsAt path =
        if es = [] ∨ (found.history.putAll es).encode = t then world.files.octetsAt path
        else .ok (Utf8.encode (found.history.putAll es).encode)) ∧
    ((((ofHistory path).putAll es).run listeners world).2 = .ok () ↔
      es = [] ∨ (found.history.putAll es).encode = t ∨ Writable path world.files) ∧
    (∀ xs ys, es = xs ++ ys →
      (ofHistory path).text ((((ofHistory path).putAll xs).bind fun _ => (ofHistory path).putAll ys).run
          listeners world).1.files =
        (ofHistory path).text (((ofHistory path).putAll es).run listeners world).1.files) ∧
    ∀ store : Store, store.putAll [] = .done () ∧ ∀ e, store.put e = store.putAll [e] := by
  have before := run_current_of_decode read decoding listeners
  refine ⟨by rw [before],?_,?_,?_,fun _ => ⟨rfl,fun _ => rfl⟩⟩
  · intro after run
    have files : after.files = (ofHistory path).left world.files es := by
      have whole := files_run_putAll (ofHistory path) es listeners world
      rw [run] at whole
      exact whole
    by_cases empty : es = []
    · subst es
      obtain ⟨rfl,_⟩ := Prod.mk.inj run
      refine ⟨⟨found.history,by rw [before],found.history.nodup_keys,fun e => ?_⟩,by simp⟩
      exact @History.mem_putAll found.history [] e
    · obtain ⟨made,done⟩ := ((run_putAll_ok_iff ..).mp (congrArg Prod.snd run)).resolve_left empty
      obtain ⟨text,octets⟩ := saved_eq_ok read decoding done
      rw [← left_of_saved empty done,← files] at text octets
      have plain := (History.decode_pairFree (Request.answerRead_scalar read) decoding).putAll free
      have again := run_current_of_decode text (History.decode_encode plain) listeners
      refine ⟨⟨_,by rw [again],History.nodup_keys _,fun e => History.mem_putAll⟩,?_⟩
      simpa [empty] using octets
  · rw [run_putAll_ok_iff,exists_saved_iff read decoding]
  · rintro xs ys rfl
    exact text_bind read decoding fun e member => free e (List.mem_append_left _ member)

def returnsPath : Path := Path.ofText "/tmp/history"

def returnsText : Text := Text.ofString "[\r\n\x7b\"pr\":\"jdk#1\",\"issues\":[]\x7d\r\n]"

def worldWith (octets : List UInt8) : World :=
  { World.empty with files := FileTree.empty.set (.ofTexts ["tmp","history"]) (.file octets) }

def returnsWorld : World := worldWith (Utf8.encode returnsText)

def returnsEntries : List Entry := [History.mergedEntry [] .unknown,History.mergedEntry [] .placeholder]

/-- An entry that is replaced by itself in the end leaves the line ends of the history as they are. -/
theorem putAll_updates_returns : ∃ after,
    ((ofHistory returnsPath).putAll returnsEntries).run [] returnsWorld = (after,.ok ()) ∧
      after.files.octetsAt returnsPath = .ok (Utf8.encode returnsText) := by
  have read : (ofHistory returnsPath).text returnsWorld.files = .ok returnsText.normalizeBreaks := by decide +kernel
  have decoding : History.decode returnsText.normalizeBreaks =
      .ok ⟨.ofEntries [History.mergedEntry [] .placeholder],0⟩ := by decide +kernel
  have same : ((History.ofEntries [History.mergedEntry [] .placeholder]).putAll returnsEntries).encode =
      returnsText.normalizeBreaks := by decide +kernel
  obtain ⟨_,update,succeeds,_⟩ := @putAll_updates _ _ _ returnsEntries returnsWorld read decoding (by decide +kernel) []
  have granted := succeeds.mpr (.inr (.inl same))
  have held : returnsWorld.files.octetsAt returnsPath = .ok (Utf8.encode returnsText) := by decide +kernel
  cases run : ((ofHistory returnsPath).putAll returnsEntries).run [] returnsWorld with
  | mk after result =>
    rw [run] at granted
    dsimp only at granted
    subst granted
    obtain ⟨_,octets⟩ := update after run
    rw [if_pos (.inr same),held] at octets
    exact ⟨after,rfl,octets⟩

end PullNotices.Store
