import PullNotices.Proofs.Pass.Conduct

/-! What a store does, told by its file alone. `contents` is what the file is read as, and `saved` is the
tree that is left when entries are put. A run of a store comes to just these, whatever listeners there
are and whatever was told or noted before. -/
namespace PullNotices

/-- A store that keeps a history. -/
def Store.ofHistory (path : Path) : Store := ⟨path,History.encode,History.decode⟩

theorem World.note_note (world : World) (lines more : List Log.Line) :
    (world.note lines).note more = world.note (lines ++ more) := by simp [note]

namespace Store

variable {store : Store} {files : FileTree} {es : List Entry}

def text (store : Store) (files : FileTree) : Except Failure Text :=
  Request.answerRead store.path (files.octetsAt store.path)

def contents (store : Store) (files : FileTree) : Except Failure History.Decoded :=
  match store.text files with
  | .error failure => .error failure
  | .ok t => (store.decode t).mapError .undecodable

def refusal (store : Store) : FileFault → Failure
  | .unusable flaw => .unusablePath flaw
  | fault => .cannotWrite store.path fault

/-- The tree with the file replaced by what it holds once the entries are put, unless that is the text
it has. -/
def saved (store : Store) (es : List Entry) (files : FileTree) : Except Failure FileTree :=
  match store.text files with
  | .error failure => .error failure
  | .ok t =>
    match store.decode t with
    | .error e => .error (.undecodable e)
    | .ok found =>
      if store.encode (found.history.putAll es) = t then .ok files
      else (files.replaceFile store.path (Utf8.encode (store.encode (found.history.putAll es)))).mapError store.refusal

theorem contents_eq {t : Text} (read : store.text files = .ok t) :
    store.contents files = (store.decode t).mapError .undecodable := by
  unfold contents
  rw [read]

theorem contents_eq_ok {t : Text} {found : History.Decoded} (read : store.text files = .ok t)
    (decoding : store.decode t = .ok found) : store.contents files = .ok found := by
  rw [contents_eq read,decoding]
  rfl

variable (store) (listeners : List Listener) (world : World)

theorem run_decoded (t : Text) : (store.decoded t).run listeners world =
    match store.decode t with
    | .error e => (world,.error (.undecodable e))
    | .ok found => (world.note (duplicatesLog found.duplicates),.ok found.history) := by
  unfold decoded
  cases store.decode t with
  | error e => rfl
  | ok found => exact Site.run_note _ listeners (fun _ => .done found.history) world

theorem run_decoded_bind {α : Type} (t : Text) (f : History → Program α) :
    ((store.decoded t).bind f).run listeners world =
      match store.decode t with
      | .error e => (world,.error (.undecodable e))
      | .ok found => (f found.history).run listeners (world.note (duplicatesLog found.duplicates)) := by
  rw [Program.run_bind,run_decoded]
  cases store.decode t <;> rfl

theorem run_current : store.current.run listeners world =
    match store.contents world.files with
    | .error failure => (world,.error failure)
    | .ok found => (world.note (duplicatesLog found.duplicates),.ok found.history) := by
  change (Program.request (.read store.path) fun t => store.decoded t).run listeners world = _
  have asked : world.perform listeners (.read store.path) = (world,store.text world.files) := rfl
  unfold contents
  rw [Program.run,asked]
  cases store.text world.files with
  | error failure => rfl
  | ok t =>
    dsimp only
    rw [run_decoded]
    cases store.decode t <;> rfl

theorem note_run (lines : List Log.Line) :
    (Program.note lines).run listeners world = (world.note lines,.ok ()) := by
  have alone := Program.bind_done (Program.note lines)
  rw [← alone]
  exact Site.run_note lines listeners .done world

/-- How entries are put: the file is read, and then left alone or replaced. -/
theorem putAll_eq (nonempty : es ≠ []) : store.putAll es = .request (.read store.path) fun old =>
    (store.decoded old).bind fun h =>
      if store.encode (h.putAll es) = old then
        Program.note [⟨.debug,store.path.display ++ " unchanged, skipping write"⟩]
      else .request (.replace store.path (store.encode (h.putAll es))) fun _ =>
        Program.note [⟨.debug,"Wrote " ++ Text.ofNat es.length ++ " item(s) to " ++ store.path.display⟩] := by
  obtain ⟨first,rest,rfl⟩ := List.exists_cons_of_ne_nil nonempty
  rfl

variable {store world} in
/-- Where the history cannot be read nothing else is asked for. -/
theorem run_putAll_unreadable {failure : Failure} (unreadable : store.contents world.files = .error failure)
    (nonempty : es ≠ []) : (store.putAll es).run listeners world = (world,.error failure) := by
  have asked : world.perform listeners (.read store.path) = (world,store.text world.files) := rfl
  rw [store.putAll_eq nonempty,Program.run,asked]
  cases read : store.text world.files with
  | error other =>
    rw [contents,read] at unreadable
    cases unreadable
    rfl
  | ok old =>
    rw [contents_eq read] at unreadable
    dsimp only
    rw [run_decoded_bind]
    cases decoding : store.decode old with
    | error e =>
      rw [decoding] at unreadable
      cases unreadable
      rfl
    | ok found =>
      rw [decoding] at unreadable
      cases unreadable

/-- What a run leaves of the files, and whether it fails, is what `saved` says; nobody is told anything. -/
theorem run_putAll (nonempty : es ≠ []) : ∃ lines, (store.putAll es).run listeners world =
    match store.saved es world.files with
    | .error failure => (world.note lines,.error failure)
    | .ok files => ({ world with files }.note lines,.ok ()) := by
  have asked : world.perform listeners (.read store.path) = (world,store.text world.files) := rfl
  unfold saved
  rw [store.putAll_eq nonempty,Program.run,asked]
  cases store.text world.files with
  | error failure => exact ⟨[],by simp [World.note]⟩
  | ok old =>
    dsimp only
    rw [run_decoded_bind]
    cases store.decode old with
    | error e => exact ⟨[],by simp [World.note]⟩
    | ok found =>
      dsimp only
      split
      · refine ⟨duplicatesLog found.duplicates ++ [⟨.debug,store.path.display ++ " unchanged, skipping write"⟩],?_⟩
        rw [note_run,World.note_note]
      · rw [Program.run]
        simp only [World.perform]
        cases attempt : (world.note (duplicatesLog found.duplicates)).files.replaceFile store.path
            (Utf8.encode (store.encode (found.history.putAll es))) with
        | ok made =>
          have attempt : world.files.replaceFile store.path _ = .ok made := attempt
          rw [attempt]
          refine ⟨duplicatesLog found.duplicates ++ [⟨.debug,"Wrote " ++ Text.ofNat es.length ++
            " item(s) to " ++ store.path.display⟩],?_⟩
          dsimp only
          rw [note_run]
          exact congrArg (·,Except.ok ()) (World.note_note { world with files := made } _ _)
        | error fault =>
          have attempt : world.files.replaceFile store.path _ = .error fault := attempt
          rw [attempt]
          cases fault <;> exact ⟨_,rfl⟩

end Store

end PullNotices
