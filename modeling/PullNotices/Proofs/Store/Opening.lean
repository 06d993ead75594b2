import PullNotices.Proofs.Files.Growth
import PullNotices.Proofs.Round
import PullNotices.Proofs.Store.Update

/-! What opening a store makes. It is the directory that the store is opened in, with those above it. The
file is in that directory if its name is a single name; a name of several names leads through further
directories, which nobody makes, and without them nothing can be put into the store. -/
namespace PullNotices

/-- A fault for want of a directory on the way to the file. -/
inductive FileFault.WantsDirectory : FileFault → Prop
  | absent (path : Path) : WantsDirectory (.refused .notFound path)
  | other (path : Path) : WantsDirectory (.refused .notDirectory path)

namespace FileTree

variable {tree made : FileTree} {path : Path} {octets : List UInt8} {fault : FileFault}

theorem replaceFile_of_parent (there : tree.isDirectory path.parent = true)
    (refused : tree.replaceFile path octets = .error fault) : ¬ fault.WantsDirectory := by
  unfold replaceFile checked at refused
  split at refused
  · cases refused
    exact nofun
  · rcases locate_of_parent there with long | ⟨place,located⟩
    · rw [long] at refused
      cases refused
      exact nofun
    · rw [located] at refused
      dsimp only at refused
      split at refused
      · cases refused
        exact nofun
      · unfold replacing at refused
        rw [located] at refused
        dsimp only at refused
        split at refused <;> cases refused
        exact nofun

theorem parent_of_octetsAt (held : tree.octetsAt path = .ok octets) : tree.isDirectory path.parent = true := by
  obtain ⟨_,result⟩ := checked_eq_ok held
  unfold lookup at result
  cases located : tree.locate path with
  | error refusal =>
    rw [located] at result
    cases result
  | ok place => exact isDirectory_parent located

theorem parent_of_replaceFile (ok : tree.replaceFile path octets = .ok made) : tree.isDirectory path.parent = true := by
  obtain ⟨_,place,located,_⟩ := replaceFile_eq_ok ok
  exact isDirectory_parent located

end FileTree

theorem History.encode_ne_nil (h : History) : h.encode ≠ [] := by simp [encode,Text.ofString]

namespace Store

variable {store : Store} {files : FileTree} {es : List Entry}

theorem text_not_refused (files : FileTree) (named : Path) (fault : FileFault) :
    store.text files ≠ .error (.cannotWrite named fault) := by
  unfold text Request.answerRead
  split
  · unfold Request.textOf
    split <;> exact nofun
  all_goals exact nofun

theorem contents_not_refused (files : FileTree) (named : Path) (fault : FileFault) :
    store.contents files ≠ .error (.cannotWrite named fault) := by
  cases read : store.text files with
  | error failure =>
    rw [contents,read]
    intro same
    cases same
    exact text_not_refused files named fault read
  | ok t =>
    rw [contents_eq read]
    intro same
    cases decoded : store.decode t with
    | ok found =>
      rw [decoded] at same
      cases same
    | error e =>
      rw [decoded] at same
      cases same

theorem text_of_parentless {t : Text} (missing : files.isDirectory store.path.parent = false)
    (read : store.text files = .ok t) : t = [] := by
  unfold text at read
  cases held : files.octetsAt store.path with
  | ok octets =>
    rw [FileTree.parent_of_octetsAt held] at missing
    cases missing
  | error fault =>
    rw [held] at read
    unfold Request.answerRead at read
    split at read
    · rename_i none
      cases none
    · cases read
      rfl
    · cases read
    · cases read

variable {world : World} {listeners : List Listener}

/-- Where the file has its directory nothing is refused for want of one. -/
theorem putAll_of_parent (there : world.files.isDirectory store.path.parent = true) {named : Path} {fault : FileFault}
    (failed : ((store.putAll es).run listeners world).2 = .error (.cannotWrite named fault)) : ¬ fault.WantsDirectory := by
  by_cases empty : es = []
  · subst es
    cases failed
  · obtain ⟨lines,run⟩ := store.run_putAll listeners world empty
    rw [run] at failed
    split at failed
    · rename_i unsaved
      cases failed
      rcases saved_failed unsaved with unread | ⟨octets,refused,attempt,same⟩
      · exact absurd unread (contents_not_refused world.files named fault)
      · cases refused with
        | unusable flaw => cases same
        | refused refusal path =>
          cases same
          exact FileTree.replaceFile_of_parent there attempt
    · cases failed

/-- Where the file has no directory nothing can be put. -/
theorem putAll_of_parentless (missing : world.files.isDirectory store.path.parent = false) (nonempty : es ≠ [])
    (written : ∀ h : History, store.encode (h.putAll es) ≠ []) :
    (∃ failure, ((store.putAll es).run listeners world).2 = .error failure) ∧
      ((store.putAll es).run listeners world).1.files = world.files := by
  obtain ⟨lines,run⟩ := store.run_putAll listeners world nonempty
  rw [run]
  cases done : store.saved es world.files with
  | error failure => exact ⟨⟨failure,rfl⟩,rfl⟩
  | ok made =>
    rcases saved_cases done with ⟨_,h,read⟩ | ⟨octets,replaced⟩
    · exact absurd (text_of_parentless missing read) (written h)
    · rw [FileTree.parent_of_replaceFile replaced] at missing
      cases missing

namespace Plan

/-- The name of the file is a single name at most. -/
def IsFlat (plan : Plan) : Prop := (Path.ofText plan.name).parts.length ≤ 1

instance (plan : Plan) : Decidable plan.IsFlat := inferInstanceAs (Decidable (_ ≤ 1))

variable {plan : Plan} {directory : Path} {listeners : List Listener} {world after : World} {store : Store}

theorem run_openIn (plan : Plan) (directory : Path) (listeners : List Listener) (world : World) :
    (plan.openIn directory).run listeners world =
      ({ world with files := (world.files.makeDirectories directory).1 },
        match (world.files.makeDirectories directory).2 with
        | none => .ok ⟨directory.join (Path.ofText plan.name),plan.encode,plan.decode⟩
        | some fault => .error (.unmade directory fault)) := by
  have shape : plan.openIn directory = .request (.directory directory) fun _ =>
      .done ⟨directory.join (Path.ofText plan.name),plan.encode,plan.decode⟩ := rfl
  rw [shape,Program.run,World.perform_directory]
  cases (world.files.makeDirectories directory).2 <;> rfl

theorem openIn_eq_ok (opened : (plan.openIn directory).run listeners world = (after,.ok store)) :
    world.files.makeDirectories directory = (after.files,none) ∧ after = { world with files := after.files } ∧
      store = ⟨directory.join (Path.ofText plan.name),plan.encode,plan.decode⟩ := by
  rw [run_openIn] at opened
  cases made : world.files.makeDirectories directory with
  | mk files fault =>
    rw [made] at opened
    cases fault with
    | none =>
      cases opened
      exact ⟨rfl,rfl,rfl⟩
    | some fault => cases opened

theorem openIn_of_made {files : FileTree} (made : world.files.makeDirectories directory = (files,none)) :
    (plan.openIn directory).run listeners world =
      ({ world with files },.ok ⟨directory.join (Path.ofText plan.name),plan.encode,plan.decode⟩) := by
  rw [run_openIn,made]

theorem isDirectory_root (tree : FileTree) (t : Text) : tree.isDirectory ⟨Path.rootOf t,[]⟩ = true := by
  unfold Path.rootOf
  split <;> rfl

/-- A flat name leads to a file in the directory, to the directory itself, or to the root. -/
theorem IsFlat.parent {tree : FileTree} (flat : plan.IsFlat) (there : tree.isDirectory directory = true) :
    tree.isDirectory (directory.join (Path.ofText plan.name)).parent = true := by
  unfold IsFlat at flat
  by_cases relative : (Path.ofText plan.name).root = []
  · rw [Path.join,if_pos relative]
    cases parts : (Path.ofText plan.name).parts with
    | nil =>
      rw [List.append_nil]
      obtain ⟨place,located,_⟩ := FileTree.isDirectory_iff.mp there
      exact FileTree.isDirectory_parent located
    | cons first rest =>
      have alone : rest = [] := by
        rw [parts,List.length_cons] at flat
        exact List.eq_nil_of_length_eq_zero (by omega)
      subst alone
      rw [Path.parent,List.dropLast_concat]
      exact there
  · rw [Path.join,if_neg relative]
    have bare : (Path.ofText plan.name).parts.dropLast = [] := by
      apply List.eq_nil_of_length_eq_zero
      rw [List.length_dropLast]
      omega
    rw [Path.parent,bare]
    exact isDirectory_root tree plan.name

/-- What opening a store leaves, and what it means for the entries that are put later. -/
structure Opened (plan : Plan) (directory : Path) (world after : World) (store : Store) : Prop where
  store_eq : store = ⟨directory.join (Path.ofText plan.name),plan.encode,plan.decode⟩
  /-- Nothing that stood anywhere is changed, and what is new is directories on the way. -/
  made : FileTree.Made directory world.files after.files
  untold : after.deliveries = world.deliveries ∧ after.log = world.log
  there : after.files.isDirectory directory = true
  parent : plan.IsFlat → after.files.isDirectory store.path.parent = true
  /-- As long as directories stay, nothing is refused for want of one if the file has its own. -/
  granted : after.files.isDirectory store.path.parent = true → ∀ later : World, after.files.Keeps later.files →
    ∀ listeners es named fault, ((store.putAll es).run listeners later).2 = .error (.cannotWrite named fault) →
      ¬ fault.WantsDirectory
  /-- Without the directory of the file nothing can be put. -/
  refused : ∀ later : World, later.files.isDirectory store.path.parent = false →
    ∀ listeners es, es ≠ [] → (∀ h : History, store.encode (h.putAll es) ≠ []) →
      (∃ failure, ((store.putAll es).run listeners later).2 = .error failure) ∧
        ((store.putAll es).run listeners later).1.files = later.files

/-- Opening a store makes the directory that it is opened in and leaves what there was; and that is the
directory of its file if the name of the file is flat. -/
theorem opened_of_openIn (opened : (plan.openIn directory).run listeners world = (after,.ok store)) :
    Opened plan directory world after store := by
  obtain ⟨made,same,shape⟩ := openIn_eq_ok opened
  have there := (FileTree.makeDirectories_eq_none made).2
  have path : store.path = directory.join (Path.ofText plan.name) := by rw [shape]
  refine ⟨shape,?_,?_,there,?_,?_,?_⟩
  · have grown := FileTree.makeDirectories_made world.files directory
    rw [made] at grown
    exact grown
  · rw [same]
    exact ⟨rfl,rfl⟩
  · intro flat
    rw [path]
    exact flat.parent there
  · intro parent later kept listeners es named fault failed
    exact putAll_of_parent (kept.isDirectory parent) failed
  · intro later missing listeners es nonempty written
    exact putAll_of_parentless missing nonempty written

def dottedDirectory : Path := Path.ofText "scratch/./x/../notify"

/-- Where nothing is yet: a single name in a directory that is reached by two dots, and a name behind another
name in the same directory. -/
theorem opened_of_openIn_dotted :
    (∃ after store, ((Plan.history "./history").openIn dottedDirectory).run [] World.empty = (after,.ok store) ∧
      after.files.isDirectory store.path.parent = true ∧ after.files.isDirectory (Path.ofText "scratch/x") = true) ∧
    ∃ after store, ((Plan.history "sub/prs").openIn dottedDirectory).run [] World.empty = (after,.ok store) ∧
      ∀ e, (∃ failure, ((store.put e).run [] after).2 = .error failure) ∧ ((store.put e).run [] after).1.files = after.files := by
  have made : World.empty.files.makeDirectories dottedDirectory =
      ((World.empty.files.makeDirectories dottedDirectory).1,none) := Prod.ext rfl (by decide +kernel)
  have flat := @openIn_of_made (Plan.history "./history") _ [] _ _ made
  have nested := @openIn_of_made (Plan.history "sub/prs") _ [] _ _ made
  refine ⟨⟨_,_,flat,(opened_of_openIn flat).parent (by decide +kernel),by decide +kernel⟩,_,_,nested,fun e => ?_⟩
  exact (opened_of_openIn nested).refused _ (by decide +kernel) [] [e] (List.cons_ne_nil e []) fun h => (h.put e).encode_ne_nil

end Plan

end Store

namespace Config

def nested : Config := { sample with historyName := "sub/prs" }

/-- The directory of the notices is made, and the pull request is announced; but for the file there is no
directory, today or tomorrow. -/
theorem nested_parentless :
    (∃ after, (nested.site.plan.openIn nested.site.directory).run [] World.empty = (after,.ok nested.site.store) ∧
      after.files.isDirectory nested.site.directory = true ∧
      after.files.isDirectory nested.site.store.path.parent = false) ∧
    let announced := ((nested.pass (.sample "17")).program nested.scratch).run [.idle] World.empty
    let again := ((nested.pass (.sample "17")).program nested.scratch).run [.idle] announced.1
    let refused : Failure := .cannotWrite nested.site.path (.refused .notFound nested.site.path)
    announced.2 = .error refused ∧ again.2 = .error refused ∧
      again.1.deliveries = [⟨0,⟨.sample "17",.opened⟩⟩,⟨0,⟨.sample "17",.opened⟩⟩] := by
  have made : World.empty.files.makeDirectories nested.site.directory =
      ((World.empty.files.makeDirectories nested.site.directory).1,none) := Prod.ext rfl (by decide +kernel)
  refine ⟨⟨_,Store.Plan.openIn_of_made made,by decide +kernel,by decide +kernel⟩,?_⟩
  decide +kernel

end Config

end PullNotices
