import PullNotices.Pass
import PullNotices.Proofs.Files.Directories
import PullNotices.Proofs.History.RoundTrip

/-! Where passes keep their history: a file below a scratch directory. `Site.recorded` is what a pass
would find there. Making the directory, reading, telling and noting do not change it, and a history
that is written is the one recorded then. -/
namespace PullNotices

/-- What is complained of where a directory cannot be made. -/
def Failure.unmade (path : Path) : FileFault → Failure
  | .unusable flaw => .unusablePath flaw
  | fault => .cannotCreate path fault

theorem World.perform_directory (world : World) (listeners : List Listener) (path : Path) :
    world.perform listeners (.directory path) =
      ({ world with files := (world.files.makeDirectories path).1 },
        match (world.files.makeDirectories path).2 with
        | none => .ok ()
        | some fault => .error (.unmade path fault)) := by
  simp only [perform]
  cases world.files.makeDirectories path with
  | mk files fault =>
    cases fault with
    | none => rfl
    | some fault => cases fault <;> rfl

structure Site where
  scratch : Path
  name : Text

namespace Site

def plan (site : Site) : Store.Plan := .history site.name

def directory (site : Site) : Path := site.scratch.join (Path.ofText Pass.folder)

def path (site : Site) : Path := site.directory.join (Path.ofText site.name)

def store (site : Site) : Store := ⟨site.path,History.encode,History.decode⟩

/-- The history that a pass which starts now would find. -/
def recorded (site : Site) (world : World) : Except Failure History :=
  (((site.plan.openIn site.directory).bind Store.current).run [] world).2

def Ready (site : Site) (world : World) : Prop :=
  site.directory.flaw? = none ∧ world.files.isDirectory site.directory = true

/-- With its directory made where it is missing, the file is read as this text. -/
def Reads (site : Site) (world : World) (t : Text) : Prop :=
  ∃ files, world.files.makeDirectories site.directory = (files,none) ∧
    Request.answerRead site.path (files.octetsAt site.path) = .ok t

variable {site : Site} {world after : World} {listeners : List Listener}

theorem Ready.of_files (ready : site.Ready world) (same : after.files = world.files) : site.Ready after := by
  unfold Ready
  rw [same]
  exact ready

theorem Reads.of_files {t : Text} (reads : site.Reads world t) (same : after.files = world.files) :
    site.Reads after t := by
  unfold Reads
  rw [same]
  exact reads

theorem Reads.scalar {t : Text} (reads : site.Reads world t) : t.IsScalar := by
  obtain ⟨files,_,read⟩ := reads
  exact Request.answerRead_scalar read

theorem answerRead_of_ready {t : Text} (ready : site.Ready world) (reads : site.Reads world t) :
    Request.answerRead site.path (world.files.octetsAt site.path) = .ok t := by
  obtain ⟨files,made,read⟩ := reads
  rw [FileTree.makeDirectories_of_isDirectory ready.1 ready.2] at made
  cases made
  exact read

theorem perform_directory {t : Text} (reads : site.Reads world t) (listeners : List Listener) :
    ∃ opened, world.perform listeners (.directory site.directory) = (opened,.ok ()) ∧
      site.Ready opened ∧ site.Reads opened t := by
  obtain ⟨files,made,read⟩ := reads
  obtain ⟨usable,there⟩ := FileTree.makeDirectories_eq_none made
  have again := FileTree.makeDirectories_of_isDirectory usable there
  refine ⟨{ world with files },?_,⟨usable,there⟩,files,again,read⟩
  rw [World.perform_directory,made]

theorem perform_read {t : Text} (ready : site.Ready world) (reads : site.Reads world t)
    (listeners : List Listener) : world.perform listeners (.read site.path) = (world,.ok t) := by
  simp only [World.perform,answerRead_of_ready ready reads]

theorem tellFrom_files (notice : Notice) (position : Nat) (listeners : List Listener) (world : World) :
    (World.tellFrom notice position listeners world).1.files = world.files := by
  induction listeners generalizing position world with
  | nil => rfl
  | cons listener rest ih =>
    unfold World.tellFrom
    dsimp only
    split
    · rfl
    · rw [ih]
      rfl

theorem perform_tell {notice : Notice} {reply : Except Failure Unit}
    (done : world.perform listeners (.tell notice) = (after,reply)) : after.files = world.files := by
  have kept := tellFrom_files notice 0 listeners world
  simp only [World.perform] at done
  split at done
  · rename_i told here
    obtain ⟨rfl,_⟩ := Prod.mk.inj done
    rw [World.tell] at here
    rw [here] at kept
    exact kept
  · rename_i told words here
    obtain ⟨rfl,_⟩ := Prod.mk.inj done
    rw [World.tell] at here
    rw [here] at kept
    exact kept

theorem perform_note {line : Log.Line} {reply : Except Failure Unit}
    (done : world.perform listeners (.note line) = (after,reply)) : after.files = world.files ∧ reply = .ok () := by
  cases done
  exact ⟨rfl,rfl⟩

theorem perform_replace {h : History}
    (ready : site.Ready world) (done : world.perform listeners (.replace site.path h.encode) = (after,.ok ())) :
    site.Ready after ∧ site.Reads after h.encode := by
  simp only [World.perform] at done
  split at done
  · rename_i files written
    cases done
    have there := (FileTree.replaceFile_keeps written).isDirectory ready.2
    refine ⟨⟨ready.1,there⟩,files,FileTree.makeDirectories_of_isDirectory ready.1 there,?_⟩
    rw [FileTree.octetsAt_replaceFile written,Request.answerRead,Request.textOf_encode]
  · cases done
  · cases done

theorem perform_replace_error {path : Path} {t : Text} {failure : Failure}
    (done : world.perform listeners (.replace path t) = (after,.error failure)) : after = world := by
  simp only [World.perform] at done
  split at done <;> cases done <;> rfl

theorem run_note {α : Type} (lines : List Log.Line) (listeners : List Listener) (f : Unit → Program α)
    (world : World) :
    (((Program.note lines).bind f).run listeners world) = (f ()).run listeners (world.note lines) := by
  induction lines generalizing world with
  | nil => simp [Program.note,Program.bind,World.note]
  | cons line lines ih =>
    have here : world.perform listeners (.note line) = (world.note [line],.ok ()) := rfl
    simp only [Program.note,Program.bind,Program.run,here]
    rw [ih]
    simp [World.note]

theorem decoded_eq {t : Text} {found : History.Decoded} (decoding : History.decode t = .ok found) :
    site.store.decoded t =
      (Program.note (Store.duplicatesLog found.duplicates)).bind fun _ => .done found.history := by
  have decoding : site.store.decode t = .ok found := decoding
  unfold Store.decoded
  rw [decoding]
  rfl

theorem run_decoded {t : Text} {found : History.Decoded} (decoding : History.decode t = .ok found) (world : World) :
    ((site.store.decoded t).run [] world).2 = .ok found.history := by
  rw [decoded_eq decoding,run_note]
  rfl

theorem run_undecodable {t : Text} {e : History.DecodeError} (decoding : History.decode t = .error e) (world : World) :
    ((site.store.decoded t).run [] world).2 = .error (.undecodable e) := by
  have decoding : site.store.decode t = .error e := decoding
  unfold Store.decoded
  rw [decoding]
  rfl

theorem recorded_eq_ok {h : History} :
    site.recorded world = .ok h ↔
      ∃ t found, site.Reads world t ∧ History.decode t = .ok found ∧ found.history = h := by
  have opening : (site.plan.openIn site.directory).bind Store.current =
      .request (.directory site.directory) fun _ => .request (.read site.path) fun t => site.store.decoded t := by
    rfl
  unfold recorded Reads
  rw [opening]
  simp only [Program.run]
  constructor
  · intro here
    split at here
    · rename_i opened done
      simp only [World.perform] at done
      split at done
      · rename_i files made
        cases done
        split at here
        · rename_i same t read
          obtain ⟨rfl,answer⟩ := Prod.mk.inj read
          cases decoding : History.decode t with
          | error e =>
            rw [run_undecodable decoding] at here
            cases here
          | ok found =>
            rw [run_decoded decoding] at here
            exact ⟨t,found,⟨files,made,answer⟩,decoding,Except.ok.inj here⟩
        · cases here
      · cases done
      · cases done
    · cases here
  · rintro ⟨t,found,reads,decoding,rfl⟩
    obtain ⟨opened,done,ready,still⟩ := perform_directory reads []
    rw [done]
    dsimp only
    rw [perform_read ready still]
    dsimp only
    rw [run_decoded decoding]

theorem recorded_of_reads {t : Text} {found : History.Decoded} (reads : site.Reads world t)
    (decoding : History.decode t = .ok found) : site.recorded world = .ok found.history :=
  recorded_eq_ok.mpr ⟨t,found,reads,decoding,rfl⟩

theorem recorded_of_encode {h : History} (free : h.PairFree) (reads : site.Reads world h.encode) :
    site.recorded world = .ok h := recorded_of_reads reads (History.decode_encode free)

theorem recorded_pairFree {h : History} (here : site.recorded world = .ok h) : h.PairFree := by
  obtain ⟨t,found,reads,decoding,rfl⟩ := recorded_eq_ok.mp here
  exact History.decode_pairFree reads.scalar decoding

end Site

end PullNotices
