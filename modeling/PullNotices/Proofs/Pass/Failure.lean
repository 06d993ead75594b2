import PullNotices.Proofs.Files.Name
import PullNotices.Proofs.Forge.Snapshot
import PullNotices.Proofs.Pass.Outcome
import PullNotices.Proofs.Store.Complaints
import PullNotices.Proofs.Unreadable

/-! Where failures of passes come from. A pass fails as the history fails to open, or on a write that is
refused, or on a listener; so a failure of a value, be it a hash, a key, a number or an octet, is found in
what is stored, or in the path that is configured, and never in what a pull request shows. -/
namespace PullNotices

/-- Some check of a value fails: of the hash or the key of a record, of the digits of a number, of octets
that should be a text, or of a path. -/
def Failure.isOfValue : Failure → Bool
  | .undecodable (.badRecord _) => true
  | .undecodable (.unreadable (.tooManyDigits _)) => true
  | .notUtf8 _ => true
  | .unusablePath _ => true
  | _ => false

/-- The history that octets hold. -/
def History.ofOctets (octets : List UInt8) : Except Failure History.Decoded :=
  (Request.textOf octets).bind fun t => (History.decode t).mapError .undecodable

theorem FileTree.makeParents_not_unusable (tree : FileTree) (path : Path) (flaw : PathFlaw) :
    (tree.makeParents path).2 ≠ some (.unusable flaw) := by
  have settled : ∀ (tree : FileTree) (path : Path) (result : Except Refusal FileTree),
      (tree.settle path result).2 ≠ some (.unusable flaw) := by
    intro tree path result flawed
    cases result with
    | ok made => cases flawed
    | error refusal =>
      rw [settle] at flawed
      split at flawed <;> cases flawed
  fun_induction makeParents tree path with
  | case1 =>
    intro flawed
    cases flawed
  | case2 path _ _ above fault parents ih =>
    rw [parents] at ih
    exact ih
  | case3 path _ _ above parents ih => exact settled _ _ _
  | case4 path => exact settled _ _ _

theorem FileTree.makeDirectories_eq_unusable {tree made : FileTree} {path : Path} {flaw : PathFlaw}
    (never : tree.makeDirectories path = (made,some (.unusable flaw))) : path.flaw? = some flaw := by
  unfold makeDirectories at never
  split at never
  · rename_i flawed
    cases never
    exact flawed
  · exact absurd (congrArg Prod.snd never) (makeParents_not_unusable tree path flaw)

namespace Site

/-- The path of the history has this flaw, or that of its directory. -/
def HasFlaw (site : Site) (flaw : PathFlaw) : Prop :=
  flaw.Spoils site.directory.display ∨ flaw.Spoils site.path.display

variable {site : Site} {world : World} {files : FileTree} {failure : Failure}

theorem opening_eq (site : Site) : (site.plan.openIn site.directory).bind Store.current =
    .request (.directory site.directory) fun _ => site.store.current := rfl

theorem recorded_eq (site : Site) (world : World) : site.recorded world =
    match world.files.makeDirectories site.directory with
    | (files,none) => (site.store.contents files).map History.Decoded.history
    | (_,some fault) => .error (.unmade site.directory fault) := by
  unfold recorded
  rw [opening_eq,Program.run,World.perform_directory]
  cases world.files.makeDirectories site.directory with
  | mk files fault =>
    cases fault with
    | some fault => rfl
    | none =>
      dsimp only
      rw [Store.run_current]
      dsimp only
      cases site.store.contents files <;> rfl

theorem contents_of_octets {octets : List UInt8} (held : files.octetsAt site.path = .ok octets) :
    site.store.contents files = History.ofOctets octets := by
  have read : site.store.text files = Request.textOf octets := Store.text_of_octets held
  unfold Store.contents
  rw [read]
  cases decoded : Request.textOf octets <;> simp only [History.ofOctets,decoded] <;> rfl

theorem value_failure_of_contents (failed : site.store.contents files = .error failure) (kind : failure.isOfValue = true) :
    (∃ flaw, failure = .unusablePath flaw ∧ site.HasFlaw flaw) ∨
      ∃ octets, files.octetsAt site.path = .ok octets ∧ History.ofOctets octets = .error failure := by
  cases held : files.octetsAt site.path with
  | ok octets =>
    rw [contents_of_octets held] at failed
    exact .inr ⟨octets,rfl,failed⟩
  | error fault =>
    have read : site.store.text files = Request.answerRead site.path (.error fault) :=
      congrArg (Request.answerRead site.path) held
    unfold Store.contents at failed
    rw [read] at failed
    cases fault with
    | unusable flaw =>
      cases failed
      exact .inl ⟨flaw,rfl,.inr (PathFlaw.ofText?_eq_some_iff.mp (FileTree.checked_eq_unusable held))⟩
    | refused refusal path =>
      -- a missing file is an empty history, and all else is a complaint about the file
      cases refusal <;> cases failed <;> cases kind

/-- A failure of a value is one of the octets of the file, or of the path. -/
theorem value_failure (failed : site.recorded world = .error failure) (kind : failure.isOfValue = true) :
    (∃ flaw, failure = .unusablePath flaw ∧ site.HasFlaw flaw) ∨
      ∃ octets, site.octets world = .ok octets ∧ History.ofOctets octets = .error failure := by
  rw [recorded_eq] at failed
  unfold octets
  cases made : world.files.makeDirectories site.directory with
  | mk files fault =>
    rw [made] at failed
    cases fault with
    | some fault =>
      cases fault with
      | refused refusal path =>
        cases failed
        cases kind
      | unusable flaw =>
        cases failed
        exact .inl ⟨flaw,rfl,.inl (PathFlaw.ofText?_eq_some_iff.mp (FileTree.makeDirectories_eq_unusable made))⟩
    | none =>
      dsimp only at failed ⊢
      cases found : site.store.contents files with
      | ok decoded =>
        rw [found] at failed
        cases failed
      | error e =>
        rw [found] at failed
        cases failed
        exact value_failure_of_contents found kind

end Site

/-- A file that could be read has no flaw in its path, so only the file can keep it from being replaced. -/
theorem Site.refusal_of_recorded {site : Site} {world : World} {h : History} {failure : Failure}
    (here : site.recorded world = .ok h) (refused : site.refusal world = some failure) :
    ∃ fault, failure = .cannotWrite site.path fault := by
  obtain ⟨t,_,⟨files,made,read⟩,_⟩ := recorded_eq_ok.mp here
  unfold refusal at refused
  rw [made] at refused
  split at refused
  · cases refused
  · rename_i flaw never
    cases @Store.complaint_of_refused site.path files t [] (.unusable flaw) read never
  · cases refused
    exact ⟨_,rfl⟩

namespace Pass

variable {site : Site} {pass : Pass} {world after : World} {failure : Failure}

/-- Where the history fails to open every pass fails in the same way. -/
theorem run_of_unopened (plan : pass.plan = site.plan) (unopened : site.recorded world = .error failure)
    (listeners : List Listener) : ∃ after, (pass.program site.scratch).run listeners world = (after,.error failure) := by
  obtain ⟨f,shape⟩ := program_eq plan
  rw [Site.recorded_eq] at unopened
  rw [shape,Program.run,World.perform_directory]
  cases made : world.files.makeDirectories site.directory with
  | mk files fault =>
    rw [made] at unopened
    cases fault with
    | some fault =>
      cases unopened
      exact ⟨_,rfl⟩
    | none =>
      dsimp only at unopened ⊢
      rw [Program.run_bind,run_snapshot]
      dsimp only
      rw [Program.run_bind,Store.run_current]
      have same : (World.note { world with files } (pass.pull.evidenceLog pass.trust)).files = files := rfl
      rw [same]
      cases contents : site.store.contents files with
      | ok found =>
        rw [contents] at unopened
        cases unopened
      | error e =>
        rw [contents] at unopened
        cases unopened
        exact ⟨_,rfl⟩

/-- A pass fails as the history fails to open, or as the file is refused, or on a listener. -/
theorem failure_cases (plan : pass.plan = site.plan) (pull : pass.pull.PairFree) {listeners : List Listener}
    (failed : (pass.program site.scratch).run listeners world = (after,.error failure)) :
    site.recorded world = .error failure ∨ (∃ fault, failure = .cannotWrite site.path fault) ∨
      ∃ words, failure = .listener words := by
  cases here : site.recorded world with
  | error e =>
    obtain ⟨_,run⟩ := run_of_unopened plan here listeners
    rw [run] at failed
    cases failed
    exact .inl rfl
  | ok h =>
    obtain ⟨v,holds,_⟩ := Site.holds_of_recorded here
    have result := (yields plan pull holds listeners).result
    rw [failed] at result
    rcases Errand.failure_of_outcome result.symm with ⟨_,listener⟩ | refused
    · exact .inr (.inr listener)
    · exact .inr (.inl (Site.refusal_of_recorded here refused))

end Pass

namespace Config

/-- No live data fails a check of a value. None on the way to a snapshot fails, so when a pass fails on a value,
it is the octets of the history that are read with this very failure, or it is a flaw of the configured path;
and then it is the failure of every pass, over whatever pull request. -/
theorem value_failure_stored :
    (∀ (pull : PullRequest) trust, pull.checkedSnapshot trust = .ok (pull.snapshot trust)) ∧
    ∀ (config : Config) (pull : PullRequest), pull.PairFree → ∀ listeners world after failure,
      ((config.pass pull).program config.scratch).run listeners world = (after,.error failure) →
      failure.isOfValue = true →
        ((∃ flaw, failure = .unusablePath flaw ∧ config.site.HasFlaw flaw) ∨
          ∃ octets, config.site.octets world = .ok octets ∧ History.ofOctets octets = .error failure) ∧
        ∀ other audience, ∃ later, ((config.pass other).program config.scratch).run audience world = (later,.error failure) := by
  refine ⟨PullRequest.checkedSnapshot_eq_ok,?_⟩
  intro config pull free listeners world after failure failed kind
  rcases @Pass.failure_cases config.site (config.pass pull) world after failure rfl free listeners failed with
    unopened | ⟨fault,rfl⟩ | ⟨words,rfl⟩
  · refine ⟨Site.value_failure unopened kind,fun other audience => ?_⟩
    exact @Pass.run_of_unopened config.site (config.pass other) world failure rfl unopened audience
  · cases kind
  · cases kind

example : let config : Config := { sample with historyName := [0xd800] }
    (((config.pass (.sample "17")).program config.scratch).run [] World.empty).2 =
      .error (.unusablePath (.surrogates 0xd800 15 1)) := by decide +kernel

/-- A record whose commit is no hash, which stops passes over other pull requests. -/
def shortHash : Text := Text.ofString "[\x7b\"pr\":\"jdk#1\",\"issues\":[],\"commit\":\"0\"\x7d]"

def shortHashWorld : World := { World.empty with files := ⟨[(.ofTexts ["tmp","tmp////////","scratch"],.directory),
  (.ofTexts ["tmp","tmp////////","scratch","notify"],.directory),
  (.ofTexts ["tmp","tmp////////","scratch","notify","history"],.file (Utf8.encode shortHash))]⟩ }

theorem value_failure_stored_shortHash :
    let failure : Failure := .undecodable (.badRecord (.malformedHash ⟨"0"⟩))
    (∃ octets, sample.site.octets shortHashWorld = .ok octets ∧ History.ofOctets octets = .error failure) ∧
      ∃ later, ((sample.pass (.sample "18")).program sample.scratch).run [.idle] shortHashWorld = (later,.error failure) := by
  intro failure
  have failed : ((sample.pass (.sample "17")).program sample.scratch).run [] shortHashWorld =
      ((((sample.pass (.sample "17")).program sample.scratch).run [] shortHashWorld).1,.error failure) :=
    Prod.ext rfl (by decide +kernel)
  obtain ⟨stored,others⟩ :=
    value_failure_stored.2 sample (.sample "17") (Pass.sample_pairFree _ _ _) _ _ _ _ failed rfl
  refine ⟨stored.resolve_left ?_,others _ _⟩
  rintro ⟨flaw,same,_⟩
  exact nomatch same

def nullNamed : Config := { sample with historyName := "a\x00b" }

/-- With a null in the name of the history a pass fails where nothing is stored at all. -/
theorem nullNamed_fails :
    build nullNamed.trust.integrator nullNamed.trust.label nullNamed.historyName nullNamed.scratch = .ok nullNamed ∧
    ¬ ∀ (config : Config) (pull : PullRequest), pull.PairFree → ∀ listeners world after failure,
      ((config.pass pull).program config.scratch).run listeners world = (after,.error failure) →
      failure.isOfValue = true →
        ∃ octets, config.site.octets world = .ok octets ∧ History.ofOctets octets = .error failure := by
  refine ⟨by decide +kernel,fun always => ?_⟩
  have failed : ((nullNamed.pass (.sample "17")).program nullNamed.scratch).run [] World.empty =
      ((((nullNamed.pass (.sample "17")).program nullNamed.scratch).run [] World.empty).1,.error (.unusablePath .null)) :=
    Prod.ext rfl (by decide +kernel)
  obtain ⟨octets,held,_⟩ := always nullNamed (.sample "17") (Pass.sample_pairFree _ _ _) _ _ _ _ failed rfl
  have nothing : nullNamed.site.octets World.empty = .error (.unusable .null) := by decide +kernel
  rw [nothing] at held
  cases held

end Config

end PullNotices
