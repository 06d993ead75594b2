import PullNotices.Proofs.Files.Growth
import PullNotices.Proofs.History.Merge
import PullNotices.Proofs.Round
import PullNotices.Proofs.Store.Contents

/-! Histories that cannot be read. Nothing is told and nothing is put over them: whatever is done, be it in
passes, in rounds or by hand, fails before it comes to that. At most the directory of the history is
made where it is missing, and then the file fails in the same way as before. -/
namespace PullNotices

/-- A store finds the same failure in a tree that only grew, and the same at its path. -/
theorem Store.contents_grown {path : Path} {old new : FileTree} {failure : Failure} (grown : old.Grown new)
    (unreadable : (ofHistory path).contents old = .error failure) :
    new.octetsAt path = old.octetsAt path ∧ (ofHistory path).contents new = .error failure := by
  rcases grown.octetsAt path with missing | same
  · have read : (ofHistory path).text old = .ok [] := by
      change Request.answerRead path (old.octetsAt path) = _
      rw [missing]
      rfl
    rw [contents_eq read] at unreadable
    cases unreadable
  · refine ⟨same,?_⟩
    have text : (ofHistory path).text new = (ofHistory path).text old := congrArg (Request.answerRead path) same
    rw [← unreadable,contents,contents,text]

namespace Site

/-- Between the two worlds at most the directory of the site was made, and nobody was told anything. Not
even that where the directory is there, as it is where a file or a directory stands at the path. -/
structure Spared (site : Site) (world after : World) : Prop where
  octets : after.files.octetsAt site.path = world.files.octetsAt site.path
  grown : world.files.Grown after.files
  deliveries : after.deliveries = world.deliveries
  possible : (world.files.makeDirectories site.directory).2 = none →
    (after.files.makeDirectories site.directory).2 = none
  ready : site.Ready world → after.files = world.files
  found : (Path.ofText site.name).root = [] → ∀ node, world.files.lookup site.path = .ok node →
    after.files = world.files

variable {site : Site} {world mid after : World} {failure : Failure}

theorem Spared.refl (site : Site) (world : World) : site.Spared world world := ⟨rfl,.refl _,rfl,id,fun _ => rfl,fun _ _ _ => rfl⟩

theorem Spared.trans (first : site.Spared world mid) (second : site.Spared mid after) : site.Spared world after where
  octets := second.octets.trans first.octets
  grown := first.grown.trans second.grown
  deliveries := second.deliveries.trans first.deliveries
  possible made := second.possible (first.possible made)
  ready there := by rw [second.ready (there.of_files (first.ready there)),first.ready there]
  found relative node there := by
    have same := first.found relative node there
    rw [← same] at there
    rw [second.found relative node there,same]

theorem Spared.unreadable (spared : site.Spared world after)
    (unreadable : site.store.contents world.files = .error failure) :
    site.store.contents after.files = .error failure :=
  (Store.contents_grown spared.grown unreadable).2

end Site

namespace Pass

variable {site : Site} {pass : Pass} {world : World} {failure : Failure}

theorem run_snapshot (pass : Pass) (listeners : List Listener) (world : World) :
    pass.snapshot.run listeners world = (world.note (pass.pull.evidenceLog pass.trust),.ok pass.fresh) := by
  have shape : pass.snapshot = (Program.note (pass.pull.evidenceLog pass.trust)).bind fun _ => .done pass.fresh := rfl
  rw [shape,Site.run_note]
  rfl

/-- Before all else a pass makes the directory, takes the snapshot and looks at the history. -/
theorem program_eq (plan : pass.plan = site.plan) : ∃ f : Entry → History → Program Unit,
    pass.program site.scratch = .request (.directory site.directory) fun _ =>
      pass.snapshot.bind fun fresh => site.store.current.bind (f fresh) := by
  unfold program
  rw [plan]
  exact ⟨_,rfl⟩

/-- A pass over a history that cannot be read tells nobody and fails, in the same way as the history if
the directory could be made. -/
theorem run_unreadable (plan : pass.plan = site.plan)
    (unreadable : site.store.contents world.files = .error failure) (listeners : List Listener) :
    ∃ after e, (pass.program site.scratch).run listeners world = (after,.error e) ∧
      after.files = (world.files.makeDirectories site.directory).1 ∧ after.deliveries = world.deliveries ∧
      ((world.files.makeDirectories site.directory).2 = none → e = failure) := by
  obtain ⟨f,shape⟩ := program_eq plan
  rw [shape,Program.run,World.perform_directory]
  cases made : world.files.makeDirectories site.directory with
  | mk files fault =>
    cases fault with
    | some fault => exact ⟨_,_,rfl,rfl,rfl,fun none => absurd none (Option.some_ne_none fault)⟩
    | none =>
      have grown := FileTree.makeDirectories_grown world.files site.directory
      rw [made] at grown
      have still : site.store.contents (World.note { world with files } (pass.pull.evidenceLog pass.trust)).files =
          .error failure := (Store.contents_grown grown unreadable).2
      dsimp only
      rw [Program.run_bind,run_snapshot]
      dsimp only
      rw [Program.run_bind,Store.run_current,still]
      exact ⟨_,failure,rfl,rfl,rfl,fun _ => rfl⟩

end Pass

namespace Site

variable {site : Site} {world after : World}

theorem Spared.of_made (files : after.files = (world.files.makeDirectories site.directory).1)
    (deliveries : after.deliveries = world.deliveries) {failure : Failure}
    (unreadable : site.store.contents world.files = .error failure) : site.Spared world after := by
  have grown := FileTree.makeDirectories_grown world.files site.directory
  rw [← files] at grown
  refine ⟨(Store.contents_grown grown unreadable).1,grown,deliveries,?_,?_,?_⟩
  · intro possible
    obtain ⟨free,there⟩ := FileTree.makeDirectories_eq_none (Prod.ext files.symm possible)
    rw [FileTree.makeDirectories_of_isDirectory free there]
  · intro ready
    rw [files,FileTree.makeDirectories_of_isDirectory ready.1 ready.2]
  · intro relative node there
    rw [files]
    exact FileTree.makeDirectories_of_found relative there

end Site

namespace Round

variable {site : Site} {failure : Failure} (listeners : List Listener) (report : Failure → List Log.Line)

theorem step_unreadable {round : Round} {pass : Pass} (plan : pass.plan = site.plan)
    (unreadable : site.store.contents round.world.files = .error failure) :
    ∃ after e, (pass.program site.scratch).run listeners round.world = (after,.error e) ∧
      step listeners report site.scratch round pass =
        ⟨after.note (report e),round.completed,round.failures ++ [e]⟩ ∧
      site.Spared round.world (after.note (report e)) ∧
      ((round.world.files.makeDirectories site.directory).2 = none → e = failure) := by
  obtain ⟨after,e,run,files,deliveries,same⟩ := Pass.run_unreadable plan unreadable listeners
  refine ⟨after,e,run,?_,.of_made files deliveries unreadable,same⟩
  rw [step,run]

/-- A round over a history that cannot be read completes no pass and handles a failure for each. -/
theorem ofPasses_unreadable {passes : List Pass} {world : World} (plans : ∀ pass ∈ passes, pass.plan = site.plan)
    (unreadable : site.store.contents world.files = .error failure) :
    (ofPasses listeners report site.scratch world passes).completed = 0 ∧
      (ofPasses listeners report site.scratch world passes).failures.length = passes.length ∧
      ((world.files.makeDirectories site.directory).2 = none →
        ∀ e ∈ (ofPasses listeners report site.scratch world passes).failures, e = failure) ∧
      site.Spared world (ofPasses listeners report site.scratch world passes).world := by
  induction passes using List.reverseRecOn with
  | nil => exact ⟨rfl,rfl,fun _ => nofun,.refl site world⟩
  | append_singleton passes pass ih =>
    obtain ⟨completed,count,same,spared⟩ := ih fun past member => plans past (by simp [member])
    obtain ⟨after,e,_,stepped,more,last⟩ :=
      step_unreadable listeners report (plans pass (by simp)) (spared.unreadable unreadable)
    rw [ofPasses_snoc,stepped]
    refine ⟨completed,by simp [count],?_,spared.trans more⟩
    intro possible other member
    rcases List.mem_append.mp member with early | late
    · exact same possible other early
    · rw [List.mem_singleton.mp late,last (spared.possible possible)]

end Round

theorem Config.round_unreadable {config : Config} {world : World} {failure : Failure}
    (unreadable : config.site.store.contents world.files = .error failure) (listeners : List Listener)
    (report : Failure → List Log.Line) (pulls : List PullRequest) :
    (config.round listeners report world pulls).completed = 0 ∧
      (config.round listeners report world pulls).failures.length = pulls.length ∧
      ((world.files.makeDirectories config.site.directory).2 = none →
        ∀ e ∈ (config.round listeners report world pulls).failures, e = failure) ∧
      config.site.Spared world (config.round listeners report world pulls).world := by
  have plans : ∀ pass ∈ pulls.map config.pass, pass.plan = config.site.plan := by
    intro pass member
    obtain ⟨pull,_,rfl⟩ := List.mem_map.mp member
    rfl
  obtain ⟨completed,count,same,spared⟩ := Round.ofPasses_unreadable listeners report plans unreadable
  rw [List.length_map] at count
  exact ⟨completed,count,same,spared⟩

/-- What can be done with a history: to look at it, to put entries into it, and to run passes and rounds. -/
inductive Operation
  | look
  | put (es : List Entry)
  | pass (listeners : List Listener) (pull : PullRequest)
  | round (listeners : List Listener) (report : Failure → List Log.Line) (pulls : List PullRequest)

def Operation.run (config : Config) : Operation → World → World
  | .look,world => (config.site.store.current.run [] world).1
  | .put es,world => ((config.site.store.putAll es).run [] world).1
  | .pass listeners pull,world => (((config.pass pull).program config.scratch).run listeners world).1
  | .round listeners report pulls,world => (config.round listeners report world pulls).world

def Operation.runAll (config : Config) (operations : List Operation) (world : World) : World :=
  operations.foldl (fun world operation => operation.run config world) world

namespace Operation

variable {config : Config} {world : World} {failure : Failure}

theorem run_spares (unreadable : config.site.store.contents world.files = .error failure) (operation : Operation) :
    config.site.Spared world (operation.run config world) := by
  cases operation with
  | look =>
    rw [run,Store.run_current,unreadable]
    exact .refl _ world
  | put es =>
    rw [run]
    by_cases empty : es = []
    · subst es
      exact .refl _ world
    · rw [Store.run_putAll_unreadable [] unreadable empty]
      exact .refl _ world
  | pass listeners pull =>
    obtain ⟨after,e,ended,files,deliveries,_⟩ :=
      Pass.run_unreadable (rfl : (config.pass pull).plan = config.site.plan) unreadable listeners
    rw [run]
    change config.site.Spared world (((config.pass pull).program config.site.scratch).run listeners world).1
    rw [ended]
    exact .of_made files deliveries unreadable
  | round listeners report pulls =>
    exact (Config.round_unreadable unreadable listeners report pulls).2.2.2

/-- Whatever is done with a history that cannot be read, it stays as it is and cannot be read afterwards. -/
theorem runAll_spares (unreadable : config.site.store.contents world.files = .error failure)
    (operations : List Operation) : config.site.Spared world (runAll config operations world) := by
  induction operations using List.reverseRecOn with
  | nil => exact .refl _ world
  | append_singleton operations operation ih =>
    have next := run_spares (ih.unreadable unreadable) operation
    rw [runAll,List.foldl_append]
    exact ih.trans next

end Operation

namespace Config

variable {config : Config} {world : World} {failure : Failure}

/-- In this world everything that has to read the history fails and tells nobody. -/
structure Stopped (config : Config) (failure : Failure) (world : World) : Prop where
  look : ∀ listeners, config.site.store.current.run listeners world = (world,.error failure)
  put : ∀ e listeners, (config.site.store.put e).run listeners world = (world,.error failure)
  putAll : ∀ es ≠ [], ∀ listeners, (config.site.store.putAll es).run listeners world = (world,.error failure)
  pass : ∀ listeners pull, ∃ after e,
    ((config.pass pull).program config.scratch).run listeners world = (after,.error e) ∧
      after.deliveries = world.deliveries
  completed : ∀ listeners report pulls, (config.round listeners report world pulls).completed = 0
  deliveries : ∀ listeners report pulls,
    (config.round listeners report world pulls).world.deliveries = world.deliveries
  handled : ∀ listeners report pulls, (config.round listeners report world pulls).failures.length = pulls.length
  /-- What is handled for one more pull request is what its pass ends with. -/
  inOrder : ∀ listeners report past pull, ∃ after e,
    ((config.pass pull).program config.scratch).run listeners (config.round listeners report world past).world =
        (after,.error e) ∧
      (config.round listeners report world (past ++ [pull])).failures =
        (config.round listeners report world past).failures ++ [e]
  /-- It is the failure of the history unless the directory cannot be made. -/
  alike : (world.files.makeDirectories config.site.directory).2 = none → ∀ listeners report pulls,
    ∀ e ∈ (config.round listeners report world pulls).failures, e = failure

theorem stopped_of_unreadable (unreadable : config.site.store.contents world.files = .error failure) :
    config.Stopped failure world where
  look listeners := by rw [Store.run_current,unreadable]
  put e listeners := Store.run_putAll_unreadable listeners unreadable (List.cons_ne_nil e [])
  putAll es nonempty listeners := Store.run_putAll_unreadable listeners unreadable nonempty
  pass listeners pull := by
    obtain ⟨after,e,ended,_,deliveries,_⟩ :=
      Pass.run_unreadable (rfl : (config.pass pull).plan = config.site.plan) unreadable listeners
    exact ⟨after,e,ended,deliveries⟩
  completed listeners report pulls := (round_unreadable unreadable listeners report pulls).1
  deliveries listeners report pulls := (round_unreadable unreadable listeners report pulls).2.2.2.deliveries
  handled listeners report pulls := (round_unreadable unreadable listeners report pulls).2.1
  inOrder listeners report past pull := by
    obtain ⟨_,_,_,spared⟩ := round_unreadable unreadable listeners report past
    obtain ⟨after,e,ended,stepped,_,_⟩ := Round.step_unreadable listeners report
      (rfl : (config.pass pull).plan = config.site.plan) (spared.unreadable unreadable)
    refine ⟨after,e,ended,?_⟩
    have last : config.round listeners report world (past ++ [pull]) =
        (config.round listeners report world past).step listeners report config.scratch (config.pass pull) := by
      rw [round,List.map_append]
      exact @Round.ofPasses_snoc config.site _ _ _ _ _
    rw [last]
    exact congrArg Round.failures stepped
  alike possible listeners report pulls := (round_unreadable unreadable listeners report pulls).2.2.1 possible

/-- A history that cannot be read stops everything and is never written over: whatever was done with it
before, all that is done fails, nobody is told anything, and its file or what stands in its place is as
it was. -/
theorem unreadable_stops (unreadable : (config.site.store.current.run [] world).2 = .error failure)
    (operations : List Operation) : config.site.Spared world (Operation.runAll config operations world) ∧
      config.Stopped failure (Operation.runAll config operations world) := by
  have unreadable : config.site.store.contents world.files = .error failure := by
    rw [Store.run_current] at unreadable
    cases read : config.site.store.contents world.files with
    | ok found =>
      rw [read] at unreadable
      cases unreadable
    | error other =>
      rw [read] at unreadable
      rw [Except.error.inj unreadable]
  have spared := Operation.runAll_spares unreadable operations
  exact ⟨spared,stopped_of_unreadable (spared.unreadable unreadable)⟩

/-- A file of one octet that no text begins with. -/
def brokenWorld : World := { World.empty with files := ⟨[(.ofTexts ["tmp","tmp////////","scratch"],.directory),
  (.ofTexts ["tmp","tmp////////","scratch","notify"],.directory),
  (.ofTexts ["tmp","tmp////////","scratch","notify","history"],.file [0xff])]⟩ }

def brokenOperations : List Operation :=
  [.look,.put [History.mergedEntry [] .unknown],.round [.idle] (fun _ => []) [.sample "17",.sample "18"]]

theorem unreadable_stops_broken : (Operation.runAll sample brokenOperations brokenWorld).deliveries = [] ∧
    (Operation.runAll sample brokenOperations brokenWorld).files.octetsAt sample.site.path = .ok [0xff] ∧
    (sample.round [.idle] (fun _ => []) (Operation.runAll sample brokenOperations brokenWorld)
      [.sample "17",.sample "18"]).failures.length = 2 := by
  have unreadable : (sample.site.store.current.run [] brokenWorld).2 =
      .error (.notUtf8 ⟨.startOctet,0xff,0,1⟩) := by decide +kernel
  have octets : brokenWorld.files.octetsAt sample.site.path = .ok [0xff] := by decide +kernel
  obtain ⟨spared,stopped⟩ := unreadable_stops unreadable brokenOperations
  exact ⟨spared.deliveries,spared.octets.trans octets,stopped.handled _ _ _⟩

end Config

end PullNotices
