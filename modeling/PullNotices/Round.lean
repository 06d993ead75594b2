import PullNotices.Config
import PullNotices.Pass

/-!
Rounds: one pass for each pull request, one after another. A pass that fails is reported and does
not keep the others from running.
-/
namespace PullNotices

structure Round where
  world : World
  completed : Nat
  failures : List Failure

namespace Round

def failureLine (failure : Failure) : Log.Line :=
  ⟨.error, "Notification pass failed: " ++ failure.message⟩

/-- Runs the pass of one more pull request; `report` notes a failure. -/
def step (listeners : List Listener) (report : Failure → List Log.Line) (scratch : Path)
    (round : Round) (pass : Pass) : Round :=
  match (pass.program scratch).run listeners round.world with
  | (world, .ok _) => { round with world, completed := round.completed + 1 }
  | (world, .error failure) =>
    { round with world := world.note (report failure), failures := round.failures ++ [failure] }

def ofPasses (listeners : List Listener) (report : Failure → List Log.Line) (scratch : Path)
    (world : World) (passes : List Pass) : Round :=
  passes.foldl (step listeners report scratch) ⟨world, 0, []⟩

end Round

def Config.pass (config : Config) (pull : PullRequest) : Pass :=
  ⟨pull, config.trust, .history config.historyName⟩

def Config.round (config : Config) (listeners : List Listener)
    (report : Failure → List Log.Line) (world : World) (pulls : List PullRequest) : Round :=
  Round.ofPasses listeners report config.scratch world (pulls.map config.pass)

end PullNotices
