import PullNotices.Failure
import PullNotices.Files.Tree
import PullNotices.Listener

/-!
The world that passes act on: the file tree, what listeners were told so far, and the log. Notices
go to the listeners one after another, and the first that fails keeps the rest from being told.
-/
namespace PullNotices

/-- A notice as one listener received it, be it that the listener failed on it. -/
structure Delivery where
  listener : Nat
  notice : Notice
  deriving DecidableEq

structure World where
  files : FileTree
  deliveries : List Delivery
  log : List Log.Line
  deriving DecidableEq

namespace World

def empty : World := ⟨.empty, [], []⟩

def heardBy (world : World) (listener : Nat) : List Notice :=
  (world.deliveries.filter fun d => d.listener = listener).map Delivery.notice

def note (world : World) (lines : List Log.Line) : World := { world with log := world.log ++ lines }

/-- Tells the listeners, the first of which stands at `position`, until one fails. -/
def tellFrom (notice : Notice) (position : Nat) : List Listener → World → World × Option Text
  | [], world => (world, none)
  | listener :: rest, world =>
    let reaction := listener.respond (world.heardBy position) notice
    let told := { world.note reaction.log with
      deliveries := world.deliveries ++ [⟨position, notice⟩] }
    match reaction.failure with
    | some words => (told, some words)
    | none => tellFrom notice (position + 1) rest told

def tell (world : World) (listeners : List Listener) (notice : Notice) : World × Option Text :=
  tellFrom notice 0 listeners world

end World
end PullNotices
