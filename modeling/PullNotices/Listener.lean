import PullNotices.Log
import PullNotices.Notice

/-!
Listeners. What a listener does with a notice is its own affair; seen from here it notes some lines
and accepts the notice or fails. Its answer may depend on the notices it had before.
-/
namespace PullNotices

structure Reaction where
  log : List Log.Line
  failure : Option Text
  deriving DecidableEq, Repr

/-- A listener, told by its answer to a notice after earlier ones. -/
structure Listener where
  respond : (past : List Notice) → Notice → Reaction

namespace Listener

def idle : Listener := ⟨fun _ _ => ⟨[], none⟩⟩

def line (notice : Notice) : Text :=
  let key := notice.pull.key
  match notice.event with
  | .opened => "New pull request " ++ key ++ ": " ++ notice.pull.title
  | .issueAdded id => key ++ " now references " ++ id
  | .issueRemoved id => key ++ " no longer references " ++ id
  | .integrated hash => key ++ " integrated as " ++ hash.abbreviate Hash.abbreviatedLength

def logging : Listener := ⟨fun _ notice => ⟨[⟨.info, line notice⟩], none⟩⟩

end Listener
end PullNotices
