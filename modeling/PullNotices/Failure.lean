import PullNotices.Files.Fault
import PullNotices.History.Encoding
import PullNotices.Text.Utf8

/-!
What makes a pass stop: the files, what stands in the history, or a listener.
-/
namespace PullNotices

inductive Failure
  | cannotCreate (directory : Path) (fault : FileFault)
  | cannotRead (path : Path) (fault : FileFault)
  /-- The fault is of a temporary file whose name is new each time, so messages leave it out. -/
  | cannotWrite (path : Path) (fault : FileFault)
  | unusablePath (flaw : PathFlaw)
  | notUtf8 (fault : Utf8.Fault)
  | undecodable (e : History.DecodeError)
  | listener (words : Text)
  deriving DecidableEq, Repr

def Failure.message : Failure → Text
  | .cannotCreate directory fault => "cannot create " ++ directory.display ++ ": " ++ fault.message
  | .cannotRead path fault => "cannot read " ++ path.display ++ ": " ++ fault.message
  | .cannotWrite path _ => "cannot write " ++ path.display
  | .unusablePath flaw => flaw.message
  | .notUtf8 fault => fault.message
  | .undecodable e => e.message
  | .listener words => words

end PullNotices
