import PullNotices.Files.Name
import PullNotices.Text.Quoted

/-!
What a file system refuses, with the numbers and words it has for it.
-/
namespace PullNotices

inductive Refusal
  | notFound
  | alreadyExists
  | notDirectory
  | isDirectory
  | nameTooLong
  deriving DecidableEq, Repr

def Refusal.number : Refusal → Nat
  | .notFound => 2
  | .alreadyExists => 17
  | .notDirectory => 20
  | .isDirectory => 21
  | .nameTooLong => 36

def Refusal.words : Refusal → Text
  | .notFound => "No such file or directory"
  | .alreadyExists => "File exists"
  | .notDirectory => "Not a directory"
  | .isDirectory => "Is a directory"
  | .nameTooLong => "File name too long"

inductive FileFault
  | refused (refusal : Refusal) (path : Path)
  /-- The path was never handed to the file system. -/
  | unusable (flaw : PathFlaw)
  deriving DecidableEq, Repr

def FileFault.message : FileFault → Text
  | .refused refusal path =>
    "[Errno " ++ Text.ofNat refusal.number ++ "] " ++ refusal.words ++ ": " ++ Text.quoted path.display
  | .unusable flaw => flaw.message

end PullNotices
