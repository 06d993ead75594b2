import PullNotices.Text.Basic

/-!
What the program notes about its own work, line by line.
-/
namespace PullNotices.Log

inductive Level
  | debug
  | info
  | warning
  | error
  deriving DecidableEq, Repr

def Level.name : Level → Text
  | .debug => "DEBUG"
  | .info => "INFO"
  | .warning => "WARNING"
  | .error => "ERROR"

structure Line where
  level : Level
  message : Text
  deriving DecidableEq, Repr

end PullNotices.Log
