import PullNotices.Report.Viewer

/-!
The history viewer as a program. Everything it prints is decided in `Report`; here files are read
and texts are written out.
-/
namespace PullNotices

def programName : Text := "pull-notices"

def refusalOf : IO.Error → Refusal
  | .noFileOrDirectory .. | .noSuchThing .. => .notFound
  | .alreadyExists .. => .alreadyExists
  | .inappropriateType _ code _ => if code = 21 then .isDirectory else .notDirectory
  | .resourceExhausted .. | .invalidArgument .. => .nameTooLong
  | _ => .notDirectory

def readOctets (path : Path) : IO (Except FileFault (List UInt8)) := do
  try
    let octets ← IO.FS.readBinFile path.display.toString
    return .ok octets.toList
  catch e => return .error (.refused (refusalOf e) path)

def Report.Command.paths : Report.Command → List Path
  | .show path => [path]
  | .compare old new => [old, new]
  | .help => []

def serve (command : Report.Command) : IO UInt32 := do
  let files ← command.paths.mapM fun path => do return (path, ← readOctets path)
  let output := command.output programName fun path =>
    ((files.find? fun (p, _) => p = path).map Prod.snd).getD (.error (.refused .notFound path))
  for line in output.log do
    (← IO.getStderr).putStrLn line.message.toString
  IO.print output.text.toString
  match output.error with
  | none => return 0
  | some e =>
    (← IO.getStderr).putStrLn e.message.toString
    return 1

end PullNotices

open PullNotices in
/-- Shows a history or compares two of them. -/
def main (arguments : List String) : IO UInt32 :=
  match Report.Command.ofArguments (arguments.map Text.ofString) with
  | .error _ => do
    (← IO.getStderr).putStrLn (Report.usage programName).toString
    return 2
  | .ok command => serve command
