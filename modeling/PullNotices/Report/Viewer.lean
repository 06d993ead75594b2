import PullNotices.History.Encoding
import PullNotices.Report.Help
import PullNotices.Store

/-!
The history viewer. It prints as it goes, so what stands in front of a file that cannot be read is
printed nevertheless.
-/
namespace PullNotices.Report

inductive LoadError
  | file (fault : FileFault)
  | notUtf8 (fault : Utf8.Fault)
  | undecodable (e : History.DecodeError)
  deriving DecidableEq, Repr

def LoadError.message : LoadError → Text
  | .file fault => fault.message
  | .notUtf8 fault => fault.message
  | .undecodable e => e.message

structure Output where
  text : Text
  log : List Log.Line
  error : Option LoadError
  deriving DecidableEq, Repr

def Output.behind (text : Text) (log : List Log.Line) (rest : Output) : Output :=
  { rest with text := text ++ rest.text, log := log ++ rest.log }

def load : Except FileFault (List UInt8) → Except LoadError History.Decoded
  | .error fault => .error (.file fault)
  | .ok octets =>
    match Utf8.decode octets with
    | .error fault => .error (.notUtf8 fault)
    | .ok t => (History.decode t.normalizeBreaks).mapError .undecodable

def withHistory (loaded : Except LoadError History.Decoded) (next : History → Output) : Output :=
  match loaded with
  | .error e => ⟨[], [], some e⟩
  | .ok found => .behind [] (Store.duplicatesLog found.duplicates) (next found.history)

def showHistory (read : Path → Except FileFault (List UInt8)) (path : Path) : Output :=
  withHistory (load (read path)) fun h => ⟨ofHistory h, [], none⟩

def compareHistories (read : Path → Except FileFault (List UInt8)) (old new : Path) : Output :=
  .behind (printed ["Old: " ++ old.display, "New: " ++ new.display, []]) [] <|
    withHistory (load (read old)) fun before =>
      withHistory (load (read new)) fun after =>
        ⟨ofDifferences (History.differences before after), [], none⟩

/-- Carries out a command given to a program of this name, with the octets of files as `read` gives
them. -/
def Command.output (program : Text) (read : Path → Except FileFault (List UInt8)) :
    Command → Output
  | .show path => showHistory read path
  | .compare old new => compareHistories read old new
  | .help => ⟨helpPage program, [], none⟩

end PullNotices.Report
