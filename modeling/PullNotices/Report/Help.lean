import PullNotices.Report.CommandLine
import PullNotices.Report.Listing

/-!
The help of the history viewer: how it is called, what it does, and what each operand and each flag is
for. An item is indented by two spaces, and its words begin in one column for all items, two spaces
behind the longest of them.
-/
namespace PullNotices.Report

inductive Operand
  | history
  | other
  deriving DecidableEq, Repr

def Operand.name : Operand → Text
  | .history => "history"
  | .other => "other"

/-- The operand in a pattern of calls; one that may be left out stands between brackets. -/
def Operand.pattern : Operand → Text
  | .history => Operand.name .history
  | .other => "[" ++ Operand.name .other ++ "]"

def Operand.words : Operand → Text
  | .history => "History file"
  | .other => "Newer history file to compare against"

def Operand.all : List Operand := [.history, .other]

def Flag.shortForm (flag : Flag) : Text := ['-', flag.short]

def Flag.words : Flag → Text
  | .help => "show this help message and exit"
  | .verbose => "Enable debug logging"

def usage (program : Text) : Text :=
  let flags : List Text := Flag.all.map fun flag => "[" ++ flag.shortForm ++ "]"
  Text.join " " ((["usage:", program] : List Text) ++ flags ++ Operand.all.map Operand.pattern)

structure HelpItem where
  form : Text
  words : Text
  deriving DecidableEq, Repr

namespace HelpItem

def ofOperand (operand : Operand) : HelpItem := ⟨operand.name, operand.words⟩

def ofFlag (flag : Flag) : HelpItem := ⟨flag.shortForm ++ ", " ++ flag.long, flag.words⟩

def operands : List HelpItem := Operand.all.map ofOperand

def flags : List HelpItem := Flag.all.map ofFlag

def width : Nat := ((operands ++ flags).map fun item => item.form.length).foldl max 0

def line (item : HelpItem) : Text := "  " ++ Table.pad width item.form ++ "  " ++ item.words

end HelpItem

def helpPage (program : Text) : Text :=
  let heading : List Text :=
    [usage program, [], "Show or diff notification history files.", [], "positional arguments:"]
  let between : List Text := [[], "options:"]
  printed (heading ++ HelpItem.operands.map HelpItem.line ++ between ++
    HelpItem.flags.map HelpItem.line)

example : usage "viewer" = ("usage: viewer [-h] [-v] history [other]" : Text) := rfl
example : (HelpItem.ofFlag .verbose).line = ("  -v, --verbose  Enable debug logging" : Text) := rfl

end PullNotices.Report
