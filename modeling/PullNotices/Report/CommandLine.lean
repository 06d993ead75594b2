import PullNotices.Files.Path
import PullNotices.Text.Digit

/-!
The arguments of the history viewer: one history to show or two to compare, and flags. A flag may be
cut short as long as one flag alone begins so, short flags may share a dash, and two dashes alone end
the flags. The operands are taken from the first unbroken run of them; later ones are not expected.
Flags count in their order: help ends everything unless something before it is wrongly attached.
-/
namespace PullNotices.Report

inductive Command
  | show (history : Path)
  | compare (old new : Path)
  | help
  deriving DecidableEq, Repr

structure UsageError where
  deriving DecidableEq, Repr

inductive Flag
  | help
  | verbose
  deriving DecidableEq, Repr

inductive Argument
  | operand (t : Text)
  | flags (fs : List Flag)
  | unknownFlag
  /-- The beginning of more than one flag. -/
  | ambiguous
  /-- A flag with something attached to it that is no flag. -/
  | misused
  deriving DecidableEq, Repr

namespace Flag

def short : Flag → CodePoint
  | .help => 'h'
  | .verbose => 'v'

def long : Flag → Text
  | .help => "--help"
  | .verbose => "--verbose"

def all : List Flag := [.help, .verbose]

def ofShort? (c : CodePoint) : Option Flag := all.find? fun flag => flag.short = c

def ofLetters? (letters : Text) : Option (List Flag) := letters.mapM ofShort?

end Flag

namespace Argument

/-- A negative number in the digits of any scripts, which is an operand like any other. One line feed
may end it. -/
def isNegativeNumber (t : Text) : Bool :=
  match Text.after? "-" t with
  | none => false
  | some body =>
    let body := if body.getLast? = some (CodePoint.ofChar '\n') then body.dropLast else body
    match body.span CodePoint.isScriptDigit with
    | (digits, []) => digits ≠ []
    | (_, rest) =>
      match Text.after? "." rest with
      | some fraction => fraction ≠ [] && fraction.all CodePoint.isScriptDigit
      | none => false

def ofLong (t : Text) : Option Argument :=
  let name := t.takeWhile fun c : CodePoint => c ≠ '='
  match Flag.all.filter fun flag => (Text.after? name flag.long).isSome with
  | [] => none
  | [flag] => some (if name = t then .flags [flag] else .misused)
  | _ => some .ambiguous

/-- Letters behind one dash. An equals sign may stand between the first letter and the others. -/
def ofShort (letter : CodePoint) (rest : Text) : Option Argument :=
  (Flag.ofShort? letter).map fun flag =>
    match Text.after? "=" rest with
    | some [] => .misused
    | others =>
      match Flag.ofLetters? (others.getD rest) with
      | some fs => .flags (flag :: fs)
      | none => .misused

/-- What an argument is. One that begins with a dash, is no flag and has a space in it is an
operand. -/
def ofText (t : Text) : Argument :=
  match Text.after? "-" t with
  | none | some [] => .operand t
  | some (letter :: rest) =>
    match if letter = '-' then ofLong t else ofShort letter rest with
    | some argument => argument
    | none => if isNegativeNumber t || t.contains ' ' then .operand t else .unknownFlag

def operand? : Argument → Option Text
  | .operand t => some t
  | _ => none

def settled? : Argument → Option (Except UsageError Command)
  | .flags fs => if Flag.help ∈ fs then some (.ok .help) else none
  | .misused => some (.error {})
  | _ => none

end Argument

namespace Command

def endOfFlags : Text := "--"

/-- The command of the operands; two dashes as the second of them stand for nothing. -/
def ofOperands : List Text → Except UsageError Command
  | [history] => .ok (.show (Path.ofText history))
  | [history, other] =>
    if other = endOfFlags then .ok (.show (Path.ofText history))
    else .ok (.compare (Path.ofText history) (Path.ofText other))
  | _ => .error {}

def ofParts (front : List Argument) (behind : Option (List Text)) : Except UsageError Command :=
  let run := front.dropWhile fun a => a.operand?.isNone
  let operands := (run.takeWhile fun a => a.operand?.isSome).filterMap Argument.operand?
  let later := run.dropWhile fun a => a.operand?.isSome
  if Argument.ambiguous ∈ front then .error {}
  else
    match front.findSome? Argument.settled? with
    | some outcome => outcome
    | none =>
      if Argument.unknownFlag ∈ front then .error {}
      else if later = [] then ofOperands (operands ++ behind.getD [])
      else if later.any (fun a => a.operand?.isSome) || behind.isSome then .error {}
      else ofOperands operands

def ofArguments (arguments : List Text) : Except UsageError Command :=
  let front := (arguments.takeWhile (· ≠ endOfFlags)).map Argument.ofText
  match arguments.dropWhile (· ≠ endOfFlags) with
  | [] => ofParts front none
  | _ :: behind => ofParts front (some behind)

example : ofArguments ["-vv", "a", "--verb"] = .ok (.show ⟨[], ["a"]⟩) := rfl
example : ofArguments ["-v=v", "a"] = ofArguments ["-vv", "a"] := rfl
example : ofArguments ["a", "-v", "b"] = .error {} := rfl
example : ofArguments ["--", "-v", "--help"] = .ok (.compare ⟨[], ["-v"]⟩ ⟨[], ["--help"]⟩) := rfl

end Command
end PullNotices.Report
