import PullNotices.Hash

/-!
The commit a pull request was integrated as, so far as it is known. An entry written before commits
were recorded carries a placeholder, which the next pass replaces. A known commit is never the zero
hash: `Commit.ofHash` reads that one as the placeholder.
-/
namespace PullNotices

inductive Commit
  | unknown
  /-- Written before commits were recorded. -/
  | placeholder
  | known (hash : Hash) (ne_zero : hash ≠ Hash.zero)
  deriving DecidableEq

namespace Commit

inductive Status
  | unknown
  | placeholder
  | known
  deriving DecidableEq, Repr

def Status.name : Status → Text
  | .unknown => "unknown"
  | .placeholder => "placeholder"
  | .known => "known"

inductive BuildError
  | noSuchStatus (shown : Text)
  | knownWithoutHash
  | strayHash (status : Status)
  deriving DecidableEq, Repr

def BuildError.message : BuildError → Text
  | .noSuchStatus shown => shown ++ " is not a valid CommitStatus"
  | .knownWithoutHash => "a known commit needs a hash"
  | .strayHash status => status.name ++ " commit must not carry a hash"

def Status.parse (name : Text) : Except BuildError Status :=
  if name = Status.name .unknown then .ok .unknown
  else if name = Status.name .placeholder then .ok .placeholder
  else if name = Status.name .known then .ok .known
  else .error (.noSuchStatus (Text.quoted name))

/-- The commit with this hash; the zero hash makes the placeholder. -/
def ofHash (hash : Hash) : Commit :=
  if h : hash = Hash.zero then .placeholder else .known hash h

def ofHash? : Option Hash → Commit
  | none => .unknown
  | some hash => ofHash hash

def build : Status → Option Hash → Except BuildError Commit
  | .known, some hash => .ok (ofHash hash)
  | .known, none => .error .knownWithoutHash
  | .unknown, none => .ok .unknown
  | .placeholder, none => .ok .placeholder
  | status, some _ => .error (.strayHash status)

def status : Commit → Status
  | .unknown => .unknown
  | .placeholder => .placeholder
  | .known .. => .known

def hash? : Commit → Option Hash
  | .known hash _ => some hash
  | _ => none

def isKnown (c : Commit) : Bool := c.status = .known

def isPlaceholder (c : Commit) : Bool := c.status = .placeholder

def isPresent (c : Commit) : Bool := c.status ≠ .unknown

/-- A known commit shows its digits, the others their status between angle brackets. -/
def display (c : Commit) : Text :=
  match c.hash? with
  | some hash => hash.digits
  | none => "<" ++ c.status.name ++ ">"

end Commit
end PullNotices
