import PullNotices.Files.Fault
import PullNotices.Text.Set

/-!
File trees: directories and files below one top directory, which is its own parent. Paths without a
root begin in the working directory. An operation answers with the tree it leaves or with what
stopped it. `node?_set` says that a change at one place is seen there and nowhere else.
-/
namespace PullNotices

abbrev Place := List FileName

def Place.ofTexts (names : List Text) : Place := names.map FileName.ofText

inductive Node
  | directory
  | file (octets : List UInt8)
  deriving DecidableEq, Repr

structure FileTree where
  nodes : List (Place × Node)
  deriving DecidableEq, Repr

namespace FileTree

def temporary : Place := .ofTexts ["tmp"]

/-- Where paths without a root begin. Of the name of this directory only the length matters. The part
that is not known is written with slashes, so that no path leads from the top into it. -/
def workingDirectory : Place := .ofTexts ["tmp", "tmp////////"]

def lasting : List Place := [[], temporary, workingDirectory]

def empty : FileTree := ⟨[]⟩

def node? (tree : FileTree) (place : Place) : Option Node :=
  if place ∈ lasting then some .directory
  else (tree.nodes.find? fun (p, _) => p = place).map fun (_, node) => node

/-- The tree with a node in a place, which is seen there unless the place is a lasting one. -/
def set (tree : FileTree) (place : Place) (node : Node) : FileTree :=
  ⟨(place, node) :: tree.nodes.filter fun (p, _) => p ≠ place⟩

def erase (tree : FileTree) (place : Place) : FileTree :=
  ⟨tree.nodes.filter fun (p, _) => p ≠ place⟩

theorem node?_set {tree : FileTree} {place : Place} {node : Node} (free : place ∉ lasting) (p : Place) :
    (tree.set place node).node? p = if p = place then some node else tree.node? p := by
  unfold node? set
  by_cases h : p = place
  · simp [h, free]
  · have : ¬ place = p := fun same => h same.symm
    simp only [h, if_false, List.find?_cons, this, decide_false, List.find?_filter]
    congr 3
    funext q
    by_cases hq : q.1 = p <;> simp [hq, h]

def namesIn (tree : FileTree) (place : Place) : List Text :=
  (TextSet.ofList <| tree.nodes.filterMap fun (p, _) =>
    if p.dropLast = place then p.getLast?.map FileName.toText else none).members

def nameLimit : Nat := 255

def pathLimit : Nat := 4095

/-- The place that names lead to from `here`. What is passed on the way must be a directory. -/
def walk (tree : FileTree) (here : Place) : List Text → Except Refusal Place
  | [] => .ok here
  | part :: parts =>
    match tree.node? here with
    | none => .error .notFound
    | some (.file _) => .error .notDirectory
    | some .directory =>
      if part = ".." then walk tree here.dropLast parts
      else if nameLimit < (FileName.ofText part).length then .error .nameTooLong
      else walk tree (here ++ [FileName.ofText part]) parts

def locate (tree : FileTree) (path : Path) : Except Refusal Place :=
  if pathLimit < (FileName.ofText path.display).length then .error .nameTooLong
  else tree.walk (if path.root = [] then workingDirectory else []) path.parts

def lookup (tree : FileTree) (path : Path) : Except Refusal Node :=
  match tree.locate path with
  | .error refusal => .error refusal
  | .ok place =>
    match tree.node? place with
    | none => .error .notFound
    | some node => .ok node

def isDirectory (tree : FileTree) (path : Path) : Bool := tree.lookup path matches .ok .directory

def checked {α : Type} (path : Path) (result : Except Refusal α) : Except FileFault α :=
  match path.flaw? with
  | some flaw => .error (.unusable flaw)
  | none => result.mapError fun refusal => .refused refusal path

def octetsAt (tree : FileTree) (path : Path) : Except FileFault (List UInt8) :=
  checked path <|
    match tree.lookup path with
    | .error refusal => .error refusal
    | .ok .directory => .error .isDirectory
    | .ok (.file octets) => .ok octets

def replacing (tree : FileTree) (path : Path) (octets : List UInt8) : Except Refusal FileTree :=
  match tree.locate path with
  | .error refusal => .error refusal
  | .ok place =>
    match tree.node? place with
    | some .directory => .error .isDirectory
    | _ => .ok (tree.set place (.file octets))

def putOctets (tree : FileTree) (path : Path) (octets : List UInt8) : Except FileFault FileTree :=
  checked path (tree.replacing path octets)

/-- The octets that the name of a temporary file has more than the name of the file it becomes. -/
def temporaryOctets : Nat := 14

def fullOctets (place : Place) : Nat := (place.flatMap fun name => 0x2f :: name).length

/-- The tree with the file replaced in one step: the octets go to a temporary file beside it, which
then takes its name. The temporary file is reached from the top, so that also what stands above the
working directory counts for the length of its path. -/
def replaceFile (tree : FileTree) (path : Path) (octets : List UInt8) : Except FileFault FileTree :=
  checked path <|
    match tree.locate path with
    | .error refusal => .error refusal
    | .ok place =>
      if nameLimit < (FileName.ofText path.name).length + temporaryOctets ∨
          pathLimit < fullOctets place + temporaryOctets then .error .nameTooLong
      else tree.replacing path octets

def discard (tree : FileTree) (path : Path) : Except FileFault FileTree :=
  checked path <|
    match tree.locate path with
    | .error refusal => .error refusal
    | .ok place =>
      match tree.node? place with
      | none => .error .notFound
      | some .directory => .error .isDirectory
      | some (.file _) => .ok (tree.erase place)

def makeDirectory (tree : FileTree) (path : Path) : Except Refusal FileTree :=
  match tree.locate path with
  | .error refusal => .error refusal
  | .ok place =>
    match tree.node? place with
    | some _ => .error .alreadyExists
    | none => .ok (tree.set place .directory)

def settle (tree : FileTree) (path : Path) : Except Refusal FileTree → FileTree × Option FileFault
  | .ok made => (made, none)
  | .error refusal => (tree, if tree.isDirectory path then none else some (.refused refusal path))

/-- Makes a directory and those above it that are missing. When it fails, what was made until then
stays. -/
def makeParents (tree : FileTree) (path : Path) : FileTree × Option FileFault :=
  match tree.makeDirectory path with
  | .error .notFound =>
    if _h : path.parts = [] then (tree, some (.refused .notFound path))
    else
      match makeParents tree path.parent with
      | (tree, some fault) => (tree, some fault)
      | (tree, none) => tree.settle path (tree.makeDirectory path)
  | made => tree.settle path made
termination_by path.parts.length
decreasing_by
  have : path.parts.length ≠ 0 := by simpa using _h
  simp only [Path.parent, List.length_dropLast]
  omega

def attempt (tree : FileTree) (path : Path) : FileTree × Option FileFault :=
  match tree.makeDirectory path with
  | .ok made => (made, none)
  | .error refusal => (tree, some (.refused refusal path))

def makeNewDirectory (tree : FileTree) (path : Path) : FileTree × Option FileFault :=
  match path.flaw? with
  | some flaw => (tree, some (.unusable flaw))
  | none =>
    match tree.attempt path with
    | (_, some (.refused .notFound _)) =>
      match tree.makeParents path.parent with
      | (tree, some fault) => (tree, some fault)
      | (tree, none) => tree.attempt path
    | outcome => outcome

/-- Makes a directory and those above it that are missing; one that is there is left as it is. -/
def makeDirectories (tree : FileTree) (path : Path) : FileTree × Option FileFault :=
  match path.flaw? with
  | some flaw => (tree, some (.unusable flaw))
  | none => tree.makeParents path

end FileTree
end PullNotices
