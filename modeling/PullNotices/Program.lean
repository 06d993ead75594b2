import PullNotices.World

/-!
Programs that act on the world by requests. A program is a value: it can be run to its end, cut off,
or taken request by request beside another. A request that fails ends the program, and what was done
before stays done.
-/
namespace PullNotices

inductive Request
  | directory (path : Path)
  /-- The text of a file, with line feeds for line ends; a missing file is empty. -/
  | read (path : Path)
  /-- That a file holds this text, in one step. -/
  | replace (path : Path) (text : Text)
  | tell (notice : Notice)
  | note (line : Log.Line)
  deriving DecidableEq

abbrev Request.Reply : Request → Type
  | .read _ => Text
  | _ => Unit

inductive Program (α : Type)
  | done (a : α)
  | fail (e : Failure)
  | request (r : Request) (next : r.Reply → Program α)

def Request.textOf (octets : List UInt8) : Except Failure Text :=
  match Utf8.decode octets with
  | .ok t => .ok t.normalizeBreaks
  | .error fault => .error (.notUtf8 fault)

def Request.answerRead (path : Path) : Except FileFault (List UInt8) → Except Failure Text
  | .ok octets => textOf octets
  | .error (.refused .notFound _) => .ok []
  | .error (.unusable flaw) => .error (.unusablePath flaw)
  | .error fault => .error (.cannotRead path fault)

def World.perform (world : World) (listeners : List Listener) :
    (r : Request) → World × Except Failure r.Reply
  | .directory path =>
    match world.files.makeDirectories path with
    | (files, none) => ({ world with files }, .ok ())
    | (files, some (.unusable flaw)) => ({ world with files }, .error (.unusablePath flaw))
    | (files, some fault) => ({ world with files }, .error (.cannotCreate path fault))
  | .read path => (world, Request.answerRead path (world.files.octetsAt path))
  | .replace path text =>
    match world.files.replaceFile path (Utf8.encode text) with
    | .ok files => ({ world with files }, .ok ())
    | .error (.unusable flaw) => (world, .error (.unusablePath flaw))
    | .error fault => (world, .error (.cannotWrite path fault))
  | .tell notice =>
    match world.tell listeners notice with
    | (world, none) => (world, .ok ())
    | (world, some words) => (world, .error (.listener words))
  | .note line => (world.note [line], .ok ())

namespace Program

variable {α β : Type}

def bind : Program α → (α → Program β) → Program β
  | .done a, f => f a
  | .fail e, _ => .fail e
  | .request r next, f => .request r fun reply => bind (next reply) f

instance : Monad Program where
  pure := .done
  bind := bind

def ask (r : Request) : Program r.Reply := .request r .done

def note : List Log.Line → Program Unit
  | [] => .done ()
  | line :: lines => .request (.note line) fun _ => note lines

def tell (pull : PullRequest) : List Event → Program Unit
  | [] => .done ()
  | event :: events => .request (.tell ⟨pull, event⟩) fun _ => tell pull events

def run (listeners : List Listener) : Program α → World → World × Except Failure α
  | .done a, world => (world, .ok a)
  | .fail e, world => (world, .error e)
  | .request r next, world =>
    match world.perform listeners r with
    | (world, .ok reply) => run listeners (next reply) world
    | (world, .error e) => (world, .error e)

theorem run_bind (listeners : List Listener) (p : Program α) (f : α → Program β) (world : World) :
    (p.bind f).run listeners world =
      match p.run listeners world with
      | (world, .ok a) => (f a).run listeners world
      | (world, .error e) => (world, .error e) := by
  induction p generalizing world with
  | done a => rfl
  | fail e => rfl
  | request r next ih =>
    simp only [bind, run]
    split <;> simp_all

end Program
end PullNotices
