import PullNotices.Text.Lines

/-!
Paths. A path is a root, which may be missing, and the names that lead on from it. Doubled slashes
and names of a single dot are dropped when a path is read; two dots stay, for only the file tree
knows what they lead to.
-/
namespace PullNotices

/-- A path; `root` is empty, one slash, or two slashes, which stay apart from one. -/
structure Path where
  root : Text
  parts : List Text
  deriving DecidableEq, Repr

namespace Path

def slash : CodePoint := '/'

/-- The root that a text begins with. Three slashes or more are one. -/
def rootOf (t : Text) : Text :=
  match (t.takeWhile (· = slash)).length with
  | 0 => []
  | 2 => [slash, slash]
  | _ => [slash]

def partsOf (t : Text) : List Text :=
  (Text.split slash t).filter fun part => part ≠ [] ∧ part ≠ "."

def ofText (t : Text) : Path := ⟨rootOf t, partsOf t⟩

/-- The root and the names with slashes between them; a path without either is a dot. -/
def display (p : Path) : Text :=
  if p.root = [] ∧ p.parts = [] then "." else p.root ++ Text.join [slash] p.parts

/-- `next` as seen from `p`; a path with a root is the same from everywhere. -/
def join (p next : Path) : Path :=
  if next.root = [] then ⟨p.root, p.parts ++ next.parts⟩ else next

def parent (p : Path) : Path := { p with parts := p.parts.dropLast }

def name (p : Path) : Text := p.parts.getLast?.getD []

structure UnknownHome where
  deriving DecidableEq, Repr

def UnknownHome.message : Text := "Could not determine home directory."

def homeText (home : Text) : Text :=
  let home := Text.dropEndWhile (· = slash) home
  if home = [] then [slash] else home

/-- The home of the user who is named behind a tilde: `home` without a name. Of the others only the
superuser has one that is the same everywhere. -/
def homeOf? (home user : Text) : Option Text :=
  if user = [] then some (homeText home)
  else if user = "root" then some "/root"
  else none

def expandHome (home : Text) (p : Path) : Except UnknownHome Path :=
  match p.root, p.parts with
  | [], first :: rest =>
    match Text.after? "~" first with
    | none => .ok p
    | some user =>
      match homeOf? home user with
      | none => .error {}
      | some home =>
        if (Text.after? "~" home).isSome then .error {}
        else
          let base := ofText home
          .ok ⟨base.root, base.parts ++ rest⟩
  | _, _ => .ok p

example : (ofText "//a/./b/../c//").display = "//a/b/../c" := by decide +kernel
example : (ofText "///a").display = "/a" ∧ (ofText "").display = "." := by decide +kernel

example : ((ofText "~/x").expandHome "/h/me/").toOption.map display = some "/h/me/x" := by
  decide +kernel

end Path
end PullNotices
