import PullNotices.Text.Set
import PullNotices.Timestamp.Basic

/-!
Pull requests as the forge shows them now. The key of a pull request joins the name of its
repository and its id; under it listeners' knowledge of the pull request is recorded.
-/
namespace PullNotices

structure User where
  id : Text
  username : Text
  deriving DecidableEq, Repr

structure Comment where
  author : User
  body : Text
  id : Text
  createdAt : Option Timestamp
  deriving DecidableEq, Repr

structure Repository where
  name : Text
  url : Text
  name_ne_nil : name ≠ []

instance : DecidableEq Repository := fun a b =>
  decidable_of_iff (a.name = b.name ∧ a.url = b.url) (by cases a; cases b; simp)

abbrev LabelSet := TextSet

structure PullRequest where
  id : Text
  repository : Repository
  title : Text
  body : Text
  labels : LabelSet
  comments : List Comment
  deriving DecidableEq

namespace PullRequest

def key (pull : PullRequest) : Text := pull.repository.name ++ "#" ++ pull.id

def commentsBy (pull : PullRequest) (author : Text) : List Comment :=
  pull.comments.filter fun comment => comment.author.id = author

theorem key_ne_nil (pull : PullRequest) : pull.key ≠ [] := by
  simp [key, pull.repository.name_ne_nil]

end PullRequest
end PullNotices
