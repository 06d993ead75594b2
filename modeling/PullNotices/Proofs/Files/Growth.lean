import PullNotices.Proofs.Files.Directories

/-! Trees that only grow. When directories are made, what stands anywhere stands there still, so whatever
a path led to it leads to afterwards; all that can change is that a path which led nowhere leads
somewhere. -/
namespace PullNotices.FileTree

/-- What stands in the old tree stands in the new one. -/
def Grown (old new : FileTree) : Prop := ∀ place node, old.node? place = some node → new.node? place = some node

namespace Grown

variable {old mid new : FileTree}

theorem refl (tree : FileTree) : Grown tree tree := fun _ _ here => here

theorem keeps (grown : Grown old new) : Keeps old new := fun place here => grown place .directory here

theorem trans (first : Grown old mid) (second : Grown mid new) : Grown old new :=
  fun place node here => second place node (first place node here)

theorem set {place : Place} (missing : old.node? place = none) (node : Node) : Grown old (old.set place node) := by
  intro p found here
  have other : old.node? place ≠ some .directory := by simp [missing]
  have free := free_of_node? other
  rw [node?_set free]
  split
  · rename_i same
    subst p
    rw [missing] at here
    cases here
  · exact here

theorem walk (grown : Grown old new) (here : Place) (parts : List Text) :
    old.walk here parts = .error .notFound ∨ new.walk here parts = old.walk here parts := by
  induction parts generalizing here with
  | nil => exact .inr rfl
  | cons part parts ih =>
    unfold FileTree.walk
    cases found : old.node? here with
    | none => exact .inl rfl
    | some node =>
      rw [grown here node found]
      cases node with
      | file octets => exact .inr rfl
      | directory =>
        dsimp only
        split
        · exact ih here.dropLast
        · split
          · exact .inr rfl
          · exact ih (here ++ [FileName.ofText part])

theorem locate (grown : Grown old new) (path : Path) :
    old.locate path = .error .notFound ∨ new.locate path = old.locate path := by
  unfold FileTree.locate
  split
  · exact .inr rfl
  · exact grown.walk _ _

theorem lookup (grown : Grown old new) (path : Path) :
    old.lookup path = .error .notFound ∨ new.lookup path = old.lookup path := by
  unfold FileTree.lookup
  rcases grown.locate path with none | same
  · rw [none]
    exact .inl rfl
  · rw [same]
    cases old.locate path with
    | error refusal => exact .inr rfl
    | ok place =>
      dsimp only
      cases found : old.node? place with
      | none => exact .inl rfl
      | some node =>
        rw [grown place node found]
        exact .inr rfl

theorem octetsAt (grown : Grown old new) (path : Path) :
    old.octetsAt path = .error (.refused .notFound path) ∨ new.octetsAt path = old.octetsAt path := by
  unfold FileTree.octetsAt checked
  split
  · exact .inr rfl
  · rcases grown.lookup path with none | same
    · rw [none]
      exact .inl rfl
    · rw [same]
      exact .inr rfl

end Grown

/-- A place that a path passes, or leads to. -/
def Passes (tree : FileTree) (path : Path) (place : Place) : Prop :=
  ∃ parts, parts <+: path.parts ∧ tree.locate ⟨path.root,parts⟩ = .ok place

/-- The new tree is the old one with directories where the path passes. -/
structure Made (path : Path) (old new : FileTree) : Prop where
  grown : old.Grown new
  added : ∀ place, new.node? place ≠ old.node? place →
    new.node? place = some .directory ∧ new.Passes path place

theorem Grown.passes {old new : FileTree} {path : Path} {place : Place} (grown : old.Grown new)
    (passed : old.Passes path place) : new.Passes path place := by
  obtain ⟨parts,way,located⟩ := passed
  exact ⟨parts,way,grown.keeps.locate located⟩

theorem Passes.of_parent {tree : FileTree} {path : Path} {place : Place} (passed : tree.Passes path.parent place) :
    tree.Passes path place := by
  obtain ⟨parts,way,located⟩ := passed
  exact ⟨parts,way.trans (List.dropLast_prefix path.parts),located⟩

theorem Made.refl (path : Path) (tree : FileTree) : Made path tree tree :=
  ⟨.refl tree,fun _ changed => absurd rfl changed⟩

theorem Made.settle {path : Path} {old mid : FileTree} (above : Made path.parent old mid) :
    Made path old (mid.settle path (mid.makeDirectory path)).1 := by
  have added : ∀ place, mid.node? place ≠ old.node? place →
      mid.node? place = some .directory ∧ mid.Passes path place := by
    intro place changed
    obtain ⟨there,passed⟩ := above.added place changed
    exact ⟨there,passed.of_parent⟩
  cases result : mid.makeDirectory path with
  | error refusal => exact ⟨above.grown,added⟩
  | ok made =>
    unfold makeDirectory at result
    split at result
    · cases result
    · rename_i last located
      split at result
      · cases result
      · rename_i missing
        cases result
        have grown : mid.Grown (mid.set last .directory) := .set missing .directory
        have other : mid.node? last ≠ some .directory := by simp [missing]
        refine ⟨above.grown.trans grown,fun place changed => ?_⟩
        by_cases here : place = last
        · subst place
          exact ⟨node?_set_self other .directory,grown.passes ⟨path.parts,List.prefix_rfl,located⟩⟩
        · have kept : (mid.set last .directory).node? place = mid.node? place := by
            rw [node?_set (free_of_node? other),if_neg here]
          have changed : mid.node? place ≠ old.node? place := fun same => changed (kept.trans same)
          obtain ⟨there,passed⟩ := added place changed
          exact ⟨kept.trans there,grown.passes passed⟩

theorem makeParents_made (tree : FileTree) (path : Path) : Made path tree (tree.makeParents path).1 := by
  -- the recursion goes from a path to its parent
  fun_induction makeParents tree path with
  | case1 => exact .refl _ _
  | case2 path _ _ above fault parents ih =>
    rw [parents] at ih
    refine ⟨ih.grown,fun place changed => ?_⟩
    obtain ⟨there,passed⟩ := ih.added place changed
    exact ⟨there,passed.of_parent⟩
  | case3 path _ _ above parents ih =>
    rw [parents] at ih
    exact ih.settle
  | case4 path => exact (Made.refl path.parent tree).settle

theorem makeDirectories_made (tree : FileTree) (path : Path) : Made path tree (tree.makeDirectories path).1 := by
  unfold makeDirectories
  split
  · exact .refl path tree
  · exact makeParents_made tree path

theorem makeDirectories_grown (tree : FileTree) (path : Path) : Grown tree (tree.makeDirectories path).1 :=
  (makeDirectories_made tree path).grown

theorem join_prefix (separator : Text) (ts others : List Text) :
    Text.join separator ts <+: Text.join separator (ts ++ others) := by
  induction ts with
  | nil => exact List.nil_prefix
  | cons first ts ih =>
    cases ts with
    | cons second ts =>
      obtain ⟨rest,whole⟩ := ih
      refine ⟨rest,?_⟩
      change first ++ separator ++ _ ++ rest = first ++ separator ++ _
      rw [List.append_assoc,whole]
      rfl
    | nil =>
      cases others with
      | nil => exact List.prefix_rfl
      | cons second others => exact ⟨separator ++ Text.join separator (second :: others),(List.append_assoc ..).symm⟩

/-- A path is written as a part of the paths below it. -/
theorem short_of_join {directory next : Path} (relative : next.root = [])
    (short : ¬ pathLimit < (FileName.ofText (directory.join next).display).length) :
    ¬ pathLimit < (FileName.ofText directory.display).length := by
  unfold Path.display at short ⊢
  rw [Path.join,if_pos relative] at short
  split
  · decide
  · rename_i named
    have named : ¬ (directory.root = [] ∧ directory.parts ++ next.parts = []) := by simp_all
    rw [if_neg named] at short
    obtain ⟨rest,whole⟩ := join_prefix [Path.slash] directory.parts next.parts
    have parted : FileName.ofText (directory.root ++ (Text.join [Path.slash] directory.parts ++ rest)) =
        FileName.ofText (directory.root ++ Text.join [Path.slash] directory.parts) ++ FileName.ofText rest := by
      rw [← List.append_assoc]
      exact List.flatMap_append
    dsimp only at short
    rw [← whole,parted,List.length_append] at short
    omega

theorem walk_append (tree : FileTree) (here : Place) (parts others : List Text) :
    tree.walk here (parts ++ others) = (tree.walk here parts).bind fun mid => tree.walk mid others := by
  induction parts generalizing here with
  | nil => rfl
  | cons part parts ih =>
    rw [List.cons_append,walk,walk]
    split
    · rfl
    · rfl
    · split
      · exact ih here.dropLast
      · split
        · rfl
        · exact ih (here ++ [FileName.ofText part])

/-- Where a path leads on from the place that another leads to. -/
theorem locate_join {tree : FileTree} {directory next : Path} {place : Place} (relative : next.root = [])
    (located : tree.locate (directory.join next) = .ok place) :
    ∃ mid, tree.locate directory = .ok mid ∧ tree.walk mid next.parts = .ok place := by
  unfold locate at located ⊢
  split at located
  · cases located
  · rename_i short
    rw [if_neg (short_of_join relative short)]
    rw [Path.join,if_pos relative] at located
    dsimp only at located
    rw [walk_append] at located
    cases above : tree.walk (if directory.root = [] then workingDirectory else []) directory.parts with
    | error refusal =>
      rw [above] at located
      cases located
    | ok mid =>
      rw [above] at located
      exact ⟨mid,rfl,located⟩

theorem isDirectory_rootless (tree : FileTree) {path : Path} {place : Place} (bare : path.parts = [])
    (located : tree.locate path = .ok place) : tree.node? place = some .directory := by
  unfold locate at located
  rw [bare] at located
  split at located
  · cases located
  · cases located
    split <;> rfl

theorem parent_join_name {path : Path} (named : path.parts ≠ []) : path.parent.join ⟨[],[path.name]⟩ = path := by
  have last : path.parts.dropLast ++ [path.name] = path.parts := by
    rw [Path.name,List.getLast?_eq_some_getLast named,Option.getD_some,List.dropLast_concat_getLast named]
  unfold Path.join Path.parent
  rw [if_pos rfl]
  dsimp only
  rw [last]

theorem parent_of_bare {path : Path} (bare : path.parts = []) : path.parent = path := by
  cases path
  dsimp only at bare
  subst bare
  rfl

theorem directory_of_walk_singleton {tree : FileTree} {here place : Place} {part : Text} (found : tree.walk here [part] = .ok place) :
    tree.node? here = some .directory := by
  unfold walk at found
  split at found
  · cases found
  · cases found
  · assumption

theorem walk_singleton_of_directory {tree : FileTree} {here : Place} {part : Text} (there : tree.node? here = some .directory) :
    tree.walk here [part] = .error .nameTooLong ∨ ∃ place, tree.walk here [part] = .ok place := by
  unfold walk
  rw [there]
  dsimp only
  split
  · exact .inr ⟨_,rfl⟩
  · split
    · exact .inl rfl
    · exact .inr ⟨_,rfl⟩

/-- What a path leads to is in a directory. -/
theorem isDirectory_parent {tree : FileTree} {path : Path} {place : Place} (located : tree.locate path = .ok place) :
    tree.isDirectory path.parent = true := by
  by_cases bare : path.parts = []
  · rw [parent_of_bare bare]
    exact isDirectory_iff.mpr ⟨place,located,isDirectory_rootless tree bare located⟩
  · rw [← parent_join_name bare] at located
    obtain ⟨mid,above,below⟩ := locate_join rfl located
    exact isDirectory_iff.mpr ⟨mid,above,directory_of_walk_singleton below⟩

/-- Below a directory a path leads somewhere unless it is too long. -/
theorem locate_of_parent {tree : FileTree} {path : Path} (there : tree.isDirectory path.parent = true) :
    tree.locate path = .error .nameTooLong ∨ ∃ place, tree.locate path = .ok place := by
  obtain ⟨mid,above,here⟩ := isDirectory_iff.mp there
  by_cases bare : path.parts = []
  · rw [parent_of_bare bare] at above
    exact .inr ⟨mid,above⟩
  · unfold locate at above ⊢
    split at above
    · cases above
    · split
      · exact .inl rfl
      · have last := congrArg Path.parts (parent_join_name bare)
        rw [Path.join,if_pos rfl] at last
        dsimp only at last
        have root : path.parent.root = path.root := rfl
        rw [root] at above
        rw [← last,walk_append,above]
        exact walk_singleton_of_directory here

theorem makeDirectory_eq_alreadyExists {tree : FileTree} {path : Path} {node : Node}
    (found : tree.lookup path = .ok node) : tree.makeDirectory path = .error .alreadyExists := by
  unfold lookup at found
  split at found
  · cases found
  · rename_i place located
    split at found
    · cases found
    · rename_i other there
      simp only [makeDirectory,located,there]

/-- Where something stands at a path below a directory there is nothing to be made. -/
theorem makeDirectories_of_found {tree : FileTree} {directory next : Path} {node : Node} (relative : next.root = [])
    (found : tree.lookup (directory.join next) = .ok node) : (tree.makeDirectories directory).1 = tree := by
  have there : ∃ other, tree.lookup directory = .ok other := by
    have joined : directory.join next = ⟨directory.root,directory.parts ++ next.parts⟩ := if_pos relative
    by_cases none : next.parts = []
    · refine ⟨node,?_⟩
      rw [← found,joined,none,List.append_nil]
    · unfold lookup at found ⊢
      split at found
      · cases found
      · rename_i place located
        obtain ⟨mid,above,below⟩ := locate_join relative located
        rw [above]
        dsimp only
        obtain ⟨first,rest,parts⟩ := List.exists_cons_of_ne_nil none
        rw [parts,walk] at below
        split at below
        · cases below
        · cases below
        · rename_i here
          rw [here]
          exact ⟨_,rfl⟩
  obtain ⟨other,there⟩ := there
  have already := makeDirectory_eq_alreadyExists there
  unfold makeDirectories
  split
  · rfl
  · rw [makeParents.eq_def,already]
    rfl

end PullNotices.FileTree
