import PullNotices.Files.Tree

/-! What operations leave in the tree. Nothing takes a directory away, so a path that led somewhere
leads there still; a directory that was made is there, and a replaced file has its new octets. -/
namespace PullNotices.FileTree

def Keeps (old new : FileTree) : Prop :=
  ∀ place, old.node? place = some .directory → new.node? place = some .directory

theorem free_of_node? {tree : FileTree} {place : Place} (other : tree.node? place ≠ some .directory) :
    place ∉ lasting := by
  intro lasts
  exact other (by simp [node?,lasts])

theorem Keeps.set {tree : FileTree} {place : Place} (other : tree.node? place ≠ some .directory) (node : Node) :
    Keeps tree (tree.set place node) := by
  intro p here
  rw [node?_set (free_of_node? other)]
  split
  · rename_i same
    subst p
    exact absurd here other
  · exact here

theorem node?_set_self {tree : FileTree} {place : Place} (other : tree.node? place ≠ some .directory) (node : Node) :
    (tree.set place node).node? place = some node := by
  rw [node?_set (free_of_node? other),if_pos rfl]

theorem Keeps.walk {old new : FileTree} (kept : Keeps old new) {here place : Place} {parts : List Text}
    (found : old.walk here parts = .ok place) : new.walk here parts = .ok place := by
  induction parts generalizing here with
  | nil => exact found
  | cons part parts ih =>
    unfold FileTree.walk at found ⊢
    split at found
    · cases found
    · cases found
    · rename_i directory
      rw [kept here directory]
      dsimp only
      split at found
      · rename_i up
        rw [if_pos up]
        exact ih found
      · rename_i down
        rw [if_neg down]
        split at found
        · cases found
        · rename_i short
          rw [if_neg short]
          exact ih found

theorem Keeps.locate {old new : FileTree} (kept : Keeps old new) {path : Path} {place : Place}
    (found : old.locate path = .ok place) : new.locate path = .ok place := by
  unfold FileTree.locate at found ⊢
  split at found
  · cases found
  · rename_i short
    rw [if_neg short]
    exact kept.walk found

theorem isDirectory_iff {tree : FileTree} {path : Path} :
    tree.isDirectory path = true ↔ ∃ place, tree.locate path = .ok place ∧ tree.node? place = some .directory := by
  unfold isDirectory lookup
  constructor
  · intro there
    cases located : tree.locate path with
    | error refusal => simp [located] at there
    | ok place =>
      refine ⟨place,rfl,?_⟩
      cases found : tree.node? place with
      | none => simp [located,found] at there
      | some node =>
        cases node with
        | directory => rfl
        | file octets => simp [located,found] at there
  · rintro ⟨place,located,found⟩
    simp [located,found]

theorem Keeps.isDirectory {old new : FileTree} (kept : Keeps old new) {path : Path}
    (there : old.isDirectory path = true) : new.isDirectory path = true := by
  obtain ⟨place,located,found⟩ := isDirectory_iff.mp there
  exact isDirectory_iff.mpr ⟨place,kept.locate located,kept place found⟩

theorem makeDirectory_isDirectory {tree made : FileTree} {path : Path} (ok : tree.makeDirectory path = .ok made) :
    made.isDirectory path = true := by
  unfold makeDirectory at ok
  split at ok
  · cases ok
  · rename_i place located
    split at ok
    · cases ok
    · rename_i missing
      cases ok
      have other : tree.node? place ≠ some .directory := by simp [missing]
      exact isDirectory_iff.mpr ⟨place,(Keeps.set other _).locate located,node?_set_self other _⟩

theorem settle_isDirectory {tree made : FileTree} {path : Path}
    (ok : tree.settle path (tree.makeDirectory path) = (made,none)) : made.isDirectory path = true := by
  cases result : tree.makeDirectory path with
  | ok there =>
    rw [result] at ok
    cases ok
    exact makeDirectory_isDirectory result
  | error refusal =>
    rw [result,settle] at ok
    obtain ⟨rfl,fault⟩ := Prod.mk.inj ok
    split at fault
    · rename_i there
      exact there
    · cases fault

theorem makeParents_isDirectory {tree made : FileTree} {path : Path} (ok : tree.makeParents path = (made,none)) :
    made.isDirectory path = true := by
  rw [makeParents.eq_def] at ok
  split at ok
  · split at ok
    · simp at ok
    · split at ok
      · simp at ok
      · exact settle_isDirectory ok
  · exact settle_isDirectory ok

theorem makeParents_of_isDirectory {tree : FileTree} {path : Path} (there : tree.isDirectory path = true) :
    tree.makeParents path = (tree,none) := by
  obtain ⟨place,located,found⟩ := isDirectory_iff.mp there
  have already : tree.makeDirectory path = .error .alreadyExists := by simp [makeDirectory,located,found]
  rw [makeParents.eq_def,already]
  simp [settle,there]

theorem makeDirectories_eq_none {tree made : FileTree} {path : Path} (ok : tree.makeDirectories path = (made,none)) :
    path.flaw? = none ∧ made.isDirectory path = true := by
  unfold makeDirectories at ok
  split at ok
  · simp at ok
  · rename_i usable
    exact ⟨usable,makeParents_isDirectory ok⟩

theorem makeDirectories_of_isDirectory {tree : FileTree} {path : Path} (usable : path.flaw? = none)
    (there : tree.isDirectory path = true) : tree.makeDirectories path = (tree,none) := by
  unfold makeDirectories
  rw [usable]
  exact makeParents_of_isDirectory there

theorem checked_eq_ok {α : Type} {path : Path} {result : Except Refusal α} {a : α}
    (ok : checked path result = .ok a) : path.flaw? = none ∧ result = .ok a := by
  unfold checked at ok
  split at ok
  · cases ok
  · rename_i usable
    cases result with
    | error refusal => cases ok
    | ok b =>
      cases ok
      exact ⟨usable,rfl⟩

theorem checked_eq_unusable {α : Type} {path : Path} {result : Except Refusal α} {flaw : PathFlaw}
    (never : checked path result = .error (.unusable flaw)) : path.flaw? = some flaw := by
  unfold checked at never
  split at never
  · rename_i flawed
    cases never
    exact flawed
  · cases result <;> cases never

/-- The place of a replaced file holds the new octets, and directories stay. -/
theorem replaceFile_eq_ok {tree made : FileTree} {path : Path} {octets : List UInt8}
    (ok : tree.replaceFile path octets = .ok made) :
    path.flaw? = none ∧ ∃ place, tree.locate path = .ok place ∧
      tree.node? place ≠ some .directory ∧ made = tree.set place (.file octets) := by
  obtain ⟨usable,result⟩ := checked_eq_ok ok
  refine ⟨usable,?_⟩
  split at result
  · cases result
  · rename_i place located
    split at result
    · cases result
    · unfold replacing at result
      rw [located] at result
      dsimp only at result
      split at result
      · cases result
      · rename_i other
        cases result
        exact ⟨place,located,other,rfl⟩

theorem replaceFile_keeps {tree made : FileTree} {path : Path} {octets : List UInt8}
    (ok : tree.replaceFile path octets = .ok made) : Keeps tree made := by
  obtain ⟨_,place,_,other,rfl⟩ := replaceFile_eq_ok ok
  exact Keeps.set other _

theorem octetsAt_replaceFile {tree made : FileTree} {path : Path} {octets : List UInt8}
    (ok : tree.replaceFile path octets = .ok made) : made.octetsAt path = .ok octets := by
  have kept := replaceFile_keeps ok
  obtain ⟨usable,place,located,other,rfl⟩ := replaceFile_eq_ok ok
  have found := node?_set_self other (.file octets)
  unfold octetsAt checked
  rw [usable,lookup,kept.locate located]
  dsimp only
  rw [found]
  rfl

/-- Whether a file may be replaced does not hang on the octets. -/
theorem replaceFile_error {tree : FileTree} {path : Path} {octets : List UInt8} {fault : FileFault}
    (refused : tree.replaceFile path octets = .error fault) (others : List UInt8) :
    tree.replaceFile path others = .error fault := by
  unfold replaceFile checked at refused ⊢
  cases flawed : path.flaw? with
  | some flaw =>
    rw [flawed] at refused
    exact refused
  | none =>
    rw [flawed] at refused
    dsimp only at refused ⊢
    cases located : tree.locate path with
    | error refusal =>
      rw [located] at refused
      exact refused
    | ok place =>
      rw [located] at refused
      dsimp only at refused ⊢
      split
      · rename_i long
        rw [if_pos long] at refused
        exact refused
      · rename_i short
        rw [if_neg short] at refused
        unfold replacing at refused ⊢
        rw [located] at refused ⊢
        dsimp only at refused ⊢
        split at refused <;> cases refused
        rfl

theorem replaceFile_again {tree made : FileTree} {path : Path} {octets : List UInt8}
    (ok : tree.replaceFile path octets = .ok made) (others : List UInt8) :
    ∃ again, made.replaceFile path others = .ok again := by
  have kept := replaceFile_keeps ok
  obtain ⟨usable,place,located,other,rfl⟩ := replaceFile_eq_ok ok
  have found := node?_set_self other (.file octets)
  obtain ⟨_,result⟩ := checked_eq_ok ok
  rw [located] at result
  dsimp only at result
  split at result
  · cases result
  · rename_i short
    unfold replaceFile checked
    rw [usable,kept.locate located]
    dsimp only
    rw [if_neg short,replacing,kept.locate located]
    dsimp only
    rw [found]
    exact ⟨_,rfl⟩

end PullNotices.FileTree
