import PullNotices.Proofs.Forge.Snapshot
import PullNotices.Proofs.History.RoundTrip

/-! Commits that can be obtained. A status and a hash, or none, are checked as they are put together, and
the zero hash is dropped then; `held_build` says that building a commit is this check. Whatever makes a
commit builds it, so what the check leaves holds of every commit that can be obtained: it is known just if it
has a hash, and that hash is a real one. -/
namespace PullNotices

/-- The hash has forty hexadecimal digits in lower case, which are not all zero. -/
structure Hash.IsReal (hash : Hash) : Prop where
  length_eq : hash.digits.length = 40
  hex : ∀ c ∈ hash.digits, c ∈ Text.ofString "0123456789abcdef"
  nonzero : ∃ c ∈ hash.digits, c ≠ '0'

theorem Hash.isReal {hash : Hash} (real : hash ≠ Hash.zero) : hash.IsReal :=
  ⟨hash.length_digits,fun _ => mem_of_mem_digits,exists_ne_zero real⟩

namespace Commit

/-- A status beside a hash or none; not every such pair is a commit. -/
structure Held where
  status : Status
  hash? : Option Hash

def held (c : Commit) : Held := ⟨c.status,c.hash?⟩

/-- The pair that is left of a pair by the checks of a commit. -/
def Held.checked (pair : Held) : Except BuildError Held :=
  match pair.status,pair.hash? with
  | .known,none => .error .knownWithoutHash
  | .known,some hash => if hash = Hash.zero then .ok ⟨.placeholder,none⟩ else .ok pair
  | _,none => .ok pair
  | status,some _ => .error (.strayHash status)

/-- The pair is known just if it has a hash, and the hash is a real one. -/
structure Held.Sound (pair : Held) : Prop where
  known_iff : pair.status = .known ↔ ∃ hash, pair.hash? = some hash
  real : ∀ hash, pair.hash? = some hash → hash.IsReal

theorem Held.checked_known (hash : Hash) : checked ⟨.known,some hash⟩ =
    if hash = Hash.zero then .ok ⟨.placeholder,none⟩ else .ok ⟨.known,some hash⟩ := rfl

theorem held_build (status : Status) (hash? : Option Hash) :
    (build status hash?).map held = Held.checked ⟨status,hash?⟩ := by
  cases hash? with
  | none => cases status <;> rfl
  | some hash =>
    cases status with
    | known =>
      rw [Held.checked_known]
      by_cases zero : hash = Hash.zero
      · rw [if_pos zero,zero]
        rfl
      · rw [if_neg zero,build,ofHash,dif_neg zero]
        rfl
    | _ => rfl

namespace Held

theorem checked_eq_error_iff {pair : Held} : (∃ e, pair.checked = .error e) ↔
    pair.status = .known ∧ pair.hash? = none ∨ pair.status ≠ .known ∧ pair.hash? ≠ none := by
  obtain ⟨status,hash?⟩ := pair
  cases hash? with
  | none => cases status <;> simp [checked]
  | some hash =>
    cases status with
    | known =>
      rw [checked_known]
      split <;> simp
    | _ => simp [checked]

theorem sound_of_none {status : Status} (other : status ≠ .known) : Sound ⟨status,none⟩ where
  known_iff := ⟨(absurd · other),nofun⟩
  real := nofun

theorem sound_of_some {hash : Hash} (real : hash ≠ Hash.zero) : Sound ⟨.known,some hash⟩ where
  known_iff := ⟨fun _ => ⟨hash,rfl⟩,fun _ => rfl⟩
  real _ same := Option.some.inj same ▸ Hash.isReal real

/-- What the checks leave is sound. -/
theorem checked_sound {pair left : Held} (passes : pair.checked = .ok left) : left.Sound := by
  obtain ⟨status,hash?⟩ := pair
  cases hash? with
  | none =>
    cases status with
    | known => cases passes
    | _ =>
      cases passes
      exact sound_of_none nofun
  | some hash =>
    cases status with
    | known =>
      by_cases zero : hash = Hash.zero
      · rw [checked_known,if_pos zero] at passes
        cases passes
        exact sound_of_none nofun
      · rw [checked_known,if_neg zero] at passes
        cases passes
        exact sound_of_some zero
    | _ => cases passes

end Held
end Commit

mutual
/-- A commit that can be obtained: built of a status and a hash or none, made of either, or taken out of
an entry. -/
inductive Commit.Obtainable : Commit → Prop
  | constructed {status : Commit.Status} {hash? : Option Hash} {c : Commit}
      (built : Commit.build status hash? = .ok c) : Commit.Obtainable c
  | unknown : Commit.Obtainable .unknown
  | placeholder : Commit.Obtainable .placeholder
  | known (hash : Hash) : Commit.Obtainable (.ofHash hash)
  | of (hash? : Option Hash) : Commit.Obtainable (.ofHash? hash?)
  | inside {e : Entry} (obtained : Entry.Obtainable e) : Commit.Obtainable e.commit
/-- An entry that can be obtained: built around a commit, read from a record, seen as a snapshot, or with
another commit in place of its own. -/
inductive Entry.Obtainable : Entry → Prop
  | constructed {key : Text} {issues : IssueSet} {c : Commit} {e : Entry} (obtained : Commit.Obtainable c)
      (built : Entry.build key issues c = .ok e) : Entry.Obtainable e
  | recorded {r : Record} {e : Entry} (given : r.toEntry = .ok e) : Entry.Obtainable e
  | snapshot (pull : PullRequest) (trust : Trust) : Entry.Obtainable (pull.snapshot trust)
  | replaced {e : Entry} {c : Commit} (old : Entry.Obtainable e) (obtained : Commit.Obtainable c) :
      Entry.Obtainable (e.withCommit c)
end

/-- The commit is what some status makes with a hash or with none. -/
def Commit.IsBuilt (c : Commit) : Prop := ∃ status hash?, build status hash? = .ok c

theorem Entry.commit_of_build {key : Text} {issues : IssueSet} {c : Commit} {e : Entry}
    (built : Entry.build key issues c = .ok e) : e.commit = c := by
  by_cases empty : key = []
  · rw [Entry.build,dif_pos empty] at built
    cases built
  · rw [Entry.build,dif_neg empty] at built
    cases built
    rfl

theorem Record.isBuilt_of_toEntry {r : Record} {e : Entry} (given : r.toEntry = .ok e) : e.commit.IsBuilt := by
  unfold toEntry at given
  split at given
  · cases given
  rename_i commit read
  split at given
  · cases given
  rename_i entry built
  cases given
  rw [Entry.commit_of_build built]
  cases member : r.commit with
  | absent =>
    rw [member] at read
    cases read
    exact ⟨.placeholder,none,rfl⟩
  | null =>
    rw [member] at read
    cases read
    exact ⟨.unknown,none,rfl⟩
  | text t =>
    rw [member] at read
    obtain ⟨hash,_,rfl⟩ := Json.map_eq_ok read
    exact ⟨.known,some hash,rfl⟩

mutual
theorem Commit.Obtainable.isBuilt {c : Commit} : c.Obtainable → c.IsBuilt
  | .constructed built => ⟨_,_,built⟩
  | .unknown => ⟨.unknown,none,rfl⟩
  | .placeholder => ⟨.placeholder,none,rfl⟩
  | .known hash => ⟨.known,some hash,rfl⟩
  | .of hash? => ⟨_,_,Commit.build_ofHash? hash?⟩
  | .inside obtained => obtained.isBuilt
theorem Entry.Obtainable.isBuilt {e : Entry} : e.Obtainable → e.commit.IsBuilt
  | .constructed obtained built => Entry.commit_of_build built ▸ obtained.isBuilt
  | .recorded given => Record.isBuilt_of_toEntry given
  | .snapshot pull trust => ⟨_,_,Commit.build_ofHash? (pull.integratedAs? trust)⟩
  | .replaced _ obtained => obtained.isBuilt
end

theorem Commit.IsBuilt.sound {c : Commit} (made : c.IsBuilt) : c.held.Sound := by
  obtain ⟨status,hash?,built⟩ := made
  have left := held_build status hash?
  rw [built] at left
  exact Held.checked_sound left.symm

theorem Commit.build_eq_error_iff {status : Commit.Status} {hash? : Option Hash} :
    (∃ e, build status hash? = .error e) ↔ status = .known ∧ hash? = none ∨ status ≠ .known ∧ hash? ≠ none := by
  have same := held_build status hash?
  rw [← @Held.checked_eq_error_iff ⟨status,hash?⟩,← same]
  cases build status hash? <;> simp [Except.map]

/-- Building a commit checks its status and its hash and fails for those that do not go together. What can
be obtained is sound, so no two commits are shown alike and no entry is lost in its record. -/
theorem Commit.obtainable_sound :
    (∀ status hash?, (build status hash?).map held = Held.checked ⟨status,hash?⟩ ∧
      ((∃ e, build status hash? = .error e) ↔
        status = .known ∧ hash? = none ∨ status ≠ .known ∧ hash? ≠ none)) ∧
    (∀ c, Obtainable c → c.held.Sound) ∧
    (∀ c other, Obtainable c → Obtainable other → c.display = other.display → c = other) ∧
    ∀ e, Entry.Obtainable e → (Record.ofEntry e).toEntry = .ok e := by
  refine ⟨fun status hash? => ⟨held_build status hash?,build_eq_error_iff⟩,?_,?_,?_⟩
  · intro c obtained
    exact obtained.isBuilt.sound
  · intro c other _ _ same
    exact display_injective same
  · intro e _
    exact Record.toEntry_ofEntry e

def capitalRecord : Record := ⟨"skara#7",["A"],.text (List.replicate 40 'D')⟩

def capitalEntry : Entry :=
  ⟨"skara#7",.ofList ["A"],.known ⟨List.replicate 40 'd',by decide,by decide⟩ (by decide),by decide⟩

/-- A hash in capitals is read from a record; the zero hash makes the placeholder. -/
theorem Commit.obtainable_sound_capitals :
    (Entry.Obtainable capitalEntry ∧ (Record.ofEntry capitalEntry).toEntry = .ok capitalEntry) ∧
      (Obtainable capitalEntry.commit ∧ capitalEntry.commit.held.Sound) ∧
      Obtainable (.ofHash Hash.zero) ∧ Obtainable .placeholder ∧
        (ofHash Hash.zero).display = display .placeholder ∧ ofHash Hash.zero = .placeholder := by
  have given : capitalRecord.toEntry = .ok capitalEntry := by decide +kernel
  have obtained : Entry.Obtainable capitalEntry := .recorded given
  have shown : (ofHash Hash.zero).display = display .placeholder := by decide +kernel
  obtain ⟨_,sound,apart,kept⟩ := obtainable_sound
  exact ⟨⟨obtained,kept _ obtained⟩,⟨.inside obtained,sound _ (.inside obtained)⟩,.known Hash.zero,.placeholder,shown,
    apart _ _ (.known Hash.zero) .placeholder shown⟩

end PullNotices
