import PullNotices.Pass
import PullNotices.Proofs.Forge.PairFree

/-! The agenda of a pass: what it tells and what it puts into the history, in order, as far as the
history it found decides that. Whatever part of an agenda is done, only the entry of its own pull
request changes. -/
namespace PullNotices

inductive Errand
  | tell (notice : Notice)
  | put (entry : Entry)

namespace Errand

def notice? : Errand → Option Notice
  | .tell notice => some notice
  | .put _ => none

def put? : Errand → Option Entry
  | .tell _ => none
  | .put entry => some entry

def notices (es : List Errand) : List Notice := es.filterMap notice?

def entries (es : List Errand) : List Entry := es.filterMap put?

def telling (pull : PullRequest) (events : List Event) : List Errand := events.map fun event => .tell ⟨pull,event⟩

@[simp] theorem notices_append (es others : List Errand) : notices (es ++ others) = notices es ++ notices others :=
  List.filterMap_append

@[simp] theorem entries_append (es others : List Errand) : entries (es ++ others) = entries es ++ entries others :=
  List.filterMap_append

@[simp] theorem notices_telling (pull : PullRequest) (events : List Event) :
    notices (telling pull events) = events.map fun event => ⟨pull,event⟩ := by
  simp [notices,telling,List.filterMap_map,Function.comp_def,notice?]

@[simp] theorem entries_telling (pull : PullRequest) (events : List Event) : entries (telling pull events) = [] := by
  simp [entries,telling,put?]

@[simp] theorem notices_put (es : List Entry) : notices (es.map .put) = [] := by simp [notices,notice?]

@[simp] theorem entries_put (es : List Entry) : entries (es.map .put) = es := by
  simp [entries,List.filterMap_map,Function.comp_def,put?]

end Errand

namespace Pass

variable (pass : Pass) (h : History)

def fresh : Entry := pass.pull.snapshot pass.trust

def entryOver : Entry := pass.fresh.keepingCommit (h.find? pass.pull.key)

def refreshed (stored : Entry) : Entry :=
  if stored.commit.isPlaceholder then stored.withCommit pass.fresh.commit else stored

def upgrades : List Entry :=
  match h.find? pass.pull.key with
  | none => []
  | some stored => if stored.commit.isPlaceholder then [pass.refreshed stored] else []

/-- The events that are told of, unless the pull request is recorded as it is. -/
def news : List Event :=
  match h.find? pass.pull.key with
  | none => (pass.entryOver h).introduction
  | some stored => (pass.refreshed stored).changes (pass.entryOver h)

def agenda : List Errand :=
  if h.find? pass.pull.key = some (pass.entryOver h) then []
  else (pass.upgrades h).map .put ++ (Errand.telling pass.pull (pass.news h) ++ [.put (pass.entryOver h)])

variable {pass h}

theorem keepingCommit_key (fresh : Entry) (stored : Option Entry) : (fresh.keepingCommit stored).key = fresh.key := by
  cases stored with
  | none => rfl
  | some stored =>
    unfold Entry.keepingCommit
    dsimp only
    split <;> rfl

theorem keepingCommit_issues (fresh : Entry) (stored : Option Entry) :
    (fresh.keepingCommit stored).issues = fresh.issues := by
  cases stored with
  | none => rfl
  | some stored =>
    unfold Entry.keepingCommit
    dsimp only
    split <;> rfl

@[simp] theorem entryOver_key : (pass.entryOver h).key = pass.pull.key := keepingCommit_key _ _

@[simp] theorem entryOver_issues : (pass.entryOver h).issues = Issue.referenced pass.pull.body :=
  keepingCommit_issues _ _

@[simp] theorem refreshed_key (stored : Entry) : (pass.refreshed stored).key = stored.key := by
  unfold refreshed
  split <;> rfl

@[simp] theorem refreshed_issues (stored : Entry) : (pass.refreshed stored).issues = stored.issues := by
  unfold refreshed
  split <;> rfl

theorem agenda_congr {g : History} (same : h.find? pass.pull.key = g.find? pass.pull.key) :
    pass.agenda h = pass.agenda g := by
  unfold agenda upgrades news entryOver
  rw [same]

theorem mem_upgrades {e : Entry} (member : e ∈ pass.upgrades h) :
    ∃ stored, h.find? pass.pull.key = some stored ∧ stored.commit.isPlaceholder = true ∧
      e = pass.refreshed stored := by
  unfold upgrades at member
  split at member
  · simp at member
  · rename_i stored found
    split at member
    · rename_i placeholder
      exact ⟨stored,found,placeholder,by simpa using member⟩
    · simp at member

theorem mem_entries_agenda {e : Entry} (member : e ∈ Errand.entries (pass.agenda h)) :
    e = pass.entryOver h ∨ ∃ stored, h.find? pass.pull.key = some stored ∧
      stored.commit.isPlaceholder = true ∧ e = pass.refreshed stored := by
  unfold agenda at member
  split at member
  · simp [Errand.entries] at member
  · rw [Errand.entries_append,Errand.entries_append,Errand.entries_put,Errand.entries_telling] at member
    rcases List.mem_append.mp member with early | last
    · exact .inr (mem_upgrades early)
    · exact .inl (by simpa [Errand.entries,Errand.put?] using last)

theorem key_of_mem_agenda {e : Entry} (member : e ∈ Errand.entries (pass.agenda h)) : e.key = pass.pull.key := by
  rcases mem_entries_agenda member with rfl | ⟨stored,found,_,rfl⟩
  · exact entryOver_key
  · rw [refreshed_key]
    exact History.key_of_find? found

theorem entryOver_pairFree (pull : pass.pull.PairFree) : (pass.entryOver h).PairFree := by
  obtain ⟨key,issues⟩ := pull.snapshot pass.trust
  refine ⟨?_,?_⟩
  · rw [entryOver_key]
    exact key
  · rw [entryOver_issues]
    exact issues

theorem refreshed_pairFree {stored : Entry} (free : stored.PairFree) : (pass.refreshed stored).PairFree := by
  obtain ⟨key,issues⟩ := free
  refine ⟨?_,?_⟩
  · rw [refreshed_key]
    exact key
  · rw [refreshed_issues]
    exact issues

theorem agenda_pairFree (pull : pass.pull.PairFree) (free : h.PairFree) :
    ∀ e ∈ Errand.entries (pass.agenda h), e.PairFree := by
  intro e member
  rcases mem_entries_agenda member with rfl | ⟨stored,found,_,rfl⟩
  · exact entryOver_pairFree pull
  · exact refreshed_pairFree (free.find? found)

theorem notices_agenda {notice : Notice} (member : notice ∈ Errand.notices (pass.agenda h)) :
    notice.pull = pass.pull ∧ notice.event ∈ pass.news h := by
  unfold agenda at member
  split at member
  · simp [Errand.notices] at member
  · rw [Errand.notices_append,Errand.notices_append,Errand.notices_put,Errand.notices_telling] at member
    have told : notice ∈ (pass.news h).map fun event => (⟨pass.pull,event⟩ : Notice) := by
      simpa [Errand.notices,Errand.notice?] using member
    obtain ⟨event,inside,rfl⟩ := List.mem_map.mp told
    exact ⟨rfl,inside⟩

end Pass

namespace History

theorem find?_putAll_cases (h : History) (es : List Entry) (key : Text) :
    (h.putAll es).find? key = h.find? key ∨ ∃ e ∈ es, e.key = key ∧ (h.putAll es).find? key = some e := by
  rw [find?_putAll]
  cases found : es.reverse.find? fun e => e.key = key with
  | none => exact .inl rfl
  | some e =>
    have member := List.mem_of_find?_eq_some found
    have here := List.find?_some found
    exact .inr ⟨e,List.mem_reverse.mp member,by simpa using here,rfl⟩

theorem find?_putAll_of_ne {h : History} {es : List Entry} {key : Text} (other : ∀ e ∈ es, e.key ≠ key) :
    (h.putAll es).find? key = h.find? key := by
  rcases find?_putAll_cases h es key with same | ⟨e,member,here,_⟩
  · exact same
  · exact absurd here (other e member)

theorem putAll_append (h : History) (es others : List Entry) : h.putAll (es ++ others) = (h.putAll es).putAll others := by
  induction es generalizing h with
  | nil => rfl
  | cons e es ih => rw [List.cons_append,putAll_cons,putAll_cons,ih]

end History

namespace Pass

variable {pass : Pass} {h : History}

/-- A whole agenda puts the entry of its pull request in place and nothing else. -/
theorem putAll_agenda : h.putAll (Errand.entries (pass.agenda h)) = h.put (pass.entryOver h) := by
  unfold agenda
  split
  · rename_i same
    exact (History.put_of_find? same).symm
  · rw [Errand.entries_append,Errand.entries_append,Errand.entries_put,Errand.entries_telling,List.nil_append,
      History.putAll_append]
    change (h.putAll (pass.upgrades h)).put (pass.entryOver h) = _
    apply History.eq_of_find?
    intro key
    rw [History.find?_put,History.find?_put]
    split
    · rfl
    · rename_i other
      rw [entryOver_key] at other
      apply History.find?_putAll_of_ne
      intro e member same
      obtain ⟨stored,found,_,rfl⟩ := mem_upgrades member
      rw [refreshed_key,History.key_of_find? found] at same
      exact other same

/-- The last errand is to put the entry, so a part of the agenda that ends before it puts upgrades only. -/
theorem entries_prefix_upgrades {done rest : List Errand} (whole : pass.agenda h = done ++ rest)
    (left : rest = [] → ∃ notice, done.getLast? = some (.tell notice)) : Errand.entries done <+: pass.upgrades h := by
  unfold agenda at whole
  split at whole
  · obtain ⟨rfl,_⟩ := List.append_eq_nil_iff.mp whole.symm
    exact List.nil_prefix
  · rw [← List.append_assoc] at whole
    rcases List.eq_nil_or_concat rest with rfl | ⟨middle,last,rfl⟩
    · obtain ⟨notice,last⟩ := left rfl
      rw [List.append_nil] at whole
      rw [← whole,List.getLast?_concat] at last
      cases last
    · rw [List.concat_eq_append,← List.append_assoc] at whole
      obtain ⟨front,_⟩ := List.append_inj' whole rfl
      have entries := congrArg Errand.entries front
      rw [Errand.entries_append,Errand.entries_append,Errand.entries_put,Errand.entries_telling,List.append_nil] at entries
      exact ⟨_,entries.symm⟩

theorem notices_agenda_eq : Errand.notices (pass.agenda h) =
    if h.find? pass.pull.key = some (pass.entryOver h) then []
    else (pass.news h).map fun event => ⟨pass.pull,event⟩ := by
  unfold agenda
  split
  · rfl
  · rw [Errand.notices_append,Errand.notices_append,Errand.notices_put,Errand.notices_telling]
    simp [Errand.notices,Errand.notice?]

end Pass

end PullNotices
