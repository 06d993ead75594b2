import Mathlib.Data.Finset.Lattice.Lemmas
import Mathlib.Data.Finset.Erase
import Mathlib.Data.Finset.SDiff
import PullNotices.Proofs.Pass.Chronicle

/-! Replaying events. Someone who heard every event of a pull request, and knows of it what is
recorded, is never told of an issue twice, nor of one that goes without having come, and knows after
each pass which issues the description refers to. -/
namespace PullNotices

abbrev View := Option (Finset Text)

/-- The events may be told in this order, and turn the first view into the second. -/
inductive Replays : View → List Event → View → Prop
  | nil (view : View) : Replays view [] view
  | opened {events : List Event} {view : View} (rest : Replays (some ∅) events view) :
      Replays none (.opened :: events) view
  | issueAdded {known : Finset Text} {id : Text} {events : List Event} {view : View} (new : id ∉ known)
      (rest : Replays (some (insert id known)) events view) : Replays (some known) (.issueAdded id :: events) view
  | issueRemoved {known : Finset Text} {id : Text} {events : List Event} {view : View} (old : id ∈ known)
      (rest : Replays (some (known.erase id)) events view) : Replays (some known) (.issueRemoved id :: events) view
  | integrated {first view : View} {hash : Hash} {events : List Event} (rest : Replays first events view) :
      Replays first (.integrated hash :: events) view

def History.view (h : History) (key : Text) : View := (h.find? key).map fun e => e.issues.members.toFinset

namespace Replays

theorem append {first second third : View} {events others : List Event} (left : Replays first events second)
    (right : Replays second others third) : Replays first (events ++ others) third := by
  induction left with
  | nil => exact right
  | opened _ ih => exact .opened (ih right)
  | issueAdded new _ ih => exact .issueAdded new (ih right)
  | issueRemoved old _ ih => exact .issueRemoved old (ih right)
  | integrated _ ih => exact .integrated (ih right)

theorem integration (e : Entry) (view : View) : Replays view e.integration view := by
  unfold Entry.integration
  cases e.commit.hash? with
  | none => exact .nil view
  | some hash => exact .integrated (.nil view)

theorem adding {ids : List Text} {known : Finset Text} (distinct : ids.Nodup) (new : ∀ id ∈ ids, id ∉ known) :
    Replays (some known) (ids.map Event.issueAdded) (some (known ∪ ids.toFinset)) := by
  induction ids generalizing known with
  | nil => simpa using Replays.nil (some known)
  | cons id ids ih =>
    obtain ⟨once,distinct⟩ := List.nodup_cons.mp distinct
    have others : ∀ other ∈ ids, other ∉ insert id known := by
      intro other member inside
      rcases Finset.mem_insert.mp inside with rfl | inside
      · exact once member
      · exact new other (List.mem_cons_of_mem _ member) inside
    have rest := ih distinct others
    have same : insert id known ∪ ids.toFinset = known ∪ (id :: ids).toFinset := by
      ext other
      simp
    rw [same] at rest
    exact .issueAdded (new id (by simp)) rest

theorem removing {ids : List Text} {known : Finset Text} (distinct : ids.Nodup) (old : ∀ id ∈ ids, id ∈ known) :
    Replays (some known) (ids.map Event.issueRemoved) (some (known \ ids.toFinset)) := by
  induction ids generalizing known with
  | nil => simpa using Replays.nil (some known)
  | cons id ids ih =>
    obtain ⟨once,distinct⟩ := List.nodup_cons.mp distinct
    have others : ∀ other ∈ ids, other ∈ known.erase id := by
      intro other member
      refine Finset.mem_erase.mpr ⟨?_,old other (List.mem_cons_of_mem _ member)⟩
      rintro rfl
      exact once member
    have rest := ih distinct others
    have same : known.erase id \ ids.toFinset = known \ (id :: ids).toFinset := by
      ext other
      simp
      tauto
    rw [same] at rest
    exact .issueRemoved (old id (by simp)) rest

theorem nodup_members (s : IssueSet) : s.members.Nodup := by
  apply s.ascending.imp
  rintro a b before rfl
  exact List.lt_irrefl _ before

theorem introduction (e : Entry) : Replays none e.introduction (some e.issues.members.toFinset) := by
  have added : Replays (some ∅) (e.issues.members.map Event.issueAdded) (some (∅ ∪ e.issues.members.toFinset)) :=
    adding (nodup_members e.issues) (by simp)
  rw [Finset.empty_union] at added
  exact .opened (added.append (integration e _))

theorem changes (stored fresh : Entry) :
    Replays (some stored.issues.members.toFinset) (stored.changes fresh) (some fresh.issues.members.toFinset) := by
  have old : ∀ id ∈ (stored.issues.without fresh.issues).members, id ∈ stored.issues.members.toFinset := by
    intro id member
    exact List.mem_toFinset.mpr (TextSet.mem_without.mp member).1
  have gone := removing (nodup_members _) old
  have new : ∀ id ∈ (fresh.issues.without stored.issues).members,
      id ∉ stored.issues.members.toFinset \ (stored.issues.without fresh.issues).members.toFinset := by
    intro id member inside
    have absent := (TextSet.mem_without.mp member).2
    exact absent (List.mem_toFinset.mp (Finset.mem_sdiff.mp inside).1)
  have came := adding (nodup_members _) new
  -- what is known, less what goes, and then what comes: that is what the fresh entry refers to
  have whole : stored.issues.members.toFinset \ (stored.issues.without fresh.issues).members.toFinset ∪
      (fresh.issues.without stored.issues).members.toFinset = fresh.issues.members.toFinset := by
    ext id
    have left : id ∈ (stored.issues.without fresh.issues).members ↔
        id ∈ stored.issues.members ∧ id ∉ fresh.issues.members := TextSet.mem_without
    have right : id ∈ (fresh.issues.without stored.issues).members ↔
        id ∈ fresh.issues.members ∧ id ∉ stored.issues.members := TextSet.mem_without
    simp only [Finset.mem_union,Finset.mem_sdiff,List.mem_toFinset,left,right]
    tauto
  rw [whole] at came
  unfold Entry.changes
  apply (gone.append came).append
  split
  · exact integration fresh _
  · exact .nil _

end Replays

theorem Pass.replays_news (pass : Pass) (h : History) :
    Replays (h.view pass.pull.key) (pass.news h) (some (Issue.referenced pass.pull.body).members.toFinset) := by
  unfold news History.view
  cases found : h.find? pass.pull.key with
  | none =>
    have whole := Replays.introduction (pass.entryOver h)
    rw [entryOver_issues] at whole
    exact whole
  | some stored =>
    have whole := Replays.changes (pass.refreshed stored) (pass.entryOver h)
    rw [entryOver_issues,refreshed_issues] at whole
    exact whole

theorem Episode.At.replays {site : Site} {e : Episode} {h after : History} (lawful : e.At site)
    (here : site.recorded e.before = .ok h) (there : site.recorded e.after = .ok after)
    (completed : e.completed = true) (key : Text) :
    Replays (h.view key) (e.eventsFor key) (after.view key) := by
  obtain ⟨ended,told⟩ := lawful.completed here completed
  rw [there] at ended
  cases ended
  rw [lawful.eventsFor_eq here]
  unfold History.view
  rw [History.find?_put,Pass.entryOver_key]
  split
  · rename_i same
    subst key
    rw [told,Pass.notices_agenda_eq]
    split
    · rename_i known
      rw [known]
      exact .nil _
    · have news := e.pass.replays_news h
      rw [List.map_map]
      simpa [Function.comp_def,History.view] using news
  · exact .nil _

theorem Chronicle.replays {site : Site} {start final : World} {h : History} {episodes : List Episode}
    (chronicle : Chronicle site start episodes final) (completed : ∀ e ∈ episodes, e.completed = true)
    (here : site.recorded start = .ok h) :
    ∃ last, site.recorded final = .ok last ∧
      ∀ key, Replays (h.view key) (episodes.flatMap fun e => e.eventsFor key) (last.view key) := by
  refine chronicle.invariant here (fun past g =>
    ∀ key, Replays (h.view key) (past.flatMap fun e => e.eventsFor key) (g.view key)) ?_ ?_
  · intro key
    exact .nil _
  · intro past e before after earlier lawful member found ended key
    rw [List.flatMap_append,List.flatMap_singleton]
    exact (earlier key).append (lawful.replays found ended (completed e member) key)

/-- In passes that all come to their end, whatever the pull requests, every event of every key is due
when it is told of. After each pass the view under its key is what its description refers to and
what the history records. -/
theorem Chronicle.replays_issues {site : Site} {start final : World} {h : History} {episodes : List Episode}
    (chronicle : Chronicle site start episodes final) (completed : ∀ e ∈ episodes, e.completed = true)
    (here : site.recorded start = .ok h) (past later : List Episode) (e : Episode)
    (whole : episodes = past ++ e :: later) :
    ∃ after, site.recorded e.after = .ok after ∧
      (∀ key, Replays (h.view key) ((past ++ [e]).flatMap fun e => e.eventsFor key) (after.view key)) ∧
      after.view e.pass.pull.key = some (Issue.referenced e.pass.pull.body).members.toFinset ∧
      ∃ entry, after.find? e.pass.pull.key = some entry ∧ entry.issues = Issue.referenced e.pass.pull.body := by
  subst whole
  have upTo : ∀ e' ∈ past ++ [e], e'.completed = true := by
    intro e' member
    apply completed
    rcases List.mem_append.mp member with early | last
    · exact List.mem_append_left _ early
    · obtain rfl := List.mem_singleton.mp last
      exact List.mem_append_right _ (by simp)
  obtain ⟨after,ended,replays⟩ := chronicle.upTo.1.replays upTo here
  obtain ⟨lawful,before,_,found,_⟩ := chronicle.upTo.1.of_mem here (e := e) (by simp)
  have left := (lawful.completed found (upTo e (by simp))).1
  rw [ended] at left
  cases left
  have entry := History.find?_put_self before (e.pass.entryOver before)
  rw [Pass.entryOver_key] at entry
  refine ⟨_,ended,replays,?_,_,entry,Pass.entryOver_issues⟩
  unfold History.view
  rw [entry,Option.map_some,Pass.entryOver_issues]

def Episode.refersToA : Episode :=
  .ofRun .sample (.sample "17" "\n\n## Issue\n[A](u): a" []) [] .empty

def Episode.refersToB : Episode :=
  .ofRun .sample (.sample "17" "\n\n## Issue\n[B](u): b" []) [] refersToA.after

theorem Chronicle.refersToB : Chronicle .sample .empty ([] ++ [Episode.refersToA] ++ [Episode.refersToB])
    Episode.refersToB.after :=
  .snoc (.snoc .nil rfl (.ofRun rfl (Pass.sample_pairFree _ _ _) _ _)) rfl
    (.ofRun rfl (Pass.sample_pairFree _ _ _) _ _)

theorem Chronicle.replays_refersToB : ∃ after, Site.sample.recorded Episode.refersToB.after = .ok after ∧
    Replays none [.opened,.issueAdded "A",.issueRemoved "A",.issueAdded "B"] (after.view "jdk#17") ∧
    after.view "jdk#17" = some {Text.ofString "B"} := by
  have completed : ∀ e ∈ [Episode.refersToA,Episode.refersToB], e.completed = true := by decide +kernel
  obtain ⟨after,ended,replays,view,_⟩ := Chronicle.replays_issues Chronicle.refersToB completed
    Site.recorded_sample [.refersToA] [] .refersToB rfl
  have told : ([Episode.refersToA] ++ [Episode.refersToB]).flatMap (fun e => e.eventsFor "jdk#17") =
      [.opened,.issueAdded "A",.issueRemoved "A",.issueAdded "B"] := by decide +kernel
  have issues : (Issue.referenced Episode.refersToB.pass.pull.body).members = [Text.ofString "B"] := by
    decide +kernel
  have story := replays "jdk#17"
  rw [told] at story
  rw [issues] at view
  exact ⟨after,ended,story,view⟩

end PullNotices
