import PullNotices.Proofs.Pass.Integration
import PullNotices.Proofs.Pass.Outcome

/-! Repeating a pass. What a pass to its end has recorded stays recorded whatever passes over other pull
requests come to, and a pass that would record just that tells nothing and writes nothing. -/
namespace PullNotices

namespace Pass

variable {pass : Pass} {h : History} {stored : Entry}

theorem agenda_of_recorded (found : h.find? pass.pull.key = some stored)
    (issues : stored.issues = Issue.referenced pass.pull.body)
    (commit : pass.fresh.commit = stored.commit ∨ stored.commit.isKnown = true ∧ pass.fresh.commit.isKnown = false) :
    pass.agenda h = [] := by
  have key := History.key_of_find? found
  have same : pass.entryOver h = stored := by
    apply Entry.eq_of_fields
    · rw [entryOver_key,key]
    · rw [entryOver_issues,issues]
    · unfold entryOver Entry.keepingCommit
      rw [found]
      dsimp only
      split
      · rfl
      · rename_i kept
        rcases commit with same | ⟨known,unknown⟩
        · exact same
        · exact absurd ⟨known,by simp [unknown]⟩ kept
  unfold agenda
  rw [found,same,if_pos rfl]

/-- A pass that has nothing to do tells nobody and leaves the file as it is, octet by octet. -/
theorem idle_of_agenda {site : Site} {world : World} {listeners : List Listener} (plan : pass.plan = site.plan)
    (here : site.recorded world = .ok h) (nothing : pass.agenda h = []) :
    let again := Episode.ofRun site pass listeners world
    again.completed = true ∧ again.told = [] ∧ again.after.deliveries = world.deliveries ∧
      site.octets again.after = site.octets world := by
  obtain ⟨v,holds,rfl⟩ := Site.holds_of_recorded here
  have free : ∀ e ∈ Errand.entries (pass.agenda v.history), e.PairFree := by simp [nothing,Errand.entries]
  have run : (pass.program site.scratch).Yields site listeners world v
      (Errand.outcome listeners (site.refusal world) (pass.agenda v.history) world.deliveries v) :=
    (pass.conduct plan).yields holds trivial free
  rw [nothing] at run
  refine ⟨Episode.completed_iff.mpr run.result,run.told,run.deliveries,?_⟩
  exact run.holds.octets.trans holds.octets.symm

end Pass

namespace Chronicle

/-- What a pass to its end has recorded is there after any passes over other pull requests. -/
theorem entry_stays {site : Site} {first : Episode} {between : List Episode} {final : World} {h : History}
    (lawful : first.At site) (completed : first.completed = true) (here : site.recorded first.before = .ok h)
    (chronicle : Chronicle site first.after between final)
    (others : ∀ e ∈ between, e.pass.pull.key ≠ first.pass.pull.key) :
    ∃ last, site.recorded final = .ok last ∧
      last.find? first.pass.pull.key = some (first.pass.entryOver h) := by
  obtain ⟨recorded,_⟩ := lawful.completed here completed
  refine chronicle.invariant recorded
    (fun _ g => g.find? first.pass.pull.key = some (first.pass.entryOver h)) ?_ ?_
  · rw [← Pass.entryOver_key,History.find?_put_self]
  · intro past e before after earlier lawful member found ended
    rw [lawful.find?_of_ne found ended (others e member),earlier]

/-- After a pass to its end, and any passes over other pull requests to any end, a pass over a pull
request of the same key that refers to the same issues tells nothing and leaves the file as it is,
when its commit is the recorded one, or is none where a commit is recorded. -/
theorem repeated_silent {site : Site} {first : Episode} {between : List Episode} {final world : World} {h : History}
    {pass : Pass} (lawful : first.At site) (completed : first.completed = true)
    (here : site.recorded first.before = .ok h) (chronicle : Chronicle site first.after between final)
    (others : ∀ e ∈ between, e.pass.pull.key ≠ first.pass.pull.key)
    (kept : site.recorded world = site.recorded final) (plan : pass.plan = site.plan)
    (key : pass.pull.key = first.pass.pull.key)
    (issues : Issue.referenced pass.pull.body = Issue.referenced first.pass.pull.body)
    (commit : ∀ entry, site.entryAt world pass.pull.key = some entry →
      (pass.pull.snapshot pass.trust).commit = entry.commit ∨
        entry.commit.isKnown = true ∧ (pass.pull.snapshot pass.trust).commit.isKnown = false)
    (listeners : List Listener) :
    let again := Episode.ofRun site pass listeners world
    again.completed = true ∧ again.told = [] ∧ again.after.deliveries = world.deliveries ∧
      site.octets again.after = site.octets world := by
  obtain ⟨last,recorded,found⟩ := chronicle.entry_stays lawful completed here others
  rw [recorded] at kept
  rw [← key] at found
  have commit := commit _ ((Site.entryAt_eq kept _).trans found)
  apply Pass.idle_of_agenda plan kept
  apply Pass.agenda_of_recorded found _ commit
  rw [Pass.entryOver_issues,issues]

end Chronicle

def Episode.otherOpened : Episode := .ofRun .sample (.sample "18" "" []) [] announced.after

def Pass.retracted : Pass := .sample "17" "" []

/-- An integration, a pass over another pull request, and a pass that finds the comment gone. -/
theorem Chronicle.repeated_silent_retracted :
    Site.sample.knows Episode.otherOpened.after "jdk#17" = true ∧
      (Pass.retracted.pull.snapshot Pass.retracted.trust).commit = .unknown ∧
      (Episode.ofRun .sample .retracted [.idle] Episode.otherOpened.after).told = [] ∧
      Site.sample.octets (Episode.ofRun .sample .retracted [.idle] Episode.otherOpened.after).after =
        Site.sample.octets Episode.otherOpened.after := by
  have unknown : (Pass.retracted.pull.snapshot Pass.retracted.trust).commit = .unknown := by decide +kernel
  have known : Site.sample.knows Episode.otherOpened.after "jdk#17" = true := by decide +kernel
  have between : Chronicle .sample Episode.announced.after ([] ++ [Episode.otherOpened])
      Episode.otherOpened.after := .snoc .nil rfl (.ofRun rfl (Pass.sample_pairFree _ _ _) _ _)
  have commit : ∀ entry, Site.sample.entryAt Episode.otherOpened.after Pass.retracted.pull.key = some entry →
      (Pass.retracted.pull.snapshot Pass.retracted.trust).commit = entry.commit ∨
        entry.commit.isKnown = true ∧ (Pass.retracted.pull.snapshot Pass.retracted.trust).commit.isKnown = false := by
    intro entry found
    have same : Pass.retracted.pull.key = Text.ofString "jdk#17" := by decide
    rw [same] at found
    unfold Site.knows at known
    rw [found] at known
    rw [unknown]
    exact .inr ⟨known,rfl⟩
  have first : Episode.announced.At .sample := .ofRun rfl (Pass.sample_pairFree _ _ _) _ _
  obtain ⟨_,told,_,octets⟩ := Chronicle.repeated_silent first (by decide +kernel) Site.recorded_sample between
    (by decide +kernel) rfl rfl (by decide) (by decide +kernel) commit [.idle]
  exact ⟨known,unknown,told,octets⟩

end PullNotices
