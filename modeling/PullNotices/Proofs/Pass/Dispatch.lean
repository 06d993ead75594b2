import PullNotices.Proofs.Pass.Delivery
import PullNotices.Proofs.Pass.Retry

/-! The order of what a pass delivers. Its events are a matter of the pull request and the entry found:
issues that are gone, then new ones, both in the order of their texts, and an integration last. Every
event goes to all listeners in their order before the next one does. The first listener that fails
ends the pass with its words, and then the entry of the pull request is not put into the history. -/
namespace PullNotices

/-- The events of a pass that finds this history. -/
def Pass.events (pass : Pass) (h : History) : List Event :=
  if h.find? pass.pull.key = some (pass.entryOver h) then [] else pass.news h

/-- The events that a pass over the pull request has to tell, in their order. -/
inductive Pass.Tells (pass : Pass) (h : History) : List Event → Prop
  | nothing (recorded : h.find? pass.pull.key = some (pass.entryOver h)) : Tells pass h []
  | first {ids : List Text} (missing : h.find? pass.pull.key = none) (order : ids.Pairwise fun a b => a < b)
      (all : ∀ id, id ∈ ids ↔ id ∈ Issue.referenced pass.pull.body) :
      Tells pass h (.opened :: ids.map .issueAdded ++ (pass.pull.snapshot pass.trust).integration)
  | changes {stored : Entry} {gone new : List Text} (found : h.find? pass.pull.key = some stored)
      (changed : stored ≠ pass.entryOver h)
      (goneOrder : gone.Pairwise fun a b => a < b) (newOrder : new.Pairwise fun a b => a < b)
      (allGone : ∀ id, id ∈ gone ↔ id ∈ stored.issues ∧ id ∉ Issue.referenced pass.pull.body)
      (allNew : ∀ id, id ∈ new ↔ id ∈ Issue.referenced pass.pull.body ∧ id ∉ stored.issues) :
      Tells pass h (gone.map .issueRemoved ++ new.map .issueAdded ++
        if stored.commit = .unknown then (pass.pull.snapshot pass.trust).integration else [])

namespace Pass

variable {pass : Pass} {h : History} {stored : Entry}

/-- A commit that takes a placeholder's place is no news, nor is one that was recorded before. -/
theorem integration_of_changes (found : h.find? pass.pull.key = some stored) :
    (if (pass.refreshed stored).commit = .unknown then (pass.entryOver h).integration else []) =
      if stored.commit = .unknown then pass.fresh.integration else [] := by
  cases placeholder : stored.commit.isPlaceholder with
  | true =>
    rw [entryOver_of_placeholder found placeholder,refreshed_of_placeholder placeholder,
      Commit.isPlaceholder_iff.mp placeholder,if_neg (nofun : Commit.placeholder ≠ .unknown)]
    split
    · rename_i unknown
      have unknown : pass.fresh.commit = .unknown := unknown
      rw [Entry.integration,unknown]
      rfl
    · rfl
  | false =>
    have same : pass.refreshed stored = stored := if_neg (by simp [placeholder])
    rw [same]
    split
    · rename_i unknown
      rw [entryOver_of_not_known]
      intro other again
      rw [found] at again
      cases again
      rw [unknown]
      rfl
    · rfl

theorem tells (pass : Pass) (h : History) : pass.Tells h (pass.events h) := by
  unfold events
  split
  · rename_i recorded
    exact .nothing recorded
  · rename_i changed
    unfold news
    split
    · rename_i missing
      have fresh : pass.entryOver h = pass.fresh := by
        unfold entryOver
        rw [missing]
        rfl
      rw [fresh]
      exact .first missing pass.fresh.issues.ascending fun id => Iff.rfl
    · rename_i stored found
      unfold Entry.changes
      rw [integration_of_changes found,refreshed_issues,entryOver_issues]
      refine .changes found ?_ (stored.issues.without _).ascending (TextSet.ascending _) ?_ ?_
      · rintro rfl
        exact changed found
      · exact fun id => TextSet.mem_without
      · exact fun id => TextSet.mem_without

end Pass

/-- Every event in order to as many listeners, each in their order. -/
def Event.rounds (pull : PullRequest) (count : Nat) (events : List Event) : List Delivery :=
  events.flatMap fun event => (Notice.mk pull event).round count

theorem Event.rounds_cons (pull : PullRequest) (count : Nat) (event : Event) (events : List Event) :
    rounds pull count (event :: events) = (Notice.mk pull event).round count ++ rounds pull count events :=
  List.flatMap_cons

namespace Errand

variable {listeners : List Listener} {refusal : Option Failure} {es : List Errand} {past : List Delivery}
  {v : Volume} {pull : PullRequest} {events : List Event} {words : Text}

/-- A notice is accepted by all listeners or delivered up to the first that fails. -/
theorem outcome_round (notice : Notice) :
    let heard := Delivery.upToFailure listeners past (notice.round listeners.length)
    let out := outcome listeners refusal (.tell notice :: es) past v
    match heard.2 with
    | some words => out.deliveries = past ++ heard.1 ∧ out.result = .error (.listener words)
    | none =>
      let rest := outcome listeners refusal es (past ++ notice.round listeners.length) v
      out.deliveries = rest.deliveries ∧ out.result = rest.result := by
  obtain ⟨delivered,answered⟩ := World.tell_deliveries ⟨.empty,past,[]⟩ listeners notice
  rcases accepted_or_failed listeners past notice with ⟨told,heard⟩ | ⟨told,words,heard⟩
  · rw [heard] at delivered answered
    have accepted : none = (Delivery.upToFailure listeners past (notice.round listeners.length)).2 := answered
    have delivered : told.deliveries = past ++ (Delivery.upToFailure listeners past _).1 := delivered
    rw [Delivery.upToFailure_complete accepted.symm] at delivered
    dsimp only
    rw [outcome_tell heard,← accepted,delivered]
    exact ⟨rfl,rfl⟩
  · rw [heard] at delivered answered
    have failed : some words = (Delivery.upToFailure listeners past (notice.round listeners.length)).2 := answered
    dsimp only
    rw [outcome_tell_failed heard,← failed]
    exact ⟨delivered,rfl⟩

theorem outcome_rounds_failed
    (failed : (Delivery.upToFailure listeners past (Event.rounds pull listeners.length events)).2 = some words) :
    (outcome listeners refusal (telling pull events ++ es) past v).deliveries =
        past ++ (Delivery.upToFailure listeners past (Event.rounds pull listeners.length events)).1 ∧
      (outcome listeners refusal (telling pull events ++ es) past v).result = .error (.listener words) := by
  induction events generalizing past with
  | nil => cases failed
  | cons event events ih =>
    rw [Event.rounds_cons] at failed ⊢
    have first := @outcome_round listeners refusal (telling pull events ++ es) past v ⟨pull,event⟩
    dsimp only at first
    split at first
    · rename_i said answer
      rw [Delivery.upToFailure_append_failed answer] at failed ⊢
      rw [answer] at failed
      cases failed
      exact first
    · rename_i answer
      rw [Delivery.upToFailure_append_accepted answer] at failed ⊢
      obtain ⟨delivered,result⟩ := ih failed
      refine ⟨first.1.trans (delivered.trans ?_),first.2.trans result⟩
      rw [List.append_assoc]

theorem outcome_rounds_accepted
    (accepted : (Delivery.upToFailure listeners past (Event.rounds pull listeners.length events)).2 = none) :
    (outcome listeners refusal (telling pull events ++ es) past v).deliveries =
        (outcome listeners refusal es (past ++ Event.rounds pull listeners.length events) v).deliveries ∧
      (outcome listeners refusal (telling pull events ++ es) past v).result =
        (outcome listeners refusal es (past ++ Event.rounds pull listeners.length events) v).result := by
  induction events generalizing past with
  | nil =>
    have none : past ++ Event.rounds pull listeners.length [] = past := List.append_nil past
    rw [none]
    exact ⟨rfl,rfl⟩
  | cons event events ih =>
    rw [Event.rounds_cons] at accepted ⊢
    have first := @outcome_round listeners refusal (telling pull events ++ es) past v ⟨pull,event⟩
    dsimp only at first
    split at first
    · rename_i said answer
      rw [Delivery.upToFailure_append_failed answer,answer] at accepted
      cases accepted
    · rename_i answer
      rw [Delivery.upToFailure_append_accepted answer] at accepted
      obtain ⟨delivered,result⟩ := ih accepted
      rw [← List.append_assoc]
      exact ⟨first.1.trans delivered,first.2.trans result⟩

end Errand

namespace Pass

variable {pass : Pass} {listeners : List Listener} {refusal : Option Failure} {past : List Delivery} {v : Volume}

/-- The entry is put in last, when there is nothing more to deliver. -/
theorem outcome_last (entry : Entry) :
    (Errand.outcome listeners refusal [.put entry] past v).deliveries = past ∧
      ((Errand.outcome listeners refusal [.put entry] past v).result = .ok () ∨
        ∃ failure, refusal = some failure ∧
          (Errand.outcome listeners refusal [.put entry] past v).result = .error failure) := by
  rcases Errand.possible_or_refused refusal v entry with possible | ⟨failure,rfl,new⟩
  · rw [Errand.outcome_put possible]
    exact ⟨rfl,.inl rfl⟩
  · rw [Errand.outcome_put_refused new]
    exact ⟨rfl,.inr ⟨failure,rfl,rfl⟩⟩

/-- What comes of the events once what takes a placeholder's place is put in. -/
theorem outcome_news (entry : Entry) (events : List Event) :
    let due := Event.rounds pass.pull listeners.length events
    let heard := Delivery.upToFailure listeners past due
    let out := Errand.outcome listeners refusal (Errand.telling pass.pull events ++ [.put entry]) past v
    out.deliveries = past ++ heard.1 ∧ (∀ words, heard.2 = some words → out.result = .error (.listener words)) ∧
      (heard.2 = none → out.result = .ok () ∨ ∃ failure, refusal = some failure ∧ out.result = .error failure) := by
  dsimp only
  cases answer : (Delivery.upToFailure listeners past (Event.rounds pass.pull listeners.length events)).2 with
  | some words =>
    obtain ⟨delivered,result⟩ := @Errand.outcome_rounds_failed _ refusal [.put entry] _ v _ _ _ answer
    refine ⟨delivered,?_,nofun⟩
    intro said same
    cases same
    exact result
  | none =>
    obtain ⟨delivered,result⟩ := @Errand.outcome_rounds_accepted _ refusal [.put entry] _ v _ _ answer
    obtain ⟨nothing,ended⟩ := @outcome_last listeners refusal
      (past ++ Event.rounds pass.pull listeners.length events) v entry
    rw [delivered,result,Delivery.upToFailure_complete answer]
    exact ⟨nothing,nofun,fun _ => ended⟩

theorem outcome_agenda :
    let heard := Delivery.upToFailure listeners past (Event.rounds pass.pull listeners.length (pass.events v.history))
    let out := Errand.outcome listeners refusal (pass.agenda v.history) past v
    (∃ stored failure, v.history.find? pass.pull.key = some stored ∧ stored.commit = .placeholder ∧
      refusal = some failure ∧ out.result = .error failure ∧ out.deliveries = past) ∨
    out.deliveries = past ++ heard.1 ∧ (∀ words, heard.2 = some words → out.result = .error (.listener words)) ∧
      (heard.2 = none → out.result = .ok () ∨ ∃ failure, refusal = some failure ∧ out.result = .error failure) := by
  dsimp only
  by_cases changed : v.history.find? pass.pull.key = some (pass.entryOver v.history)
  · right
    have none : pass.events v.history = [] := if_pos changed
    have idle : pass.agenda v.history = [] := if_pos changed
    rw [none,idle]
    exact ⟨(List.append_nil past).symm,nofun,fun _ => .inl rfl⟩
  · have events : pass.events v.history = pass.news v.history := if_neg changed
    rw [events,agenda_of_changed changed]
    rcases pass.upgrades_cases v.history with none | ⟨stored,found,placeholder,single⟩
    · right
      rw [none]
      exact outcome_news _ _
    · rw [single,List.map_singleton,List.singleton_append]
      rcases Errand.possible_or_refused refusal v (pass.refreshed stored) with possible | ⟨failure,rfl,new⟩
      · right
        rw [Errand.outcome_put possible]
        exact outcome_news _ _
      · left
        rw [Errand.outcome_put_refused new]
        exact ⟨stored,failure,found,Commit.isPlaceholder_iff.mp placeholder,rfl,rfl,rfl⟩

theorem find?_upgrades_ne (changed : v.history.find? pass.pull.key ≠ some (pass.entryOver v.history))
    (news : pass.news v.history ≠ []) :
    (v.history.putAll (pass.upgrades v.history)).find? pass.pull.key ≠ some (pass.entryOver v.history) := by
  rcases pass.upgrades_cases v.history with none | ⟨stored,found,placeholder,single⟩
  · rw [none]
    exact changed
  · rw [single]
    change (v.history.put (pass.refreshed stored)).find? pass.pull.key ≠ _
    rw [find?_upgraded found,entryOver_of_placeholder found placeholder]
    intro same
    rw [news_of_placeholder found placeholder,Option.some.inj same,Entry.changes_self] at news
    exact news rfl

end Pass

namespace Episode

variable {site : Site} {pass : Pass} {world : World} {h : History} {listeners : List Listener}

/-- The deliveries of a pass are those of its events in order, each to one listener after another, up
to the first that its listener fails on. With a failure the pass ends with the words of that listener
and has recorded no more than what takes a placeholder's place, and that was there before anything
was delivered. Without one, all is delivered and then the entry is put in. Only where the file cannot
be replaced may the pass end otherwise: with a placeholder found before it delivers anything, and
else after it has delivered everything. -/
theorem dispatched (plan : pass.plan = site.plan) (pull : pass.pull.PairFree) (here : site.recorded world = .ok h)
    (listeners : List Listener) :
    let e := ofRun site pass listeners world
    let due := Event.rounds pass.pull listeners.length (pass.events h)
    let heard := Delivery.upToFailure listeners world.deliveries due
    pass.Tells h (pass.events h) ∧
    ((∃ stored failure, h.find? pass.pull.key = some stored ∧ stored.commit = .placeholder ∧
        site.refusal world = some failure ∧ e.result = .error failure ∧ e.after.deliveries = world.deliveries) ∨
      e.after.deliveries = world.deliveries ++ heard.1 ∧
      (∀ words, heard.2 = some words → e.result = .error (.listener words) ∧
        site.recorded e.after = .ok (h.putAll (pass.upgrades h)) ∧
        (h.putAll (pass.upgrades h)).find? pass.pull.key ≠ some (pass.entryOver h)) ∧
      (heard.2 = none → heard.1 = due ∧
        (e.result = .ok () ∧ site.recorded e.after = .ok (h.put (pass.entryOver h)) ∨
          ∃ failure, site.refusal world = some failure ∧ e.result = .error failure))) ∧
    ∀ notice there, (pass.program site.scratch).Reaches listeners world (.tell notice) there →
      site.recorded there = .ok (h.putAll (pass.upgrades h)) := by
  have lawful : (ofRun site pass listeners world).At site := .ofRun plan pull listeners world
  obtain ⟨v,holds,rfl⟩ := Site.holds_of_recorded here
  have run := pass.yields plan pull holds listeners
  refine ⟨pass.tells v.history,?_,?_⟩
  · rcases @Pass.outcome_agenda pass listeners (site.refusal world) world.deliveries v with
      ⟨stored,failure,found,placeholder,refused,result,delivered⟩ | ⟨delivered,failed,accepted⟩
    · exact .inl ⟨stored,failure,found,placeholder,refused,run.result.trans result,run.deliveries.trans delivered⟩
    · refine .inr ⟨run.deliveries.trans delivered,?_,?_⟩
      · intro words answer
        have stopped := failed words answer
        obtain ⟨changed,news,put,_⟩ := Pass.outcome_stopped Site.refusal_not_listener stopped
        have recorded := run.holds.recorded
        rw [put,Volume.history_putAll] at recorded
        exact ⟨run.result.trans stopped,recorded,Pass.find?_upgrades_ne changed news⟩
      · intro answer
        refine ⟨Delivery.upToFailure_complete answer,?_⟩
        rcases accepted answer with ended | ⟨failure,refused,ended⟩
        · have result := run.result.trans ended
          exact .inl ⟨result,(lawful.completed here (completed_iff.mpr result)).1⟩
        · exact .inr ⟨failure,refused,run.result.trans ended⟩
  · intro notice there reaches
    obtain ⟨done,rest,whole,recorded⟩ := (pass.conduct plan).recorded_of_reaches here trivial
      (Pass.agenda_pairFree pull (Site.recorded_pairFree here)) reaches
    rw [recorded,Pass.entries_before_tell whole]

/-- The second of three listeners fails on one of two issues. -/
def onlyA : List Listener :=
  [.idle,⟨fun _ notice => ⟨[],if notice.event = .issueAdded "B" then some "not B" else none⟩⟩,.idle]

def twoIssues : Pass := .sample "17" "\n\n## Issue\n[B](u): b\n[A](u): a" []

theorem dispatched_onlyA :
    let e := ofRun .sample twoIssues onlyA .empty
    e.after.deliveries.map (fun d => (d.listener,d.notice.event)) =
        [(0,.opened),(1,.opened),(2,.opened),(0,.issueAdded "A"),(1,.issueAdded "A"),(2,.issueAdded "A"),
          (0,.issueAdded "B"),(1,.issueAdded "B")] ∧
      e.result = .error (.listener "not B") ∧
      ∃ last, Site.sample.recorded e.after = .ok last ∧ last.find? "jdk#17" ≠ some (twoIssues.entryOver .empty) := by
  have plan : twoIssues.plan = Site.sample.plan := rfl
  obtain ⟨_,⟨_,_,found,_⟩ | ⟨delivered,failed,_⟩,_⟩ :=
    dispatched plan (Pass.sample_pairFree _ _ _) Site.recorded_sample onlyA
  · cases found
  · obtain ⟨result,recorded,apart⟩ := failed "not B" (by decide +kernel)
    refine ⟨?_,result,_,recorded,apart⟩
    rw [delivered]
    decide +kernel

end Episode

end PullNotices
