import PullNotices.Proofs.Pass.Replay

/-! Listening. A listener that adds and discards issues as it hears of them knows what is recorded, but
for the issues that it last heard of in a pass which did not come to its end. Of those it knows just
the contrary, until a pass tells it of them again; and that does not happen when the description has
gone back meanwhile to what is recorded. -/
namespace PullNotices

def Event.issue? : Event → Option Text
  | .issueAdded id => some id
  | .issueRemoved id => some id
  | _ => none

/-- The issues that are known after the event. To hear of it once more makes no difference. -/
def Event.revise (known : Finset Text) : Event → Finset Text
  | .issueAdded id => insert id known
  | .issueRemoved id => known.erase id
  | _ => known

/-- The recorded issues, which are none where there is no entry. -/
def History.issuesAt (h : History) (key : Text) : IssueSet := ((h.find? key).map Entry.issues).getD .empty

namespace Episode

/-- What the listener at this position hears in the pass. -/
def heard (e : Episode) (listener : Nat) : List Notice :=
  (e.after.heardBy listener).drop (e.before.heardBy listener).length

def heardFor (e : Episode) (listener : Nat) (key : Text) : List Event :=
  ((e.heard listener).filter fun notice => notice.pull.key = key).map Notice.event

def Concerns (e : Episode) (listener : Nat) (key id : Text) : Prop :=
  ∃ event ∈ e.heardFor listener key, event.issue? = some id

end Episode

def knownIssues (listener : Nat) (key : Text) (episodes : List Episode) : Finset Text :=
  (episodes.flatMap fun e => e.heardFor listener key).foldl Event.revise ∅

/-- The last pass in which the listener hears of the issue does not come to its end. -/
def Astray (listener : Nat) (key id : Text) (episodes : List Episode) : Prop :=
  ∃ past e later, episodes = past ++ e :: later ∧ e.Concerns listener key id ∧ e.completed = false ∧
    ∀ other ∈ later, ¬ other.Concerns listener key id

/-- A pass over the key that does not come to its end refers to the same issues as the next one that does. -/
def Steady (key : Text) (episodes : List Episode) : Prop :=
  ∀ past e between next later, episodes = past ++ e :: (between ++ next :: later) →
    e.pass.pull.key = key → e.completed = false → next.pass.pull.key = key → next.completed = true →
    (∀ other ∈ between, other.pass.pull.key = key → other.completed = false) →
    Issue.referenced e.pass.pull.body = Issue.referenced next.pass.pull.body

theorem Event.mem_revised {events : List Event} {id : Text}
    (either : .issueAdded id ∉ events ∨ .issueRemoved id ∉ events) (known : Finset Text) :
    id ∈ events.foldl revise known ↔ .issueAdded id ∈ events ∨ (.issueRemoved id ∉ events ∧ id ∈ known) := by
  induction events generalizing known with
  | nil => simp
  | cons event events ih =>
    have rest : .issueAdded id ∉ events ∨ .issueRemoved id ∉ events :=
      either.imp (fun absent => fun member => absent (List.mem_cons_of_mem _ member))
        (fun absent => fun member => absent (List.mem_cons_of_mem _ member))
    rw [List.foldl_cons,ih rest]
    cases event with
    | issueAdded other => by_cases same : id = other <;> simp_all [revise]
    | issueRemoved other => by_cases same : id = other <;> simp_all [revise]
    | opened => simp [revise]
    | integrated hash => simp [revise]

namespace Entry

theorem issue?_of_mem_integration {e : Entry} {event : Event} (member : event ∈ e.integration) :
    event.issue? = none := by
  unfold integration at member
  cases commit : e.commit.hash? with
  | none => simp [commit] at member
  | some hash =>
    rw [commit] at member
    obtain rfl : event = .integrated hash := by simpa using member
    rfl

theorem issueAdded_mem_introduction {e : Entry} {id : Text} : .issueAdded id ∈ e.introduction ↔ id ∈ e.issues := by
  constructor
  · intro member
    rcases List.mem_append.mp member with early | last
    · have inside : id ∈ e.issues.members := by simpa using early
      exact inside
    · cases issue?_of_mem_integration last
  · intro member
    apply List.mem_append_left
    exact List.mem_cons_of_mem _ (List.mem_map.mpr ⟨id,member,rfl⟩)

theorem issueRemoved_not_mem_introduction {e : Entry} {id : Text} : .issueRemoved id ∉ e.introduction := by
  intro member
  rcases List.mem_append.mp member with early | last
  · simp at early
  · cases issue?_of_mem_integration last

theorem issueAdded_mem_changes {stored fresh : Entry} {id : Text} :
    .issueAdded id ∈ stored.changes fresh ↔ id ∈ fresh.issues ∧ id ∉ stored.issues := by
  rw [← TextSet.mem_without]
  constructor
  · intro member
    rcases List.mem_append.mp member with early | last
    · have inside : id ∈ (fresh.issues.without stored.issues).members := by simpa using early
      exact inside
    · split at last
      · cases issue?_of_mem_integration last
      · cases last
  · intro member
    exact List.mem_append_left _ (List.mem_append_right _ (List.mem_map.mpr ⟨id,member,rfl⟩))

theorem issueRemoved_mem_changes {stored fresh : Entry} {id : Text} :
    .issueRemoved id ∈ stored.changes fresh ↔ id ∈ stored.issues ∧ id ∉ fresh.issues := by
  rw [← TextSet.mem_without]
  constructor
  · intro member
    rcases List.mem_append.mp member with early | last
    · have inside : id ∈ (stored.issues.without fresh.issues).members := by simpa using early
      exact inside
    · split at last
      · cases issue?_of_mem_integration last
      · cases last
  · intro member
    exact List.mem_append_left _ (List.mem_append_left _ (List.mem_map.mpr ⟨id,member,rfl⟩))

end Entry

namespace Pass

variable {pass : Pass} {h : History} {id : Text}

theorem issueAdded_mem_news :
    .issueAdded id ∈ pass.news h ↔ id ∈ Issue.referenced pass.pull.body ∧ id ∉ h.issuesAt pass.pull.key := by
  unfold news History.issuesAt
  cases found : h.find? pass.pull.key with
  | none =>
    dsimp only
    rw [Entry.issueAdded_mem_introduction,entryOver_issues]
    exact ⟨fun inside => ⟨inside,List.not_mem_nil⟩,And.left⟩
  | some stored =>
    dsimp only
    rw [Entry.issueAdded_mem_changes,entryOver_issues,refreshed_issues]
    rfl

theorem issueRemoved_mem_news :
    .issueRemoved id ∈ pass.news h ↔ id ∈ h.issuesAt pass.pull.key ∧ id ∉ Issue.referenced pass.pull.body := by
  unfold news History.issuesAt
  cases found : h.find? pass.pull.key with
  | none =>
    dsimp only
    exact ⟨fun member => absurd member Entry.issueRemoved_not_mem_introduction,
      fun both => absurd both.1 List.not_mem_nil⟩
  | some stored =>
    dsimp only
    rw [Entry.issueRemoved_mem_changes,entryOver_issues,refreshed_issues]
    rfl

end Pass

namespace Episode.At

variable {site : Site} {e : Episode} {h after : History} {listener : Nat} {key id : Text}

theorem heard_prefix (lawful : e.At site) (bound : listener < e.listeners.length) : e.heard listener <+: e.told := by
  obtain ⟨whole,later,first⟩ := lawful.course.heardBy_prefix bound
  unfold heard
  rw [later,List.drop_left]
  exact first

theorem heard_of_completed (lawful : e.At site) (bound : listener < e.listeners.length)
    (completed : e.completed = true) : e.heard listener = e.told := by
  have course := lawful.course
  rw [completed_iff.mp completed] at course
  unfold heard
  rw [course.heardBy_of_ok bound,List.drop_left]

theorem heardFor_of_completed (lawful : e.At site) (bound : listener < e.listeners.length)
    (completed : e.completed = true) (key : Text) : e.heardFor listener key = e.eventsFor key := by
  unfold heardFor eventsFor
  rw [lawful.heard_of_completed bound completed]

theorem mem_eventsFor (lawful : e.At site) (bound : listener < e.listeners.length) {event : Event}
    (member : event ∈ e.heardFor listener key) : event ∈ e.eventsFor key := by
  obtain ⟨notice,inside,rfl⟩ := List.mem_map.mp member
  obtain ⟨heard,own⟩ := List.mem_filter.mp inside
  exact List.mem_map.mpr ⟨notice,List.mem_filter.mpr ⟨(lawful.heard_prefix bound).subset heard,own⟩,rfl⟩

/-- An issue that a listener hears of is one in which the description differs from what is recorded, and
what the listener then knows is what the description says. -/
theorem concerned (lawful : e.At site) (here : site.recorded e.before = .ok h) (bound : listener < e.listeners.length)
    (concerns : e.Concerns listener key id) :
    e.pass.pull.key = key ∧ (id ∈ Issue.referenced e.pass.pull.body ↔ id ∉ h.issuesAt key) ∧
      ∀ known, id ∈ (e.heardFor listener key).foldl Event.revise known ↔ id ∈ Issue.referenced e.pass.pull.body := by
  have news : ∀ {event}, event ∈ e.heardFor listener key → e.pass.pull.key = key ∧ event ∈ e.pass.news h := by
    intro event member
    obtain ⟨own,_,news⟩ := lawful.mem_news here (lawful.mem_eventsFor bound member)
    exact ⟨own,news⟩
  obtain ⟨event,member,about⟩ := concerns
  obtain ⟨rfl,told⟩ := news member
  have came : .issueAdded id ∈ e.heardFor listener e.pass.pull.key →
      id ∈ Issue.referenced e.pass.pull.body ∧ id ∉ h.issuesAt e.pass.pull.key :=
    fun member => Pass.issueAdded_mem_news.mp (news member).2
  have gone : .issueRemoved id ∈ e.heardFor listener e.pass.pull.key →
      id ∈ h.issuesAt e.pass.pull.key ∧ id ∉ Issue.referenced e.pass.pull.body :=
    fun member => Pass.issueRemoved_mem_news.mp (news member).2
  have either : .issueAdded id ∉ e.heardFor listener e.pass.pull.key ∨
      .issueRemoved id ∉ e.heardFor listener e.pass.pull.key := by
    by_contra both
    push Not at both
    exact (came both.1).2 (gone both.2).1
  refine ⟨rfl,?_,?_⟩
  · cases event with
    | issueAdded other =>
      obtain rfl := Option.some.inj about
      exact ⟨fun _ => (came member).2,fun _ => (came member).1⟩
    | issueRemoved other =>
      obtain rfl := Option.some.inj about
      exact ⟨fun inside => absurd inside (gone member).2,fun absent => absurd (gone member).1 absent⟩
    | opened => cases about
    | integrated hash => cases about
  · intro known
    rw [Event.mem_revised either]
    cases event with
    | issueAdded other =>
      obtain rfl := Option.some.inj about
      exact ⟨fun _ => (came member).1,fun _ => .inl member⟩
    | issueRemoved other =>
      obtain rfl := Option.some.inj about
      refine ⟨?_,fun inside => absurd inside (gone member).2⟩
      rintro (added | ⟨absent,_⟩)
      · exact (came added).1
      · exact absurd member absent
    | opened => cases about
    | integrated hash => cases about

theorem unconcerned (silent : ¬ e.Concerns listener key id) (known : Finset Text) :
    id ∈ (e.heardFor listener key).foldl Event.revise known ↔ id ∈ known := by
  have added : .issueAdded id ∉ e.heardFor listener key := fun member => silent ⟨_,member,rfl⟩
  have removed : .issueRemoved id ∉ e.heardFor listener key := fun member => silent ⟨_,member,rfl⟩
  rw [Event.mem_revised (.inl added)]
  simp [added,removed]

/-- In a pass to its end every listener hears of each issue in which the description differs from what is
recorded. -/
theorem concerns_of_ne (lawful : e.At site) (here : site.recorded e.before = .ok h)
    (bound : listener < e.listeners.length) (completed : e.completed = true)
    (differs : id ∈ Issue.referenced e.pass.pull.body ↔ id ∉ h.issuesAt e.pass.pull.key) :
    e.Concerns listener e.pass.pull.key id := by
  have changed : h.find? e.pass.pull.key ≠ some (e.pass.entryOver h) := by
    intro same
    have issues : h.issuesAt e.pass.pull.key = Issue.referenced e.pass.pull.body := by
      unfold History.issuesAt
      rw [same]
      exact Pass.entryOver_issues
    rw [issues] at differs
    tauto
  have events : e.heardFor listener e.pass.pull.key = e.pass.news h := by
    rw [lawful.heardFor_of_completed bound completed,lawful.eventsFor_of_completed here completed,if_neg changed]
  unfold Concerns
  rw [events]
  by_cases inside : id ∈ Issue.referenced e.pass.pull.body
  · exact ⟨_,Pass.issueAdded_mem_news.mpr ⟨inside,differs.mp inside⟩,rfl⟩
  · exact ⟨_,Pass.issueRemoved_mem_news.mpr ⟨by tauto,inside⟩,rfl⟩

theorem issuesAt_of_completed (lawful : e.At site) (here : site.recorded e.before = .ok h)
    (there : site.recorded e.after = .ok after) (completed : e.completed = true) :
    after.issuesAt e.pass.pull.key = Issue.referenced e.pass.pull.body := by
  unfold History.issuesAt
  rw [lawful.find?_of_completed here there completed]
  exact Pass.entryOver_issues

/-- A pass that does not come to its end changes the recorded issues as little as one over another key. -/
theorem issuesAt_kept (lawful : e.At site) (here : site.recorded e.before = .ok h)
    (there : site.recorded e.after = .ok after) (other : e.pass.pull.key = key → e.completed = false) :
    after.issuesAt key = h.issuesAt key := by
  unfold History.issuesAt
  by_cases own : e.pass.pull.key = key
  · subst own
    obtain ⟨put,early,left⟩ := lawful.unfinished here (other rfl)
    rw [there] at left
    cases left
    rcases History.find?_putAll_cases h put e.pass.pull.key with same | ⟨entry,member,_,found⟩
    · rw [same]
    · obtain ⟨stored,before,_,rfl⟩ := Pass.mem_upgrades (early.subset member)
      rw [found,before]
      exact Pass.refreshed_issues stored
  · rw [lawful.find?_of_ne here there own]

theorem issuesAt_unconcerned (lawful : e.At site) (here : site.recorded e.before = .ok h)
    (there : site.recorded e.after = .ok after) (bound : listener < e.listeners.length)
    (silent : ¬ e.Concerns listener key id) : id ∈ after.issuesAt key ↔ id ∈ h.issuesAt key := by
  by_cases ended : e.pass.pull.key = key ∧ e.completed = true
  · obtain ⟨rfl,completed⟩ := ended
    rw [lawful.issuesAt_of_completed here there completed]
    by_contra differs
    exact silent (lawful.concerns_of_ne here bound completed (by tauto))
  · rw [lawful.issuesAt_kept here there]
    intro own
    cases completed : e.completed with
    | false => rfl
    | true => exact absurd ⟨own,completed⟩ ended

end Episode.At

variable {site : Site} {start final : World} {h : History} {past episodes : List Episode} {e : Episode}
  {listener : Nat} {key id : Text}

theorem Episode.concat_cases {first later : List Episode} {other : Episode}
    (whole : past ++ [e] = first ++ other :: later) :
    (other = e ∧ first = past ∧ later = []) ∨
      ∃ between, later = between ++ [e] ∧ past = first ++ other :: between := by
  rcases List.eq_nil_or_concat later with rfl | ⟨between,last,rfl⟩
  · obtain ⟨rfl,same⟩ := List.append_inj' whole rfl
    cases same
    exact .inl ⟨rfl,rfl,rfl⟩
  · rw [List.concat_eq_append,← List.cons_append,← List.append_assoc] at whole
    obtain ⟨rfl,same⟩ := List.append_inj' whole rfl
    cases same
    exact .inr ⟨between,List.concat_eq_append,rfl⟩

theorem knownIssues_concat : knownIssues listener key (past ++ [e]) =
    (e.heardFor listener key).foldl Event.revise (knownIssues listener key past) := by
  unfold knownIssues
  rw [List.flatMap_append,List.flatMap_singleton,List.foldl_append]

namespace Astray

theorem concat_of_concerns (concerns : e.Concerns listener key id) :
    Astray listener key id (past ++ [e]) ↔ e.completed = false := by
  constructor
  · rintro ⟨first,stopped,later,whole,_,ended,silent⟩
    rcases Episode.concat_cases whole with ⟨rfl,_⟩ | ⟨between,rfl,_⟩
    · exact ended
    · exact absurd concerns (silent e (by simp))
  · intro ended
    exact ⟨past,e,[],rfl,concerns,ended,nofun⟩

theorem concat_of_not_concerns (silent : ¬ e.Concerns listener key id) :
    Astray listener key id (past ++ [e]) ↔ Astray listener key id past := by
  constructor
  · rintro ⟨first,stopped,later,whole,concerns,ended,quiet⟩
    rcases Episode.concat_cases whole with ⟨rfl,_⟩ | ⟨between,rfl,rfl⟩
    · exact absurd concerns silent
    · exact ⟨first,stopped,between,rfl,concerns,ended,fun other member => quiet other (by simp [member])⟩
  · rintro ⟨first,stopped,later,rfl,concerns,ended,quiet⟩
    refine ⟨first,stopped,later ++ [e],by simp,concerns,ended,?_⟩
    intro other member
    rcases List.mem_append.mp member with early | last
    · exact quiet other early
    · rw [List.mem_singleton.mp last]
      exact silent

end Astray

theorem Steady.left {later : List Episode} (steady : Steady key (past ++ later)) : Steady key past := by
  intro first e between next rest whole
  subst whole
  exact steady first e between next (rest ++ later) (by simp)

namespace Chronicle

/-- Where there is no entry at first, a listener knows of an issue what is recorded unless it is astray in it. -/
theorem knownIssues_iff (chronicle : Chronicle site start episodes final) (here : site.recorded start = .ok h)
    (new : h.find? key = none) (present : ∀ e ∈ episodes, listener < e.listeners.length) :
    ∃ last, site.recorded final = .ok last ∧
      ∀ id, (id ∈ knownIssues listener key episodes ↔ id ∈ last.issuesAt key) ↔ ¬ Astray listener key id episodes := by
  refine chronicle.invariant here (fun past g =>
    ∀ id, (id ∈ knownIssues listener key past ↔ id ∈ g.issuesAt key) ↔ ¬ Astray listener key id past) ?_ ?_
  · intro id
    have none : id ∉ h.issuesAt key := by
      unfold History.issuesAt
      rw [new]
      exact List.not_mem_nil
    have quiet : ¬ Astray listener key id [] := by
      rintro ⟨first,e,later,whole,_⟩
      simp at whole
    simp [knownIssues,none,quiet]
  · intro past e before after agree lawful member found ended id
    have bound := present e member
    rw [knownIssues_concat]
    by_cases concerns : e.Concerns listener key id
    · obtain ⟨rfl,differs,knows⟩ := lawful.concerned found bound concerns
      rw [knows,Astray.concat_of_concerns concerns]
      cases completed : e.completed with
      | true =>
        rw [lawful.issuesAt_of_completed found ended completed]
        simp
      | false =>
        -- what was told of is not recorded
        rw [lawful.issuesAt_kept found ended fun _ => completed]
        simp only [not_true_eq_false,iff_false]
        tauto
    · rw [Episode.At.unconcerned concerns,Astray.concat_of_not_concerns concerns,
        lawful.issuesAt_unconcerned found ended bound concerns]
      exact agree id

/-- Behind an issue astray there is a pass that did not come to its end and referred to it otherwise than
recorded, and since then none over the key came to its end. -/
theorem behind_astray (chronicle : Chronicle site start episodes final) (here : site.recorded start = .ok h)
    (present : ∀ e ∈ episodes, listener < e.listeners.length) (key : Text) :
    ∃ last, site.recorded final = .ok last ∧ (Steady key episodes → ∀ id, Astray listener key id episodes →
      ∃ first e later, episodes = first ++ e :: later ∧ e.pass.pull.key = key ∧ e.completed = false ∧
        (id ∈ Issue.referenced e.pass.pull.body ↔ id ∉ last.issuesAt key) ∧
        ∀ other ∈ later, other.pass.pull.key = key → other.completed = false) := by
  refine chronicle.invariant here (fun past g => Steady key past → ∀ id, Astray listener key id past →
    ∃ first e later, past = first ++ e :: later ∧ e.pass.pull.key = key ∧ e.completed = false ∧
      (id ∈ Issue.referenced e.pass.pull.body ↔ id ∉ g.issuesAt key) ∧
      ∀ other ∈ later, other.pass.pull.key = key → other.completed = false) ?_ ?_
  · rintro _ id ⟨first,e,later,whole,_⟩
    simp at whole
  · intro past e before after behind lawful member found ended steady id astray
    have bound := present e member
    by_cases concerns : e.Concerns listener key id
    · have stopped := (Astray.concat_of_concerns concerns).mp astray
      obtain ⟨own,differs,_⟩ := lawful.concerned found bound concerns
      refine ⟨past,e,[],rfl,own,stopped,?_,nofun⟩
      rw [lawful.issuesAt_kept found ended fun _ => stopped]
      exact differs
    · obtain ⟨first,source,later,rfl,own,stopped,differs,still⟩ :=
        behind steady.left id ((Astray.concat_of_not_concerns concerns).mp astray)
      have none : e.pass.pull.key = key → e.completed = false := by
        intro same
        cases completed : e.completed with
        | false => rfl
        | true =>
          -- this pass refers to what that one referred to, so it tells of the issue
          have again := steady first source later e [] (by simp) own stopped same completed still
          rw [again] at differs
          subst same
          exact absurd (lawful.concerns_of_ne found bound completed differs) concerns
      refine ⟨first,source,later ++ [e],by simp,own,stopped,?_,?_⟩
      · rw [lawful.issuesAt_kept found ended none]
        exact differs
      · intro other member
        rcases List.mem_append.mp member with early | last
        · exact still other early
        · rw [List.mem_singleton.mp last]
          exact none

/-- After a pass over the key to its end, a listener that has replayed all it heard of the key since there
was no entry knows exactly the recorded issues, except those in which it is astray, and it is astray
in none where the passes that did not come to their end were tried again over the same issues. -/
theorem known_or_astray (chronicle : Chronicle site start episodes final) (here : site.recorded start = .ok h)
    (new : h.find? key = none) (present : ∀ e ∈ episodes, listener < e.listeners.length)
    (past later : List Episode) (whole : episodes = past ++ e :: later) (own : e.pass.pull.key = key)
    (completed : e.completed = true) :
    ∃ after entry, site.recorded e.after = .ok after ∧ after.find? key = some entry ∧
      (∀ id, (id ∈ knownIssues listener key (past ++ [e]) ↔ id ∈ entry.issues) ↔
        ¬ Astray listener key id (past ++ [e])) ∧
      (Steady key (past ++ [e]) → knownIssues listener key (past ++ [e]) = entry.issues.members.toFinset) := by
  subst whole own
  have upTo := chronicle.upTo.1
  have bounds : ∀ other ∈ past ++ [e], listener < other.listeners.length := by
    intro other member
    rw [← List.singleton_append,← List.append_assoc] at present
    exact present other (List.mem_append_left later member)
  obtain ⟨after,ended,agree⟩ := upTo.knownIssues_iff here new bounds
  obtain ⟨lawful,before,_,found,_⟩ := upTo.of_mem here (e := e) (by simp)
  have entry := lawful.find?_of_completed found ended completed
  have issues : after.issuesAt e.pass.pull.key = (e.pass.entryOver before).issues := by
    unfold History.issuesAt
    rw [entry]
    rfl
  rw [issues] at agree
  refine ⟨_,_,ended,entry,agree,?_⟩
  intro steady
  ext id
  rw [List.mem_toFinset]
  refine (agree id).mpr ?_
  intro astray
  obtain ⟨_,_,behind⟩ := upTo.behind_astray here bounds e.pass.pull.key
  obtain ⟨first,source,between,same,own,stopped,_,still⟩ := behind steady id astray
  -- the pass behind it is not this one, and after it this one came to its end
  rcases Episode.concat_cases same with ⟨rfl,_⟩ | ⟨others,rfl,_⟩
  · rw [stopped] at completed
    cases completed
  · rw [still e (by simp) rfl] at completed
    cases completed

end Chronicle

/-- A listener that fails on the first issue it hears of. -/
def Listener.reluctant : Listener :=
  ⟨fun past notice => ⟨[],
    if notice.event.issue?.isSome ∧ past.all fun earlier => earlier.event.issue?.isNone then some [] else none⟩⟩

def bodyWithA : String := "\n\n## Issue\n[A](u): a"

def Episode.stoppedOverA : Episode := .ofRun .sample (.sample "17" bodyWithA []) [.idle,.reluctant] .empty

/-- The stopped pass is tried again over another body, which need not name the issue any more. -/
def Episode.retried (body : String) : Episode :=
  .ofRun .sample (.sample "17" body []) [.idle,.reluctant] stoppedOverA.after

theorem Chronicle.retried (body : String) :
    Chronicle .sample .empty ([Episode.stoppedOverA] ++ [Episode.retried body]) (Episode.retried body).after := by
  have first : Chronicle .sample .empty ([] ++ [Episode.stoppedOverA]) Episode.stoppedOverA.after :=
    .snoc .nil rfl (.ofRun rfl (Pass.sample_pairFree _ _ _) _ _)
  exact .snoc first rfl (.ofRun rfl (Pass.sample_pairFree _ _ _) _ _)

def Entry.withoutA : Entry := (Episode.retried "").pass.fresh

theorem Episode.recorded_retried : Site.sample.recorded (retried "").after = .ok (.ofEntries [.withoutA]) := by
  decide +kernel

theorem Episode.known_retried :
    knownIssues 0 "jdk#17" ([stoppedOverA] ++ [retried ""]) = {Text.ofString "A"} := by decide +kernel

theorem Episode.steady_retried : Steady "jdk#17" ([stoppedOverA] ++ [retried bodyWithA]) := by
  intro past e between next later whole _ stopped _ completed _
  have first : e ∈ [stoppedOverA] ++ [retried bodyWithA] := by simp [whole]
  have second : next ∈ [stoppedOverA] ++ [retried bodyWithA] := by simp [whole]
  have failed : stoppedOverA.completed = false := by decide +kernel
  have ended : (retried bodyWithA).completed = true := by decide +kernel
  have first : e = stoppedOverA := by
    rcases List.mem_append.mp first with same | same <;> obtain rfl := List.mem_singleton.mp same
    · rfl
    · rw [ended] at stopped
      cases stopped
  have second : next = retried bodyWithA := by
    rcases List.mem_append.mp second with same | same <;> obtain rfl := List.mem_singleton.mp same
    · rw [failed] at completed
      cases completed
    · rfl
  rw [first,second]
  rfl

theorem Chronicle.known_or_astray_retried :
    Astray 0 "jdk#17" "A" ([Episode.stoppedOverA] ++ [Episode.retried ""]) ∧
      ∃ after entry, Site.sample.recorded (Episode.retried bodyWithA).after = .ok after ∧
        after.find? "jdk#17" = some entry ∧
        knownIssues 0 "jdk#17" ([Episode.stoppedOverA] ++ [Episode.retried bodyWithA]) = entry.issues.members.toFinset := by
  constructor
  · have present : ∀ e ∈ [Episode.stoppedOverA] ++ [Episode.retried ""], 0 < e.listeners.length := by decide +kernel
    have own : (Episode.retried "").pass.pull.key = "jdk#17" := rfl
    obtain ⟨after,entry,ended,found,agree,_⟩ := (Chronicle.retried "").known_or_astray Site.recorded_sample rfl
      present [.stoppedOverA] [] rfl own (by decide +kernel)
    rw [Episode.recorded_retried] at ended
    cases ended
    obtain rfl : Entry.withoutA = entry := by
      have same : (History.ofEntries [Entry.withoutA]).find? "jdk#17" = some Entry.withoutA := by decide +kernel
      exact Option.some.inj (same.symm.trans found)
    by_contra straight
    have known := (agree "A").mpr straight
    rw [Episode.known_retried] at known
    exact absurd (known.mp (Finset.mem_singleton_self _)) List.not_mem_nil
  · have present : ∀ e ∈ [Episode.stoppedOverA] ++ [Episode.retried bodyWithA], 0 < e.listeners.length := by decide +kernel
    have own : (Episode.retried bodyWithA).pass.pull.key = "jdk#17" := rfl
    obtain ⟨after,entry,ended,found,_,same⟩ := (Chronicle.retried bodyWithA).known_or_astray Site.recorded_sample rfl
      present [.stoppedOverA] [] rfl own (by decide +kernel)
    exact ⟨after,entry,ended,found,same Episode.steady_retried⟩

/-- Listeners do not always stay in step with the record: an issue that a stopped pass told of, and that is
taken back before the next one, is never told of again. -/
theorem Chronicle.withdrawal_untold :
    ¬ ∀ (site : Site) (start final : World) (episodes : List Episode) (h : History) (key : Text)
      (listeners : List Listener) (listener : Nat),
      Chronicle site start episodes final → site.recorded start = .ok h → h.find? key = none →
      (∀ e ∈ episodes, e.listeners = listeners ∧
        (e.completed = true ∨ ∃ words, e.result = .error (.listener words))) → listener < listeners.length →
      ∀ past e, episodes = past ++ [e] → e.pass.pull.key = key → e.completed = true →
        ∀ after entry, site.recorded e.after = .ok after → after.find? key = some entry →
          knownIssues listener key episodes = entry.issues.members.toFinset := by
  intro claim
  have stopped : Episode.stoppedOverA.result = .error (.listener []) := by decide +kernel
  have completed : (Episode.retried "").completed = true := by decide +kernel
  have ends : ∀ e ∈ [Episode.stoppedOverA] ++ [Episode.retried ""], e.listeners = [.idle,.reluctant] ∧
      (e.completed = true ∨ ∃ words, e.result = .error (.listener words)) := by
    intro e member
    rcases List.mem_append.mp member with first | second
    · rw [List.mem_singleton.mp first]
      exact ⟨rfl,.inr ⟨[],stopped⟩⟩
    · rw [List.mem_singleton.mp second]
      exact ⟨rfl,.inl completed⟩
  have same := claim .sample .empty (Episode.retried "").after _ .empty "jdk#17" [.idle,.reluctant] 0
    (Chronicle.retried "") Site.recorded_sample rfl ends (by decide) _ (.retried "") rfl rfl completed _ .withoutA
    Episode.recorded_retried (by decide +kernel)
  rw [Episode.known_retried] at same
  exact absurd same (by decide)

end PullNotices
