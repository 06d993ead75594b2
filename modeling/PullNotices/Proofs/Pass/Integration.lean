import PullNotices.Proofs.Pass.Chronicle

/-! Integrations. A recorded commit is never cleared, a pass that finds a commit or a placeholder tells
of no integration, and what a pass to the end tells of is recorded. So a chronicle has at most one
such pass for a key. In one that begins without an entry of the key it has exactly one once a commit
is recorded, unless that commit took the place of a placeholder, which only an announcement of the
zero hash can have left there. -/
namespace PullNotices

def Event.isIntegrated : Event → Bool
  | .integrated _ => true
  | _ => false

def Episode.fires (e : Episode) (key : Text) : Bool := (e.eventsFor key).any Event.isIntegrated

def announcements (key : Text) (episodes : List Episode) : Nat :=
  episodes.countP fun e => e.completed && e.fires key

def Site.knows (site : Site) (world : World) (key : Text) : Bool :=
  (site.entryAt world key).any fun entry => entry.commit.isKnown

/-- Whether the pass found a placeholder under the key and left a commit. -/
def Site.upgrades (site : Site) (key : Text) (e : Episode) : Bool :=
  ((site.entryAt e.before key).any fun entry => entry.commit.isPlaceholder) && site.knows e.after key

namespace Commit

theorem isKnown_iff {c : Commit} : c.isKnown = true ↔ ∃ hash, c.hash? = some hash := by
  cases c <;> simp [isKnown,status,hash?]

theorem isPlaceholder_iff {c : Commit} : c.isPlaceholder = true ↔ c = .placeholder := by
  cases c <;> simp [isPlaceholder,status]

theorem isPresent_iff {c : Commit} : c.isPresent = true ↔ c ≠ .unknown := by
  cases c <;> simp [isPresent,status]

theorem ofHash?_eq_placeholder {hash : Option Hash} (h : ofHash? hash = .placeholder) : hash = some Hash.zero := by
  cases hash with
  | none => cases h
  | some hash =>
    change ofHash hash = .placeholder at h
    unfold ofHash at h
    split at h
    · rename_i zero
      rw [zero]
    · cases h

end Commit

namespace Pass

variable {pass : Pass} {h : History}

theorem entryOver_of_known {stored : Entry} (found : h.find? pass.pull.key = some stored)
    (known : stored.commit.isKnown = true) : (pass.entryOver h).commit.isKnown = true := by
  unfold entryOver Entry.keepingCommit
  rw [found]
  dsimp only
  split
  · exact known
  · rename_i kept
    push Not at kept
    exact kept known

theorem entryOver_of_not_known (unknown : ∀ stored, h.find? pass.pull.key = some stored → stored.commit.isKnown = false) :
    pass.entryOver h = pass.fresh := by
  unfold entryOver Entry.keepingCommit
  split
  · rename_i stored found
    rw [unknown stored found]
    rfl
  · rfl

theorem isKnown_of_integrated {e : Entry} {hash : Hash} (member : .integrated hash ∈ e.integration) :
    e.commit.hash? = some hash := by
  unfold Entry.integration at member
  cases found : e.commit.hash? with
  | none => simp [found] at member
  | some other =>
    rw [found] at member
    simpa [eq_comm] using member

/-- An integration is news only where no commit is recorded, not even a placeholder, and it is the one
that will be. -/
theorem integrated_mem_news {hash : Hash} (member : .integrated hash ∈ pass.news h) :
    (pass.entryOver h).commit.hash? = some hash ∧
      ∀ stored, h.find? pass.pull.key = some stored → stored.commit = .unknown := by
  unfold news at member
  split at member
  · rename_i missing
    refine ⟨?_,?_⟩
    · unfold Entry.introduction at member
      rcases List.mem_append.mp member with early | last
      · simp at early
      · exact isKnown_of_integrated last
    · intro stored found
      rw [missing] at found
      cases found
  · rename_i stored found
    unfold Entry.changes at member
    rcases List.mem_append.mp member with early | last
    · simp at early
    · split at last
      · rename_i unknown
        have known := isKnown_of_integrated last
        refine ⟨known,?_⟩
        intro other same
        rw [found] at same
        cases same
        by_cases placeholder : stored.commit.isPlaceholder = true
        · -- a refreshed entry lacks a commit only if the snapshot does
          have plain : ∀ stored, h.find? pass.pull.key = some stored → stored.commit.isKnown = false := by
            intro other same
            rw [found] at same
            cases same
            rw [Commit.isPlaceholder_iff.mp placeholder]
            rfl
          rw [entryOver_of_not_known plain] at known
          have none : pass.fresh.commit = .unknown := by
            unfold refreshed at unknown
            rw [if_pos placeholder] at unknown
            exact unknown
          rw [none] at known
          cases known
        · unfold refreshed at unknown
          rw [if_neg placeholder] at unknown
          exact unknown
      · cases last

theorem news_of_known {hash : Hash} (known : (pass.entryOver h).commit.hash? = some hash)
    (unknown : ∀ stored, h.find? pass.pull.key = some stored → stored.commit = .unknown) :
    .integrated hash ∈ pass.news h := by
  have integration : .integrated hash ∈ (pass.entryOver h).integration := by
    unfold Entry.integration
    rw [known]
    simp
  unfold news
  split
  · exact List.mem_append_right _ integration
  · rename_i stored found
    have here := unknown stored found
    have same : (pass.refreshed stored).commit = .unknown := by
      unfold refreshed
      rw [here]
      exact here
    unfold Entry.changes
    rw [if_pos same]
    exact List.mem_append_right _ integration

end Pass

theorem Site.knows_eq {site : Site} {world : World} {h : History} (here : site.recorded world = .ok h) (key : Text) :
    site.knows world key = (h.find? key).any fun entry => entry.commit.isKnown := by
  unfold knows
  rw [entryAt_eq here]

theorem Site.upgrades_eq {site : Site} {e : Episode} {h : History} (here : site.recorded e.before = .ok h) (key : Text) :
    site.upgrades key e =
      (((h.find? key).any fun entry => entry.commit.isPlaceholder) && site.knows e.after key) := by
  unfold upgrades
  rw [entryAt_eq here]

theorem Site.knows_iff {site : Site} {world : World} {h : History} (here : site.recorded world = .ok h) {key : Text} :
    site.knows world key = true ↔ ∃ entry, h.find? key = some entry ∧ entry.commit.isKnown = true :=
  any_entryAt here

namespace Episode.At

variable {site : Site} {e : Episode} {h after : History}

theorem knows (lawful : e.At site) (here : site.recorded e.before = .ok h) (there : site.recorded e.after = .ok after)
    {key : Text} (before : site.knows e.before key = true) : site.knows e.after key = true := by
  obtain ⟨entry,found,known⟩ := (Site.knows_iff here).mp before
  apply (Site.knows_iff there).mpr
  by_cases own : e.pass.pull.key = key
  · subst own
    rcases lawful.find?_cases here there with same | made | ⟨stored,other,placeholder,_⟩
    · exact ⟨entry,same.trans found,known⟩
    · exact ⟨_,made,Pass.entryOver_of_known found known⟩
    · rw [found] at other
      cases other
      rw [Commit.isPlaceholder_iff.mp placeholder] at known
      cases known
  · exact ⟨entry,(lawful.find?_of_ne here there own).trans found,known⟩

theorem silent (lawful : e.At site) (here : site.recorded e.before = .ok h) {key : Text} {entry : Entry}
    (found : h.find? key = some entry) (present : entry.commit ≠ .unknown) : e.fires key = false := by
  unfold fires
  rw [List.any_eq_false]
  intro event member
  cases event with
  | integrated hash =>
    obtain ⟨rfl,_,news⟩ := lawful.mem_news here member
    exact absurd ((Pass.integrated_mem_news news).2 entry found) present
  | _ => simp [Event.isIntegrated]

theorem recorded_of_fires (lawful : e.At site) (here : site.recorded e.before = .ok h)
    (there : site.recorded e.after = .ok after) (completed : e.completed = true) {key : Text} {hash : Hash}
    (member : .integrated hash ∈ e.eventsFor key) :
    ∃ entry, after.find? key = some entry ∧ entry.commit.hash? = some hash := by
  obtain ⟨rfl,_,news⟩ := lawful.mem_news here member
  exact ⟨_,lawful.find?_of_completed here there completed,(Pass.integrated_mem_news news).1⟩

theorem knows_of_fires (lawful : e.At site) (here : site.recorded e.before = .ok h)
    (there : site.recorded e.after = .ok after) (completed : e.completed = true) {key : Text}
    (fires : e.fires key = true) : site.knows e.after key = true := by
  unfold Episode.fires at fires
  obtain ⟨event,member,integrated⟩ := List.any_eq_true.mp fires
  cases event with
  | integrated hash =>
    obtain ⟨entry,found,known⟩ := lawful.recorded_of_fires here there completed member
    exact (Site.knows_iff there).mpr ⟨entry,found,Commit.isKnown_iff.mpr ⟨hash,known⟩⟩
  | _ => simp [Event.isIntegrated] at integrated

theorem fires_of_unknown (lawful : e.At site) (here : site.recorded e.before = .ok h)
    (there : site.recorded e.after = .ok after) (completed : e.completed = true) {key : Text}
    (unknown : ∀ stored, h.find? key = some stored → stored.commit = .unknown) :
    e.fires key = site.knows e.after key := by
  apply Bool.eq_iff_iff.mpr
  constructor
  · exact lawful.knows_of_fires here there completed
  · intro known
    obtain ⟨entry,found,known⟩ := (Site.knows_iff there).mp known
    by_cases own : e.pass.pull.key = key
    · subst own
      have self := lawful.find?_of_completed here there completed
      rw [found] at self
      cases self
      obtain ⟨hash,commit⟩ := Commit.isKnown_iff.mp known
      have changed : h.find? e.pass.pull.key ≠ some (e.pass.entryOver h) := by
        intro same
        rw [unknown _ same] at known
        cases known
      have member : .integrated hash ∈ e.eventsFor e.pass.pull.key := by
        rw [lawful.eventsFor_of_completed here completed,if_neg changed]
        exact Pass.news_of_known commit unknown
      exact List.any_eq_true.mpr ⟨_,member,rfl⟩
    · rw [lawful.find?_of_ne here there own] at found
      rw [unknown entry found] at known
      cases known

end Episode.At

theorem announcements_snoc (key : Text) (past : List Episode) (e : Episode) :
    announcements key (past ++ [e]) = announcements key past + if e.completed && e.fires key then 1 else 0 := by
  simp [announcements,List.countP_append,List.countP_singleton]

namespace Chronicle

variable {site : Site} {start final : World} {episodes : List Episode} {h : History} {key : Text}

theorem knows (chronicle : Chronicle site start episodes final) (here : site.recorded start = .ok h)
    (known : site.knows start key = true) : site.knows final key = true := by
  obtain ⟨last,ended,holds⟩ := chronicle.invariant here
    (fun _ g => ∃ entry, g.find? key = some entry ∧ entry.commit.isKnown = true)
    ((Site.knows_iff here).mp known) (by
      intro past e before after earlier lawful _ found ended
      exact (Site.knows_iff ended).mp (lawful.knows found ended ((Site.knows_iff found).mpr earlier)))
  exact (Site.knows_iff ended).mpr holds

theorem announcements_le_one (chronicle : Chronicle site start episodes final)
    (here : site.recorded start = .ok h) : announcements key episodes ≤ 1 := by
  obtain ⟨last,_,bound,_⟩ := chronicle.invariant here
    (fun past g => announcements key past ≤ 1 ∧
      (announcements key past = 1 → ∃ entry, g.find? key = some entry ∧ entry.commit.isKnown = true))
    ⟨Nat.zero_le 1,nofun⟩ (by
      intro past e before after ⟨bound,recorded⟩ lawful _ found ended
      rw [announcements_snoc]
      by_cases told : (e.completed && e.fires key) = true
      · obtain ⟨completed,fires⟩ := Bool.and_eq_true_iff.mp told
        -- an earlier announcement would have left a commit, and then this pass is silent
        have none : announcements key past ≠ 1 := by
          intro one
          obtain ⟨entry,there,known⟩ := recorded one
          have present : entry.commit ≠ .unknown := by
            intro unknown
            rw [unknown] at known
            cases known
          rw [lawful.silent found there present] at fires
          cases fires
        rw [if_pos told]
        refine ⟨by omega,fun _ => ?_⟩
        exact (Site.knows_iff ended).mp (lawful.knows_of_fires found ended completed fires)
      · rw [if_neg told,Nat.add_zero]
        refine ⟨bound,fun one => ?_⟩
        have known := (Site.knows_iff found).mpr (recorded one)
        exact (Site.knows_iff ended).mp (lawful.knows found ended known))
  exact bound

/-- Whatever becomes of the passes: a commit that is recorded under a key once is recorded there after
every later pass; a pass that finds a commit or a placeholder tells of no integration; what a pass
to the end tells of is recorded then; and at most one pass to the end tells of one. -/
theorem integration_at_most_once (chronicle : Chronicle site start episodes final)
    (here : site.recorded start = .ok h) (key : Text) :
    (site.knows start key = true → ∀ e ∈ episodes, site.knows e.after key = true) ∧
    (∀ past e later, episodes = past ++ e :: later → site.knows e.after key = true →
      ∀ other ∈ later, site.knows other.after key = true) ∧
    (∀ e ∈ episodes, ((site.entryAt e.before key).any fun entry => entry.commit.isPresent) = true →
      e.fires key = false) ∧
    (∀ e ∈ episodes, e.completed = true → ∀ hash, .integrated hash ∈ e.eventsFor key →
      (site.entryAt e.after key).bind (fun entry => entry.commit.hash?) = some hash) ∧
    announcements key episodes ≤ 1 := by
  refine ⟨?_,?_,?_,?_,chronicle.announcements_le_one here⟩
  · intro known e member
    obtain ⟨past,later,rfl⟩ := List.append_of_mem member
    exact chronicle.upTo.1.knows here known
  · intro past e later whole known other member
    subst whole
    obtain ⟨before,behind⟩ := chronicle.upTo
    obtain ⟨middle,recorded⟩ := before.recorded here
    obtain ⟨first,last,rfl⟩ := List.append_of_mem member
    exact behind.upTo.1.knows recorded known
  · intro e member present
    obtain ⟨lawful,before,_,found,_⟩ := chronicle.of_mem here member
    obtain ⟨entry,there,present⟩ := (Site.any_entryAt found).mp present
    exact lawful.silent found there (Commit.isPresent_iff.mp present)
  · intro e member completed hash told
    obtain ⟨lawful,before,after,found,ended⟩ := chronicle.of_mem here member
    obtain ⟨entry,there,known⟩ := lawful.recorded_of_fires found ended completed told
    rw [Site.entryAt_eq ended,there]
    exact known

end Chronicle

def Episode.announced : Episode :=
  .ofRun .sample (.sample "17" "" ["Pushed as commit 1111111111111111111111111111111111111111."]) [] .empty

theorem Episode.knows_announced : Site.sample.knows announced.after "jdk#17" = true := by decide +kernel

/-- The announcement is gone, and a listener stops the pass. -/
def Episode.stopped : Episode :=
  .ofRun .sample (.sample "17" "\n\n## Issue\n[A](u): a" []) [⟨fun _ _ => ⟨[],some []⟩⟩] announced.after

theorem Chronicle.stopped : Chronicle .sample .empty ([] ++ [Episode.announced] ++ [Episode.stopped])
    Episode.stopped.after :=
  .snoc (.snoc .nil rfl (.ofRun rfl (Pass.sample_pairFree _ _ _) _ _)) rfl
    (.ofRun rfl (Pass.sample_pairFree _ _ _) _ _)

theorem Chronicle.knows_stopped : Episode.stopped.completed = false ∧
    Site.sample.knows Episode.stopped.after "jdk#17" = true ∧ Episode.stopped.fires "jdk#17" = false ∧
    announcements "jdk#17" ([] ++ [Episode.announced] ++ [Episode.stopped]) ≤ 1 := by
  obtain ⟨_,later,silent,_,once⟩ :=
    Chronicle.integration_at_most_once Chronicle.stopped Site.recorded_sample "jdk#17"
  have present : ((Site.sample.entryAt Episode.stopped.before "jdk#17").any fun e => e.commit.isPresent) = true := by
    decide +kernel
  refine ⟨by decide +kernel,?_,?_,once⟩
  · exact later [] .announced [.stopped] rfl Episode.knows_announced .stopped (by simp)
  · exact silent .stopped (by simp) present

namespace Chronicle

variable {site : Site} {start final : World} {episodes : List Episode} {h : History} {key : Text}

/-- The count of announcements in chronicles that begin without an entry of the key: a commit that is
recorded was told of, or some pass put it in the place of a placeholder. -/
def Tally (site : Site) (key : Text) (past : List Episode) (known : Bool) : Prop :=
  if known then announcements key past = if past.any (site.upgrades key) then 0 else 1
  else announcements key past = 0 ∧ past.any (site.upgrades key) = false

theorem Tally.snoc {past : List Episode} {e : Episode} {before after : History}
    (tally : Tally site key past (site.knows e.before key)) (lawful : e.At site) (completed : e.completed = true)
    (found : site.recorded e.before = .ok before) (ended : site.recorded e.after = .ok after) :
    Tally site key (past ++ [e]) (site.knows e.after key) := by
  unfold Tally at tally ⊢
  rw [announcements_snoc,List.any_append,List.any_cons,List.any_nil,Bool.or_false,completed,Bool.true_and]
  -- the commit that the pass finds decides whether it may tell of one, or put one in silence
  cases stored : before.find? key with
  | none =>
    have unknown : site.knows e.before key = false := by
      rw [Site.knows_eq found,stored]
      rfl
    have fires := lawful.fires_of_unknown found ended completed (fun entry there => by
      rw [stored] at there
      cases there)
    have upgrades : site.upgrades key e = false := by
      rw [Site.upgrades_eq found,stored]
      rfl
    rw [unknown] at tally
    obtain ⟨none,kept⟩ := tally
    rw [none,kept,fires,upgrades]
    cases site.knows e.after key <;> simp
  | some entry =>
    have upgrades : site.upgrades key e = (entry.commit.isPlaceholder && site.knows e.after key) := by
      rw [Site.upgrades_eq found,stored]
      rfl
    have here : site.knows e.before key = entry.commit.isKnown := by
      rw [Site.knows_eq found,stored]
      rfl
    rw [here] at tally
    cases commit : entry.commit with
    | unknown =>
      have fires := lawful.fires_of_unknown found ended completed (fun other there => by
        rw [stored] at there
        cases there
        exact commit)
      rw [commit] at upgrades tally
      obtain ⟨none,kept⟩ := tally
      rw [none,kept,fires,upgrades]
      cases site.knows e.after key <;> simp [Commit.isPlaceholder,Commit.status]
    | placeholder =>
      have silent := lawful.silent found stored (by simp [commit])
      rw [commit] at upgrades tally
      obtain ⟨none,kept⟩ := tally
      rw [none,kept,silent,upgrades]
      cases site.knows e.after key <;> simp [Commit.isPlaceholder,Commit.status]
    | known hash nonzero =>
      have silent := lawful.silent found stored (by simp [commit])
      have known : site.knows e.after key = true := lawful.knows found ended (by rw [here,commit]; rfl)
      rw [commit] at upgrades tally
      have tally : announcements key past = if past.any (site.upgrades key) then 0 else 1 := tally
      have none : site.upgrades key e = false := upgrades
      rw [silent,known,none,tally]
      simp

theorem tally (chronicle : Chronicle site start episodes final) (completed : ∀ e ∈ episodes, e.completed = true)
    (here : site.recorded start = .ok h) (missing : h.find? key = none) :
    Tally site key episodes (site.knows final key) := by
  induction chronicle with
  | nil =>
    have unknown : site.knows start key = false := by
      rw [Site.knows_eq here,missing]
      rfl
    rw [unknown]
    exact ⟨rfl,rfl⟩
  | @snoc past mid e before kept lawful ih =>
    have earlier := ih fun e' member => completed e' (List.mem_append_left _ member)
    obtain ⟨middle,recorded⟩ := before.recorded here
    have found : site.recorded e.before = .ok middle := kept.trans recorded
    have same : site.knows mid key = site.knows e.before key := by
      unfold Site.knows Site.entryAt
      rw [kept]
    rw [same] at earlier
    obtain ⟨done,rest,_,_,ended,_⟩ := lawful.errands found
    exact earlier.snoc lawful (completed e (by simp)) found ended

theorem no_placeholder (chronicle : Chronicle site start episodes final) (completed : ∀ e ∈ episodes, e.completed = true)
    (here : site.recorded start = .ok h) (missing : h.find? key = none)
    (real : ∀ e ∈ episodes, e.pass.pull.key = key → e.pass.pull.integratedAs? e.pass.trust ≠ some Hash.zero) :
    ∃ last, site.recorded final = .ok last ∧ ∀ entry, last.find? key = some entry → entry.commit ≠ .placeholder := by
  refine chronicle.invariant here (fun _ g => ∀ entry, g.find? key = some entry → entry.commit ≠ .placeholder) ?_ ?_
  · intro entry there
    rw [missing] at there
    cases there
  · intro past e before after earlier lawful member found ended entry there
    by_cases own : e.pass.pull.key = key
    · have left := (lawful.completed found (completed e member)).1
      rw [ended] at left
      cases left
      rw [History.find?_put,if_pos (by rw [Pass.entryOver_key,own])] at there
      cases there
      intro placeholder
      -- what is left is either the commit found before, which is known, or that of the snapshot
      by_cases known : ∃ stored, before.find? e.pass.pull.key = some stored ∧ stored.commit.isKnown = true
      · obtain ⟨stored,same,known⟩ := known
        have kept := Pass.entryOver_of_known same known
        rw [placeholder] at kept
        cases kept
      · have fresh : e.pass.entryOver before = e.pass.fresh := by
          apply Pass.entryOver_of_not_known
          intro stored same
          exact Bool.eq_false_iff.mpr fun yes => known ⟨stored,same,yes⟩
        rw [fresh] at placeholder
        exact real e member own (Commit.ofHash?_eq_placeholder placeholder)
    · rw [lawful.find?_of_ne found ended own] at there
      exact earlier entry there

theorem announcements_eq (chronicle : Chronicle site start episodes final)
    (completed : ∀ e ∈ episodes, e.completed = true) (here : site.recorded start = .ok h)
    (missing : h.find? key = none) :
    announcements key episodes =
      if site.knows final key = true ∧ ∀ e ∈ episodes, site.upgrades key e = false then 1 else 0 := by
  have tally := chronicle.tally completed here missing
  unfold Tally at tally
  have none : (∀ e ∈ episodes, site.upgrades key e = false) ↔ episodes.any (site.upgrades key) = false := by
    simp
  simp only [none]
  cases known : site.knows final key with
  | false =>
    rw [known] at tally
    exact tally.1
  | true =>
    rw [known,if_pos rfl] at tally
    rw [tally]
    cases episodes.any (site.upgrades key) <;> simp

theorem upgrades_eq_false (chronicle : Chronicle site start episodes final)
    (completed : ∀ e ∈ episodes, e.completed = true) (here : site.recorded start = .ok h)
    (missing : h.find? key = none)
    (real : ∀ e ∈ episodes, e.pass.pull.key = key → e.pass.pull.integratedAs? e.pass.trust ≠ some Hash.zero) :
    ∀ e ∈ episodes, site.upgrades key e = false := by
  intro e member
  obtain ⟨past,later,rfl⟩ := List.append_of_mem member
  obtain ⟨_,lawful,mid,before,kept⟩ := chronicle.upTo.1.last
  obtain ⟨middle,recorded,plain⟩ := before.no_placeholder
    (fun e' inside => completed e' (List.mem_append_left _ inside)) here missing
    (fun e' inside => real e' (List.mem_append_left _ inside))
  rw [recorded] at kept
  rw [Site.upgrades_eq kept]
  cases found : middle.find? key with
  | none => rfl
  | some entry =>
    have no : entry.commit.isPlaceholder = false :=
      Bool.eq_false_iff.mpr fun yes => plain entry found (Commit.isPlaceholder_iff.mp yes)
    simp [no]

/-- In passes that all come to their end and begin without an entry of the key, an integration was
told of exactly once where a commit is recorded that took no placeholder's place, and never
otherwise. Where the integrator never announced the zero hash no commit takes such a place. -/
theorem integration_count (chronicle : Chronicle site start episodes final)
    (completed : ∀ e ∈ episodes, e.completed = true) (here : site.recorded start = .ok h)
    (missing : h.find? key = none) :
    announcements key episodes =
      (if site.knows final key = true ∧ ∀ e ∈ episodes, site.upgrades key e = false then 1 else 0) ∧
    ((∀ e ∈ episodes, e.pass.pull.key = key → e.pass.pull.integratedAs? e.pass.trust ≠ some Hash.zero) →
      announcements key episodes = if site.knows final key = true then 1 else 0) := by
  have count := chronicle.announcements_eq completed here missing
  refine ⟨count,fun real => ?_⟩
  have none := chronicle.upgrades_eq_false completed here missing real
  rw [count]
  by_cases known : site.knows final key = true
  · rw [if_pos ⟨known,none⟩,if_pos known]
  · rw [if_neg fun both => known both.1,if_neg known]

end Chronicle

theorem Chronicle.integration_announced :
    announcements "jdk#17" ([] ++ [Episode.announced]) = 1 := by
  have chronicle : Chronicle .sample .empty ([] ++ [Episode.announced]) Episode.announced.after :=
    .snoc .nil rfl (.ofRun rfl (Pass.sample_pairFree _ _ _) _ _)
  have completed : ∀ e ∈ [] ++ [Episode.announced], e.completed = true := by decide +kernel
  have real : ∀ e ∈ [] ++ [Episode.announced], e.pass.pull.key = Text.ofString "jdk#17" →
      e.pass.pull.integratedAs? e.pass.trust ≠ some Hash.zero := by decide +kernel
  have count := (Chronicle.integration_count chronicle completed Site.recorded_sample rfl).2 real
  rw [count,if_pos Episode.knows_announced]

def Episode.zeroAnnounced : Episode :=
  .ofRun .sample (.sample "17" "" ["Pushed as commit 0000000000000000000000000000000000000000."]) [] .empty

def Episode.corrected : Episode :=
  .ofRun .sample (.sample "17" "" ["Pushed as commit 1111111111111111111111111111111111111111."]) []
    zeroAnnounced.after

/-- An integration is not always told of: the placeholder of the zero hash gives way to a commit in
silence. -/
theorem Chronicle.zero_hash_untold :
    ¬ ∀ (site : Site) (start final : World) (episodes : List Episode) (h : History) (key : Text),
      Chronicle site start episodes final → (∀ e ∈ episodes, e.completed = true) →
      site.recorded start = .ok h → h.find? key = none →
      announcements key episodes = if site.knows final key = true then 1 else 0 := by
  intro claim
  have chronicle : Chronicle .sample .empty ([] ++ [Episode.zeroAnnounced] ++ [Episode.corrected])
      Episode.corrected.after :=
    .snoc (.snoc .nil rfl (.ofRun rfl (Pass.sample_pairFree _ _ _) _ _)) rfl
      (.ofRun rfl (Pass.sample_pairFree _ _ _) _ _)
  have completed : ∀ e ∈ [] ++ [Episode.zeroAnnounced] ++ [Episode.corrected], e.completed = true := by
    decide +kernel
  have count := claim .sample .empty Episode.corrected.after _ .empty "jdk#17" chronicle completed
    Site.recorded_sample rfl
  have known : Site.sample.knows Episode.corrected.after "jdk#17" = true := by decide +kernel
  have none : announcements "jdk#17" ([] ++ [Episode.zeroAnnounced] ++ [Episode.corrected]) = 0 := by
    decide +kernel
  rw [none,if_pos known] at count
  cases count

end PullNotices
