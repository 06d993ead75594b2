import PullNotices.Proofs.Pass.Upgrade

/-! Trying again. A pass that a listener stops has put nothing into the history but the entry that takes
a placeholder's place. The next pass over the pull request finds that entry, and what it has to tell
and to record is what the first one had: nobody can see that there was a first one. -/
namespace PullNotices

namespace Errand

variable {listeners : List Listener} {refusal : Option Failure} {es : List Errand} {past : List Delivery} {v : Volume}
  {words : Text}

theorem outcome_telling_stopped {pull : PullRequest} {events : List Event}
    (rest : ∀ past, (outcome listeners refusal es past v).result ≠ .error (.listener words))
    (stopped : (outcome listeners refusal (telling pull events ++ es) past v).result = .error (.listener words)) :
    events ≠ [] ∧ (outcome listeners refusal (telling pull events ++ es) past v).put = [] := by
  induction events generalizing past with
  | nil => exact absurd stopped (rest past)
  | cons event events ih =>
    refine ⟨by simp,?_⟩
    change (outcome listeners refusal (.tell ⟨pull,event⟩ :: (telling pull events ++ es)) past v).result = _ at stopped
    change (outcome listeners refusal (.tell ⟨pull,event⟩ :: (telling pull events ++ es)) past v).put = _
    rcases accepted_or_failed listeners past ⟨pull,event⟩ with ⟨told,heard⟩ | ⟨told,words,heard⟩
    · rw [outcome_tell heard] at stopped ⊢
      exact (ih stopped).2
    · rw [outcome_tell_failed heard]

theorem outcome_put_not_listener (other : refusal ≠ some (.listener words)) (entry : Entry) (past : List Delivery) :
    (outcome listeners refusal [.put entry] past v).result ≠ .error (.listener words) := by
  rcases possible_or_refused refusal v entry with possible | ⟨failure,rfl,new⟩
  · rw [outcome_put possible]
    simp [outcome,Outcome.putting]
  · rw [outcome_put_refused new]
    simpa using other

end Errand

namespace Pass

variable {pass : Pass} {listeners : List Listener} {refusal : Option Failure} {past : List Delivery} {v : Volume}
  {words : Text}

theorem agenda_of_changed (changed : v.history.find? pass.pull.key ≠ some (pass.entryOver v.history)) :
    pass.agenda v.history = (pass.upgrades v.history).map .put ++
      (Errand.telling pass.pull (pass.news v.history) ++ [.put (pass.entryOver v.history)]) := if_neg changed

/-- Where a listener stops a pass there are news, and what was put is what takes a placeholder's place. -/
theorem outcome_stopped (other : refusal ≠ some (.listener words))
    (stopped : (Errand.outcome listeners refusal (pass.agenda v.history) past v).result = .error (.listener words)) :
    v.history.find? pass.pull.key ≠ some (pass.entryOver v.history) ∧ pass.news v.history ≠ [] ∧
      (Errand.outcome listeners refusal (pass.agenda v.history) past v).put = pass.upgrades v.history ∧
      ∀ entry ∈ pass.upgrades v.history, refusal = none ∨ v.keeps entry = true := by
  have changed : v.history.find? pass.pull.key ≠ some (pass.entryOver v.history) := by
    intro same
    unfold agenda at stopped
    rw [if_pos same] at stopped
    cases stopped
  refine ⟨changed,?_⟩
  rw [agenda_of_changed changed] at stopped ⊢
  rcases pass.upgrades_cases v.history with none | ⟨stored,found,placeholder,single⟩
  · rw [none] at stopped ⊢
    obtain ⟨news,put⟩ := Errand.outcome_telling_stopped (Errand.outcome_put_not_listener other _) stopped
    exact ⟨news,put,by simp⟩
  · rw [single] at stopped ⊢
    rw [List.map_singleton,List.singleton_append] at stopped ⊢
    rcases Errand.possible_or_refused refusal v (pass.refreshed stored) with possible | ⟨failure,rfl,new⟩
    · rw [Errand.outcome_put possible] at stopped ⊢
      obtain ⟨news,put⟩ := Errand.outcome_telling_stopped (Errand.outcome_put_not_listener other _) stopped
      exact ⟨news,congrArg (pass.refreshed stored :: ·) put,by simpa using possible⟩
    · rw [Errand.outcome_put_refused new] at stopped
      exact absurd (congrArg some (Except.error.inj stopped)) other

/-- A second pass after a stopped one comes to what the first would have come to, had all been accepted. -/
theorem outcome_again (changed : v.history.find? pass.pull.key ≠ some (pass.entryOver v.history))
    (news : pass.news v.history ≠ [])
    (possible : ∀ entry ∈ pass.upgrades v.history, refusal = none ∨ v.keeps entry = true) :
    let mid := v.putAll (pass.upgrades v.history)
    let straight := Errand.outcome [] refusal (pass.agenda v.history) [] v
    let again := Errand.outcome [] refusal (pass.agenda mid.history) [] mid
    again.told = straight.told ∧ again.result = straight.result ∧ mid.putAll again.put = v.putAll straight.put := by
  dsimp only
  rcases pass.upgrades_cases v.history with none | ⟨stored,found,placeholder,single⟩
  · rw [none]
    exact ⟨rfl,rfl,rfl⟩
  · have possible := possible (pass.refreshed stored) (by rw [single]; simp)
    have mid : (v.putAll [pass.refreshed stored]) = v.put (pass.refreshed stored) := rfl
    have still : refusal = none ∨ (v.put (pass.refreshed stored)).keeps (pass.refreshed stored) = true := by
      rcases possible with granted | kept
      · exact .inl granted
      · right
        rw [Volume.put_of_keeps kept]
        exact kept
    rw [agenda_of_changed changed,single,mid,Volume.history_put,agenda_of_upgraded found placeholder news]
    rw [List.map_singleton,List.singleton_append,Errand.outcome_put possible]
    split
    · rw [List.singleton_append,Errand.outcome_put still,Volume.put_put]
      refine ⟨rfl,rfl,?_⟩
      change ((v.put (pass.refreshed stored)).put (pass.refreshed stored)).putAll _ = _
      rw [Volume.put_put]
      rfl
    · exact ⟨rfl,rfl,rfl⟩

end Pass

namespace Episode

variable {site : Site} {pass : Pass} {world : World} {h : History} {listeners calm quiet : List Listener} {words : Text}

/-- A pass that a listener stops leaves the file as it was, octet by octet, unless it found a
placeholder; then the entry has the commit of the snapshot and all else is as it was. With listeners
that accept everything a second pass tells what the first would have told, and comes to the same
result and the same octets; neither fails but where the file cannot be replaced. -/
theorem stopped_retry (plan : pass.plan = site.plan) (pull : pass.pull.PairFree) (here : site.recorded world = .ok h)
    (stopped : (ofRun site pass listeners world).result = .error (.listener words)) :
    ((∀ stored, h.find? pass.pull.key = some stored → stored.commit ≠ .placeholder) →
      site.octets (ofRun site pass listeners world).after = site.octets world) ∧
    (∀ stored, h.find? pass.pull.key = some stored → stored.commit = .placeholder →
      site.recorded (ofRun site pass listeners world).after =
        .ok (h.put (stored.withCommit (pass.pull.snapshot pass.trust).commit))) ∧
    ∀ calm quiet, (∀ l ∈ calm, l.Accepting) → (∀ l ∈ quiet, l.Accepting) →
      let straight := ofRun site pass calm world
      let again := ofRun site pass quiet (ofRun site pass listeners world).after
      again.told = straight.told ∧ again.result = straight.result ∧
        site.octets again.after = site.octets straight.after ∧
        ∀ failure, straight.result = .error failure → site.refusal world = some failure := by
  obtain ⟨v,holds,rfl⟩ := Site.holds_of_recorded here
  have first := pass.yields plan pull holds listeners
  have outcome := first.result.symm.trans stopped
  obtain ⟨changed,news,put,possible⟩ := Pass.outcome_stopped Site.refusal_not_listener outcome
  have left := first.holds
  rw [put] at left
  refine ⟨?_,?_,?_⟩
  · intro none
    have nothing : pass.upgrades v.history = [] := by
      apply Pass.upgrades_of_not_placeholder
      intro stored found
      exact Bool.eq_false_iff.mpr fun yes => none stored found (Commit.isPlaceholder_iff.mp yes)
    rw [nothing] at left
    exact left.octets.trans holds.octets.symm
  · intro stored found placeholder
    have placeholder := Commit.isPlaceholder_iff.mpr placeholder
    rw [Pass.upgrades_of_placeholder found placeholder] at left
    have recorded := left.recorded
    rw [Volume.history_putAll] at recorded
    unfold Pass.refreshed at recorded
    rw [if_pos placeholder] at recorded
    exact recorded
  · intro calm quiet calmly quietly
    obtain ⟨told,result,after⟩ := pass.yields_accepted plan pull holds calmly
    obtain ⟨retold,recurred,ended⟩ := pass.yields_accepted plan pull left quietly
    rw [first.refusal] at retold recurred ended
    obtain ⟨sameTold,sameResult,sameFile⟩ := Pass.outcome_again changed news possible
    refine ⟨?_,?_,?_,?_⟩
    · exact retold.trans (sameTold.trans told.symm)
    · exact recurred.trans (sameResult.trans result.symm)
    · rw [sameFile] at ended
      exact ended.octets.trans after.octets.symm
    · intro failure failed
      exact Errand.refusal_of_error (result.symm.trans failed)

end Episode

/-- A pass that a listener stops once a commit has taken the place of the placeholder. -/
def Episode.upgradeStopped : Episode :=
  .ofRun .sample .integratedA [⟨fun _ _ => ⟨[],some []⟩⟩] zeroAnnounced.after

theorem Episode.stopped_retry_placeheld : upgradeStopped.result = .error (.listener []) ∧
    Site.sample.knows upgradeStopped.after "jdk#17" = true ∧
    (ofRun .sample .integratedA [] upgradeStopped.after).told = [⟨Pass.integratedA.pull,.issueAdded "A"⟩] ∧
    Site.sample.octets (ofRun .sample .integratedA [] upgradeStopped.after).after =
      Site.sample.octets (ofRun .sample .integratedA [] zeroAnnounced.after).after := by
  have stopped : upgradeStopped.result = .error (.listener []) := by decide +kernel
  have here : Site.sample.recorded zeroAnnounced.after = .ok .placeheld := by decide +kernel
  have told : (ofRun .sample .integratedA [] zeroAnnounced.after).told =
      [⟨Pass.integratedA.pull,.issueAdded "A"⟩] := by decide +kernel
  have pull : Pass.integratedA.pull.PairFree := Pass.sample_pairFree _ _ _
  obtain ⟨_,upgraded,retry⟩ := stopped_retry rfl pull here stopped
  obtain ⟨retold,_,octets,_⟩ := retry [] [] (by simp) (by simp)
  refine ⟨stopped,?_,retold.trans told,octets⟩
  have recorded : Site.sample.recorded upgradeStopped.after = _ :=
    upgraded ⟨"jdk#17",.empty,.placeholder,by decide⟩ (by decide +kernel) rfl
  rw [Site.knows_eq recorded]
  decide +kernel

end PullNotices
