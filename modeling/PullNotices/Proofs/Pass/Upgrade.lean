import PullNotices.Proofs.Pass.Integration
import PullNotices.Proofs.Pass.Outcome

/-! Placeholders that give way. A pass that finds a placeholder puts the commit of the snapshot in its
place before it tells anything. So it tells what a pass tells that finds the commit there already,
which is of issues alone, and nobody can see from what is told or recorded which of them it was. -/
namespace PullNotices

namespace Program

variable {α : Type} {listeners : List Listener} {world : World}

/-- The run of the program comes to make this request in this world. -/
inductive Reaches (listeners : List Listener) : Program α → World → Request → World → Prop
  | here (r : Request) (next : r.Reply → Program α) (world : World) :
      Reaches listeners (.request r next) world r world
  | later {r asked : Request} {next : r.Reply → Program α} {world mid there : World} {reply : r.Reply}
      (granted : world.perform listeners r = (mid,.ok reply)) (rest : Reaches listeners (next reply) mid asked there) :
      Reaches listeners (.request r next) world asked there

/-- What is told of is what the run comes to tell in some world. -/
theorem mem_told_iff {p : Program α} {notice : Notice} :
    notice ∈ p.told listeners world ↔ ∃ there, p.Reaches listeners world (.tell notice) there := by
  induction p generalizing world with
  | done a => exact ⟨nofun,nofun⟩
  | fail e => exact ⟨nofun,nofun⟩
  | request r next ih =>
    constructor
    · intro member
      unfold told at member
      rcases List.mem_append.mp member with now | later
      · cases r <;> simp [Request.notice?] at now
        subst now
        exact ⟨world,.here _ next world⟩
      · split at later
        · rename_i mid reply granted
          obtain ⟨there,reaches⟩ := (ih reply).mp later
          exact ⟨there,.later granted reaches⟩
        · cases later
    · rintro ⟨there,reaches⟩
      cases reaches with
      | here => simp [told,Request.notice?]
      | later granted rest =>
        rw [told,granted]
        exact List.mem_append_right _ ((ih _).mpr ⟨there,rest⟩)

end Program

/-- When a notice is told of, what is recorded is what the errands before it have put there. -/
theorem Conduct.recorded_of_reaches {site : Site} {listeners : List Listener} {p : Program Unit} {stage : Stage}
    {world there : World} {h : History} {notice : Notice} (conduct : Conduct site stage p)
    (here : site.recorded world = .ok h) (fits : stage.Fits site world h)
    (entries : ∀ e ∈ Errand.entries (stage.errands h), e.PairFree)
    (reaches : p.Reaches listeners world (.tell notice) there) :
    ∃ done rest, stage.errands h = done ++ .tell notice :: rest ∧
      site.recorded there = .ok (h.putAll (Errand.entries done)) := by
  generalize asked : Request.tell notice = r at reaches
  induction reaches generalizing stage h with
  | here r next world =>
    subst r
    cases conduct
    exact ⟨[],_,rfl,here⟩
  | later granted rest ih =>
    obtain ⟨own,first,conduct,whole,_,here,fits⟩ := conduct.granted here fits entries granted
    rw [whole,Errand.entries_append] at entries
    obtain ⟨done,left,others,recorded⟩ :=
      ih conduct here fits (fun e member => entries e (List.mem_append_right _ member)) asked
    refine ⟨first ++ done,left,?_,?_⟩
    · rw [whole,others,List.append_assoc]
    · rw [recorded,Errand.entries_append,History.putAll_append]

theorem Entry.changes_self (e : Entry) : e.changes e = [] := by
  have none : (e.issues.without e.issues).members = [] := by
    apply List.eq_nil_iff_forall_not_mem.mpr
    intro id member
    obtain ⟨inside,outside⟩ := TextSet.mem_without.mp member
    exact outside inside
  unfold changes integration
  rw [none]
  split
  · rename_i unknown
    rw [unknown]
    rfl
  · rfl

/-- Entries that differ in issues alone are told of by issues alone. -/
theorem Entry.issue_of_mem_changes {stored fresh : Entry} {event : Event} (same : stored.commit = fresh.commit)
    (member : event ∈ stored.changes fresh) : (∃ id, event = .issueRemoved id) ∨ ∃ id, event = .issueAdded id := by
  unfold changes at member
  rcases List.mem_append.mp member with issues | commit
  · rcases List.mem_append.mp issues with gone | new
    · obtain ⟨id,_,rfl⟩ := List.mem_map.mp gone
      exact .inl ⟨id,rfl⟩
    · obtain ⟨id,_,rfl⟩ := List.mem_map.mp new
      exact .inr ⟨id,rfl⟩
  · split at commit
    · rename_i unknown
      unfold integration at commit
      rw [← same,unknown] at commit
      simp [Commit.hash?] at commit
    · cases commit

theorem History.put_put (h : History) {first second : Entry} (same : first.key = second.key) :
    (h.put first).put second = h.put second := by
  apply eq_of_find?
  intro key
  rw [find?_put,find?_put,find?_put,same]
  split <;> rfl

namespace Pass

variable {pass : Pass} {h : History} {stored : Entry}

theorem upgrades_of_placeholder (found : h.find? pass.pull.key = some stored)
    (placeholder : stored.commit.isPlaceholder = true) : pass.upgrades h = [pass.refreshed stored] := by
  unfold upgrades
  rw [found]
  exact if_pos placeholder

theorem upgrades_of_not_placeholder (none : ∀ stored, h.find? pass.pull.key = some stored →
    stored.commit.isPlaceholder = false) : pass.upgrades h = [] := by
  unfold upgrades
  split
  · rfl
  · rename_i stored found
    simp [none stored found]

theorem upgrades_cases (pass : Pass) (h : History) :
    pass.upgrades h = [] ∨ ∃ stored, h.find? pass.pull.key = some stored ∧
      stored.commit.isPlaceholder = true ∧ pass.upgrades h = [pass.refreshed stored] := by
  cases found : h.find? pass.pull.key with
  | none =>
    left
    apply upgrades_of_not_placeholder
    intro stored same
    rw [found] at same
    cases same
  | some stored =>
    cases placeholder : stored.commit.isPlaceholder with
    | true => exact .inr ⟨stored,rfl,placeholder,upgrades_of_placeholder found placeholder⟩
    | false =>
      left
      apply upgrades_of_not_placeholder
      intro other same
      rw [found] at same
      cases same
      exact placeholder

theorem refreshed_of_placeholder (placeholder : stored.commit.isPlaceholder = true) :
    pass.refreshed stored = stored.withCommit pass.fresh.commit := if_pos placeholder

theorem refreshed_refreshed (stored : Entry) : pass.refreshed (pass.refreshed stored) = pass.refreshed stored := by
  cases placeholder : stored.commit.isPlaceholder with
  | true =>
    rw [refreshed_of_placeholder placeholder]
    unfold refreshed
    split <;> rfl
  | false =>
    have same : pass.refreshed stored = stored := if_neg (by simp [placeholder])
    rw [same,same]

section Placeholder

variable (found : h.find? pass.pull.key = some stored) (placeholder : stored.commit.isPlaceholder = true)

include found placeholder

theorem entryOver_of_placeholder : pass.entryOver h = pass.fresh := by
  apply entryOver_of_not_known
  intro other same
  rw [found] at same
  cases same
  rw [Commit.isPlaceholder_iff.mp placeholder]
  rfl

theorem news_of_placeholder : pass.news h = (pass.refreshed stored).changes pass.fresh := by
  unfold Pass.news
  rw [found,entryOver_of_placeholder found placeholder]

omit placeholder in
theorem find?_upgraded : (h.put (pass.refreshed stored)).find? pass.pull.key = some (pass.refreshed stored) := by
  have key : (pass.refreshed stored).key = pass.pull.key := by rw [refreshed_key,History.key_of_find? found]
  rw [← key,History.find?_put_self]

theorem entryOver_upgraded : pass.entryOver (h.put (pass.refreshed stored)) = pass.fresh := by
  unfold entryOver Entry.keepingCommit
  rw [find?_upgraded found]
  dsimp only
  rw [refreshed_of_placeholder placeholder]
  exact if_neg fun both => both.2 both.1

theorem news_upgraded : pass.news (h.put (pass.refreshed stored)) = pass.news h := by
  rw [news_of_placeholder found placeholder]
  unfold Pass.news
  rw [find?_upgraded found,entryOver_upgraded found placeholder]
  dsimp only
  rw [refreshed_refreshed]

/-- The agenda of a pass that finds a placeholder already replaced has the same news and the same last
entry; the entry is put once more where the snapshot has no more than a placeholder either. -/
theorem agenda_of_upgraded (news : pass.news h ≠ []) :
    pass.agenda (h.put (pass.refreshed stored)) =
      (if (pass.refreshed stored).commit.isPlaceholder then [.put (pass.refreshed stored)] else []) ++
        (Errand.telling pass.pull (pass.news h) ++ [.put (pass.entryOver h)]) := by
  have changed : pass.refreshed stored ≠ pass.fresh := by
    intro equal
    rw [news_of_placeholder found placeholder,equal,Entry.changes_self] at news
    exact news rfl
  have upgrades : pass.upgrades (h.put (pass.refreshed stored)) =
      if (pass.refreshed stored).commit.isPlaceholder then [pass.refreshed stored] else [] := by
    unfold Pass.upgrades
    rw [find?_upgraded found]
    dsimp only
    rw [refreshed_refreshed]
  unfold agenda
  rw [find?_upgraded found,entryOver_upgraded found placeholder,news_upgraded found placeholder,upgrades,
    entryOver_of_placeholder found placeholder,if_neg fun equal => changed (Option.some.inj equal)]
  split <;> rfl

theorem notices_of_placeholder : Errand.notices (pass.agenda h) =
    ((pass.refreshed stored).changes pass.fresh).map fun event => ⟨pass.pull,event⟩ := by
  rw [notices_agenda_eq,found,entryOver_of_placeholder found placeholder,news_of_placeholder found placeholder]
  split
  · rename_i same
    rw [Option.some.inj same,refreshed_of_placeholder (Option.some.inj same ▸ placeholder)]
    exact congrArg (List.map _) pass.fresh.changes_self.symm
  · rfl

theorem notices_upgraded : Errand.notices (pass.agenda (h.put (pass.refreshed stored))) =
    Errand.notices (pass.agenda h) := by
  rw [notices_of_placeholder found placeholder,notices_agenda_eq,find?_upgraded found,
    entryOver_upgraded found placeholder,news_upgraded found placeholder,news_of_placeholder found placeholder]
  split
  · rename_i same
    rw [Option.some.inj same,Entry.changes_self]
    rfl
  · rfl

theorem put_upgraded : (h.put (pass.refreshed stored)).put (pass.entryOver (h.put (pass.refreshed stored))) =
    h.put (pass.entryOver h) := by
  rw [entryOver_upgraded found placeholder,entryOver_of_placeholder found placeholder]
  apply History.put_put
  rw [refreshed_key,History.key_of_find? found]
  rfl

end Placeholder

/-- A pass tells after it has put in what takes a placeholder's place, and before it puts in anything else. -/
theorem entries_before_tell {notice : Notice} {done rest : List Errand}
    (whole : pass.agenda h = done ++ .tell notice :: rest) : Errand.entries done = pass.upgrades h := by
  unfold agenda at whole
  split at whole
  · simp at whole
  · rcases List.append_eq_append_iff.mp whole with ⟨middle,front,back⟩ | ⟨middle,front,back⟩
    · rcases List.append_eq_append_iff.mp back with ⟨last,told,final⟩ | ⟨last,told,final⟩
      · -- the telling is over, and only an entry is left
        cases last with
        | nil => simp at final
        | cons errand others => simp at final
      · have none := congrArg Errand.entries told
        rw [Errand.entries_telling,Errand.entries_append] at none
        rw [front,Errand.entries_append,Errand.entries_put,(List.append_eq_nil_iff.mp none.symm).1,List.append_nil]
    · -- none of the entries that come first is a notice
      cases middle with
      | nil =>
        rw [List.append_nil] at front
        rw [← front,Errand.entries_put]
      | cons errand others =>
        obtain ⟨rfl,_⟩ := List.cons.inj back
        have told : Errand.tell notice ∈ (pass.upgrades h).map Errand.put := by simp [front]
        simp at told

end Pass

namespace Episode

variable {site : Site} {pass : Pass} {world other : World} {h : History} {stored : Entry}
  {listeners others : List Listener}

/-- Where nothing is refused a pass comes to its end. -/
theorem completed_of_accepting (plan : pass.plan = site.plan) (pull : pass.pull.PairFree)
    (here : site.recorded world = .ok h) (granted : site.refusal world = none) (accept : ∀ l ∈ listeners, l.Accepting) :
    (ofRun site pass listeners world).completed = true := by
  obtain ⟨v,holds,rfl⟩ := Site.holds_of_recorded here
  obtain ⟨_,result,_⟩ := pass.yields_accepted plan pull holds accept
  rw [completed_iff]
  cases ended : (ofRun site pass listeners world).result with
  | ok => rfl
  | error failure =>
    have refused := Errand.refusal_of_error (result.symm.trans ended)
    rw [granted] at refused
    cases refused

/-- A placeholder gives way unseen. A pass that finds one, and a pass that finds the history in which
the commit of the snapshot has taken its place already, both come to their end, tell the same and
leave the same history. They tell of issues alone, and whenever the first one tells of something the
commit is recorded. -/
theorem upgrade_unseen (plan : pass.plan = site.plan) (pull : pass.pull.PairFree)
    (here : site.recorded world = .ok h) (found : h.find? pass.pull.key = some stored)
    (placeholder : stored.commit = .placeholder)
    (reads : site.Reads other (h.put (stored.withCommit (pass.pull.snapshot pass.trust).commit)).encode)
    (granted : site.refusal world = none) (grantedToo : site.refusal other = none)
    (accept : ∀ l ∈ listeners, l.Accepting) (acceptToo : ∀ l ∈ others, l.Accepting) :
    let first := ofRun site pass listeners world
    let second := ofRun site pass others other
    first.completed = true ∧ second.completed = true ∧ first.told = second.told ∧
      (∃ last, site.recorded first.after = .ok last ∧ site.recorded second.after = .ok last) ∧
      (∀ notice ∈ first.told, notice.event ≠ .opened ∧ ∀ hash, notice.event ≠ .integrated hash) ∧
      ∀ notice there, (pass.program site.scratch).Reaches listeners world (.tell notice) there →
        site.recorded there = .ok (h.put (stored.withCommit (pass.pull.snapshot pass.trust).commit)) := by
  have placeholder := Commit.isPlaceholder_iff.mpr placeholder
  have upgraded : stored.withCommit (pass.pull.snapshot pass.trust).commit = pass.refreshed stored :=
    (Pass.refreshed_of_placeholder placeholder).symm
  rw [upgraded] at reads ⊢
  have free := Site.recorded_pairFree here
  have there := Site.recorded_of_encode (free.put (Pass.refreshed_pairFree (free.find? found))) reads
  have ended := completed_of_accepting plan pull here granted accept
  have endedToo := completed_of_accepting plan pull there grantedToo acceptToo
  have first : (ofRun site pass listeners world).At site := .ofRun plan pull listeners world
  have second : (ofRun site pass others other).At site := .ofRun plan pull others other
  obtain ⟨left,told⟩ := first.completed here ended
  obtain ⟨right,toldToo⟩ := second.completed there endedToo
  refine ⟨ended,endedToo,?_,?_,?_,?_⟩
  · exact told.trans (Pass.notices_upgraded found placeholder).symm |>.trans toldToo.symm
  · exact ⟨_,left,right.trans (congrArg Except.ok (Pass.put_upgraded found placeholder))⟩
  · intro notice member
    have told : (ofRun site pass listeners world).told = Errand.notices (pass.agenda h) := told
    rw [told,Pass.notices_of_placeholder found placeholder] at member
    obtain ⟨event,inside,rfl⟩ := List.mem_map.mp member
    have commit : (pass.refreshed stored).commit = pass.fresh.commit := by
      rw [Pass.refreshed_of_placeholder placeholder]
      rfl
    rcases Entry.issue_of_mem_changes commit inside with ⟨id,rfl⟩ | ⟨id,rfl⟩ <;> simp
  · intro notice there reaches
    obtain ⟨done,rest,whole,recorded⟩ :=
      (pass.conduct plan).recorded_of_reaches here trivial (Pass.agenda_pairFree pull free) reaches
    rw [recorded,Pass.entries_before_tell whole,Pass.upgrades_of_placeholder found placeholder]
    rfl

end Episode

def History.placeheld : History := .ofEntries [⟨"jdk#17",.empty,.placeholder,by decide⟩]

def Pass.integratedA : Pass :=
  .sample "17" "\n\n## Issue\n[A](u): a" ["Pushed as commit 1111111111111111111111111111111111111111."]

def Entry.placeheld : Entry := ⟨"jdk#17",.empty,.placeholder,by decide⟩

/-- A commit takes the place of a placeholder that the zero hash left, and only the issue is told of. -/
theorem Episode.upgrade_unseen_placeheld :
    (ofRun .sample .integratedA [.idle] zeroAnnounced.after).told = [⟨Pass.integratedA.pull,.issueAdded "A"⟩] ∧
      (ofRun .sample .integratedA [] announced.after).told = [⟨Pass.integratedA.pull,.issueAdded "A"⟩] ∧
      ∃ there, (Pass.integratedA.program Site.sample.scratch).Reaches [.idle] zeroAnnounced.after
          (.tell ⟨Pass.integratedA.pull,.issueAdded "A"⟩) there ∧
        Site.sample.knows there "jdk#17" = true := by
  have here : Site.sample.recorded zeroAnnounced.after = .ok .placeheld := by decide +kernel
  have found : History.placeheld.find? Pass.integratedA.pull.key = some .placeheld := by decide +kernel
  have reads : Site.sample.Reads announced.after (History.placeheld.put (Entry.placeheld.withCommit
      (Pass.integratedA.pull.snapshot Pass.integratedA.trust).commit)).encode :=
    ⟨(announced.after.files.makeDirectories Site.sample.directory).1,by decide +kernel,by decide +kernel⟩
  have told : (ofRun .sample .integratedA [.idle] zeroAnnounced.after).told =
      [⟨Pass.integratedA.pull,.issueAdded "A"⟩] := by decide +kernel
  have idle : ∀ l ∈ [Listener.idle], l.Accepting := by
    intro l member _ _
    rw [List.mem_singleton.mp member]
    rfl
  have none : ∀ l ∈ ([] : List Listener), l.Accepting := nofun
  obtain ⟨_,_,same,_,_,recorded⟩ := upgrade_unseen rfl (Pass.sample_pairFree _ _ _) here found rfl reads
    (by decide +kernel) (by decide +kernel) idle none
  have member : ⟨Pass.integratedA.pull,.issueAdded "A"⟩ ∈
      (Pass.integratedA.program Site.sample.scratch).told [.idle] zeroAnnounced.after := by
    change _ ∈ (ofRun .sample .integratedA [.idle] zeroAnnounced.after).told
    rw [told]
    exact List.mem_singleton_self _
  obtain ⟨there,reaches⟩ := Program.mem_told_iff.mp member
  refine ⟨told,?_,there,reaches,?_⟩
  · exact same.symm.trans told
  · rw [Site.knows_eq (recorded _ there reaches)]
    decide +kernel

end PullNotices
