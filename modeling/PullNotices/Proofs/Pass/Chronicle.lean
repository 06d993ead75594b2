import PullNotices.Proofs.Pass.Course

/-! Chronicles: passes at one site, one after another, each over any pull request, with any listeners
and to any end it may come to. Between two of them anything may happen but to the recorded history. -/
namespace PullNotices

def Site.entryAt (site : Site) (world : World) (key : Text) : Option Entry :=
  (site.recorded world).toOption.bind fun h => h.find? key

theorem Site.entryAt_eq {site : Site} {world : World} {h : History} (here : site.recorded world = .ok h)
    (key : Text) : site.entryAt world key = h.find? key := by
  unfold entryAt
  rw [here]
  rfl

theorem Site.any_entryAt {site : Site} {world : World} {h : History} (here : site.recorded world = .ok h)
    {key : Text} {p : Entry → Bool} :
    (site.entryAt world key).any p = true ↔ ∃ entry, h.find? key = some entry ∧ p entry = true := by
  rw [entryAt_eq here]
  cases h.find? key <;> simp

structure Episode where
  pass : Pass
  listeners : List Listener
  before : World
  told : List Notice
  after : World
  result : Except Failure Unit

namespace Episode

def completed (e : Episode) : Bool := e.result matches .ok _

def eventsFor (e : Episode) (key : Text) : List Event :=
  (e.told.filter fun notice => notice.pull.key = key).map Notice.event

def ofRun (site : Site) (pass : Pass) (listeners : List Listener) (world : World) : Episode :=
  ⟨pass,listeners,world,(pass.program site.scratch).told listeners world,
    ((pass.program site.scratch).run listeners world).1,((pass.program site.scratch).run listeners world).2⟩

/-- The pass has its history at the site, and it came to what it may come to there. -/
structure At (site : Site) (e : Episode) : Prop where
  plan : e.pass.plan = site.plan
  pull : e.pass.pull.PairFree
  course : Course e.listeners (e.pass.program site.scratch) e.before e.told e.after e.result

variable {site : Site} {e : Episode} {h : History}

theorem At.ofRun {pass : Pass} (plan : pass.plan = site.plan) (pull : pass.pull.PairFree)
    (listeners : List Listener) (world : World) : (Episode.ofRun site pass listeners world).At site :=
  ⟨plan,pull,Course.of_run listeners _ world⟩

theorem completed_iff : e.completed = true ↔ e.result = .ok () := by
  unfold completed
  cases e.result <;> simp

theorem At.errands (lawful : e.At site) (here : site.recorded e.before = .ok h) :
    ∃ done rest, e.pass.agenda h = done ++ rest ∧ e.told = Errand.notices done ∧
      site.recorded e.after = .ok (h.putAll (Errand.entries done)) ∧ (e.completed = true → rest = []) := by
  obtain ⟨done,rest,whole,told,recorded,ended,_⟩ :=
    Pass.agenda_of_course lawful.plan lawful.pull here lawful.course
  exact ⟨done,rest,whole,told,recorded,fun completed => ended (completed_iff.mp completed)⟩

theorem At.completed (lawful : e.At site) (here : site.recorded e.before = .ok h) (completed : e.completed = true) :
    site.recorded e.after = .ok (h.put (e.pass.entryOver h)) ∧ e.told = Errand.notices (e.pass.agenda h) := by
  obtain ⟨done,rest,whole,told,recorded,ended⟩ := lawful.errands here
  rw [ended completed,List.append_nil] at whole
  rw [← whole,Pass.putAll_agenda] at recorded
  rw [← whole] at told
  exact ⟨recorded,told⟩

/-- A pass that does not come to its end has put no more than what takes a placeholder's place. -/
theorem At.unfinished (lawful : e.At site) (here : site.recorded e.before = .ok h) (stopped : e.completed = false) :
    ∃ put, put <+: e.pass.upgrades h ∧ site.recorded e.after = .ok (h.putAll put) := by
  obtain ⟨done,rest,whole,_,recorded,_,left⟩ := Pass.agenda_of_course lawful.plan lawful.pull here lawful.course
  refine ⟨Errand.entries done,Pass.entries_prefix_upgrades whole ?_,recorded⟩
  intro none
  refine (left none).resolve_left fun ended => ?_
  rw [completed_iff.mpr ended] at stopped
  cases stopped

theorem At.eventsFor_eq (lawful : e.At site) (here : site.recorded e.before = .ok h) (key : Text) :
    e.eventsFor key = if e.pass.pull.key = key then e.told.map Notice.event else [] := by
  obtain ⟨done,rest,whole,told,_⟩ := lawful.errands here
  have own : ∀ notice ∈ e.told, notice.pull = e.pass.pull := by
    intro notice member
    rw [told] at member
    have inside : notice ∈ Errand.notices (e.pass.agenda h) := by
      rw [whole,Errand.notices_append]
      exact List.mem_append_left _ member
    exact (Pass.notices_agenda inside).1
  unfold eventsFor
  split
  · rename_i same
    rw [List.filter_eq_self.mpr]
    intro notice member
    rw [own notice member]
    simpa using same
  · rename_i other
    rw [List.filter_eq_nil_iff.mpr]
    · rfl
    · intro notice member
      rw [own notice member]
      simpa using other

/-- A pass that comes to its end leaves the entry that it makes under its key. -/
theorem At.find?_of_completed (lawful : e.At site) (here : site.recorded e.before = .ok h) {after : History}
    (there : site.recorded e.after = .ok after) (completed : e.completed = true) :
    after.find? e.pass.pull.key = some (e.pass.entryOver h) := by
  obtain ⟨left,_⟩ := lawful.completed here completed
  rw [there] at left
  cases left
  rw [← Pass.entryOver_key,History.find?_put_self]

theorem At.eventsFor_of_completed (lawful : e.At site) (here : site.recorded e.before = .ok h)
    (completed : e.completed = true) : e.eventsFor e.pass.pull.key =
      if h.find? e.pass.pull.key = some (e.pass.entryOver h) then [] else e.pass.news h := by
  obtain ⟨_,told⟩ := lawful.completed here completed
  rw [lawful.eventsFor_eq here,if_pos rfl,told,Pass.notices_agenda_eq]
  split
  · rfl
  · rw [List.map_map]
    exact List.map_id _

theorem At.mem_news (lawful : e.At site) (here : site.recorded e.before = .ok h) {key : Text} {event : Event}
    (member : event ∈ e.eventsFor key) :
    e.pass.pull.key = key ∧ h.find? key ≠ some (e.pass.entryOver h) ∧ event ∈ e.pass.news h := by
  rw [lawful.eventsFor_eq here] at member
  split at member
  · rename_i same
    obtain ⟨done,rest,whole,told,_⟩ := lawful.errands here
    obtain ⟨notice,inside,rfl⟩ := List.mem_map.mp member
    rw [told] at inside
    have agenda : notice ∈ Errand.notices (e.pass.agenda h) := by
      rw [whole,Errand.notices_append]
      exact List.mem_append_left _ inside
    refine ⟨same,?_,(Pass.notices_agenda agenda).2⟩
    intro known
    rw [Pass.notices_agenda_eq,same,if_pos known] at agenda
    cases agenda
  · cases member

theorem At.find?_of_ne (lawful : e.At site) (here : site.recorded e.before = .ok h) {after : History}
    (there : site.recorded e.after = .ok after) {key : Text} (other : e.pass.pull.key ≠ key) :
    after.find? key = h.find? key := by
  obtain ⟨done,rest,whole,_,recorded,_⟩ := lawful.errands here
  rw [there] at recorded
  cases recorded
  apply History.find?_putAll_of_ne
  intro entry member same
  have inside : entry ∈ Errand.entries (e.pass.agenda h) := by
    rw [whole,Errand.entries_append]
    exact List.mem_append_left _ member
  rw [Pass.key_of_mem_agenda inside] at same
  exact other same

/-- The entry of its own key is left alone, refreshed, or what the pass makes of it. -/
theorem At.find?_cases (lawful : e.At site) (here : site.recorded e.before = .ok h) {after : History}
    (there : site.recorded e.after = .ok after) :
    after.find? e.pass.pull.key = h.find? e.pass.pull.key ∨
      after.find? e.pass.pull.key = some (e.pass.entryOver h) ∨
      ∃ stored, h.find? e.pass.pull.key = some stored ∧ stored.commit.isPlaceholder = true ∧
        after.find? e.pass.pull.key = some (e.pass.refreshed stored) := by
  obtain ⟨done,rest,whole,_,recorded,_⟩ := lawful.errands here
  rw [there] at recorded
  cases recorded
  rcases History.find?_putAll_cases h (Errand.entries done) e.pass.pull.key with same | ⟨entry,member,_,found⟩
  · exact .inl same
  · have inside : entry ∈ Errand.entries (e.pass.agenda h) := by
      rw [whole,Errand.entries_append]
      exact List.mem_append_left _ member
    rcases Pass.mem_entries_agenda inside with rfl | ⟨stored,before,placeholder,rfl⟩
    · exact .inr (.inl found)
    · exact .inr (.inr ⟨stored,before,placeholder,found⟩)

end Episode

/-- Passes at the site lead from one world to another, and nobody else writes the history. -/
inductive Chronicle (site : Site) (start : World) : List Episode → World → Prop
  | nil : Chronicle site start [] start
  | snoc {past : List Episode} {mid : World} {e : Episode} (before : Chronicle site start past mid)
      (kept : site.recorded e.before = site.recorded mid) (lawful : e.At site) :
      Chronicle site start (past ++ [e]) e.after

namespace Chronicle

variable {site : Site} {start final : World} {episodes : List Episode} {h : History}

theorem last {past : List Episode} {e : Episode} (chronicle : Chronicle site start (past ++ [e]) final) :
    final = e.after ∧ e.At site ∧
      ∃ mid, Chronicle site start past mid ∧ site.recorded e.before = site.recorded mid := by
  generalize whole : past ++ [e] = episodes at chronicle
  cases chronicle with
  | nil => simp at whole
  | snoc before kept lawful =>
    obtain ⟨rfl,same⟩ := List.append_inj' whole rfl
    cases same
    exact ⟨rfl,lawful,_,before,kept⟩

theorem nil_eq (chronicle : Chronicle site start [] final) : final = start := by
  generalize whole : ([] : List Episode) = episodes at chronicle
  cases chronicle with
  | nil => rfl
  | snoc before kept lawful => simp at whole

theorem split {past later : List Episode} (chronicle : Chronicle site start (past ++ later) final) :
    ∃ mid, Chronicle site start past mid ∧ Chronicle site mid later final := by
  generalize whole : past ++ later = episodes at chronicle
  induction chronicle generalizing later with
  | nil =>
    obtain ⟨rfl,rfl⟩ := List.append_eq_nil_iff.mp whole
    exact ⟨start,.nil,.nil⟩
  | @snoc earlier mid e before kept lawful ih =>
    rcases List.eq_nil_or_concat later with rfl | ⟨others,last,rfl⟩
    · rw [List.append_nil] at whole
      subst past
      exact ⟨e.after,.snoc before kept lawful,.nil⟩
    · rw [List.concat_eq_append,← List.append_assoc] at whole
      obtain ⟨same,final⟩ := List.append_inj' whole rfl
      cases final
      obtain ⟨middle,first,second⟩ := ih same
      rw [List.concat_eq_append]
      exact ⟨middle,first,.snoc second kept lawful⟩

theorem upTo {past later : List Episode} {e : Episode} (chronicle : Chronicle site start (past ++ e :: later) final) :
    Chronicle site start (past ++ [e]) e.after ∧ Chronicle site e.after later final := by
  rw [← List.singleton_append,← List.append_assoc] at chronicle
  obtain ⟨mid,first,second⟩ := chronicle.split
  obtain ⟨rfl,_⟩ := first.last
  exact ⟨first,second⟩

/-- What holds at first and is kept by every pass holds in the end, where a history is recorded. -/
theorem invariant (chronicle : Chronicle site start episodes final) (here : site.recorded start = .ok h)
    (inv : List Episode → History → Prop) (first : inv [] h)
    (step : ∀ past e before after, inv past before → e.At site → e ∈ episodes → site.recorded e.before = .ok before →
      site.recorded e.after = .ok after → inv (past ++ [e]) after) :
    ∃ last, site.recorded final = .ok last ∧ inv episodes last := by
  induction chronicle with
  | nil => exact ⟨h,here,first⟩
  | @snoc past mid e before kept lawful ih =>
    -- the passes before the last one are among all of them, so the step holds of them as well
    have earlier := fun past e' g g' kept lawful member => step past e' g g' kept lawful (List.mem_append_left [e] member)
    obtain ⟨middle,recorded,holds⟩ := ih earlier
    rw [recorded] at kept
    obtain ⟨done,rest,_,_,ended,_⟩ := lawful.errands kept
    exact ⟨_,ended,step past e middle _ holds lawful (by simp) kept ended⟩

theorem recorded (chronicle : Chronicle site start episodes final) (here : site.recorded start = .ok h) :
    ∃ last, site.recorded final = .ok last := by
  obtain ⟨last,ended,_⟩ := chronicle.invariant here (fun _ _ => True) trivial fun _ _ _ _ _ _ _ _ _ => trivial
  exact ⟨last,ended⟩

theorem of_mem (chronicle : Chronicle site start episodes final) (here : site.recorded start = .ok h)
    {e : Episode} (member : e ∈ episodes) :
    e.At site ∧ ∃ before after, site.recorded e.before = .ok before ∧ site.recorded e.after = .ok after := by
  obtain ⟨past,later,rfl⟩ := List.append_of_mem member
  obtain ⟨_,lawful,mid,earlier,kept⟩ := chronicle.upTo.1.last
  obtain ⟨middle,recorded⟩ := earlier.recorded here
  rw [recorded] at kept
  obtain ⟨done,rest,_,_,ended,_⟩ := lawful.errands kept
  exact ⟨lawful,middle,_,kept,ended⟩

end Chronicle

def Site.sample : Site := ⟨⟨[],["scratch"]⟩,"history"⟩

def Pass.sample (id body : String) (comments : List String) : Pass where
  pull := ⟨id,⟨"jdk","",by decide⟩,"",body,.ofList ["integrated"],comments.map fun t => ⟨⟨"bot",[]⟩,t,[],none⟩⟩
  trust := ⟨"bot","integrated"⟩
  plan := Site.sample.plan

theorem Site.recorded_sample : Site.sample.recorded World.empty = .ok History.empty := by decide +kernel

theorem Pass.sample_pairFree (id body : String) (comments : List String) :
    (Pass.sample id body comments).pull.PairFree :=
  .of_scalar (Text.map_ofChar_scalar _) (Text.map_ofChar_scalar _) (Text.map_ofChar_scalar _)

end PullNotices
