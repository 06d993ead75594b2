import PullNotices.Round
import PullNotices.Proofs.Pass.Chronicle
import PullNotices.Proofs.Pass.Outcome

/-! Rounds over different pull requests. Each pass finds the entry of its pull request as the round found
it, whatever passes ran before, and so comes to what it comes to alone. What it puts in changes no
other entry, so neither the history nor the octets of its file show the order of the passes. -/
namespace PullNotices

/-- What a pass adds to a round: what listeners receive and the failure that is handled, if any. -/
structure Share where
  deliveries : List Delivery
  failure : Option Failure

namespace Share

/-- The next round is the round with this share added. -/
structure Between (share : Share) (round next : Round) : Prop where
  deliveries : next.world.deliveries = round.world.deliveries ++ share.deliveries
  failures : next.failures = round.failures ++ share.failure.toList
  completed : next.completed = round.completed + if share.failure.isNone then 1 else 0

end Share

def Outcome.share (out : Outcome) : Share where
  deliveries := out.deliveries
  failure := match out.result with
    | .ok _ => none
    | .error failure => some failure

def Config.site (config : Config) : Site := ⟨config.scratch,config.historyName⟩

namespace Pass

variable {pass : Pass} {listeners : List Listener} {refusal : Option Failure} {v other : Volume}

/-- What comes of the pass where nothing was told before. -/
def alone (pass : Pass) (listeners : List Listener) (refusal : Option Failure) (v : Volume) : Outcome :=
  Errand.outcome listeners refusal (pass.agenda v.history) [] v

theorem alone_congr (same : v.history.find? pass.pull.key = other.history.find? pass.pull.key)
    (kept : refusal = none ∨ v = other) :
    pass.alone listeners refusal v = pass.alone listeners refusal other := by
  rcases kept with rfl | rfl
  · rw [alone,agenda_congr same]
    exact Errand.outcome_of_granted _ _ v other
  · rfl

theorem key_of_mem_alone {e : Entry} (member : e ∈ (pass.alone listeners refusal v).put) :
    e.key = pass.pull.key :=
  key_of_mem_agenda (Errand.mem_put member)

theorem pull_of_mem_alone {d : Delivery} (forgetful : ∀ l ∈ listeners, l.Forgetful)
    (member : d ∈ (pass.alone listeners refusal v).deliveries) : d.notice.pull = pass.pull := by
  rcases Errand.mem_deliveries forgetful member with early | told
  · simp at early
  · exact (notices_agenda told).1

theorem putAll_alone_of_refused {failure : Failure} :
    v.putAll (pass.alone listeners (some failure) v).put = v :=
  Errand.putAll_of_refused _ _ v

end Pass

namespace Round

variable {site : Site} {listeners : List Listener} {world : World} {v : Volume} {passes : List Pass}

/-- All that the passes put into the history, one after another. -/
def puts (listeners : List Listener) (refusal : Option Failure) (v : Volume) (passes : List Pass) : List Entry :=
  passes.flatMap fun pass => (pass.alone listeners refusal v).put

theorem find?_puts {refusal : Option Failure} {key : Text} (other : ∀ pass ∈ passes, pass.pull.key ≠ key) :
    (v.putAll (puts listeners refusal v passes)).history.find? key = v.history.find? key := by
  rw [Volume.history_putAll]
  apply History.find?_putAll_of_ne
  intro e member
  obtain ⟨pass,inside,put⟩ := List.mem_flatMap.mp member
  rw [Pass.key_of_mem_alone put]
  exact other pass inside

theorem putAll_puts_of_refused {failure : Failure} (v : Volume) (passes : List Pass) :
    v.putAll (puts listeners (some failure) v passes) = v := by
  induction passes with
  | nil => rfl
  | cons pass passes ih =>
    rw [puts,List.flatMap_cons,Volume.putAll_append,Pass.putAll_alone_of_refused]
    exact ih

theorem puts_perm {refusal : Option Failure} {others : List Pass} (reordered : passes.Perm others)
    (apart : (passes.map fun pass => pass.pull.key).Nodup) :
    v.putAll (puts listeners refusal v passes) = v.putAll (puts listeners refusal v others) := by
  simp only [puts,Volume.putAll,List.foldl_flatMap]
  apply reordered.foldl_eq'
  intro first left second right w
  by_cases same : first.pull.key = second.pull.key
  · rw [List.inj_on_of_nodup_map apart left right same]
  · apply Volume.putAll_comm
    intro e member other present
    rw [Pass.key_of_mem_alone member,Pass.key_of_mem_alone present]
    exact same

private theorem front_of_nodup {A B : Type} {f : A → B} {front back : List A} {a : A}
    (distinct : ((front ++ a :: back).map f).Nodup) : (front.map f).Nodup ∧ ∀ b ∈ front, f b ≠ f a := by
  rw [List.map_append,List.nodup_append] at distinct
  obtain ⟨front,_,outside⟩ := distinct
  refine ⟨front,?_⟩
  intro b member
  exact outside _ (List.mem_map_of_mem member) _ (by simp)

variable (report : Failure → List Log.Line)

/-- One more pass adds what it comes to alone with what the file holds by then. -/
theorem step_alone {round : Round} {pass : Pass} (plan : pass.plan = site.plan) (pull : pass.pull.PairFree)
    (forgetful : ∀ l ∈ listeners, l.Forgetful) (holds : site.Holds round.world v) :
    let next := step listeners report site.scratch round pass
    let out := pass.alone listeners (site.refusal round.world) v
    out.share.Between round next ∧ site.Holds next.world (v.putAll out.put) ∧
      site.refusal next.world = site.refusal round.world := by
  have run := pass.yields plan pull holds listeners
  rw [Errand.outcome_of_forgetful forgetful] at run
  change (pass.program site.scratch).Yields site listeners round.world v
    ((pass.alone listeners (site.refusal round.world) v).after round.world.deliveries) at run
  obtain ⟨_,deliveries,result,holds,refusal⟩ := run
  dsimp only
  unfold step
  cases ended : (pass.program site.scratch).run listeners round.world with
  | mk after answer =>
    rw [ended] at deliveries result holds refusal
    have result : answer = (pass.alone listeners (site.refusal round.world) v).result := result
    cases answer with
    | ok =>
      refine ⟨⟨deliveries,?_,?_⟩,holds,refusal⟩
      · simp [Outcome.share,← result]
      · simp [Outcome.share,← result]
    | error failure =>
      have files : (after.note (report failure)).files = after.files := rfl
      refine ⟨⟨deliveries,?_,?_⟩,holds.of_files files,(Site.refusal_of_files files).trans refusal⟩
      · simp [Outcome.share,← result]
      · simp [Outcome.share,← result]

theorem ofPasses_snoc (passes : List Pass) (pass : Pass) :
    ofPasses listeners report site.scratch world (passes ++ [pass]) =
      step listeners report site.scratch (ofPasses listeners report site.scratch world passes) pass := by
  simp [ofPasses]

/-- What a round over these passes has come to, told by what each of them comes to alone. -/
structure Accounted (round : Round) (site : Site) (listeners : List Listener) (refusal : Option Failure) (v : Volume)
    (passes : List Pass) : Prop where
  holds : site.Holds round.world (v.putAll (puts listeners refusal v passes))
  refuses : site.refusal round.world = refusal
  completed : round.completed = passes.countP fun pass => (pass.alone listeners refusal v).share.failure.isNone

theorem Accounted.step {round : Round} {refusal : Option Failure} {pass : Pass}
    (account : round.Accounted site listeners refusal v passes) (plan : pass.plan = site.plan)
    (pull : pass.pull.PairFree) (forgetful : ∀ l ∈ listeners, l.Forgetful)
    (apart : ∀ past ∈ passes, past.pull.key ≠ pass.pull.key) :
    let next := round.step listeners report site.scratch pass
    (pass.alone listeners refusal v).share.Between round next ∧
      next.Accounted site listeners refusal v (passes ++ [pass]) := by
  obtain ⟨holds,rfl,completed⟩ := account
  have same : pass.alone listeners (site.refusal round.world)
      (v.putAll (puts listeners (site.refusal round.world) v passes)) =
        pass.alone listeners (site.refusal round.world) v := by
    apply Pass.alone_congr (find?_puts apart)
    -- what other keys hold does not matter to a pass that can write, and where none can nothing changes
    cases refused : site.refusal round.world with
    | none => exact .inl rfl
    | some failure => exact .inr (putAll_puts_of_refused v passes)
  obtain ⟨share,held,kept⟩ := step_alone report plan pull forgetful holds
  rw [same] at share held
  refine ⟨share,?_,kept,?_⟩
  · rw [← Volume.putAll_append] at held
    simpa [puts] using held
  · rw [share.completed,completed,List.countP_append,List.countP_singleton]

theorem ofPasses_accounted (plan : ∀ pass ∈ passes, pass.plan = site.plan)
    (pull : ∀ pass ∈ passes, pass.pull.PairFree) (forgetful : ∀ l ∈ listeners, l.Forgetful)
    (apart : (passes.map fun pass => pass.pull.key).Nodup) (holds : site.Holds world v) :
    (ofPasses listeners report site.scratch world passes).Accounted site listeners (site.refusal world) v passes := by
  induction passes using List.reverseRecOn with
  | nil => exact ⟨holds,rfl,rfl⟩
  | append_singleton passes pass ih =>
    obtain ⟨earlier,others⟩ := front_of_nodup apart
    have account := ih (fun past member => plan past (by simp [member]))
      (fun past member => pull past (by simp [member])) earlier
    rw [ofPasses_snoc]
    exact (account.step report (plan pass (by simp)) (pull pass (by simp)) forgetful others).2

end Round

namespace Config

variable {config : Config} {listeners : List Listener} (report : Failure → List Log.Line) {world : World}
  {h : History} {v : Volume} {pulls others past later : List PullRequest} {pull : PullRequest}

theorem round_accounted (free : ∀ pull ∈ pulls, pull.PairFree) (apart : (pulls.map PullRequest.key).Nodup)
    (forgetful : ∀ l ∈ listeners, l.Forgetful) (holds : config.site.Holds world v) :
    (config.round listeners report world pulls).Accounted config.site listeners (config.site.refusal world) v
      (pulls.map config.pass) := by
  refine Round.ofPasses_accounted report ?_ ?_ forgetful ?_ holds
  · intro pass member
    obtain ⟨pull,_,rfl⟩ := List.mem_map.mp member
    rfl
  · intro pass member
    obtain ⟨pull,inside,rfl⟩ := List.mem_map.mp member
    exact free pull inside
  · rw [List.map_map]
    exact apart

/-- Where a pull request stands in the round does not matter to its share. -/
theorem round_share (free : ∀ pull ∈ pulls, pull.PairFree) (apart : (pulls.map PullRequest.key).Nodup)
    (forgetful : ∀ l ∈ listeners, l.Forgetful) (holds : config.site.Holds world v)
    (among : pulls = past ++ pull :: later) :
    ((config.pass pull).alone listeners (config.site.refusal world) v).share.Between
      (config.round listeners report world past) (config.round listeners report world (past ++ [pull])) := by
  subst among
  obtain ⟨earlier,others⟩ := Round.front_of_nodup apart
  have account := round_accounted report (fun pull member => free pull (by simp [member])) earlier forgetful holds
  have others : ∀ pass ∈ past.map config.pass, pass.pull.key ≠ pull.key := by
    intro pass member
    obtain ⟨other,inside,rfl⟩ := List.mem_map.mp member
    exact others other inside
  have snoc : config.round listeners report world (past ++ [pull]) =
      (config.round listeners report world past).step listeners report config.scratch (config.pass pull) := by
    rw [round,List.map_append]
    exact @Round.ofPasses_snoc config.site _ _ _ _ _
  rw [snoc]
  exact (account.step report rfl (free pull (by simp)) forgetful others).1

/-- Rounds over the same pull requests, all of different keys, in different orders complete as many
passes and leave the same octets in the history file. Each pull request has the same share in both,
which is the one it has in a round of its own. -/
theorem round_perm (here : config.site.recorded world = .ok h) (free : ∀ pull ∈ pulls, pull.PairFree)
    (apart : (pulls.map PullRequest.key).Nodup) (forgetful : ∀ l ∈ listeners, l.Forgetful)
    (reordered : pulls.Perm others) :
    let round := config.round listeners report world
    (round pulls).completed = (round others).completed ∧
      config.site.octets (round pulls).world = config.site.octets (round others).world ∧
      ∀ pull past later past' later', pulls = past ++ pull :: later → others = past' ++ pull :: later' →
        ∃ share : Share, (∀ d ∈ share.deliveries, d.notice.pull = pull) ∧
          share.Between (round []) (round [pull]) ∧ share.Between (round past) (round (past ++ [pull])) ∧
          share.Between (round past') (round (past' ++ [pull])) := by
  obtain ⟨v,holds,rfl⟩ := Site.holds_of_recorded here
  have freeToo : ∀ pull ∈ others, pull.PairFree := fun pull member => free pull (reordered.mem_iff.mpr member)
  have apartToo : (others.map PullRequest.key).Nodup := (reordered.map _).nodup_iff.mp apart
  have left := round_accounted report free apart forgetful holds
  have right := round_accounted report freeToo apartToo forgetful holds
  have passes : (pulls.map config.pass).Perm (others.map config.pass) := reordered.map _
  refine ⟨?_,?_,?_⟩
  · rw [left.completed,right.completed,passes.countP_eq]
  · rw [left.holds.octets,right.holds.octets,Round.puts_perm passes]
    rw [List.map_map]
    exact apart
  · intro pull past later past' later' among amongToo
    have freeAlone : ∀ other ∈ [pull], other.PairFree := by
      intro other member
      apply free
      rw [List.mem_singleton.mp member,among]
      simp
    refine ⟨((config.pass pull).alone listeners (config.site.refusal world) v).share,?_,?_,?_,?_⟩
    · exact fun d member => Pass.pull_of_mem_alone forgetful member
    · exact round_share report freeAlone (List.nodup_singleton _) forgetful holds rfl
    · exact round_share report free apart forgetful holds among
    · exact round_share report freeToo apartToo forgetful holds amongToo

end Config

def Config.sample : Config := ⟨⟨"bot","integrated"⟩,Site.sample.name,Site.sample.scratch⟩

def PullRequest.sample (id : String) : PullRequest := (Pass.sample id "" []).pull

def Listener.failingOn (key : Text) : Listener :=
  ⟨fun _ notice => ⟨[],if notice.pull.key = key then some key else none⟩⟩

/-- Two pull requests, one of which a listener fails on. -/
theorem Config.round_perm_sample :
    let round := sample.round [.idle,.failingOn "jdk#17"] (fun failure => [Round.failureLine failure]) .empty
    (round [.sample "18",.sample "17"]).completed = 1 ∧
      sample.site.octets (round [.sample "18",.sample "17"]).world =
        sample.site.octets (round [.sample "17",.sample "18"]).world ∧
      (round [.sample "18",.sample "17"]).failures = [.listener "jdk#17"] := by
  have apart : ([.sample "17",.sample "18"].map PullRequest.key).Nodup := by decide +kernel
  have forgetful : ∀ l ∈ [Listener.idle,.failingOn "jdk#17"], l.Forgetful := by
    intro l member
    rcases List.mem_pair.mp member with rfl | rfl <;> exact fun _ _ _ => rfl
  have free : ∀ pull ∈ [PullRequest.sample "17",.sample "18"], pull.PairFree := by
    intro pull member
    rcases List.mem_pair.mp member with rfl | rfl <;> exact Pass.sample_pairFree _ _ _
  have counted : (sample.round [.idle,.failingOn "jdk#17"] (fun failure => [Round.failureLine failure]) .empty
      [.sample "17",.sample "18"]).completed = 1 := by decide +kernel
  have alone : (sample.round [.idle,.failingOn "jdk#17"] (fun failure => [Round.failureLine failure]) .empty
      [.sample "17"]).failures = [.listener "jdk#17"] := by decide +kernel
  have before : (sample.round [.idle,.failingOn "jdk#17"] (fun failure => [Round.failureLine failure]) .empty
      [.sample "18"]).failures = [] := by decide +kernel
  have here : sample.site.recorded .empty = .ok .empty := Site.recorded_sample
  obtain ⟨completed,octets,shares⟩ := round_perm (fun failure => [Round.failureLine failure]) here free apart
    forgetful (.swap _ _ [])
  obtain ⟨share,_,_,first,last⟩ := shares (.sample "17") [] [.sample "18"] [.sample "18"] [] rfl rfl
  refine ⟨completed.symm.trans counted,octets.symm,?_⟩
  have handled := first.failures
  rw [List.nil_append,alone] at handled
  have added := last.failures
  rw [before] at added
  exact added.trans handled.symm

end PullNotices
