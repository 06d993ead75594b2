import PullNotices.Proofs.Pass.Volume

/-! Outcomes. What comes of a pass is decided by the volume it finds, by what listeners answer and by
whether the file can be replaced; the log and all else in the world have no part in it. `outcome`
works it out errand by errand, and a run of a pass is shown to come to just that. -/
namespace PullNotices

structure Outcome where
  told : List Notice
  /-- Also those that the file holds already. -/
  put : List Entry
  deliveries : List Delivery
  result : Except Failure Unit

namespace Outcome

def telling (notice : Notice) (out : Outcome) : Outcome := { out with told := notice :: out.told }

def putting (entry : Entry) (out : Outcome) : Outcome := { out with put := entry :: out.put }

end Outcome

/-- What comes of errands after these deliveries: they end with the first notice that a listener fails
on and with the first entry that has to be written when the file cannot be replaced. -/
def Errand.outcome (listeners : List Listener) (refusal : Option Failure) :
    List Errand → List Delivery → Volume → Outcome
  | [],past,_ => ⟨[],[],past,.ok ()⟩
  | .tell notice :: es,past,v =>
    -- no files and no log: listeners answer by what was delivered to them
    match World.tell ⟨.empty,past,[]⟩ listeners notice with
    | (told,none) => (outcome listeners refusal es told.deliveries v).telling notice
    | (told,some words) => ⟨[notice],[],told.deliveries,.error (.listener words)⟩
  | .put entry :: es,past,v =>
    if v.keeps entry then (outcome listeners refusal es past v).putting entry
    else match refusal with
    | some failure => ⟨[],[],past,.error failure⟩
    | none => (outcome listeners refusal es past (v.put entry)).putting entry

namespace Errand

variable {listeners : List Listener} {refusal : Option Failure} {es : List Errand} {past : List Delivery} {v : Volume}

theorem outcome_tell {notice : Notice} {told : World}
    (accepted : World.tell ⟨.empty,past,[]⟩ listeners notice = (told,none)) :
    outcome listeners refusal (.tell notice :: es) past v =
      (outcome listeners refusal es told.deliveries v).telling notice := by
  rw [outcome,accepted]

theorem outcome_tell_failed {notice : Notice} {told : World} {words : Text}
    (failed : World.tell ⟨.empty,past,[]⟩ listeners notice = (told,some words)) :
    outcome listeners refusal (.tell notice :: es) past v =
      ⟨[notice],[],told.deliveries,.error (.listener words)⟩ := by
  rw [outcome,failed]

theorem accepted_or_failed (listeners : List Listener) (past : List Delivery) (notice : Notice) :
    (∃ told, World.tell ⟨.empty,past,[]⟩ listeners notice = (told,none)) ∨
      ∃ told words, World.tell ⟨.empty,past,[]⟩ listeners notice = (told,some words) := by
  cases World.tell ⟨.empty,past,[]⟩ listeners notice with
  | mk told objection =>
    cases objection with
    | none => exact .inl ⟨told,rfl⟩
    | some words => exact .inr ⟨told,words,rfl⟩

theorem possible_or_refused (refusal : Option Failure) (v : Volume) (entry : Entry) :
    (refusal = none ∨ v.keeps entry = true) ∨ ∃ failure, refusal = some failure ∧ v.keeps entry = false := by
  cases refusal with
  | none => exact .inl (.inl rfl)
  | some failure =>
    cases kept : v.keeps entry with
    | true => exact .inl (.inr rfl)
    | false => exact .inr ⟨failure,rfl,rfl⟩

theorem outcome_put {entry : Entry} (possible : refusal = none ∨ v.keeps entry = true) :
    outcome listeners refusal (.put entry :: es) past v =
      (outcome listeners refusal es past (v.put entry)).putting entry := by
  conv_lhs => unfold outcome
  split
  · rename_i kept
    rw [Volume.put_of_keeps kept]
  · rename_i new
    rw [possible.resolve_right new]

theorem outcome_put_refused {entry : Entry} {failure : Failure} (new : v.keeps entry = false) :
    outcome listeners (some failure) (.put entry :: es) past v = ⟨[],[],past,.error failure⟩ := by
  simp [outcome,new]

end Errand

theorem World.tellFrom_congr {notice : Notice} {world other : World} (same : world.deliveries = other.deliveries)
    (position : Nat) (listeners : List Listener) :
    (tellFrom notice position listeners world).1.deliveries =
        (tellFrom notice position listeners other).1.deliveries ∧
      (tellFrom notice position listeners world).2 = (tellFrom notice position listeners other).2 := by
  induction listeners generalizing position world other with
  | nil => exact ⟨same,rfl⟩
  | cons listener rest ih =>
    have heard : world.heardBy position = other.heardBy position := by
      unfold heardBy
      rw [same]
    unfold tellFrom
    dsimp only
    rw [heard]
    split
    · refine ⟨?_,rfl⟩
      dsimp only
      rw [same]
    · apply ih
      dsimp only
      rw [same]

theorem World.perform_tell {world told : World} {listeners : List Listener} {notice : Notice}
    {objection : Option Text} (heard : World.tell ⟨.empty,world.deliveries,[]⟩ listeners notice = (told,objection)) :
    ∃ mid, mid.deliveries = told.deliveries ∧ world.perform listeners (.tell notice) =
      (mid,match objection with | none => .ok () | some words => .error (.listener words)) := by
  obtain ⟨deliveries,answer⟩ := @tellFrom_congr notice world ⟨.empty,world.deliveries,[]⟩ rfl 0 listeners
  rw [← World.tell,← World.tell,heard] at deliveries answer
  cases here : world.tell listeners notice with
  | mk mid answered =>
    rw [here] at deliveries answer
    obtain rfl : answered = objection := answer
    refine ⟨mid,deliveries,?_⟩
    simp only [perform,here]
    cases answered <;> rfl

/-- The run of the program in this world is this outcome for what the file holds. -/
structure Program.Yields (p : Program Unit) (site : Site) (listeners : List Listener) (world : World) (v : Volume)
    (out : Outcome) : Prop where
  told : p.told listeners world = out.told
  deliveries : (p.run listeners world).1.deliveries = out.deliveries
  result : (p.run listeners world).2 = out.result
  holds : site.Holds (p.run listeners world).1 (v.putAll out.put)
  refusal : site.refusal (p.run listeners world).1 = site.refusal world

namespace Program

variable {site : Site} {listeners : List Listener} {world mid : World} {v : Volume} {out : Outcome} {r : Request}
  {next : r.Reply → Program Unit} {reply : r.Reply}

theorem run_granted (granted : world.perform listeners r = (mid,.ok reply)) :
    (request r next).run listeners world = (next reply).run listeners mid := by
  rw [run,granted]

theorem told_granted (granted : world.perform listeners r = (mid,.ok reply)) :
    (request r next).told listeners world = r.notice?.toList ++ (next reply).told listeners mid := by
  rw [told,granted]

theorem run_failed {e : Failure} (failed : world.perform listeners r = (mid,.error e)) :
    (request r next).run listeners world = (mid,.error e) := by
  rw [run,failed]

theorem told_failed {e : Failure} (failed : world.perform listeners r = (mid,.error e)) :
    (request r next).told listeners world = r.notice?.toList := by
  rw [told,failed]
  exact List.append_nil _

/-- A request that is granted and tells of nothing leaves the outcome to what follows. -/
theorem Yields.granted (granted : world.perform listeners r = (mid,.ok reply)) (quiet : r.notice? = none)
    (kept : site.refusal mid = site.refusal world) (rest : (next reply).Yields site listeners mid v out) :
    (request r next).Yields site listeners world v out := by
  refine ⟨?_,?_,?_,?_,?_⟩
  · rw [told_granted granted,quiet,rest.told]
    rfl
  · rw [run_granted granted,rest.deliveries]
  · rw [run_granted granted,rest.result]
  · rw [run_granted granted]
    exact rest.holds
  · rw [run_granted granted,rest.refusal,kept]

theorem Yields.told_of {notice : Notice} {next : Unit → Program Unit}
    (granted : world.perform listeners (.tell notice) = (mid,.ok ()))
    (rest : (next ()).Yields site listeners mid v out) :
    (request (.tell notice) next).Yields site listeners world v (out.telling notice) := by
  have kept : site.refusal mid = site.refusal world := Site.refusal_of_files (Site.perform_tell granted)
  refine ⟨?_,?_,?_,?_,?_⟩
  · rw [told_granted granted,rest.told]
    rfl
  · rw [run_granted granted,rest.deliveries]
    rfl
  · rw [run_granted granted,rest.result]
    rfl
  · rw [run_granted granted]
    exact rest.holds
  · rw [run_granted granted,rest.refusal,kept]

/-- A request that fails ends the program. -/
theorem Yields.failed {e : Failure} (failed : world.perform listeners r = (mid,.error e))
    (files : mid.files = world.files) (holds : site.Holds world v) :
    (request r next).Yields site listeners world v ⟨r.notice?.toList,[],mid.deliveries,.error e⟩ := by
  refine ⟨told_failed failed,?_,?_,?_,?_⟩
  · rw [run_failed failed]
  · rw [run_failed failed]
  · rw [run_failed failed]
    exact holds.of_files files
  · rw [run_failed failed]
    exact Site.refusal_of_files files

theorem Yields.putting {p : Program Unit} {entry : Entry} (yields : p.Yields site listeners world (v.put entry) out) :
    p.Yields site listeners world v (out.putting entry) :=
  ⟨yields.told,yields.deliveries,yields.result,yields.holds,yields.refusal⟩

end Program

/-- What the stage supposes of the world and of what the file holds. -/
def Stage.Suits (site : Site) (world : World) (v : Volume) : Stage → Prop
  | .closed _ => True
  | .looking _ => site.Ready world
  | .free _ => site.Ready world
  | .holding entry next _ => site.Ready world ∧ next = v.history.put entry ∧ v.keeps entry = false

theorem Stage.Suits.of_files {site : Site} {world after : World} {v : Volume} {stage : Stage}
    (suits : stage.Suits site world v) (same : after.files = world.files) : stage.Suits site after v := by
  cases stage with
  | closed => trivial
  | looking => exact Site.Ready.of_files suits same
  | free => exact Site.Ready.of_files suits same
  | holding => exact ⟨suits.1.of_files same,suits.2⟩

/-- A run of the errands that a stage still has before it comes to their outcome. -/
theorem Conduct.yields {site : Site} {stage : Stage} {p : Program Unit} (conduct : Conduct site stage p)
    {listeners : List Listener} {world : World} {v : Volume} (holds : site.Holds world v)
    (suits : stage.Suits site world v) (entries : ∀ e ∈ Errand.entries (stage.errands v.history), e.PairFree) :
    p.Yields site listeners world v
      (Errand.outcome listeners (site.refusal world) (stage.errands v.history) world.deliveries v) := by
  induction conduct generalizing world v with
  | done => exact ⟨rfl,rfl,rfl,holds,rfl⟩
  | @note stage line next rest ih =>
    have granted : world.perform listeners (.note line) = (world.note [line],.ok ()) := rfl
    have files : (world.note [line]).files = world.files := rfl
    have rest := ih (holds.of_files files) (suits.of_files files) entries
    rw [Site.refusal_of_files files] at rest
    exact .granted granted rfl (Site.refusal_of_files files) rest
  | @directory agenda next rest ih =>
    obtain ⟨opened,granted,ready,holds,kept,heard⟩ := holds.perform_directory listeners
    have rest := ih holds ready entries
    rw [kept,heard] at rest
    exact .granted granted rfl kept rest
  | @look agenda next rest ih =>
    obtain ⟨t,found,reads,decoding,same,_⟩ := holds.reads
    have rest := ih t found decoding holds suits (by rw [same]; exact entries)
    rw [same] at rest
    exact .granted (Site.perform_read suits reads listeners) rfl rfl rest
  | @tell notice errands next rest ih =>
    change (Program.request _ _).Yields _ _ _ _ (Errand.outcome _ _ (.tell notice :: errands) _ _)
    rcases Errand.accepted_or_failed listeners world.deliveries notice with ⟨told,heard⟩ | ⟨told,words,heard⟩
    · obtain ⟨mid,deliveries,granted⟩ := World.perform_tell heard
      have files := Site.perform_tell granted
      have rest := ih (holds.of_files files) (Site.Ready.of_files suits files) entries
      rw [Site.refusal_of_files files,deliveries] at rest
      rw [Errand.outcome_tell heard]
      exact .told_of granted rest
    · obtain ⟨mid,deliveries,failed⟩ := World.perform_tell heard
      rw [Errand.outcome_tell_failed heard,← deliveries]
      exact .failed failed (Site.perform_tell failed) holds
  | @read entry errands next same other ihSame ihOther =>
    obtain ⟨t,found,reads,decoding,history,_⟩ := holds.reads
    have granted := Site.perform_read suits reads listeners
    have keeps := holds.keeps_iff reads (entries entry List.mem_cons_self)
    rw [← history] at keeps
    have later : ∀ e ∈ Errand.entries errands, e.PairFree := by
      intro e member
      exact entries e (List.mem_cons_of_mem _ member)
    change (Program.request _ _).Yields _ _ _ _ (Errand.outcome _ _ (.put entry :: errands) _ _)
    cases kept : v.keeps entry with
    | true =>
      have rest := ihSame t found decoding (keeps.mp kept) holds suits later
      rw [Errand.outcome_put (.inr kept),Volume.put_of_keeps kept]
      refine .granted granted rfl rfl (.putting ?_)
      rw [Volume.put_of_keeps kept]
      exact rest
    | false =>
      -- the entry stands first among the errands until the file is replaced
      have new : (found.history.put entry).encode ≠ t := fun same => by simp [keeps.mpr same] at kept
      exact .granted granted rfl rfl (ihOther t found decoding new holds ⟨suits,by rw [history],kept⟩ entries)
  | @replace entry next errands tail rest ih =>
    obtain ⟨ready,rfl,new⟩ := suits
    change (Program.request _ _).Yields _ _ _ _ (Errand.outcome _ _ (.put entry :: errands) _ _)
    have plain := (Site.recorded_pairFree holds.recorded).put (entries entry List.mem_cons_self)
    have later : ∀ e ∈ Errand.entries errands, e.PairFree := by
      intro e member
      exact entries e (List.mem_cons_of_mem _ member)
    cases refused : site.refusal world with
    | some failure =>
      have failed := Site.perform_replace_refused ready refused listeners (v.history.put entry).encode
      rw [Errand.outcome_put_refused new]
      exact .failed failed rfl holds
    | none =>
      obtain ⟨after,granted,ready,holds,kept,heard⟩ := Site.Holds.perform_replace ready refused plain listeners
      rw [← Volume.put_of_new new] at holds
      have rest := ih holds ready later
      rw [kept,heard] at rest
      rw [Errand.outcome_put (.inl rfl)]
      exact .granted granted rfl (by rw [kept,refused]) (.putting rest)

theorem Pass.yields {pass : Pass} {site : Site} {world : World} {v : Volume} (same : pass.plan = site.plan)
    (pull : pass.pull.PairFree) (holds : site.Holds world v) (listeners : List Listener) :
    (pass.program site.scratch).Yields site listeners world v
      (Errand.outcome listeners (site.refusal world) (pass.agenda v.history) world.deliveries v) :=
  (pass.conduct same).yields holds trivial (agenda_pairFree pull (Site.recorded_pairFree holds.recorded))

theorem Site.refusal_not_listener {site : Site} {world : World} {words : Text} :
    site.refusal world ≠ some (.listener words) := by
  unfold refusal
  split <;> simp

/-- The listener fails on no notice. -/
def Listener.Accepting (listener : Listener) : Prop := ∀ past notice, (listener.respond past notice).failure = none

/-- Whether the listener fails on a notice, and with which words, does not hang on what it was told
before. -/
def Listener.Forgetful (listener : Listener) : Prop :=
  ∀ past other notice, (listener.respond past notice).failure = (listener.respond other notice).failure

theorem World.tellFrom_accepting {listeners : List Listener} (accept : ∀ l ∈ listeners, l.Accepting)
    (notice : Notice) (position : Nat) (world : World) : (tellFrom notice position listeners world).2 = none := by
  induction listeners generalizing position world with
  | nil => rfl
  | cons listener rest ih =>
    unfold tellFrom
    dsimp only
    rw [accept listener (by simp)]
    exact ih (fun l member => accept l (List.mem_cons_of_mem _ member)) _ _

/-- Forgetful listeners are told the same, and answer the same, whatever was told before. -/
theorem World.tellFrom_forgetful {listeners : List Listener} (forgetful : ∀ l ∈ listeners, l.Forgetful)
    (notice : Notice) (position : Nat) (world other : World) :
    ∃ more, (tellFrom notice position listeners world).1.deliveries = world.deliveries ++ more ∧
      (tellFrom notice position listeners other).1.deliveries = other.deliveries ++ more ∧
      (∀ d ∈ more, d.notice = notice) ∧
      (tellFrom notice position listeners world).2 = (tellFrom notice position listeners other).2 := by
  induction listeners generalizing position world other with
  | nil => exact ⟨[],by simp [tellFrom],by simp [tellFrom],by simp,rfl⟩
  | cons listener rest ih =>
    unfold tellFrom
    dsimp only
    rw [forgetful listener (by simp) (other.heardBy position) (world.heardBy position)]
    split
    · exact ⟨[⟨position,notice⟩],rfl,rfl,by simp,rfl⟩
    · obtain ⟨more,left,right,all,same⟩ := ih (fun l member => forgetful l (List.mem_cons_of_mem _ member))
        (position + 1) _ _
      refine ⟨⟨position,notice⟩ :: more,?_,?_,?_,same⟩
      · rw [left]
        simp
      · rw [right]
        simp
      · simpa using all

theorem World.tell_forgetful {listeners : List Listener} (forgetful : ∀ l ∈ listeners, l.Forgetful)
    (notice : Notice) (world other : World) :
    ∃ more, (world.tell listeners notice).1.deliveries = world.deliveries ++ more ∧
      (other.tell listeners notice).1.deliveries = other.deliveries ++ more ∧
      (∀ d ∈ more, d.notice = notice) ∧ (world.tell listeners notice).2 = (other.tell listeners notice).2 :=
  tellFrom_forgetful forgetful notice 0 world other

namespace Outcome

/-- The same outcome after these deliveries. -/
def after (past : List Delivery) (out : Outcome) : Outcome := { out with deliveries := past ++ out.deliveries }

end Outcome

namespace Errand

variable {listeners : List Listener} {refusal : Option Failure} {es : List Errand} {past : List Delivery} {v : Volume}

/-- With listeners that accept everything it comes to what it comes to without any listener. -/
theorem outcome_of_accepting (accept : ∀ l ∈ listeners, l.Accepting) (es : List Errand) (past : List Delivery)
    (v : Volume) :
    { outcome listeners refusal es past v with deliveries := [] } = outcome [] refusal es [] v := by
  induction es generalizing past v with
  | nil => rfl
  | cons errand es ih =>
    cases errand with
    | tell notice =>
      have none : World.tell ⟨.empty,[],[]⟩ [] notice = (⟨.empty,[],[]⟩,none) := rfl
      rcases accepted_or_failed listeners past notice with ⟨told,heard⟩ | ⟨told,words,heard⟩
      · rw [outcome_tell heard,outcome_tell none]
        exact congrArg (Outcome.telling notice) (ih told.deliveries v)
      · have accepted := World.tellFrom_accepting accept notice 0 ⟨.empty,past,[]⟩
        rw [← World.tell,heard] at accepted
        cases accepted
    | put entry =>
      rcases possible_or_refused refusal v entry with possible | ⟨failure,rfl,new⟩
      · rw [outcome_put possible,outcome_put possible]
        exact congrArg (Outcome.putting entry) (ih past (v.put entry))
      · rw [outcome_put_refused new,outcome_put_refused new]

theorem outcome_of_forgetful (forgetful : ∀ l ∈ listeners, l.Forgetful) (es : List Errand) (past : List Delivery)
    (v : Volume) : outcome listeners refusal es past v = (outcome listeners refusal es [] v).after past := by
  induction es generalizing past v with
  | nil => simp [outcome,Outcome.after]
  | cons errand es ih =>
    cases errand with
    | tell notice =>
      obtain ⟨more,left,right,_,same⟩ := World.tell_forgetful forgetful notice ⟨.empty,past,[]⟩ ⟨.empty,[],[]⟩
      cases heard : World.tell ⟨.empty,past,[]⟩ listeners notice with
      | mk told objection =>
        cases first : World.tell ⟨.empty,[],[]⟩ listeners notice with
        | mk alone answer =>
          rw [heard] at left same
          rw [first] at right same
          obtain rfl : objection = answer := same
          have left : told.deliveries = past ++ more := left
          have right : alone.deliveries = more := right
          cases objection with
          | none =>
            rw [outcome_tell heard,outcome_tell first,ih told.deliveries,ih alone.deliveries,left,right]
            simp [Outcome.after,Outcome.telling]
          | some words =>
            rw [outcome_tell_failed heard,outcome_tell_failed first,left,right]
            rfl
    | put entry =>
      rcases possible_or_refused refusal v entry with possible | ⟨failure,rfl,new⟩
      · rw [outcome_put possible,outcome_put possible,ih past]
        rfl
      · rw [outcome_put_refused new,outcome_put_refused new]
        simp [Outcome.after]

theorem mem_put {e : Entry} (member : e ∈ (outcome listeners refusal es past v).put) : e ∈ entries es := by
  induction es generalizing past v with
  | nil => simp [outcome] at member
  | cons errand es ih =>
    cases errand with
    | tell notice =>
      rcases accepted_or_failed listeners past notice with ⟨told,heard⟩ | ⟨told,words,heard⟩
      · rw [outcome_tell heard] at member
        exact ih member
      · rw [outcome_tell_failed heard] at member
        simp at member
    | put entry =>
      rcases possible_or_refused refusal v entry with possible | ⟨failure,rfl,new⟩
      · rw [outcome_put possible] at member
        rcases List.mem_cons.mp member with rfl | later
        · exact List.mem_cons_self
        · exact List.mem_cons_of_mem _ (ih later)
      · rw [outcome_put_refused new] at member
        simp at member

theorem mem_deliveries {d : Delivery} (forgetful : ∀ l ∈ listeners, l.Forgetful)
    (member : d ∈ (outcome listeners refusal es past v).deliveries) : d ∈ past ∨ d.notice ∈ notices es := by
  induction es generalizing past v with
  | nil => exact .inl member
  | cons errand es ih =>
    cases errand with
    | tell notice =>
      obtain ⟨more,left,_,all,_⟩ := World.tell_forgetful forgetful notice ⟨.empty,past,[]⟩ ⟨.empty,past,[]⟩
      have here : ∀ d ∈ (World.tell ⟨.empty,past,[]⟩ listeners notice).1.deliveries,
          d ∈ past ∨ d.notice = notice := by
        intro d inside
        rw [left] at inside
        exact (List.mem_append.mp inside).imp_right (all d)
      rcases accepted_or_failed listeners past notice with ⟨told,heard⟩ | ⟨told,words,heard⟩
      · rw [outcome_tell heard] at member
        rw [heard] at here
        rcases ih member with early | late
        · exact (here d early).imp_right fun same => by simp [notices,notice?,same]
        · exact .inr (List.mem_cons_of_mem _ late)
      · rw [outcome_tell_failed heard] at member
        rw [heard] at here
        exact (here d member).imp_right fun same => by simp [notices,notice?,same]
    | put entry =>
      rcases possible_or_refused refusal v entry with possible | ⟨failure,rfl,new⟩
      · rw [outcome_put possible] at member
        exact ih member
      · rw [outcome_put_refused new] at member
        exact .inl member

/-- Where the file can be replaced it does not matter what the file holds. -/
theorem outcome_of_granted (es : List Errand) (past : List Delivery) (v other : Volume) :
    outcome listeners none es past v = outcome listeners none es past other := by
  induction es generalizing past v other with
  | nil => rfl
  | cons errand es ih =>
    cases errand with
    | tell notice =>
      rcases accepted_or_failed listeners past notice with ⟨told,heard⟩ | ⟨told,words,heard⟩
      · rw [outcome_tell heard,outcome_tell heard,ih _ v other]
      · rw [outcome_tell_failed heard,outcome_tell_failed heard]
    | put entry => rw [outcome_put (.inl rfl),outcome_put (.inl rfl),ih _ (v.put entry) (other.put entry)]

/-- Where the file cannot be replaced it stays as it is. -/
theorem putAll_of_refused {failure : Failure} (es : List Errand) (past : List Delivery) (v : Volume) :
    v.putAll (outcome listeners (some failure) es past v).put = v := by
  induction es generalizing past with
  | nil => rfl
  | cons errand es ih =>
    cases errand with
    | tell notice =>
      rcases accepted_or_failed listeners past notice with ⟨told,heard⟩ | ⟨told,words,heard⟩
      · rw [outcome_tell heard]
        exact ih _
      · rw [outcome_tell_failed heard]
        rfl
    | put entry =>
      cases kept : v.keeps entry with
      | false =>
        rw [outcome_put_refused kept]
        rfl
      | true =>
        rw [outcome_put (.inr kept)]
        change (v.put entry).putAll _ = v
        rw [Volume.put_of_keeps kept]
        exact ih past

end Errand

/-- Where all is accepted, a pass comes to what its agenda comes to without listeners. -/
theorem Pass.yields_accepted {pass : Pass} {site : Site} {world : World} {v : Volume} {listeners : List Listener}
    (same : pass.plan = site.plan) (pull : pass.pull.PairFree) (holds : site.Holds world v)
    (accept : ∀ l ∈ listeners, l.Accepting) :
    let out := Errand.outcome [] (site.refusal world) (pass.agenda v.history) [] v
    (pass.program site.scratch).told listeners world = out.told ∧
      ((pass.program site.scratch).run listeners world).2 = out.result ∧
      site.Holds ((pass.program site.scratch).run listeners world).1 (v.putAll out.put) := by
  have run := pass.yields same pull holds listeners
  have alone : { Errand.outcome listeners (site.refusal world) (pass.agenda v.history) world.deliveries v with
      deliveries := [] } = _ := Errand.outcome_of_accepting accept (pass.agenda v.history) world.deliveries v
  dsimp only
  rw [← alone]
  exact ⟨run.told,run.result,run.holds⟩

namespace Errand

variable {listeners : List Listener} {refusal : Option Failure} {es : List Errand} {past : List Delivery} {v : Volume}
  {failure : Failure}

/-- Errands fail on a listener or as the file is refused. -/
theorem failure_of_outcome (failed : (outcome listeners refusal es past v).result = .error failure) :
    (listeners ≠ [] ∧ ∃ words, failure = .listener words) ∨ refusal = some failure := by
  induction es generalizing past v with
  | nil => cases failed
  | cons errand es ih =>
    cases errand with
    | tell notice =>
      rcases accepted_or_failed listeners past notice with ⟨told,accepted⟩ | ⟨told,words,objected⟩
      · rw [outcome_tell accepted] at failed
        exact ih failed
      · rw [outcome_tell_failed objected] at failed
        cases failed
        refine .inl ⟨?_,words,rfl⟩
        rintro rfl
        cases objected
    | put entry =>
      rcases possible_or_refused refusal v entry with possible | ⟨other,rfl,new⟩
      · rw [outcome_put possible] at failed
        exact ih failed
      · rw [outcome_put_refused new] at failed
        exact .inr (congrArg some (Except.error.inj failed))

theorem refusal_of_error (failed : (outcome [] refusal es past v).result = .error failure) : refusal = some failure :=
  (failure_of_outcome failed).resolve_left fun listener => listener.1 rfl

end Errand

end PullNotices
