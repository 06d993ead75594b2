import PullNotices.Proofs.Pass.Chronicle
import PullNotices.Proofs.Pass.Exclusion
import PullNotices.Proofs.Pass.Standing

/-! Lost updates. Passes over two pull requests may overlap, but each writes the whole history back as
it read it. So the entry of a pass is recorded in the end exactly when its last replacement is not
undone, and there are overlaps in which it is. All other entries stay as they were. -/
namespace PullNotices

def Watch.turn (side : Side) (access : Access) (watches : Side → Watch) : Side → Watch :=
  fun other => (watches other).step other (side,access)

theorem Watch.turn_read (side : Side) (watches : Side → Watch) : Watch.turn side .read watches side = watches side := by
  simp [turn,step]

theorem Watch.turn_read_not (side : Side) (watches : Side → Watch) :
    Watch.turn side .read watches (!side) = ⟨false,(watches !side).lost⟩ := by
  simp [turn,step]

theorem Watch.turn_replace (side : Side) (watches : Side → Watch) :
    Watch.turn side .replace watches side = ⟨true,false⟩ := by
  simp [turn,step]

theorem Watch.turn_replace_not (side : Side) (watches : Side → Watch) :
    Watch.turn side .replace watches (!side) =
      ⟨(watches !side).stale,(watches !side).lost || (watches !side).stale⟩ := by
  simp [turn,step]

theorem Conduct.update {site : Site} {stages : Side → Stage} {programs : Side → Program Unit} {side : Side}
    {own : Stage} {next : Program Unit} (conducts : ∀ side, Conduct site (stages side) (programs side))
    (rest : Conduct site own next) (turn : Side) :
    Conduct site (Function.update stages side own turn) (Function.update programs side next turn) := by
  by_cases same : turn = side
  · subst turn
    rw [Function.update_self,Function.update_self]
    exact rest
  · rw [Function.update_of_ne same,Function.update_of_ne same]
    exact conducts turn

/-- Two passes at the site, each at its stage and as its watch says, with the history `now` read from
the text `t`. -/
structure Joint (site : Site) (passes : Side → Pass) (h : History) (stages : Side → Stage) (world : World)
    (watches : Side → Watch) (t : Text) (now : History) : Prop where
  reads : site.Reads world t
  decoding : ∃ duplicates, History.decode t = .ok ⟨now,duplicates⟩
  ready : ∀ side, (∀ agenda, stages side ≠ .closed agenda) → site.Ready world
  puts : ∀ side, ∀ e ∈ (stages side).puts, e.key = (passes side).pull.key ∧ e.PairFree
  held : ∀ side, ∀ next ∈ (stages side).held, next.PairFree ∧
    ∀ key, (∀ side, (passes side).pull.key ≠ key) → next.find? key = h.find? key
  others : ∀ key, (∀ side, (passes side).pull.key ≠ key) → now.find? key = h.find? key
  standing : ∀ side, Standing (passes side) h (stages side) t now (stages !side).held (watches side)

namespace Joint

variable {site : Site} {passes : Side → Pass} {h now : History} {stages : Side → Stage} {world after : World}
  {watches : Side → Watch} {t : Text} {side : Side}

theorem start (here : site.recorded world = .ok h) :
    ∃ t, Joint site passes h (fun side => .closed (passes side).agenda) world (fun _ => .start) t h := by
  obtain ⟨t,⟨now,duplicates⟩,reads,decoding,rfl⟩ := Site.recorded_eq_ok.mp here
  refine ⟨t,reads,⟨duplicates,decoding⟩,?_,nofun,nofun,fun _ _ => rfl,?_⟩
  · intro side late
    exact absurd rfl (late _)
  · intro side
    exact .early (.inl rfl) rfl nofun

theorem recorded (joint : Joint site passes h stages world watches t now) : site.recorded world = .ok now := by
  obtain ⟨duplicates,decoding⟩ := joint.decoding
  exact Site.recorded_of_reads joint.reads decoding

theorem of_files (joint : Joint site passes h stages world watches t now) (same : after.files = world.files) :
    Joint site passes h stages after watches t now where
  reads := joint.reads.of_files same
  decoding := joint.decoding
  ready side late := (joint.ready side late).of_files same
  puts := joint.puts
  held := joint.held
  others := joint.others
  standing := joint.standing

theorem move (joint : Joint site passes h stages world watches t now) {own : Stage} {text : Text} {later : History}
    {watching : Side → Watch} (reads : site.Reads after text)
    (decoding : ∃ duplicates, History.decode text = .ok ⟨later,duplicates⟩) (ready : site.Ready after)
    (puts : ∀ e ∈ own.puts, e.key = (passes side).pull.key ∧ e.PairFree)
    (held : ∀ next ∈ own.held, next.PairFree ∧
      ∀ key, (∀ side, (passes side).pull.key ≠ key) → next.find? key = h.find? key)
    (others : ∀ key, (∀ side, (passes side).pull.key ≠ key) → later.find? key = h.find? key)
    (mine : Standing (passes side) h own text later (stages !side).held (watching side))
    (theirs : Standing (passes !side) h (stages !side) text later own.held (watching !side)) :
    Joint site passes h (Function.update stages side own) after watching text later where
  reads := reads
  decoding := decoding
  ready _ _ := ready
  puts turn := by
    by_cases same : turn = side
    · subst turn
      rw [Function.update_self]
      exact puts
    · rw [Function.update_of_ne same]
      exact joint.puts turn
  held turn := by
    by_cases same : turn = side
    · subst turn
      rw [Function.update_self]
      exact held
    · rw [Function.update_of_ne same]
      exact joint.held turn
  others := others
  standing turn := by
    by_cases same : turn = side
    · subst turn
      have other : (!side) ≠ side := by cases side <;> simp
      rw [Function.update_self,Function.update_of_ne other]
      exact mine
    · obtain rfl : turn = !side := by cases turn <;> cases side <;> simp at same ⊢
      rw [Function.update_of_ne same,Bool.not_not,Function.update_self]
      exact theirs

theorem of_stage {own : Stage} (joint : Joint site passes h stages world watches t now) (here : stages side = own) :
    Standing (passes side) h own t now (stages !side).held (watches side) ∧
      Standing (passes !side) h (stages !side) t now own.held (watches !side) ∧
      (∀ e ∈ own.puts, e.key = (passes side).pull.key ∧ e.PairFree) ∧
      ((∀ agenda, own ≠ .closed agenda) → site.Ready world) := by
  subst here
  have theirs := joint.standing !side
  rw [Bool.not_not] at theirs
  exact ⟨joint.standing side,theirs,joint.puts side,joint.ready side⟩

theorem tell {notice : Notice} {errands : List Errand} (joint : Joint site passes h stages world watches t now)
    (here : stages side = .free (.tell notice :: errands)) (same : after.files = world.files) :
    Joint site passes h (Function.update stages side (.free errands)) after watches t now := by
  obtain ⟨mine,theirs,puts,ready⟩ := joint.of_stage here
  exact joint.move (joint.reads.of_files same) joint.decoding ((ready nofun).of_files same) puts nofun joint.others
    mine.tell theirs

theorem directory {agenda : History → List Errand} (joint : Joint site passes h stages world watches t now)
    (here : stages side = .closed agenda) (listeners : List Listener) :
    ∃ opened, world.perform listeners (.directory site.directory) = (opened,.ok ()) ∧
      Joint site passes h (Function.update stages side (.looking agenda)) opened watches t now := by
  obtain ⟨mine,theirs,_⟩ := joint.of_stage here
  obtain ⟨opened,done,ready,reads⟩ := Site.perform_directory joint.reads listeners
  exact ⟨opened,done,joint.move reads joint.decoding ready nofun nofun joint.others mine.directory theirs⟩

theorem look {agenda : History → List Errand} (plain : (passes side).pull.PairFree)
    (joint : Joint site passes h stages world watches t now) (here : stages side = .looking agenda) :
    Joint site passes h (Function.update stages side (.free (agenda now))) world (Watch.turn side .read watches) t
      now := by
  obtain ⟨mine,theirs,_,ready⟩ := joint.of_stage here
  have free := Site.recorded_pairFree joint.recorded
  have own : ∀ e ∈ Errand.entries (agenda now), e.key = (passes side).pull.key ∧ e.PairFree := by
    rw [mine.agenda_eq]
    intro e member
    exact ⟨Pass.key_of_mem_agenda member,Pass.agenda_pairFree plain free e member⟩
  refine joint.move joint.reads joint.decoding (ready nofun) own nofun joint.others ?_ ?_
  · rw [Watch.turn_read]
    exact mine.look
  · rw [Watch.turn_read_not]
    exact theirs.otherRead nofun

theorem skip {entry : Entry} {errands : List Errand} (joint : Joint site passes h stages world watches t now)
    (here : stages side = .free (.put entry :: errands)) (equal : (now.put entry).encode = t) :
    Joint site passes h (Function.update stages side (.free errands)) world (Watch.turn side .read watches) t
      now := by
  obtain ⟨mine,theirs,puts,ready⟩ := joint.of_stage here
  obtain ⟨duplicates,decoding⟩ := joint.decoding
  obtain ⟨own,plain⟩ := puts entry List.mem_cons_self
  have still := History.put_of_encode (Site.recorded_pairFree joint.recorded) plain decoding rfl equal
  refine joint.move joint.reads joint.decoding (ready nofun) ?_ nofun joint.others ?_ ?_
  · exact fun e member => puts e (List.mem_cons_of_mem _ member)
  · rw [Watch.turn_read]
    exact mine.skip own still
  · rw [Watch.turn_read_not]
    exact theirs.otherRead nofun

theorem hold {entry : Entry} {errands : List Errand} (apart : (passes side).pull.key ≠ (passes !side).pull.key)
    (joint : Joint site passes h stages world watches t now) (here : stages side = .free (.put entry :: errands))
    (changed : (now.put entry).encode ≠ t) :
    Joint site passes h (Function.update stages side (.holding entry (now.put entry) errands)) world
      (Watch.turn side .read watches) t now := by
  obtain ⟨mine,theirs,puts,ready⟩ := joint.of_stage here
  obtain ⟨own,plain⟩ := puts entry List.mem_cons_self
  -- what is held differs from what was read under the key of this side alone
  have away : ∀ key, (passes side).pull.key ≠ key → (now.put entry).find? key = now.find? key := by
    intro key different
    rw [← own] at different
    exact History.find?_put_ne now different
  refine joint.move joint.reads joint.decoding (ready nofun) puts ?_ joint.others ?_ ?_
  · intro next member
    cases member
    refine ⟨(Site.recorded_pairFree joint.recorded).put plain,fun key others => ?_⟩
    rw [away key (others side)]
    exact joint.others key others
  · rw [Watch.turn_read]
    exact mine.read own changed
  · rw [Watch.turn_read_not]
    apply theirs.otherRead
    intro next member
    cases member
    exact away _ apart

theorem replace {entry : Entry} {next : History} {errands : List Errand} {listeners : List Listener}
    (joint : Joint site passes h stages world watches t now) (here : stages side = .holding entry next errands)
    (granted : world.perform listeners (.replace site.path next.encode) = (after,.ok ())) :
    Joint site passes h (Function.update stages side (.free errands)) after (Watch.turn side .replace watches)
      next.encode next := by
  obtain ⟨mine,theirs,puts,ready⟩ := joint.of_stage here
  obtain ⟨plain,others⟩ := joint.held side next (by rw [here]; rfl)
  obtain ⟨ready,reads⟩ := Site.perform_replace (ready nofun) granted
  refine joint.move reads ⟨0,History.decode_encode plain⟩ ready ?_ nofun others ?_ ?_
  · exact fun e member => puts e (List.mem_cons_of_mem _ member)
  · rw [Watch.turn_replace]
    exact mine.replace
  · rw [Watch.turn_replace_not]
    exact theirs.otherReplace

theorem step {listeners : List Listener} {r : Request} {next : r.Reply → Program Unit} {reply : r.Reply}
    (plain : (passes side).pull.PairFree) (apart : (passes side).pull.key ≠ (passes !side).pull.key)
    (joint : Joint site passes h stages world watches t now) (conduct : Conduct site (stages side) (.request r next))
    (granted : world.perform listeners r = (after,.ok reply)) :
    ∃ own text later, Conduct site own (next reply) ∧
      Joint site passes h (Function.update stages side own) after
        (fun other => (watches other).after other (r.access?.map fun access => (side,access)).toList) text later := by
  obtain ⟨duplicates,decoding⟩ := joint.decoding
  generalize here : stages side = stage at conduct
  cases conduct with
  | note conduct =>
    have same := (Site.perform_note granted).1
    have kept : Function.update stages side stage = stages := by
      rw [← here]
      exact Function.update_eq_self side stages
    refine ⟨stage,t,now,conduct,?_⟩
    rw [kept]
    exact joint.of_files same
  | directory conduct =>
    obtain ⟨opened,done,joint⟩ := joint.directory here listeners
    rw [done] at granted
    cases granted
    exact ⟨_,t,now,conduct,joint⟩
  | tell conduct => exact ⟨_,t,now,conduct,joint.tell here (Site.perform_tell granted)⟩
  | look conduct =>
    have ready := joint.ready side (by simp [here])
    rw [Site.perform_read ready joint.reads] at granted
    cases granted
    exact ⟨_,t,now,conduct t _ decoding,joint.look plain here⟩
  | @read entry errands _ same other =>
    have ready := joint.ready side (by simp [here])
    rw [Site.perform_read ready joint.reads] at granted
    cases granted
    by_cases equal : (now.put entry).encode = t
    · exact ⟨_,t,now,same t _ decoding equal,joint.skip here equal⟩
    · exact ⟨_,t,now,other t _ decoding equal,joint.hold apart here equal⟩
  | replace conduct => exact ⟨_,_,_,conduct,joint.replace here granted⟩

theorem overlap {listeners : Side → List Listener} {programs : Side → Program Unit} {trace : Trace}
    (plain : ∀ side, (passes side).pull.PairFree) (apart : ∀ side, (passes side).pull.key ≠ (passes !side).pull.key)
    (overlap : Overlap listeners programs world trace after)
    (conducts : ∀ side, Conduct site (stages side) (programs side))
    (joint : Joint site passes h stages world watches t now) :
    ∃ text last, Joint site passes h (fun _ => .free []) after (fun side => (watches side).after side trace)
      text last := by
  induction overlap generalizing stages watches t now with
  | done ended =>
    have free : stages = fun _ => .free [] := by
      ext side : 1
      have conduct := conducts side
      rw [ended side] at conduct
      generalize stages side = stage at conduct
      cases conduct
      rfl
    rw [free] at joint
    exact ⟨t,now,joint⟩
  | @went programs world mid after side r next reply trace asks granted rest ih =>
    have conduct := conducts side
    rw [asks] at conduct
    obtain ⟨own,text,later,conduct,joint⟩ := joint.step (plain side) (apart side) conduct granted
    obtain ⟨text,last,joint⟩ := ih (Conduct.update conducts conduct) joint
    refine ⟨text,last,?_⟩
    have whole : ∀ other, (watches other).after other
        ((r.access?.map fun access => (side,access)).toList ++ trace) =
          ((watches other).after other (r.access?.map fun access => (side,access)).toList).after other trace :=
      fun other => List.foldl_append
    simpa only [whole] using joint

end Joint

theorem Pass.entryOver_of_find? {pass : Pass} {h other : History}
    (same : other.find? pass.pull.key = h.find? pass.pull.key) : pass.entryOver other = pass.entryOver h := by
  unfold entryOver
  rw [same]

theorem Chronicle.recorded_pair {site : Site} {start final : World} {h : History} {first second : Episode}
    (chronicle : Chronicle site start ([] ++ [first] ++ [second]) final) (here : site.recorded start = .ok h)
    (ended : first.completed = true) (ended' : second.completed = true)
    (apart : first.pass.pull.key ≠ second.pass.pull.key) :
    site.recorded final = .ok ((h.put (first.pass.entryOver h)).put (second.pass.entryOver h)) := by
  obtain ⟨rfl,lawful',mid,earlier,kept'⟩ := chronicle.last
  obtain ⟨rfl,lawful,mid,earliest,kept⟩ := earlier.last
  cases earliest.nil_eq
  rw [here] at kept
  have left := (lawful.completed kept ended).1
  rw [left] at kept'
  rw [(lawful'.completed kept' ended').1]
  have same := History.find?_put_ne h (e := first.pass.entryOver h) (by rwa [Pass.entryOver_key])
  rw [Pass.entryOver_of_find? same]

/-- Whatever the overlap, the entries of other pull requests stay as they were, and the entry of a pass
is recorded in the end unless its last replacement is undone. So what is recorded is what the passes
leave one after the other exactly when none is undone. -/
theorem Overlap.recorded_iff {site : Site} {passes : Side → Pass} {listeners : Side → List Listener}
    {before after : World} {h : History} {trace : Trace} (plan : ∀ side, (passes side).plan = site.plan)
    (plain : ∀ side, (passes side).pull.PairFree) (apart : (passes false).pull.key ≠ (passes true).pull.key)
    (here : site.recorded before = .ok h)
    (overlap : Overlap listeners (fun side => (passes side).program site.scratch) before trace after) :
    ∃ last, site.recorded after = .ok last ∧
      (∀ key, (∀ side, (passes side).pull.key ≠ key) → last.find? key = h.find? key) ∧
      (∀ side, last.find? (passes side).pull.key = some ((passes side).entryOver h) ↔ ¬ Undone side trace) ∧
      ∀ (first second : Episode) (alone : World), first.pass = passes false → second.pass = passes true →
        first.completed = true → second.completed = true →
        Chronicle site before ([] ++ [first] ++ [second]) alone →
        (site.recorded after = site.recorded alone ↔ ∀ side, ¬ Undone side trace) := by
  have keys : ∀ side, (passes side).pull.key ≠ (passes !side).pull.key := by
    intro side
    cases side
    · exact apart
    · exact apart.symm
  have begun : ∃ t, Joint site passes h (fun side => .closed (passes side).agenda) before (fun _ => .start) t h :=
    Joint.start here
  obtain ⟨t,joint⟩ := begun
  obtain ⟨text,last,joint⟩ := joint.overlap plain keys overlap fun side => (passes side).conduct (plan side)
  -- in the end both sides are free of errands, and their watches tell which entries stand
  have entries : ∀ side, last.find? (passes side).pull.key = some ((passes side).entryOver h) ↔
      ¬ Undone side trace := by
    intro side
    rw [(joint.standing side).ended,← Watch.lost_iff_undone,Bool.not_eq_true]
  refine ⟨last,joint.recorded,joint.others,entries,?_⟩
  intro first second alone one two ended ended' chronicle
  have pair := chronicle.recorded_pair here ended ended' (by rw [one,two]; exact apart)
  rw [one,two] at pair
  rw [joint.recorded,pair,Except.ok.injEq,History.eq_put_put_iff]
  · rw [Pass.entryOver_key,Pass.entryOver_key,entries false,entries true,Bool.forall_bool]
  · rw [Pass.entryOver_key,Pass.entryOver_key]
    exact apart
  · rw [Pass.entryOver_key,Pass.entryOver_key]
    intro key first second
    apply joint.others
    intro side
    cases side
    · exact first
    · exact second

def Pass.pair : Side → Pass
  | false => .sample "1" "" []
  | true => .sample "2" "" []

theorem Pass.pair_pairFree (side : Side) : (pair side).pull.PairFree := by
  cases side
  · exact sample_pairFree _ _ _
  · exact sample_pairFree _ _ _

theorem Pass.pair_plan (side : Side) : (pair side).plan = Site.sample.plan := by
  cases side
  · rfl
  · rfl

theorem Pass.pair_apart : (pair false).pull.key ≠ (pair true).pull.key := by decide +kernel

/-- Each of the two passes makes seven requests, of which the fifth reads the file and the sixth replaces it. -/
def Overlap.playPair (schedule : List Side) : Option (Trace × World) :=
  play (fun _ => []) (fun side => (Pass.pair side).program Site.sample.scratch) .empty schedule

theorem Overlap.recorded_around : ∃ after last,
    (playPair (.replicate 4 false ++ .replicate 7 true ++ .replicate 3 false)).map Prod.snd = some after ∧
      Site.sample.recorded after = .ok last ∧
      ∀ side, last.find? (Pass.pair side).pull.key = some ((Pass.pair side).entryOver .empty) := by
  obtain ⟨⟨trace,after⟩,played⟩ : ∃ outcome,
      playPair (.replicate 4 false ++ .replicate 7 true ++ .replicate 3 false) = some outcome :=
    Option.isSome_iff_exists.mp (by decide +kernel)
  have kept : ∀ side, (Watch.start.after side trace).lost = false := by
    have traces : (playPair (.replicate 4 false ++ .replicate 7 true ++ .replicate 3 false)).map Prod.fst =
      some [(false,.read),(true,.read),(true,.read),(true,.replace),(false,.read),(false,.replace)] := by
        decide +kernel
    rw [played] at traces
    cases traces
    decide
  obtain ⟨last,recorded,_,entries,_⟩ := recorded_iff Pass.pair_plan Pass.pair_pairFree Pass.pair_apart
    Site.recorded_sample (of_play played)
  refine ⟨after,last,?_,recorded,?_⟩
  · rw [played]
    rfl
  · intro side
    apply (entries side).mpr
    rw [← Watch.lost_iff_undone,kept side]
    simp

/-- Passes that may overlap lose entries: the first one puts its entry into the history that it read
before the second one began, and the entry of the second one is gone. -/
theorem Overlap.update_lost :
    ¬ ∀ (site : Site) (passes : Side → Pass) (listeners : Side → List Listener) (before after : World) (h : History)
      (trace : Trace), (∀ side, (passes side).plan = site.plan) → (∀ side, (passes side).pull.PairFree) →
      (passes false).pull.key ≠ (passes true).pull.key →
      (passes false).pull.mayOverlap (passes true).pull = true → site.recorded before = .ok h →
      Overlap listeners (fun side => (passes side).program site.scratch) before trace after →
      ∃ last, site.recorded after = .ok last ∧
        (∀ key, (∀ side, (passes side).pull.key ≠ key) → last.find? key = h.find? key) ∧
        ∀ side, last.find? (passes side).pull.key = some ((passes side).entryOver h) := by
  intro claim
  obtain ⟨⟨trace,after⟩,played⟩ : ∃ outcome,
      playPair (.replicate 5 false ++ .replicate 7 true ++ .replicate 2 false) = some outcome :=
    Option.isSome_iff_exists.mp (by decide +kernel)
  obtain ⟨last,recorded,_,entries⟩ := claim .sample Pass.pair (fun _ => []) .empty after .empty trace Pass.pair_plan
    Pass.pair_pairFree Pass.pair_apart (PullRequest.mayOverlap_of_key_ne Pass.pair_apart) Site.recorded_sample
    (of_play played)
  have gone : (playPair (.replicate 5 false ++ .replicate 7 true ++ .replicate 2 false)).map
      (fun outcome => Site.sample.entryAt outcome.2 (Pass.pair true).pull.key) = some none := by decide +kernel
  rw [played] at gone
  have missing : Site.sample.entryAt after (Pass.pair true).pull.key = none := Option.some.inj gone
  rw [Site.entryAt_eq recorded,entries true] at missing
  cases missing

end PullNotices
