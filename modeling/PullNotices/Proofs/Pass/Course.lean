import PullNotices.Proofs.Pass.Conduct

/-! Courses: what may become of a program. It goes on while its requests are granted and stops where
one fails, and any replacing of a file may be refused with the file left as it was. A pass that stops
has done a first part of its agenda, whole errands only, and one that does not has done all of it. -/
namespace PullNotices

def Request.notice? : Request → Option Notice
  | .tell notice => some notice
  | _ => none

/-- The program may turn the first world into the second one, telling of the notices on its way; of
the last of them some listeners may not have heard when the result is a failure. -/
inductive Course {α : Type} (listeners : List Listener) :
    Program α → World → List Notice → World → Except Failure α → Prop
  | done (a : α) (world : World) : Course listeners (.done a) world [] world (.ok a)
  | fail (e : Failure) (world : World) : Course listeners (.fail e) world [] world (.error e)
  | went {r : Request} {next : r.Reply → Program α} {world mid after : World} {reply : r.Reply}
      {told : List Notice} {result : Except Failure α}
      (granted : world.perform listeners r = (mid,.ok reply))
      (rest : Course listeners (next reply) mid told after result) :
      Course listeners (.request r next) world (r.notice?.toList ++ told) after result
  | stopped {r : Request} {next : r.Reply → Program α} {world after : World} {e : Failure}
      (failed : world.perform listeners r = (after,.error e)) :
      Course listeners (.request r next) world r.notice?.toList after (.error e)
  | refused (path : Path) (text : Text) (next : Unit → Program α) (world : World) (fault : FileFault) :
      Course listeners (.request (.replace path text) next) world [] world (.error (.cannotWrite path fault))

def Program.told {α : Type} (listeners : List Listener) : Program α → World → List Notice
  | .done _,_ => []
  | .fail _,_ => []
  | .request r next,world => r.notice?.toList ++
    match world.perform listeners r with
    | (mid,.ok reply) => told listeners (next reply) mid
    | (_,.error _) => []

namespace Course

variable {listeners : List Listener} {world after : World} {told : List Notice}

theorem of_run {α : Type} (listeners : List Listener) (p : Program α) (world : World) :
    Course listeners p world (p.told listeners world) (p.run listeners world).1 (p.run listeners world).2 := by
  induction p generalizing world with
  | done a => exact .done a world
  | fail e => exact .fail e world
  | request r next ih =>
    unfold Program.run Program.told
    cases performed : world.perform listeners r with
    | mk mid reply =>
      cases reply with
      | error e =>
        rw [List.append_nil]
        exact .stopped performed
      | ok reply => exact .went performed (ih reply mid)

theorem heardBy_tellFrom {notice : Notice} {position : Nat}
    (told : World.tellFrom notice position listeners world = (after,none)) (listener : Nat) :
    after.heardBy listener = world.heardBy listener ++
      if position ≤ listener ∧ listener < position + listeners.length then [notice] else [] := by
  induction listeners generalizing position world with
  | nil =>
    cases told
    simp
  | cons first rest ih =>
    unfold World.tellFrom at told
    dsimp only at told
    split at told
    · cases told
    · rw [ih told]
      by_cases here : listener = position
      · subst listener
        simp [World.heardBy]
      · have other : ¬ position = listener := fun same => here same.symm
        have same : (position + 1 ≤ listener ∧ listener < position + 1 + rest.length) ↔
            (position ≤ listener ∧ listener < position + (rest.length + 1)) := by omega
        simp only [List.length_cons,same]
        simp [World.heardBy,other]

theorem heardBy_tellFrom_of_lt (notice : Notice) {position listener : Nat} (earlier : listener < position)
    (listeners : List Listener) (world : World) :
    (World.tellFrom notice position listeners world).1.heardBy listener = world.heardBy listener := by
  induction listeners generalizing position world with
  | nil => rfl
  | cons first rest ih =>
    have other : position ≠ listener := by omega
    unfold World.tellFrom
    dsimp only
    split
    · simp [World.heardBy,other]
    · rw [ih (by omega)]
      simp [World.heardBy,other]

/-- Whether some listener fails or none, nobody hears a notice twice. -/
theorem heardBy_tellFrom_prefix (notice : Notice) (position listener : Nat) (listeners : List Listener) (world : World) :
    ∃ heard, (World.tellFrom notice position listeners world).1.heardBy listener = world.heardBy listener ++ heard ∧
      heard <+: [notice] := by
  induction listeners generalizing position world with
  | nil => exact ⟨[],(List.append_nil _).symm,List.nil_prefix⟩
  | cons first rest ih =>
    unfold World.tellFrom
    dsimp only
    split
    · refine ⟨if position = listener then [notice] else [],?_,?_⟩
      · split <;> rename_i here <;> simp [World.heardBy,here]
      · split <;> simp
    · by_cases here : position = listener
      · -- those after it are told without it
        refine ⟨[notice],?_,List.prefix_rfl⟩
        rw [heardBy_tellFrom_of_lt notice (by omega)]
        simp [World.heardBy,here]
      · obtain ⟨heard,told,once⟩ := ih (position + 1) _
        refine ⟨heard,told.trans ?_,once⟩
        simp [World.heardBy,here]

theorem heardBy_granted {r : Request} {reply : r.Reply} {listener : Nat} (bound : listener < listeners.length)
    (granted : world.perform listeners r = (after,.ok reply)) :
    after.heardBy listener = world.heardBy listener ++ r.notice?.toList := by
  cases r with
  | tell notice =>
    simp only [World.perform] at granted
    split at granted
    · rename_i here
      obtain ⟨rfl,_⟩ := Prod.mk.inj granted
      have heard := heardBy_tellFrom here listener
      simpa [bound,Request.notice?] using heard
    · cases granted
  | note line =>
    cases granted
    simp [World.heardBy,World.note,Request.notice?]
  | directory path =>
    simp only [World.perform] at granted
    split at granted <;> cases granted
    simp [World.heardBy,Request.notice?]
  | read path =>
    obtain ⟨rfl,_⟩ := Prod.mk.inj granted
    simp [Request.notice?]
  | replace path text =>
    simp only [World.perform] at granted
    split at granted <;> cases granted
    simp [World.heardBy,Request.notice?]

theorem heardBy_failed {r : Request} {e : Failure} (failed : world.perform listeners r = (after,.error e))
    (listener : Nat) :
    ∃ heard, after.heardBy listener = world.heardBy listener ++ heard ∧ heard <+: r.notice?.toList := by
  cases r with
  | tell notice =>
    obtain ⟨heard,told,once⟩ := heardBy_tellFrom_prefix notice 0 listener listeners world
    rw [← World.tell] at told
    simp only [World.perform] at failed
    split at failed
    · cases failed
    · rename_i here
      obtain ⟨rfl,_⟩ := Prod.mk.inj failed
      rw [here] at told
      exact ⟨heard,told,once⟩
  | note line => cases failed
  | directory path =>
    refine ⟨[],?_,List.nil_prefix⟩
    simp only [World.perform] at failed
    split at failed <;> cases failed <;> simp [World.heardBy]
  | read path =>
    obtain ⟨rfl,_⟩ := Prod.mk.inj failed
    exact ⟨[],(List.append_nil _).symm,List.nil_prefix⟩
  | replace path text =>
    refine ⟨[],?_,List.nil_prefix⟩
    simp only [World.perform] at failed
    split at failed <;> cases failed <;> simp

/-- In a course to the end every listener hears all that is told of, in order. -/
theorem heardBy_of_ok {p : Program Unit} (course : Course listeners p world told after (.ok ()))
    {listener : Nat} (bound : listener < listeners.length) :
    after.heardBy listener = world.heardBy listener ++ told := by
  generalize ended : (Except.ok () : Except Failure Unit) = result at course
  induction course with
  | done => simp
  | fail => cases ended
  | stopped => cases ended
  | refused => cases ended
  | went granted rest ih => rw [ih ended,heardBy_granted bound granted,List.append_assoc]

/-- In any course a listener hears a first part of what is told of. -/
theorem heardBy_prefix {p : Program Unit} {result : Except Failure Unit}
    (course : Course listeners p world told after result) {listener : Nat} (bound : listener < listeners.length) :
    ∃ heard, after.heardBy listener = world.heardBy listener ++ heard ∧ heard <+: told := by
  induction course with
  | went granted rest ih =>
    obtain ⟨heard,later,first⟩ := ih
    refine ⟨_,?_,(List.prefix_append_right_inj _).mpr first⟩
    rw [later,heardBy_granted bound granted,List.append_assoc]
  | stopped failed => exact heardBy_failed failed listener
  | _ => exact ⟨[],(List.append_nil _).symm,List.nil_prefix⟩

end Course

namespace Stage

def errands : Stage → History → List Errand
  | .closed agenda,h => agenda h
  | .looking agenda,h => agenda h
  | .free errands,_ => errands
  | .holding entry _ errands,_ => .put entry :: errands

def Fits (site : Site) (world : World) (h : History) : Stage → Prop
  | .closed _ => True
  | .looking _ => site.Ready world
  | .free _ => site.Ready world
  | .holding entry next _ => site.Ready world ∧ next = h.put entry

theorem Fits.of_files {site : Site} {world after : World} {h : History} {stage : Stage}
    (fits : stage.Fits site world h) (same : after.files = world.files) : stage.Fits site after h := by
  cases stage with
  | closed => trivial
  | looking => exact Site.Ready.of_files fits same
  | free => exact Site.Ready.of_files fits same
  | holding => exact ⟨fits.1.of_files same,fits.2⟩

end Stage

theorem Site.recorded_of_files {site : Site} {world after : World} {h : History}
    (here : site.recorded world = .ok h) (same : after.files = world.files) : site.recorded after = .ok h := by
  obtain ⟨t,found,reads,decoding,rfl⟩ := recorded_eq_ok.mp here
  exact recorded_of_reads (reads.of_files same) decoding

theorem History.put_of_encode {h : History} {entry : Entry} {t : Text} {found : Decoded} (free : h.PairFree)
    (entryFree : entry.PairFree) (decoding : decode t = .ok found) (here : found.history = h)
    (same : (h.put entry).encode = t) : h.put entry = h := by
  have again := decode_encode (free.put entryFree)
  rw [same,decoding] at again
  cases again
  exact here

/-- A request that is granted does one errand of those that are left, or none. -/
theorem Conduct.granted {site : Site} {listeners : List Listener} {stage : Stage} {r : Request}
    {next : r.Reply → Program Unit} {reply : r.Reply} {world mid : World} {h : History}
    (conduct : Conduct site stage (.request r next)) (here : site.recorded world = .ok h)
    (fits : stage.Fits site world h) (entries : ∀ e ∈ Errand.entries (stage.errands h), e.PairFree)
    (granted : world.perform listeners r = (mid,.ok reply)) :
    ∃ own done, Conduct site own (next reply) ∧
      stage.errands h = done ++ own.errands (h.putAll (Errand.entries done)) ∧
      r.notice?.toList = Errand.notices done ∧ site.recorded mid = .ok (h.putAll (Errand.entries done)) ∧
      own.Fits site mid (h.putAll (Errand.entries done)) := by
  have free := Site.recorded_pairFree here
  obtain ⟨t,found,reads,decoding,same⟩ := Site.recorded_eq_ok.mp here
  cases conduct with
  | note conduct =>
    obtain ⟨kept,_⟩ := Site.perform_note granted
    exact ⟨stage,[],conduct,rfl,rfl,Site.recorded_of_files here kept,fits.of_files kept⟩
  | @directory agenda _ conduct =>
    obtain ⟨opened,done,ready,still⟩ := Site.perform_directory reads listeners
    rw [done] at granted
    cases granted
    exact ⟨.looking agenda,[],conduct,rfl,rfl,same ▸ Site.recorded_of_reads still decoding,ready⟩
  | @look agenda _ conduct =>
    rw [Site.perform_read fits reads] at granted
    cases granted
    have conduct := conduct t found decoding
    rw [same] at conduct
    exact ⟨.free (agenda h),[],conduct,rfl,rfl,here,fits⟩
  | @tell notice errands _ conduct =>
    have kept := Site.perform_tell granted
    exact ⟨.free errands,[.tell notice],conduct,rfl,rfl,Site.recorded_of_files here kept,
      Site.Ready.of_files fits kept⟩
  | @read entry errands _ unchanged changed =>
    rw [Site.perform_read fits reads] at granted
    cases granted
    by_cases equal : (found.history.put entry).encode = t
    · have conduct := unchanged t found decoding equal
      rw [same] at equal
      have still : h.putAll [entry] = h :=
        History.put_of_encode free (entries entry List.mem_cons_self) decoding same equal
      refine ⟨.free errands,[.put entry],conduct,rfl,rfl,?_,fits⟩
      change _ = Except.ok (h.putAll [entry])
      rw [still]
      exact here
    · -- the entry counts as done only when the file is replaced
      have conduct := changed t found decoding equal
      rw [same] at conduct
      exact ⟨.holding entry (h.put entry) errands,[],conduct,rfl,rfl,here,fits,rfl⟩
  | @replace entry next errands _ conduct =>
    obtain ⟨ready,rfl⟩ := fits
    obtain ⟨ready,written⟩ := Site.perform_replace ready granted
    have plain := free.put (entries entry List.mem_cons_self)
    exact ⟨.free errands,[.put entry],conduct,rfl,rfl,Site.recorded_of_encode plain written,ready⟩

/-- A request that fails is one to tell or one to replace the file, and only the telling counts. -/
theorem Conduct.failed {site : Site} {listeners : List Listener} {stage : Stage} {r : Request}
    {next : r.Reply → Program Unit} {world after : World} {h : History} {e : Failure}
    (conduct : Conduct site stage (.request r next)) (here : site.recorded world = .ok h)
    (fits : stage.Fits site world h) (failed : world.perform listeners r = (after,.error e)) :
    ∃ done rest, stage.errands h = done ++ rest ∧ r.notice?.toList = Errand.notices done ∧
      site.recorded after = .ok (h.putAll (Errand.entries done)) ∧
      (rest = [] → ∃ notice, done.getLast? = some (.tell notice)) := by
  obtain ⟨t,found,reads,decoding,same⟩ := Site.recorded_eq_ok.mp here
  cases conduct with
  | note conduct =>
    obtain ⟨_,wrong⟩ := Site.perform_note failed
    cases wrong
  | directory conduct =>
    obtain ⟨opened,done,_⟩ := Site.perform_directory reads listeners
    rw [done] at failed
    cases failed
  | look conduct =>
    rw [Site.perform_read fits reads] at failed
    cases failed
  | @tell notice errands _ conduct =>
    have kept := Site.perform_tell failed
    exact ⟨[.tell notice],errands,rfl,rfl,Site.recorded_of_files here kept,fun _ => ⟨notice,rfl⟩⟩
  | read unchanged changed =>
    rw [Site.perform_read fits reads] at failed
    cases failed
  | replace conduct =>
    obtain rfl := Site.perform_replace_error failed
    exact ⟨[],_,rfl,rfl,here,nofun⟩

/-- What was done is a first part of what was to be done, and all of it unless there is a failure. With
a failure something is left, be it that the last errand was to tell and a listener failed. -/
theorem Course.errands {site : Site} {listeners : List Listener} {p : Program Unit} {stage : Stage}
    {world after : World} {h : History} {told : List Notice} {result : Except Failure Unit}
    (course : Course listeners p world told after result) (conduct : Conduct site stage p)
    (here : site.recorded world = .ok h) (fits : stage.Fits site world h)
    (entries : ∀ e ∈ Errand.entries (stage.errands h), e.PairFree) :
    ∃ done rest, stage.errands h = done ++ rest ∧ told = Errand.notices done ∧
      site.recorded after = .ok (h.putAll (Errand.entries done)) ∧ (result = .ok () → rest = []) ∧
      (rest = [] → result = .ok () ∨ ∃ notice, done.getLast? = some (.tell notice)) := by
  induction course generalizing stage h with
  | done a world =>
    cases conduct
    exact ⟨[],[],rfl,rfl,here,fun _ => rfl,fun _ => .inl rfl⟩
  | fail e world => cases conduct
  | went granted rest ih =>
    -- the first part grows by what this request has done
    obtain ⟨own,first,conduct,whole,heard,here,fits⟩ := conduct.granted here fits entries granted
    rw [whole,Errand.entries_append] at entries
    obtain ⟨done,left,others,told,recorded,ended,stopped⟩ :=
      ih conduct here fits fun e member => entries e (List.mem_append_right _ member)
    refine ⟨first ++ done,left,?_,?_,?_,ended,?_⟩
    · rw [whole,others,List.append_assoc]
    · rw [heard,told,Errand.notices_append]
    · rw [recorded,Errand.entries_append,History.putAll_append]
    · intro none
      refine (stopped none).imp_right ?_
      rintro ⟨notice,last⟩
      exact ⟨notice,by rw [List.getLast?_append,last,Option.some_or]⟩
  | stopped failed =>
    obtain ⟨done,rest,whole,heard,recorded,stopped⟩ := conduct.failed here fits failed
    exact ⟨done,rest,whole,heard,recorded,nofun,fun none => .inr (stopped none)⟩
  | refused path text next world fault =>
    cases conduct
    exact ⟨[],_,rfl,rfl,here,nofun,nofun⟩

theorem Pass.agenda_of_course {pass : Pass} {site : Site} {listeners : List Listener} {world after : World}
    {h : History} {told : List Notice} {result : Except Failure Unit} (same : pass.plan = site.plan)
    (pull : pass.pull.PairFree) (here : site.recorded world = .ok h)
    (course : Course listeners (pass.program site.scratch) world told after result) :
    ∃ done rest, pass.agenda h = done ++ rest ∧ told = Errand.notices done ∧
      site.recorded after = .ok (h.putAll (Errand.entries done)) ∧ (result = .ok () → rest = []) ∧
      (rest = [] → result = .ok () ∨ ∃ notice, done.getLast? = some (.tell notice)) :=
  course.errands (pass.conduct same) here trivial (agenda_pairFree pull (Site.recorded_pairFree here))

end PullNotices
