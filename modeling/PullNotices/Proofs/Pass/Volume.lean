import PullNotices.Proofs.Pass.Course

/-! Volumes: the history file down to its octets. A file that is read as the text which its history
is written as stays the same octet by octet as long as nothing new is put in, be its line ends what
they may; from the first thing that is new it holds what the history is written as. So the order in
which entries of different keys are put in does not show in it. -/
namespace PullNotices

structure Volume where
  octets : Except FileFault (List UInt8)
  history : History
  /-- Whether the text of the file is the one that the history is written as. -/
  canonical : Bool

theorem History.put_comm (h : History) {first second : Entry} (apart : first.key ≠ second.key) :
    (h.put first).put second = (h.put second).put first := by
  apply eq_of_find?
  intro key
  rw [find?_put,find?_put,find?_put,find?_put]
  split
  · rename_i late
    rw [if_neg (by rw [← late]; exact apart)]
  · rfl

namespace Volume

/-- Putting the entry in would write what the file holds already. -/
def keeps (v : Volume) (e : Entry) : Bool := v.canonical && v.history.find? e.key = some e

def written (h : History) : Volume := ⟨.ok (Utf8.encode h.encode),h,true⟩

def put (v : Volume) (e : Entry) : Volume := if v.keeps e then v else written (v.history.put e)

def putAll (v : Volume) (es : List Entry) : Volume := es.foldl put v

variable {v : Volume} {e : Entry} {es : List Entry}

theorem keeps_iff : v.keeps e = true ↔ v.canonical = true ∧ v.history.find? e.key = some e := by
  simp [keeps]

theorem put_of_keeps (kept : v.keeps e = true) : v.put e = v := if_pos kept

theorem put_of_new (new : v.keeps e = false) : v.put e = written (v.history.put e) := by
  simp [put,new]

theorem written_put (h : History) (e : Entry) : (written h).put e = written (h.put e) := by
  cases kept : (written h).keeps e with
  | true =>
    have found : h.find? e.key = some e := (keeps_iff.mp kept).2
    rw [put_of_keeps kept,History.put_of_find? found]
  | false => exact put_of_new kept

theorem history_put (v : Volume) (e : Entry) : (v.put e).history = v.history.put e := by
  cases kept : v.keeps e with
  | true => rw [put_of_keeps kept,History.put_of_find? (keeps_iff.mp kept).2]
  | false =>
    rw [put_of_new kept]
    rfl

theorem history_putAll (v : Volume) (es : List Entry) : (v.putAll es).history = v.history.putAll es := by
  induction es generalizing v with
  | nil => rfl
  | cons e es ih =>
    change ((v.put e).putAll es).history = (v.history.put e).putAll es
    rw [ih,history_put]

theorem put_put (v : Volume) (e : Entry) : (v.put e).put e = v.put e := by
  cases kept : v.keeps e with
  | true => rw [put_of_keeps kept,put_of_keeps kept]
  | false => rw [put_of_new kept,written_put,History.put_of_find? (History.find?_put_self _ e)]

theorem putAll_append (v : Volume) (es others : List Entry) :
    v.putAll (es ++ others) = (v.putAll es).putAll others := List.foldl_append

theorem put_comm (v : Volume) {first second : Entry} (apart : first.key ≠ second.key) :
    (v.put first).put second = (v.put second).put first := by
  have kept : ∀ {a b : Entry}, a.key ≠ b.key → v.keeps a = true → (v.put a).put b = (v.put b).put a := by
    intro a b apart kept
    rw [put_of_keeps kept]
    cases also : v.keeps b with
    | true => rw [put_of_keeps also,put_of_keeps kept]
    | false =>
      rw [put_of_new also,written_put,← v.history.put_comm apart,History.put_of_find? (keeps_iff.mp kept).2]
  cases left : v.keeps first with
  | true => exact kept apart left
  | false =>
    cases right : v.keeps second with
    | true => exact (kept apart.symm right).symm
    | false =>
      rw [put_of_new left,put_of_new right,written_put,written_put,v.history.put_comm apart]

theorem put_putAll_comm (v : Volume) (e : Entry) (apart : ∀ other ∈ es, e.key ≠ other.key) :
    (v.put e).putAll es = (v.putAll es).put e := by
  induction es generalizing v with
  | nil => rfl
  | cons first es ih =>
    change ((v.put e).put first).putAll es = ((v.put first).putAll es).put e
    rw [v.put_comm (apart first (by simp)),ih _ fun other member => apart other (List.mem_cons_of_mem _ member)]

theorem putAll_comm (v : Volume) {others : List Entry} (apart : ∀ e ∈ es, ∀ other ∈ others, e.key ≠ other.key) :
    (v.putAll es).putAll others = (v.putAll others).putAll es := by
  induction es generalizing v with
  | nil => rfl
  | cons e es ih =>
    change ((v.put e).putAll es).putAll others = ((v.putAll others).put e).putAll es
    rw [ih _ fun e member => apart e (List.mem_cons_of_mem _ member),v.put_putAll_comm e (apart e (by simp))]

end Volume

namespace Site

/-- The octets of the history file, with its directory made where that is missing. -/
def octets (site : Site) (world : World) : Except FileFault (List UInt8) :=
  (world.files.makeDirectories site.directory).1.octetsAt site.path

/-- With what failure a pass ends that has to write, if the file cannot be replaced. -/
def refusal (site : Site) (world : World) : Option Failure :=
  match (world.files.makeDirectories site.directory).1.replaceFile site.path [] with
  | .ok _ => none
  | .error (.unusable flaw) => some (.unusablePath flaw)
  | .error fault => some (.cannotWrite site.path fault)

structure Holds (site : Site) (world : World) (v : Volume) : Prop where
  octets : site.octets world = v.octets
  reads : ∃ t found, site.Reads world t ∧ History.decode t = .ok found ∧ found.history = v.history ∧
    (v.canonical = true ↔ v.history.encode = t)

variable {site : Site} {world after : World} {v : Volume}

theorem Holds.of_files (holds : site.Holds world v) (same : after.files = world.files) : site.Holds after v := by
  obtain ⟨octets,t,found,reads,rest⟩ := holds
  refine ⟨?_,t,found,reads.of_files same,rest⟩
  rw [← octets,Site.octets,Site.octets,same]

theorem refusal_of_files (same : after.files = world.files) : site.refusal after = site.refusal world := by
  unfold refusal
  rw [same]

theorem holds_of_recorded {h : History} (here : site.recorded world = .ok h) :
    ∃ v, site.Holds world v ∧ v.history = h := by
  obtain ⟨t,found,reads,decoding,same⟩ := recorded_eq_ok.mp here
  exact ⟨⟨site.octets world,h,decide (h.encode = t)⟩,⟨rfl,t,found,reads,decoding,same,by simp⟩,rfl⟩

theorem Holds.recorded (holds : site.Holds world v) : site.recorded world = .ok v.history := by
  obtain ⟨_,t,found,reads,decoding,same,_⟩ := holds
  exact recorded_eq_ok.mpr ⟨t,found,reads,decoding,same⟩

theorem Reads.unique {t other : Text} (reads : site.Reads world t) (also : site.Reads world other) : t = other := by
  obtain ⟨files,made,read⟩ := reads
  obtain ⟨again,remade,reread⟩ := also
  rw [made] at remade
  cases remade
  rw [read] at reread
  exact Except.ok.inj reread

/-- What is read back decides whether an entry has to be written. -/
theorem Holds.keeps_iff {t : Text} {e : Entry} (holds : site.Holds world v) (reads : site.Reads world t)
    (free : e.PairFree) : v.keeps e = true ↔ (v.history.put e).encode = t := by
  have plain := recorded_pairFree holds.recorded
  obtain ⟨_,t',found,also,decoding,same,canonical⟩ := holds
  obtain rfl := reads.unique also
  rw [Volume.keeps_iff,canonical]
  constructor
  · rintro ⟨encoded,found⟩
    rw [History.put_of_find? found,encoded]
  · intro encoded
    have kept := History.put_of_encode plain free decoding same encoded
    rw [kept] at encoded
    have self := v.history.find?_put_self e
    rw [kept] at self
    exact ⟨encoded,self⟩

theorem Holds.perform_directory (holds : site.Holds world v) (listeners : List Listener) :
    ∃ opened, world.perform listeners (.directory site.directory) = (opened,.ok ()) ∧ site.Ready opened ∧
      site.Holds opened v ∧ site.refusal opened = site.refusal world ∧ opened.deliveries = world.deliveries := by
  obtain ⟨octets,t,found,⟨files,made,read⟩,rest⟩ := holds
  obtain ⟨usable,there⟩ := FileTree.makeDirectories_eq_none made
  have again := FileTree.makeDirectories_of_isDirectory usable there
  refine ⟨{ world with files },?_,⟨usable,there⟩,⟨?_,t,found,⟨files,again,read⟩,rest⟩,?_,rfl⟩
  · simp only [World.perform,made]
  · rw [← octets]
    simp only [Site.octets,made,again]
  · simp only [refusal,made,again]

theorem refusal_of_ready (ready : site.Ready world) : site.refusal world =
    match world.files.replaceFile site.path [] with
    | .ok _ => none
    | .error (.unusable flaw) => some (.unusablePath flaw)
    | .error fault => some (.cannotWrite site.path fault) := by
  rw [refusal,FileTree.makeDirectories_of_isDirectory ready.1 ready.2]

theorem perform_replace_refused {failure : Failure} (ready : site.Ready world)
    (refused : site.refusal world = some failure) (listeners : List Listener) (t : Text) :
    world.perform listeners (.replace site.path t) = (world,.error failure) := by
  rw [refusal_of_ready ready] at refused
  cases attempt : world.files.replaceFile site.path [] with
  | ok files =>
    rw [attempt] at refused
    cases refused
  | error fault =>
    have same := FileTree.replaceFile_error attempt (Utf8.encode t)
    rw [attempt] at refused
    simp only [World.perform,same]
    cases fault <;> cases refused <;> rfl

theorem Holds.perform_replace {h : History} (ready : site.Ready world)
    (granted : site.refusal world = none) (free : h.PairFree) (listeners : List Listener) :
    ∃ after, world.perform listeners (.replace site.path h.encode) = (after,.ok ()) ∧ site.Ready after ∧
      site.Holds after (.written h) ∧ site.refusal after = none ∧ after.deliveries = world.deliveries := by
  cases attempt : world.files.replaceFile site.path (Utf8.encode h.encode) with
  | error fault =>
    have refused := FileTree.replaceFile_error attempt []
    rw [refusal_of_ready ready,refused] at granted
    cases fault <;> cases granted
  | ok files =>
    have performed : world.perform listeners (.replace site.path h.encode) = ({ world with files },.ok ()) := by
      simp only [World.perform,attempt]
    obtain ⟨there,reads⟩ := Site.perform_replace ready performed
    obtain ⟨again,possible⟩ := FileTree.replaceFile_again attempt []
    refine ⟨_,performed,there,⟨?_,h.encode,_,reads,History.decode_encode free,rfl,?_⟩,?_,rfl⟩
    · rw [Site.octets,FileTree.makeDirectories_of_isDirectory there.1 there.2]
      exact FileTree.octetsAt_replaceFile attempt
    · simp [Volume.written]
    · rw [refusal_of_ready there,possible]

end Site

end PullNotices
