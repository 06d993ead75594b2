import Mathlib.Logic.Function.Basic
import PullNotices.Proofs.Pass.Course

/-! Overlapping programs: two of them take turns in one world, a request at a time, in any order. The
trace of an overlap says which of them read and which replaced a file. A replacement is undone when
the other side, later, replaces what it had read before. -/
namespace PullNotices

inductive Access
  | read
  | replace
  deriving DecidableEq

def Request.access? : Request → Option Access
  | .read _ => some .read
  | .replace _ _ => some .replace
  | _ => none

abbrev Side := Bool

abbrev Trace := List (Side × Access)

/-- Both programs run to their end, taking turns, with every request granted. -/
inductive Overlap (listeners : Side → List Listener) : (Side → Program Unit) → World → Trace → World → Prop
  | done {programs : Side → Program Unit} {world : World} (ended : ∀ side, programs side = .done ()) :
      Overlap listeners programs world [] world
  | went {programs : Side → Program Unit} {world mid after : World} {side : Side} {r : Request}
      {next : r.Reply → Program Unit} {reply : r.Reply} {trace : Trace} (asks : programs side = .request r next)
      (granted : world.perform (listeners side) r = (mid,.ok reply))
      (rest : Overlap listeners (Function.update programs side (next reply)) mid trace after) :
      Overlap listeners programs world ((r.access?.map fun access => (side,access)).toList ++ trace) after

/-- The other side replaces the file after the last replacement by this side, and not on the strength
of a reading made since then. -/
def Undone (side : Side) (trace : Trace) : Prop :=
  ∃ before mid rest, trace = before ++ (side,.replace) :: (mid ++ (!side,.replace) :: rest) ∧
    (!side,.read) ∉ mid ∧ (side,.replace) ∉ mid ++ rest

def Overlap.play (listeners : Side → List Listener) (programs : Side → Program Unit) (world : World) :
    List Side → Option (Trace × World)
  | [] =>
    match programs false,programs true with
    | .done (),.done () => some ([],world)
    | _,_ => none
  | side :: schedule =>
    match programs side with
    | .request r next =>
      match world.perform (listeners side) r with
      | (mid,.ok reply) =>
        (play listeners (Function.update programs side (next reply)) mid schedule).map fun (trace,after) =>
          ((r.access?.map fun access => (side,access)).toList ++ trace,after)
      | _ => none
    | _ => none

theorem Overlap.of_play {listeners : Side → List Listener} {programs : Side → Program Unit} {world after : World}
    {schedule : List Side} {trace : Trace} (played : play listeners programs world schedule = some (trace,after)) :
    Overlap listeners programs world trace after := by
  induction schedule generalizing programs world trace with
  | nil =>
    unfold play at played
    split at played
    · rename_i first second
      cases played
      apply Overlap.done
      intro side
      cases side
      · exact first
      · exact second
    · cases played
  | cons side schedule ih =>
    unfold play at played
    split at played
    · rename_i r next asks
      split at played
      · rename_i mid reply granted
        obtain ⟨⟨rest,last⟩,here,same⟩ := Option.map_eq_some_iff.mp played
        cases same
        exact .went asks granted (ih here)
      · cases played
    · cases played

/-- What an overlap has come to for one side: whether it replaced the file since the other side read
it, and whether its last replacement is undone. -/
structure Watch where
  stale : Bool
  lost : Bool
  deriving DecidableEq

namespace Watch

def start : Watch := ⟨false,false⟩

def step (side : Side) (watch : Watch) : Side × Access → Watch
  | (turn,.replace) => if turn = side then ⟨true,false⟩ else ⟨watch.stale,watch.lost || watch.stale⟩
  | (turn,.read) => if turn = side then watch else ⟨false,watch.lost⟩

def after (side : Side) (watch : Watch) (trace : Trace) : Watch := trace.foldl (step side) watch

@[simp] theorem after_nil (side : Side) (watch : Watch) : watch.after side [] = watch := rfl

@[simp] theorem after_cons (side : Side) (watch : Watch) (turn : Side × Access) (trace : Trace) :
    watch.after side (turn :: trace) = (watch.step side turn).after side trace := rfl

def Overtaken (side : Side) (trace : Trace) : Prop :=
  ∃ mid rest, trace = mid ++ (!side,.replace) :: rest ∧ (!side,.read) ∉ mid ∧ (side,.replace) ∉ mid ++ rest

theorem overtaken_cons {side : Side} {turn : Side × Access} {trace : Trace} :
    Overtaken side (turn :: trace) ↔
      turn = (!side,.replace) ∧ (side,.replace) ∉ trace ∨
      turn ≠ (!side,.read) ∧ turn ≠ (side,.replace) ∧ Overtaken side trace := by
  constructor
  · rintro ⟨mid,rest,whole,unread,last⟩
    cases mid with
    | nil =>
      obtain ⟨rfl,rfl⟩ := List.cons.inj whole
      exact .inl ⟨rfl,last⟩
    | cons first mid =>
      obtain ⟨rfl,rfl⟩ := List.cons.inj whole
      simp only [List.mem_cons,not_or,List.cons_append] at unread last
      exact .inr ⟨Ne.symm unread.1,Ne.symm last.1,mid,rest,rfl,unread.2,last.2⟩
  · rintro (⟨rfl,last⟩ | ⟨unread,own,mid,rest,rfl,others,last⟩)
    · exact ⟨[],trace,rfl,by simp,last⟩
    · refine ⟨turn :: mid,rest,rfl,?_,?_⟩
      · simp [Ne.symm unread,others]
      · simp only [List.cons_append,List.mem_cons,not_or]
        exact ⟨Ne.symm own,last⟩

theorem undone_cons {side : Side} {turn : Side × Access} {trace : Trace} :
    Undone side (turn :: trace) ↔ turn = (side,.replace) ∧ Overtaken side trace ∨ Undone side trace := by
  constructor
  · rintro ⟨before,mid,rest,whole,unread,last⟩
    cases before with
    | nil =>
      obtain ⟨rfl,rfl⟩ := List.cons.inj whole
      exact .inl ⟨rfl,mid,rest,rfl,unread,last⟩
    | cons first before =>
      obtain ⟨rfl,rfl⟩ := List.cons.inj whole
      exact .inr ⟨before,mid,rest,rfl,unread,last⟩
  · rintro (⟨rfl,mid,rest,rfl,unread,last⟩ | ⟨before,mid,rest,rfl,unread,last⟩)
    · exact ⟨[],mid,rest,rfl,unread,last⟩
    · exact ⟨turn :: before,mid,rest,rfl,unread,last⟩

theorem lost_after {side : Side} {watch : Watch} {trace : Trace} :
    (watch.after side trace).lost = true ↔
      watch.lost = true ∧ (side,.replace) ∉ trace ∨ watch.stale = true ∧ Overtaken side trace ∨
        Undone side trace := by
  -- the watch is generalized because each access changes it
  induction trace generalizing watch with
  | nil =>
    have calm : ¬ Overtaken side [] := by
      rintro ⟨mid,rest,whole,_⟩
      simp at whole
    have whole : ¬ Undone side [] := by
      rintro ⟨before,mid,rest,whole,_⟩
      simp at whole
    simp [calm,whole]
  | cons turn trace ih =>
    rw [after_cons,ih,overtaken_cons,undone_cons]
    obtain ⟨actor,access⟩ := turn
    by_cases own : actor = side
    · subst actor
      cases access <;> simp [step]
    · obtain rfl : actor = !side := by
        cases actor <;> cases side <;> simp at own ⊢
      cases access with
      | read => simp [step]
      | replace =>
        simp [step]
        tauto

theorem lost_iff_undone {side : Side} {trace : Trace} : (start.after side trace).lost = true ↔ Undone side trace := by
  rw [lost_after]
  simp [start]

end Watch

end PullNotices
