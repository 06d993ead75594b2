import PullNotices.Proofs.Pass.Agenda
import PullNotices.Proofs.Pass.Site

/-! How a pass goes about its agenda: it makes the directory, looks at the history, and then does one
errand after another. To put an entry it reads the file and replaces it by what was read with the
entry in place, unless that is the text it read. Nothing else is said about passes below: all that
follows is proved of programs of this conduct. -/
namespace PullNotices

namespace Program

variable {α β γ : Type}

theorem bind_assoc (p : Program α) (f : α → Program β) (g : β → Program γ) :
    (p.bind f).bind g = p.bind fun a => (f a).bind g := by
  induction p with
  | done a => rfl
  | fail e => rfl
  | request r next ih =>
    simp only [bind,ih]

theorem bind_done (p : Program α) : p.bind .done = p := by
  induction p with
  | done a => rfl
  | fail e => rfl
  | request r next ih => simp only [bind,ih]

end Program

inductive Stage
  | closed (agenda : History → List Errand)
  | looking (agenda : History → List Errand)
  | free (errands : List Errand)
  /-- `next` is about to be written, which is what was read with `entry` in place. -/
  | holding (entry : Entry) (next : History) (errands : List Errand)

/-- The program does at this site what the stage says, and then what is left. -/
inductive Conduct (site : Site) : Stage → Program Unit → Prop
  | done : Conduct site (.free []) (.done ())
  | note {stage : Stage} {line : Log.Line} {next : Unit → Program Unit} (rest : Conduct site stage (next ())) :
      Conduct site stage (.request (.note line) next)
  | directory {agenda : History → List Errand} {next : Unit → Program Unit}
      (rest : Conduct site (.looking agenda) (next ())) :
      Conduct site (.closed agenda) (.request (.directory site.directory) next)
  | look {agenda : History → List Errand} {next : Text → Program Unit}
      (rest : ∀ t found, History.decode t = .ok found → Conduct site (.free (agenda found.history)) (next t)) :
      Conduct site (.looking agenda) (.request (.read site.path) next)
  | tell {notice : Notice} {errands : List Errand} {next : Unit → Program Unit}
      (rest : Conduct site (.free errands) (next ())) :
      Conduct site (.free (.tell notice :: errands)) (.request (.tell notice) next)
  | read {entry : Entry} {errands : List Errand} {next : Text → Program Unit}
      (same : ∀ t found, History.decode t = .ok found → (found.history.put entry).encode = t →
        Conduct site (.free errands) (next t))
      (other : ∀ t found, History.decode t = .ok found → (found.history.put entry).encode ≠ t →
        Conduct site (.holding entry (found.history.put entry) errands) (next t)) :
      Conduct site (.free (.put entry :: errands)) (.request (.read site.path) next)
  | replace {entry : Entry} {h : History} {errands : List Errand} {next : Unit → Program Unit}
      (rest : Conduct site (.free errands) (next ())) :
      Conduct site (.holding entry h errands) (.request (.replace site.path h.encode) next)

namespace Conduct

variable {site : Site} {stage : Stage}

theorem note_bind {lines : List Log.Line} {f : Unit → Program Unit} (rest : Conduct site stage (f ())) :
    Conduct site stage ((Program.note lines).bind f) := by
  induction lines with
  | nil => exact rest
  | cons line lines ih => exact .note ih

theorem tell_bind {pull : PullRequest} {events : List Event} {errands : List Errand} {f : Unit → Program Unit}
    (rest : Conduct site (.free errands) (f ())) :
    Conduct site (.free (Errand.telling pull events ++ errands)) ((Program.tell pull events).bind f) := by
  induction events with
  | nil => exact rest
  | cons event events ih => exact .tell ih

theorem decoded_bind {t : Text} {found : History.Decoded} {f : History → Program Unit}
    (decoding : History.decode t = .ok found) (rest : Conduct site stage (f found.history)) :
    Conduct site stage ((site.store.decoded t).bind f) := by
  rw [Site.decoded_eq decoding,Program.bind_assoc]
  exact note_bind rest

theorem current_bind {agenda : History → List Errand} {f : History → Program Unit}
    (rest : ∀ h, Conduct site (.free (agenda h)) (f h)) :
    Conduct site (.looking agenda) (site.store.current.bind f) := by
  change Conduct site _ (.request (.read site.path) fun t => (site.store.decoded t).bind f)
  apply Conduct.look
  intro t found decoding
  exact decoded_bind decoding (rest found.history)

theorem put_bind {entry : Entry} {errands : List Errand} {f : Unit → Program Unit}
    (rest : Conduct site (.free errands) (f ())) :
    Conduct site (.free (.put entry :: errands)) ((site.store.put entry).bind f) := by
  have shape : (site.store.put entry).bind f = .request (.read site.path) fun old =>
      (site.store.decoded old).bind fun h =>
        (if (h.put entry).encode = old then
          Program.note [⟨.debug,site.path.display ++ " unchanged, skipping write"⟩]
        else (Program.ask (.replace site.path (h.put entry).encode)).bind fun _ =>
          Program.note [⟨.debug,"Wrote " ++ Text.ofNat 1 ++ " item(s) to " ++ site.path.display⟩]).bind f := by
    have assoc := fun old => Program.bind_assoc (site.store.decoded old) (fun h =>
        if (h.put entry).encode = old then
          Program.note [⟨.debug,site.path.display ++ " unchanged, skipping write"⟩]
        else (Program.ask (.replace site.path (h.put entry).encode)).bind fun _ =>
          Program.note [⟨.debug,"Wrote " ++ Text.ofNat 1 ++ " item(s) to " ++ site.path.display⟩]) f
    simp only [← assoc]
    rfl
  rw [shape]
  refine .read ?_ ?_
  · intro t found decoding same
    apply decoded_bind decoding
    rw [if_pos same]
    exact note_bind rest
  · intro t found decoding other
    apply decoded_bind decoding
    rw [if_neg other,Program.bind_assoc]
    exact .replace (note_bind rest)

end Conduct

namespace Pass

variable (pass : Pass) {site : Site} {stage : Stage}

theorem snapshot_bind {f : Entry → Program Unit} (rest : Conduct site stage (f pass.fresh)) :
    Conduct site stage (pass.snapshot.bind f) := by
  have shape : pass.snapshot = (Program.note (pass.pull.evidenceLog pass.trust)).bind fun _ => .done pass.fresh := rfl
  rw [shape,Program.bind_assoc]
  exact Conduct.note_bind rest

theorem refresh_bind {stored : Entry} {errands : List Errand} {f : Entry → Program Unit}
    (rest : Conduct site (.free errands) (f (pass.refreshed stored))) :
    Conduct site (.free ((if stored.commit.isPlaceholder then [pass.refreshed stored] else []).map .put ++ errands))
      ((pass.refresh site.store stored).bind f) := by
  unfold refresh
  by_cases placeholder : stored.commit.isPlaceholder = true
  · have entry : pass.refreshed stored = stored.withCommit pass.fresh.commit := if_pos placeholder
    rw [if_pos placeholder,if_pos placeholder]
    rw [entry] at rest ⊢
    change Conduct site _ ((pass.snapshot.bind _).bind f)
    rw [Program.bind_assoc]
    apply pass.snapshot_bind
    change Conduct site _ (((Program.note _).bind _).bind f)
    rw [Program.bind_assoc]
    apply Conduct.note_bind
    change Conduct site _ (((site.store.put _).bind _).bind f)
    rw [Program.bind_assoc]
    exact Conduct.put_bind rest
  · have entry : pass.refreshed stored = stored := if_neg placeholder
    rw [if_neg placeholder,if_neg placeholder]
    rw [entry] at rest
    exact rest

theorem announce_bind {h : History} {errands : List Errand} {f : Unit → Program Unit}
    (rest : Conduct site (.free errands) (f ())) :
    Conduct site (.free ((pass.upgrades h).map .put ++ (Errand.telling pass.pull (pass.news h) ++ errands)))
      ((pass.announce site.store (pass.entryOver h) (h.find? pass.pull.key)).bind f) := by
  unfold upgrades news announce
  cases found : h.find? pass.pull.key with
  | none => exact Conduct.tell_bind rest
  | some stored =>
    change Conduct site _ (((pass.refresh site.store stored).bind _).bind f)
    rw [Program.bind_assoc]
    apply pass.refresh_bind
    change Conduct site _ (((Program.note _).bind _).bind f)
    rw [Program.bind_assoc]
    exact Conduct.note_bind (Conduct.tell_bind rest)

/-- A pass goes about the agenda that the history sets it. -/
theorem conduct (same : pass.plan = site.plan) :
    Conduct site (.closed pass.agenda) (pass.program site.scratch) := by
  unfold program
  rw [same]
  change Conduct site _ (.request (.directory site.directory) fun _ => pass.snapshot.bind _)
  apply Conduct.directory
  apply pass.snapshot_bind
  apply Conduct.current_bind
  intro h
  unfold agenda
  change Conduct site _ (if h.find? pass.pull.key = some (pass.entryOver h) then _ else _)
  split
  · exact .note .done
  · apply pass.announce_bind
    have shape := Program.bind_done (site.store.put (pass.entryOver h))
    change Conduct site _ (site.store.put (pass.entryOver h))
    rw [← shape]
    exact Conduct.put_bind .done

end Pass

end PullNotices
