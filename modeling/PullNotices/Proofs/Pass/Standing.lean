import PullNotices.Proofs.Pass.Overlap

/-! How a pass stands in an overlap. It has not looked at the history yet, or found its entry there, or
has still to write it, or has written it. In the last case the entry is recorded unless the watch
says that it was lost, and the other side can lose it only by writing what it read before. -/
namespace PullNotices

namespace Stage

def puts : Stage → List Entry
  | .closed _ => []
  | .looking _ => []
  | .free errands => Errand.entries errands
  | .holding entry _ errands => entry :: Errand.entries errands

theorem puts_free (errands : List Errand) : (Stage.free errands).puts = Errand.entries errands := rfl

def held : Stage → Option History
  | .holding _ next _ => some next
  | _ => none

def isEarly : Stage → Bool
  | .closed _ => true
  | .looking _ => true
  | _ => false

end Stage

/-- How a pass over what `h` records stands at its stage, with the history `now` read from the text `t`
and the other side about to write what it holds. -/
inductive Standing (pass : Pass) (h : History) :
    Stage → Text → History → Option History → Watch → Prop
  | early {own : Stage} {t : Text} {now : History} {held : Option History}
      (waiting : own = .closed pass.agenda ∨ own = .looking pass.agenda)
      (same : now.find? pass.pull.key = h.find? pass.pull.key)
      (others : ∀ next ∈ held, next.find? pass.pull.key = h.find? pass.pull.key) :
      Standing pass h own t now held .start
  | settled {t : Text} {now : History} {held : Option History}
      (there : now.find? pass.pull.key = some (pass.entryOver h))
      (others : ∀ next ∈ held, next.find? pass.pull.key = some (pass.entryOver h)) :
      Standing pass h (.free []) t now held .start
  | pending {own : Stage} {t : Text} {now : History} {held : Option History} {watch : Watch} {entry : Entry}
      {rest : List Entry} (puts : own.puts = entry :: rest) (last : ∀ e ∈ rest, e = pass.entryOver h)
      (only : rest = [] → entry = pass.entryOver h) (absent : now.find? pass.pull.key ≠ some (pass.entryOver h))
      (others : ∀ next ∈ held, next.find? pass.pull.key ≠ some (pass.entryOver h))
      (mine : ∀ next ∈ own.held, next.find? pass.pull.key = some entry) : Standing pass h own t now held watch
  | written {own : Stage} {t : Text} {now : History} {held : Option History} {watch : Watch}
      (late : own.isEarly = false) (puts : ∀ e ∈ own.puts, e = pass.entryOver h) (canon : t = now.encode)
      (kept : now.find? pass.pull.key = some (pass.entryOver h) ↔ watch.lost = false)
      (fresh : watch.stale = false → ∀ next ∈ held, next.find? pass.pull.key = now.find? pass.pull.key)
      (stale : watch.stale = true → ∀ next ∈ held, next.find? pass.pull.key ≠ some (pass.entryOver h))
      (mine : ∀ next ∈ own.held, next.find? pass.pull.key = some (pass.entryOver h) ∧
        now.find? pass.pull.key ≠ some (pass.entryOver h)) : Standing pass h own t now held watch

namespace Standing

variable {pass : Pass} {h now next : History} {own : Stage} {t : Text} {held : Option History} {watch : Watch}
  {errands : List Errand} {entry : Entry}

theorem agenda_eq {agenda : History → List Errand} (standing : Standing pass h (.looking agenda) t now held watch) :
    agenda = pass.agenda := by
  cases standing with
  | early waiting same others => simpa using waiting
  | pending puts => cases puts
  | written late => cases late

theorem directory {agenda : History → List Errand} (standing : Standing pass h (.closed agenda) t now held watch) :
    Standing pass h (.looking agenda) t now held watch := by
  cases standing with
  | early waiting same others =>
    obtain rfl : agenda = pass.agenda := by simpa using waiting
    exact .early (.inr rfl) same others
  | pending puts => cases puts
  | written late => cases late

theorem tell {notice : Notice} (standing : Standing pass h (.free (.tell notice :: errands)) t now held watch) :
    Standing pass h (.free errands) t now held watch := by
  cases standing with
  | early waiting => simp at waiting
  | pending puts last only absent others mine => exact .pending puts last only absent others nofun
  | written late puts canon kept fresh stale mine => exact .written rfl puts canon kept fresh stale nofun

theorem look {agenda : History → List Errand} (standing : Standing pass h (.looking agenda) t now held watch) :
    Standing pass h (.free (agenda now)) t now held watch := by
  cases standing with
  | early waiting same others =>
    obtain rfl : agenda = pass.agenda := by simpa using waiting
    have entry : pass.entryOver now = pass.entryOver h := by
      unfold Pass.entryOver
      rw [same]
    unfold Pass.agenda
    rw [entry]
    split
    · rename_i there
      apply Standing.settled there
      intro next member
      rw [others next member,← same]
      exact there
    · rename_i absent
      have other : ∀ next ∈ held, next.find? pass.pull.key ≠ some (pass.entryOver h) := by
        intro next member
        rw [others next member,← same]
        exact absent
      have puts : (Stage.free ((pass.upgrades now).map .put ++
          (Errand.telling pass.pull (pass.news now) ++ [.put (pass.entryOver h)]))).puts =
            pass.upgrades now ++ [pass.entryOver h] := by
        rw [Stage.puts_free,Errand.entries_append,Errand.entries_append,Errand.entries_put,Errand.entries_telling]
        rfl
      -- nothing is put before the last entry but what replaces a placeholder
      have shape : pass.upgrades now = [] ∨ ∃ early, pass.upgrades now = [early] := by
        unfold Pass.upgrades
        split
        · exact .inl rfl
        · split
          · exact .inr ⟨_,rfl⟩
          · exact .inl rfl
      rcases shape with none | ⟨early,one⟩
      · rw [none] at puts ⊢
        exact .pending puts (by simp) (fun _ => rfl) absent other nofun
      · rw [one] at puts ⊢
        exact .pending puts (by simp) (by simp) absent other nofun
  | pending puts => cases puts
  | written late => cases late

theorem skip (own : entry.key = pass.pull.key) (same : now.put entry = now)
    (standing : Standing pass h (.free (.put entry :: errands)) t now held watch) :
    Standing pass h (.free errands) t now held watch := by
  have there : now.find? pass.pull.key = some entry := by
    have self := History.find?_put_self now entry
    rw [same,own] at self
    exact self
  cases standing with
  | early waiting => simp at waiting
  | @pending _ _ _ _ _ first rest puts last only absent others mine =>
    have puts : entry :: Errand.entries errands = first :: rest := puts
    obtain ⟨rfl,rfl⟩ := List.cons.inj puts
    cases rest : Errand.entries errands with
    | nil =>
      rw [only rest] at there
      exact absurd there absent
    | cons second more =>
      rw [rest] at last
      have final := last second (by simp)
      exact .pending rest (fun e member => last e (List.mem_cons_of_mem _ member)) (fun _ => final) absent others nofun
  | written late puts canon kept fresh stale mine =>
    exact .written rfl (fun e member => puts e (List.mem_cons_of_mem _ member)) canon kept fresh stale nofun

theorem read (own : entry.key = pass.pull.key) (changed : (now.put entry).encode ≠ t)
    (standing : Standing pass h (.free (.put entry :: errands)) t now held watch) :
    Standing pass h (.holding entry (now.put entry) errands) t now held watch := by
  have self := History.find?_put_self now entry
  rw [own] at self
  cases standing with
  | early waiting => simp at waiting
  | pending puts last only absent others mine =>
    obtain ⟨rfl,rfl⟩ := List.cons.inj puts
    apply Standing.pending rfl last only absent others
    intro next member
    cases member
    exact self
  | written late puts canon kept fresh stale mine =>
    have final : entry = pass.entryOver h := puts entry List.mem_cons_self
    refine .written rfl puts canon kept fresh stale ?_
    intro next member
    cases member
    rw [← final]
    refine ⟨self,fun there => changed ?_⟩
    rw [canon,History.put_of_find? there]

theorem replace (standing : Standing pass h (.holding entry next errands) t now held watch) :
    Standing pass h (.free errands) next.encode next held ⟨true,false⟩ := by
  cases standing with
  | early waiting => simp at waiting
  | pending puts last only absent others mine =>
    obtain ⟨rfl,rfl⟩ := List.cons.inj puts
    have self := mine next rfl
    by_cases final : entry = pass.entryOver h
    · rw [final] at self
      exact .written rfl last rfl ⟨fun _ => rfl,fun _ => self⟩ nofun (fun _ => others) nofun
    · cases rest : Errand.entries errands with
      | nil => exact absurd (only rest) final
      | cons second more =>
        rw [rest] at last
        have ended := last second (by simp)
        have absent : next.find? pass.pull.key ≠ some (pass.entryOver h) := by
          intro there
          rw [self] at there
          exact final (Option.some.inj there)
        exact .pending rest (fun e member => last e (List.mem_cons_of_mem _ member)) (fun _ => ended) absent others nofun
  | written late puts canon kept fresh stale mine =>
    obtain ⟨self,absent⟩ := mine next rfl
    refine .written rfl (fun e member => puts e (List.mem_cons_of_mem _ member)) rfl ⟨fun _ => rfl,fun _ => self⟩
      nofun ?_ nofun
    -- the other side holds what it read before this replacement, so its next one undoes it
    intro _ other member
    cases old : watch.stale with
    | false =>
      rw [fresh old other member]
      exact absent
    | true => exact stale old other member

theorem otherRead {after : Option History} (same : ∀ next ∈ after, next.find? pass.pull.key = now.find? pass.pull.key)
    (standing : Standing pass h own t now none watch) : Standing pass h own t now after ⟨false,watch.lost⟩ := by
  cases standing with
  | early waiting equal others =>
    apply Standing.early waiting equal
    intro next member
    rw [same next member,equal]
  | settled there others =>
    apply Standing.settled there
    intro next member
    rw [same next member,there]
  | pending puts last only absent others mine =>
    refine .pending puts last only absent ?_ mine
    intro next member
    rw [same next member]
    exact absent
  | written late puts canon kept fresh stale mine =>
    exact .written late puts canon kept (fun _ => same) nofun mine

theorem otherReplace (standing : Standing pass h own t now (some next) watch) :
    Standing pass h own next.encode next none ⟨watch.stale,watch.lost || watch.stale⟩ := by
  cases standing with
  | early waiting same others => exact .early waiting (others next rfl) nofun
  | settled there others => exact .settled (others next rfl) nofun
  | pending puts last only absent others mine => exact .pending puts last only (others next rfl) nofun mine
  | written late puts canon kept fresh stale mine =>
    cases old : watch.stale with
    | false =>
      have same := fresh old next rfl
      refine .written late puts rfl ?_ nofun nofun ?_
      · rw [same,kept]
        simp
      · intro other member
        rw [same]
        exact mine other member
    | true =>
      have absent := stale old next rfl
      refine .written late puts rfl ?_ nofun nofun ?_
      · simp [absent]
      · intro other member
        exact ⟨(mine other member).1,absent⟩

theorem ended (standing : Standing pass h (.free []) t now held watch) :
    now.find? pass.pull.key = some (pass.entryOver h) ↔ watch.lost = false := by
  cases standing with
  | early waiting => simp at waiting
  | settled there => exact ⟨fun _ => rfl,fun _ => there⟩
  | pending puts => cases puts
  | written late puts canon kept => exact kept

end Standing

end PullNotices
