import Mathlib.Data.List.Infix
import PullNotices.Config
import PullNotices.Proofs.Text.Search

/-! Which settings count. A value that is given explicitly stands before the one of the environment, and
that one, even if it is empty, before the default. A tilde stands for the home directory in front of the path
of the environment only. `ofEnvironment_precedence` says which settings are refused and what the others make.

A tilde with the name of a user behind it is left aside: whose home that is, the system knows. It is the path
that may not begin so and not just its text, for a dot and slashes in front of the tilde are dropped first. -/
namespace PullNotices

namespace Path

/-- The first name of the path is a tilde with the name of a user behind it. -/
def NamesUser (p : Path) : Prop :=
  p.root = [] ∧ ∃ user rest, user ≠ [] ∧ p.parts = (Text.ofString "~" ++ user) :: rest

/-- `q` is `p` with the home directory in the place of a first name that is a tilde. -/
inductive Expanded (home : Text) : Path → Path → Prop
  | home (rest : List Text) : Expanded home ⟨[],"~" :: rest⟩ ((ofText (homeText home)).join ⟨[],rest⟩)
  | plain {p : Path} : (∀ rest, p ≠ ⟨[],"~" :: rest⟩) → Expanded home p p

theorem homeText_of_absolute {home : Text} (absolute : [slash] <+: home) : [slash] <+: homeText home := by
  have part : Text.dropEndWhile (· = slash) home <+: home := by
    rw [Text.dropEndWhile,← List.reverse_suffix,List.reverse_reverse]
    exact List.dropWhile_suffix _
  by_cases left : Text.dropEndWhile (· = slash) home = []
  · rw [homeText,left,if_pos rfl]
  · rw [homeText,if_neg left]
    obtain ⟨first,rest,shape⟩ := List.exists_cons_of_ne_nil left
    rw [shape] at part ⊢
    obtain ⟨_,rfl⟩ := absolute
    rw [(List.cons_prefix_cons.mp part).1]
    exact List.prefix_append [slash] rest

theorem expandHome_of_absolute {home : Text} {p : Path} (absolute : [slash] <+: home)
    (plain : ¬ p.NamesUser) : ∃ q, p.expandHome home = .ok q ∧ Expanded home p q := by
  obtain ⟨root,parts⟩ := p
  cases root with
  | cons c root => exact ⟨_,by simp [expandHome],.plain (by simp)⟩
  | nil =>
    cases parts with
    | nil => exact ⟨_,rfl,.plain (by simp)⟩
    | cons first rest =>
      cases found : Text.after? "~" first with
      | none =>
        refine ⟨⟨[],first :: rest⟩,by simp [expandHome,found],.plain ?_⟩
        rintro other same
        rw [(List.cons.inj (congrArg Path.parts same)).1] at found
        exact absurd found (by decide)
      | some user =>
        obtain rfl := Text.after?_eq_some.mp found
        have bare : user = [] := by
          by_contra named
          exact plain ⟨rfl,user,rest,named,rfl⟩
        subst bare
        -- the home directory begins with a slash, so no tilde is left in front
        have settled : (Text.after? "~" (homeText home)).isSome = false := by
          rw [Bool.eq_false_iff,ne_eq,Text.isSome_after?_iff]
          obtain ⟨rest,shape⟩ := homeText_of_absolute absolute
          rw [← shape]
          exact fun begins => absurd (List.cons_prefix_cons.mp begins).1 (by decide)
        refine ⟨_,?_,.home rest⟩
        simp only [expandHome,found,homeOf?,if_true,settled,Bool.false_eq_true,if_false,join]

end Path

namespace Config

def Settings.text? (settings : Settings) : Field → Option Text
  | .integrator => settings.integrator
  | .label => settings.label
  | .historyName => settings.historyName

def Field.default? : Field → Option Text
  | .integrator => none
  | .label => some defaultLabel
  | .historyName => some defaultHistoryName

def text (config : Config) : Field → Text
  | .integrator => config.trust.integrator
  | .label => config.trust.label
  | .historyName => config.historyName

/-- The value of a field that counts: the explicit one, else that of the environment, else the default. -/
inductive Effective (env explicit : Settings) (field : Field) : Text → Prop
  | explicit {t : Text} : explicit.text? field = some t → Effective env explicit field t
  | environment {t : Text} : explicit.text? field = none → env.text? field = some t →
      Effective env explicit field t
  | default {t : Text} : explicit.text? field = none → env.text? field = none → field.default? = some t →
      Effective env explicit field t

/-- The scratch path that counts; it is the one of the environment that may begin with a tilde. -/
inductive EffectiveScratch (home : Text) (env explicit : Settings) : Path → Prop
  | explicit {t : Text} : explicit.scratch = some t → EffectiveScratch home env explicit (Path.ofText t)
  | environment {t : Text} {path : Path} : explicit.scratch = none → env.scratch = some t →
      Path.Expanded home (Path.ofText t) path → EffectiveScratch home env explicit path
  | default : explicit.scratch = none → env.scratch = none → EffectiveScratch home env explicit defaultScratch

structure IsEffective (home : Text) (env explicit : Settings) (config : Config) : Prop where
  text : ∀ field, Effective env explicit field (config.text field)
  scratch : EffectiveScratch home env explicit config.scratch

/-- No integrator is named, or a value that counts is made of blanks alone. -/
def Refused (env explicit : Settings) : Prop :=
  (¬ ∃ t, Effective env explicit .integrator t) ∨
    ∃ field t, Effective env explicit field t ∧ ∀ c ∈ t, c.isBlank = true

/-- What is refused is refused for its settings, and all else makes the configuration of what counts. -/
structure Precedence (home : Text) (env explicit : Settings) : Prop where
  refused : (∃ e, ofEnvironment home env explicit = .error e ∧ e ≠ .unknownHome) ↔ Refused env explicit
  effective : ¬ Refused env explicit →
    ∃ config, ofEnvironment home env explicit = .ok config ∧ IsEffective home env explicit config

variable {home : Text} {env explicit : Settings}

def text? (env explicit : Settings) (field : Field) : Option Text :=
  ((explicit.text? field).or (env.text? field)).or field.default?

theorem text?_eq_some_iff {field : Field} {t : Text} :
    text? env explicit field = some t ↔ Effective env explicit field t := by
  constructor
  · intro found
    unfold text? at found
    cases given : explicit.text? field with
    | some u =>
      rw [given] at found
      exact .explicit (given.trans found)
    | none =>
      cases set : env.text? field with
      | some u =>
        rw [given,set] at found
        exact .environment given (set.trans found)
      | none =>
        rw [given,set] at found
        exact .default given set found
  · intro counts
    unfold text?
    cases counts with
    | explicit given => rw [given]; rfl
    | environment given set => rw [given,set]; rfl
    | default given set standing => rw [given,set,standing]; rfl

theorem refused_iff : Refused env explicit ↔ text? env explicit .integrator = none ∨
    ∃ field t, text? env explicit field = some t ∧ t.isBlank = true := by
  unfold Refused
  simp only [← text?_eq_some_iff,Text.isBlank,List.all_eq_true]
  rw [← Option.isSome_iff_exists,Option.not_isSome_iff_eq_none]

/-- Of the values of a configuration the first blank one is told. -/
theorem build_spec (config : Config) :
    let built := build config.trust.integrator config.trust.label config.historyName config.scratch
    (∀ field, (config.text field).isBlank = false) ∧ built = .ok config ∨
      ∃ field, (config.text field).isBlank = true ∧ built = .error (.blank field) := by
  simp only [build]
  split
  · rename_i blank
    exact .inr ⟨.integrator,blank,rfl⟩
  split
  · rename_i blank
    exact .inr ⟨.label,blank,rfl⟩
  split
  · rename_i blank
    exact .inr ⟨.historyName,blank,rfl⟩
  · rename_i integrator label historyName
    refine .inl ⟨?_,rfl⟩
    rintro (_ | _ | _)
    · exact Bool.eq_false_iff.mpr integrator
    · exact Bool.eq_false_iff.mpr label
    · exact Bool.eq_false_iff.mpr historyName

theorem scratch_effective (explicit : Settings) (absolute : [Path.slash] <+: home)
    (plain : ∀ t, env.scratch = some t → ¬ (Path.ofText t).NamesUser) :
    ∃ found : Option Path, (env.scratch.map fun t => (Path.ofText t).expandHome home) = found.map .ok ∧
      EffectiveScratch home env explicit (((explicit.scratch.map Path.ofText).or found).getD defaultScratch) := by
  cases set : env.scratch with
  | none =>
    refine ⟨none,rfl,?_⟩
    cases given : explicit.scratch with
    | none => exact .default given set
    | some t => exact .explicit given
  | some t =>
    obtain ⟨path,expanded,leads⟩ := Path.expandHome_of_absolute absolute (plain t set)
    refine ⟨some path,congrArg some expanded,?_⟩
    cases given : explicit.scratch with
    | none => exact .environment given set leads
    | some u => exact .explicit given

/-- Without an integrator nothing else is looked at; with one, what counts is put together and checked. -/
theorem ofEnvironment_spec (explicit : Settings) (absolute : [Path.slash] <+: home)
    (plain : ∀ t, env.scratch = some t → ¬ (Path.ofText t).NamesUser) :
    text? env explicit .integrator = none ∧ ofEnvironment home env explicit = .error .noIntegrator ∨
      ∃ config : Config, IsEffective home env explicit config ∧ ofEnvironment home env explicit =
        build config.trust.integrator config.trust.label config.historyName config.scratch := by
  obtain ⟨found,expanded,scratch⟩ := scratch_effective explicit absolute plain
  have read : ofEnvironment home env explicit =
      (explicit.integrator.or env.integrator).elim (.error .noIntegrator) fun integrator =>
        build integrator ((explicit.label.or env.label).getD defaultLabel)
          ((explicit.historyName.or env.historyName).getD defaultHistoryName)
          (((explicit.scratch.map Path.ofText).or found).getD defaultScratch) := by
    unfold ofEnvironment
    rw [expanded]
    cases found <;> cases explicit.integrator.or env.integrator <;> rfl
  cases named : explicit.integrator.or env.integrator with
  | none =>
    rw [named] at read
    exact .inl ⟨by simp [text?,Settings.text?,named,Field.default?],read⟩
  | some integrator =>
    rw [named] at read
    refine .inr ⟨⟨⟨integrator,_⟩,_,_⟩,⟨?_,scratch⟩,read⟩
    intro field
    apply text?_eq_some_iff.mp
    cases field with
    | integrator => simp [text?,Settings.text?,named,Config.text]
    | label => exact Option.or_some
    | historyName => exact Option.or_some

/-- A configuration is refused just if there is no integrator or a text that counts is blank. One that is not
refused has in each field what counts there: the explicit value, else that of the environment, else the
default. -/
theorem ofEnvironment_precedence (absolute : [Path.slash] <+: home)
    (plain : ∀ t, env.scratch = some t → ¬ (Path.ofText t).NamesUser) : Precedence home env explicit := by
  rcases ofEnvironment_spec explicit absolute plain with ⟨unnamed,read⟩ | ⟨config,effective,read⟩
  · have refused : Refused env explicit := refused_iff.mpr (.inl unnamed)
    exact ⟨⟨fun _ => refused,fun _ => ⟨_,read,nofun⟩⟩,absurd refused⟩
  · have counts (field : Field) : text? env explicit field = some (config.text field) :=
      text?_eq_some_iff.mpr (effective.text field)
    have blank : Refused env explicit ↔ ∃ field, (config.text field).isBlank = true := by
      rw [refused_iff]
      simp [counts]
    rcases build_spec config with ⟨filled,built⟩ | ⟨field,empty,built⟩
    · have accepted : ¬ Refused env explicit := by
        rw [blank]
        rintro ⟨field,empty⟩
        exact absurd empty (Bool.eq_false_iff.mp (filled field))
      refine ⟨⟨?_,(absurd · accepted)⟩,fun _ => ⟨config,read.trans built,effective⟩⟩
      rintro ⟨e,failed,_⟩
      rw [read,built] at failed
      cases failed
    · have refused : Refused env explicit := blank.mpr ⟨field,empty⟩
      exact ⟨⟨fun _ => refused,fun _ => ⟨_,read.trans built,nofun⟩⟩,absurd refused⟩

def testerHome : Text := "/home/tester"

def tildeEnvironment : Settings := ⟨some "42",some "",none,some "~/notices"⟩

theorem ofEnvironment_precedence_tilde :
    ([Path.slash] <+: testerHome ∧
      ∀ t, tildeEnvironment.scratch = some t → ¬ (Path.ofText t).NamesUser) ∧
      Precedence testerHome tildeEnvironment ⟨none,some "pushed",none,none⟩ := by
  have absolute : [Path.slash] <+: testerHome := ⟨"home/tester",rfl⟩
  have plain : ∀ t, tildeEnvironment.scratch = some t → ¬ (Path.ofText t).NamesUser := by
    rintro t found ⟨_,user,rest,named,shape⟩
    obtain rfl := Option.some.inj found
    have first : (Text.ofString "~") = Text.ofString "~" ++ user := (List.cons.inj shape).1
    exact named (List.self_eq_append_right.mp first)
  exact ⟨⟨absolute,plain⟩,ofEnvironment_precedence absolute plain⟩

def dottedEnvironment : Settings := ⟨some "42",none,none,some "./~prnotify_nobody_zq/x"⟩

/-- A text that does not begin with a tilde may still be a path that does. -/
theorem ofEnvironment_dotted_tilde : ¬ ∀ (home : Text) (env explicit : Settings), [Path.slash] <+: home →
    (∀ t, env.scratch = some t → ∀ user, user ≠ [] → Path.slash ∉ user → ¬ Text.ofString "~" ++ user <+: t) →
    Precedence home env explicit := by
  intro every
  have plain : ∀ t, dottedEnvironment.scratch = some t → ∀ user, user ≠ [] → Path.slash ∉ user →
      ¬ Text.ofString "~" ++ user <+: t := by
    intro t found user _ _ begins
    obtain rfl := Option.some.inj found
    exact absurd (List.cons_prefix_cons.mp begins).1 (by decide)
  obtain ⟨_,accepted⟩ := every testerHome dottedEnvironment ⟨none,none,none,some "scratch"⟩
    ⟨"home/tester",rfl⟩ plain
  have refused : Refused dottedEnvironment ⟨none,none,none,some "scratch"⟩ := by
    by_contra fine
    obtain ⟨config,read,_⟩ := accepted fine
    have failed : ofEnvironment testerHome dottedEnvironment ⟨none,none,none,some "scratch"⟩ =
      .error .unknownHome := by decide +kernel
    rw [failed] at read
    cases read
  rcases refused_iff.mp refused with unnamed | ⟨field,t,found,blank⟩
  · cases unnamed
  · cases field <;> obtain rfl := Option.some.inj found <;> revert blank <;> decide

end Config
end PullNotices
