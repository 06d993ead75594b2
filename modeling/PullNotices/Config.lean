import PullNotices.Files.Path
import PullNotices.Forge.Evidence
import PullNotices.Text.Blank

/-!
Configuration: whose announcements are believed, what the history is called, and where it is kept.
A setting is taken from an explicit value, else from the environment, else it has a default; the
integrator has none. Settings of blanks alone are refused.
-/
namespace PullNotices

structure Config where
  trust : Trust
  historyName : Text
  scratch : Path
  deriving DecidableEq, Repr

namespace Config

def defaultLabel : Text := "integrated"

def defaultHistoryName : Text := "history"

def defaultScratch : Path := Path.ofText ".notify-scratch"

inductive Field
  | integrator
  | label
  | historyName
  deriving DecidableEq, Repr

def Field.name : Field → Text
  | .integrator => "integrator_id"
  | .label => "integrated_label"
  | .historyName => "history_name"

inductive ConfigError
  | blank (field : Field)
  | noIntegrator
  | unknownHome
  deriving DecidableEq, Repr

def ConfigError.message : ConfigError → Text
  | .blank field => field.name ++ " must be non-empty"
  | .noIntegrator => "PRNOTIFY_INTEGRATOR_ID is not set"
  | .unknownHome => Path.UnknownHome.message

/-- The configuration of these settings; of several blank ones the first is named. -/
def build (integrator label historyName : Text) (scratch : Path) : Except ConfigError Config :=
  if integrator.isBlank then .error (.blank .integrator)
  else if label.isBlank then .error (.blank .label)
  else if historyName.isBlank then .error (.blank .historyName)
  else .ok ⟨⟨integrator, label⟩, historyName, scratch⟩

structure Settings where
  integrator : Option Text
  label : Option Text
  historyName : Option Text
  scratch : Option Text
  deriving DecidableEq, Repr

/-- The configuration of explicit settings over those of the environment, where a tilde in front of
the scratch path stands for `home` or for the home of the user behind it. -/
def ofEnvironment (home : Text) (env explicit : Settings) : Except ConfigError Config :=
  match (env.scratch.map fun t => (Path.ofText t).expandHome home) with
  | some (.error _) => .error .unknownHome
  | scratch =>
    let scratch := scratch.bind Except.toOption
    match explicit.integrator.or env.integrator with
    | none => .error .noIntegrator
    | some integrator =>
      build integrator ((explicit.label.or env.label).getD defaultLabel)
        ((explicit.historyName.or env.historyName).getD defaultHistoryName)
        (((explicit.scratch.map Path.ofText).or scratch).getD defaultScratch)

end Config
end PullNotices
