import EdgeHealth.Bundle.Build
import EdgeHealth.CommandLine.Arguments
import EdgeHealth.Render.Terminal
import EdgeHealth.Run.Request

/-!
# The requests of the commands

What the arguments of a command ask of a run or of a bundle, and the wording of what is wrong with a
command line.

## Main definitions

* `CheckArguments.request`, `CheckArguments.context`, `CheckArguments.view` : the run of checks, and
  how its report is shown.
* `BundleArguments.request?` : the bundle.
* `UsageError.message` : what is wrong with a command line.
-/

namespace EdgeHealth

/-- The services of a choice, where none stands for all. -/
def ServiceChoice.services : ServiceChoice → List Service
  | .only service => [service]
  | .all => []

namespace CheckArguments

/-- What the run is asked to do, on a cluster of a version. -/
def request (a : CheckArguments) (s : Settings) (v : Version) : RunRequest where
  title := some s!"Edge services health check (Kubernetes {v.text})"
  services := a.service.services
  beforeDeployment := a.before
  afterDeployment := a.after
  withDisplays := a.asList
  level := a.level
  kinds := a.kinds
  namePattern := a.namePattern
  excluded := []
  policy := s.readiness

/-- Where and how long the run looks. The deadline is counted from its start. -/
def context (a : CheckArguments) (s : Settings) : RunContext :=
  { RunContext.ofSettings s with
    ns := a.ns
    deadline := a.timeout.map (1000 * ·)
    brokerStats := a.stats }

/-- Whether warnings before deployment are failures. -/
def isStrict (a : CheckArguments) (s : Settings) : Bool := a.strict || s.readiness.strict

/-- How the report is shown to a human reader. -/
def view (a : CheckArguments) : View := ⟨a.level, !a.plain⟩

end CheckArguments

namespace BundleArguments

/-- The services to collect from, if the word for them is known. -/
def services? (a : BundleArguments) : Option (Option (List Service)) :=
  if a.service.toLower = "auto" then some none
  else (Service.ofText? a.service).map fun s => some [s]

/-- What the bundle is asked to hold. A negative age is as good as none. -/
def request? (a : BundleArguments) (fileName : String) : Option BundleRequest :=
  a.services?.map fun services => ⟨services, max a.logAge 0, a.directory, fileName⟩

end BundleArguments

/-- What is wrong with a command line. -/
def UsageError.message : UsageError → String
  | .missingValue switch => s!"a value is required for --{switch}"
  | .unknownValue argument value => s!"'{value}' is no value for {argument}"
  | .badNumber switch value => s!"'{value}' is no number for --{switch}"
  | .unwantedValue switch => s!"--{switch} takes no value"
  | .repeated switch => s!"--{switch} cannot be used multiple times"
  | .unknownArgument word => s!"unexpected argument '{word}'"
  | .unknownCommand word => s!"there is no command '{word}'"
  | .missingCommand => "a command is required: version, check, support-bundle"
  | .nothingGiven | .help =>
    "usage: edge-diag [-v] [--log-json] (version | check [SERVICE] | support-bundle) [OPTIONS]"
  | .version => "edge-diag 0.1.0"

end EdgeHealth
