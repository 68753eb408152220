import EdgeHealth.Check.Record
import EdgeHealth.CommandLine.Requests
import EdgeHealth.Kube.Http
import EdgeHealth.Run.Report
import EdgeHealth.Run.Verdict
import EdgeHealth.Settings.Document

/-!
# The program

The command line of the program: it reads the words, loads the settings, looks at the cluster and
shows what it found. No way to an API server is built in, so that no request arrives and every
command that needs the cluster says so.
-/

namespace EdgeHealth.Program

/-- Tells what went wrong. -/
def complain (message : String) : IO UInt32 := do
  IO.eprintln s!"Error: {message}"
  return 1

/-- The settings in a file; those where nothing else is said without a file. -/
def settings : Option String → IO (Except SettingsError Settings)
  | none => return .ok .standard
  | some path =>
    try
      return Settings.ofYaml (← IO.FS.readFile path)
    catch _ =>
      return .error .unreadable

/-- The wording of an error in a file of settings. -/
def settingsMessage (path : Option String) (e : SettingsError) : String :=
  e.message?.getD ("Cannot use the settings in " ++ path.getD "no file")

/-- The cluster behind the API server. -/
def cluster (s : Settings) : Cluster :=
  Kube.cluster (s.apiTimeoutSeconds * 1000) fun _ =>
    ⟨0, .ok (.fails "no way to an API server is built in")⟩

/-- The failures of a report, where they are asked for. -/
def verdict (a : CheckArguments) (s : Settings) (r : Report) : IO UInt32 := do
  if a.isStrict s then
    match Failure.verdict true r.preDeployment with
    | .ok _ => return 0
    | .error failures => complain (Failure.report failures)
  else return 0

/-- The run of the checks on a cluster of a version. -/
def checkOn (a : CheckArguments) (s : Settings) (v : Version) : IO UInt32 := do
  match (Session.run ((a.request s v).report (a.context s)) (cluster s)).result with
  | .ok r =>
    if a.asList then IO.print (a.view.report r) else IO.println r.machineText
    verdict a s r
  | .error .cutOff => complain "The checks did not end"
  | .error .aborted => complain "The checks were aborted"

/-- The command that checks. -/
def check (a : CheckArguments) : IO UInt32 := do
  match ← settings a.settings with
  | .error e => complain (settingsMessage a.settings e)
  | .ok s =>
    match (Session.run (Session.ask .serverVersion) (cluster s)).result with
    | .ok (.ok v) => checkOn a s v
    | .ok (.error e) =>
      let cause := e.message
      complain s!"Cannot reach the Kubernetes API server: {cause}"
    | .error _ => complain "Cannot reach the Kubernetes API server"

/-- The command that collects a bundle. The archive is put together in memory, and its entries are
told. -/
def bundle (a : BundleArguments) : IO UInt32 := do
  match ← settings a.settings with
  | .error e => complain (settingsMessage a.settings e)
  | .ok s =>
    match a.request? "support_bundle.zip" with
    | none => complain (Service.unknownMessage a.service)
    | some q =>
      let cluster := cluster s
      let outcome := Bundle.build cluster 4 (Bundle.inTime cluster q.logAge none)
        (some Table.empty) q
      match outcome.result with
      | .error e => complain (e.message?.getD "The archive has two entries of one path")
      | .ok b =>
        b.warnings.forM fun warning => IO.eprintln s!"warning: {warning}"
        let entries := (outcome.directory.bind fun d => d.get? q.fileName).getD Table.empty
        entries.keys.forM fun path => IO.println path
        return 0

/-- A command line. -/
def perform (words : List String) : IO UInt32 := do
  match CommandLine.read words with
  | .ok ⟨_, .version⟩ =>
    IO.println UsageError.version.message
    return 0
  | .ok ⟨_, .check a⟩ => check a
  | .ok ⟨_, .bundle a⟩ => bundle a
  | .error e =>
    if e = .help ∨ e = .version then
      IO.println e.message
      return 0
    else
      IO.eprintln s!"error: {e.message}"
      return 2

end EdgeHealth.Program

/-- The program. -/
def main (words : List String) : IO UInt32 := EdgeHealth.Program.perform words
