import EdgeHealth.Evaluate.Finding
import EdgeHealth.Stats.Scrape

/-!
# Checking the statistics of the broker

The check of the statistics that the broker serves. A pod that serves them is looked for, its
statistics are fetched, and chosen values and thresholds are recorded. That they cannot be fetched
is a warning and no failure.

## Main definitions

* `Statistics.servingPod?` : the pod that serves the statistics.
* `Statistics.notes` : the notes about statistics.
* `Statistics.gather` : the notes about what a pod serves.
* `Statistics.check` : the check.
-/

namespace EdgeHealth.Statistics

/-- The name of the check. -/
def checkName : String := "evalBrokerStats"

/-- What the check does. -/
def description : String := "Evaluate MQTT broker statistics"

/-- The target of the check. -/
def target : String := "broker/stats"

/-- The metrics that are recorded where they are there, in order. -/
def reported : List String :=
  ["aio_mq_publishes_received", "aio_mq_publishes_sent", "aio_mq_connected_sessions",
    "aio_mq_total_subscriptions", "aio_mq_store_retained_messages",
    "aio_mq_payload_check_total_messages_received", "aio_mq_payload_check_latency_last_value"]

/-- The pod that serves the statistics: the first one that runs and has the right name. -/
def servingPod? (pods : List Pod) : Option Pod :=
  pods.find? fun p =>
    p.metadata.name.any (fun name => name.startsWith Service.statisticsPod) &&
      p.phase? == some "Running"

/-- The notes about one condition. -/
def record (ns condition : String) (status : Status) (value : Json) : List Note :=
  let text := match value with
    | .string s => s
    | v => v.compact
  [.display target ns [.statusField 2 condition text status],
    .observe target ns condition (.of status value)]

/-- The condition that the statistics can be fetched. -/
def reachable (port : Nat) : String := s!"reachable({Service.statisticsPod}:{port})"

/-- The notes about statistics. -/
def notes (ns : String) (stats : BrokerStats) : List Note :=
  let values := reported.filterMap fun metric =>
    (stats.get? metric).map fun v => record ns metric .success (.ofBinary64 v)
  let thresholds := stats.thresholds.map fun t =>
    record ns t.condition (if t.met then .success else .warning) (.ofBinary64 t.value)
  (values ++ thresholds).flatten

/-- What came of fetching statistics; without an outcome they did not come in time. -/
def fetchNotes (context : RunContext) (ns pod : String)
    (outcome : Option (Except ClusterError BrokerStats)) : List Note :=
  let port := context.statsPort
  match outcome.getD (.error (.timeout s!"scrape {pod}:{port}" context.apiTimeout)) with
  | .ok stats => record ns (reachable port) .success (.string pod) ++ notes ns stats
  | .error e =>
    record ns (reachable port) .warning
      (.string s!"Unable to fetch broker statistics: {e.message}")

/-- The notes about the statistics that the first of some pods serves. -/
def gather (context : RunContext) (pods : List Pod) : Attempt (List Note) :=
  match servingPod? pods with
  | none =>
    return record allNamespaces (reachable context.statsPort) .warning
      (.string s!"No running {Service.statisticsPod} pod detected.")
  | some pod => do
    let ns := pod.nsOr allNamespaces
    let outcome ← Attempt.lift
      (Session.timeout context.apiTimeout (Scrape.fetch ns pod.name context.statsPort).run)
    return fetchNotes context ns pod.name outcome

/-- The check of the statistics. -/
def check (scope : Scope) : Attempt Check := do
  let pods ← Attempt.ask (.listPods scope.context.ns none)
  let notes ← gather scope.context pods
  return .ofNotesFor scope.withDisplays checkName description notes

end EdgeHealth.Statistics
