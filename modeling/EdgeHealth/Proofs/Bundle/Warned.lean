import EdgeHealth.Proofs.Bundle.Refused
import EdgeHealth.Proofs.Bundle.Schedule

/-!
# What a bundle warns of

A bundle that is built may have met failures. A task that fails leaves a warning with the cause;
only that there is no measurement of a pod is no failure. A service that was asked for by name and
has no API leaves a warning too. Where no services were asked for by name, the services are those
that have an API; so a service whose API does not answer is left out, and there is no warning about
it, whatever the cause.

## Main definitions

* `Task.failure?`, `Task.warning` : the failure of a task, and its warning.
* `Bundle.AccountsFor` : what a bundle makes of the failure of a question.

## Main results

* `Task.failure?_eq_some_iff` : a task fails with its question, unless there is no measurement.
* `Task.isAboutTask_warning`, `Survey.isAboutTask_warning` : the warnings about tasks are told from
  those about services.
* `Bundle.build_warns_of_failures` : the failures and warnings of a bundle.
-/

namespace EdgeHealth

/-! ### The warnings about tasks -/

namespace Task

variable {cluster : Cluster} {logAge : Int} {t : Task} {e : ClusterError}

/-- Why a task fails, if it does. -/
def failure? (cluster : Cluster) (logAge : Int) (t : Task) : Option ClusterError :=
  match t.harvest logAge (cluster.reply (t.call logAge)).answer with
  | .ok _ => none
  | .error e => some e

/-- The wording of the warning that a task failed. -/
def warning (t : Task) (e : ClusterError) : String := s!"Failed to collect {t.title}: {e.message}"

theorem warning?_outcome (cluster : Cluster) (logAge : Int) (t : Task) :
    TaskOutcome.warning? (t.outcome cluster logAge) =
      (t.failure? cluster logAge).map t.warning := by
  unfold outcome failure?
  cases t.harvest logAge (cluster.reply (t.call logAge)).answer <;> rfl

/-- A task fails for the cause that its answer gives, unless that is that there is no measurement of
a pod. -/
theorem harvest_eq_error_iff {t : Task} {answer : Except ClusterError (t.call logAge).Answer} :
    t.harvest logAge answer = .error e ↔
      answer = .error e ∧ (e.isNotFound → ∀ ns pod, t ≠ .podMetric ns pod) := by
  cases t with
  | podMetric ns pod =>
    cases answer with
    | ok metric => simp [harvest]
    | error e' =>
      simp only [harvest]
      split
      · next he =>
        refine iff_of_false nofun ?_
        rintro ⟨⟨⟩, hmetric⟩
        exact hmetric he ns pod rfl
      · next he =>
        constructor
        · rintro ⟨⟩
          exact ⟨rfl, fun h => absurd h he⟩
        · rintro ⟨⟨⟩, -⟩
          rfl
  | _ => cases answer <;> simp [harvest, Except.map]

theorem failure?_eq_some_iff :
    t.failure? cluster logAge = some e ↔ (cluster.reply (t.call logAge)).answer = .error e ∧
      (e.isNotFound → ∀ ns pod, t ≠ .podMetric ns pod) := by
  rw [← harvest_eq_error_iff, failure?]
  cases t.harvest logAge (cluster.reply (t.call logAge)).answer <;> simp

end Task

/-- Whether a warning says that something was not collected. -/
def Bundle.isAboutTask (warning : String) : Bool :=
  "Failed to collect ".toList.isPrefixOf warning.toList

theorem Task.isAboutTask_warning (t : Task) (e : ClusterError) :
    Bundle.isAboutTask (t.warning e) := by
  have hwarning : t.warning e = "Failed to collect " ++ (t.title ++ ": " ++ e.message) := by
    rw [← String.append_assoc, ← String.append_assoc]
    rfl
  rw [Bundle.isAboutTask, hwarning, String.toList_append, List.isPrefixOf_iff_prefix]
  exact List.prefix_append _ _

/-- The warnings about services begin with the names of APIs. -/
theorem Survey.isAboutTask_warning (s : Service) (e : ClusterError) :
    Bundle.isAboutTask (warning s e) = false := by
  have hwarning : warning s e = s.api.text ++ (" API not detected: " ++ e.message) := by
    rw [← String.append_assoc]
    rfl
  rw [Bundle.isAboutTask, hwarning, String.toList_append]
  generalize (" API not detected: " ++ e.message).toList = rest
  cases s <;> rfl

namespace Bundle

variable {cluster : Cluster} {workers : Nat} {conduct : Conductor} {directory : Option Directory}
  {q : BundleRequest} {bundle : Bundle}

/-! ### The warnings of a bundle -/

/-- What a bundle that was built has asked, and of what it warns. -/
theorem warnings_calls_of_ok (h : conduct.Finishes (Collection.labour cluster q.logAge) workers)
    (hok : (build cluster workers conduct directory q).result = .ok bundle) :
    Survey.IsReached cluster q.candidates ∧
    bundle.services = (q.survey cluster).services ∧
    bundle.warnings = (q.survey cluster).warnings ++
      (Collection.plan cluster q.logAge (q.survey cluster)).filterMap
        (fun t => (t.failure? cluster q.logAge).map t.warning) ∧
    (build cluster workers conduct directory q).calls = Survey.questions q.candidates ++
      (Collection.plan cluster q.logAge (q.survey cluster)).map (Task.call q.logAge) := by
  obtain ⟨hdirectory, hreached, hne⟩ :=
    (build_ends cluster workers conduct directory q).exists_ok_iff.1 ⟨bundle, hok⟩
  obtain ⟨d, rfl⟩ := Option.ne_none_iff_exists'.1 hdirectory
  obtain ⟨d', hbuild⟩ := exists_build_eq workers conduct d hreached hne
  obtain ⟨hwarnings, hcalls⟩ := Collection.warnings_calls_runInTurn cluster q.logAge
    (q.survey cluster) (Survey.questions q.candidates)
  rw [hbuild] at hok
  cases hok
  refine ⟨hreached, rfl, ?_, ?_⟩
  · rw [Collection.run_eq_runInTurn h, hwarnings, List.filterMap_map]
    exact congrArg _ (List.filterMap_congr fun t _ => t.warning?_outcome cluster q.logAge)
  · rw [hbuild, Collection.run_eq_runInTurn h, hcalls]

/-- What a bundle makes of the failure of a question: there is a warning about the task or about the
service that the question belongs to; or no services were asked for by name, and the service is left
out. -/
inductive AccountsFor (cluster : Cluster) (q : BundleRequest) (bundle : Bundle) :
    Call → ClusterError → Prop
  /-- A task failed. -/
  | task {t : Task} {e : ClusterError}
      (ht : t ∈ Collection.plan cluster q.logAge (q.survey cluster))
      (hwarning : t.warning e ∈ bundle.warnings) :
    AccountsFor cluster q bundle (t.call q.logAge) e
  /-- A service that was asked for by name has no API. -/
  | service {s : Service} {e : ClusterError} (hs : s ∈ q.candidates)
      (hwarning : Survey.warning s e ∈ bundle.warnings) :
    AccountsFor cluster q bundle (Survey.question s) e
  /-- No service was asked for by name. -/
  | leftOut {s : Service} {e : ClusterError} (hs : s ∈ q.candidates) (hq : q.services = none)
      (hleft : s ∉ bundle.services) :
    AccountsFor cluster q bundle (Survey.question s) e

/-- A failure of a question about a service that is reached. -/
theorem accountsFor_question {s : Service} {e : ClusterError} (hs : s ∈ q.candidates)
    (hserves : cluster.serves s = .error e)
    (hservices : bundle.services = (q.survey cluster).services)
    (hwarnings : ∀ w ∈ (q.survey cluster).warnings, w ∈ bundle.warnings) :
    AccountsFor cluster q bundle (Survey.question s) e := by
  cases hq : q.services with
  | none =>
    refine .leftOut hs hq fun hmem => ?_
    rw [hservices, BundleRequest.survey, Survey.ofReached, List.mem_filter] at hmem
    simp [Survey.isChosen, hserves, hq] at hmem
  | some services =>
    refine .service hs (hwarnings _ (List.mem_filterMap.2 ⟨s, hs, ?_⟩))
    simp [Survey.warning?, hserves, hq]

theorem isAboutTask_of_mem_survey {w : String} (h : w ∈ (q.survey cluster).warnings) :
    isAboutTask w = false := by
  obtain ⟨s, -, hs⟩ := List.mem_filterMap.1 h
  unfold Survey.warning? at hs
  split at hs
  · cases hs
  · simp only [Option.ite_none_right_eq_some, Option.some.injEq] at hs
    obtain ⟨-, rfl⟩ := hs
    exact Survey.isAboutTask_warning s _

/-- **No failure goes unreported**, save that a service is left out which was not asked for by name
and whose API does not answer. In a bundle that is built without a cancellation, every question that
fails, and not because there is nothing, is accounted for in one of these ways. Conversely the
warnings that something was not collected are those about the tasks that failed, one for each of
them, in the order of the plan, and all other warnings are about services. -/
theorem build_warns_of_failures
    (h : conduct.Finishes (Collection.labour cluster q.logAge) workers)
    (hok : (build cluster workers conduct directory q).result = .ok bundle) :
    let tasks := Collection.plan cluster q.logAge (q.survey cluster)
    (build cluster workers conduct directory q).calls =
      Survey.questions q.candidates ++ tasks.map (Task.call q.logAge) ∧
    (∀ call ∈ (build cluster workers conduct directory q).calls, ∀ e,
      (cluster.reply call).answer = .error e → e.isNotFound = false →
        AccountsFor cluster q bundle call e) ∧
    bundle.warnings.filter isAboutTask =
      tasks.filterMap (fun t => (t.failure? cluster q.logAge).map t.warning) ∧
    (∀ (t : Task) e, t.failure? cluster q.logAge = some e ↔
      (cluster.reply (t.call q.logAge)).answer = .error e ∧
        (e.isNotFound → ∀ ns pod, t ≠ .podMetric ns pod)) ∧
    bundle.warnings.filter (fun w => !isAboutTask w) =
      q.candidates.filterMap (Survey.warning? q.services.isSome cluster) := by
  intro tasks
  obtain ⟨hreached, hservices, hwarnings, hcalls⟩ := warnings_calls_of_ok h hok
  have hservice : ∀ w ∈ (q.survey cluster).warnings, isAboutTask w = false :=
    fun _ => isAboutTask_of_mem_survey
  have htask : ∀ w ∈ tasks.filterMap (fun t => (t.failure? cluster q.logAge).map t.warning),
      isAboutTask w = true := by
    intro w hw
    obtain ⟨t, -, hfailure⟩ := List.mem_filterMap.1 hw
    obtain ⟨e, -, rfl⟩ := Option.map_eq_some_iff.1 hfailure
    exact t.isAboutTask_warning e
  refine ⟨hcalls, fun call hcall e hanswer he => ?_, ?_, fun _ _ => Task.failure?_eq_some_iff, ?_⟩
  · rw [hcalls, Survey.questions, List.cons_append, List.mem_cons, List.mem_append] at hcall
    rcases hcall with rfl | hcall | hcall
    · obtain ⟨v, hversion⟩ := hreached.version
      cases hversion.symm.trans hanswer
    · obtain ⟨s, hs, rfl⟩ := List.mem_map.1 hcall
      refine accountsFor_question hs hanswer hservices fun w hw => ?_
      rw [hwarnings]
      exact List.mem_append_left _ hw
    · obtain ⟨t, ht, rfl⟩ := List.mem_map.1 hcall
      have hfailure := Task.failure?_eq_some_iff.2 ⟨hanswer, fun hfound => by simp [he] at hfound⟩
      refine .task ht ?_
      rw [hwarnings]
      exact List.mem_append_right _ (List.mem_filterMap.2 ⟨t, ht, by rw [hfailure]; rfl⟩)
  -- the warnings about services and those about tasks are told apart by how they begin
  · have hnone : (q.survey cluster).warnings.filter isAboutTask = [] :=
      List.filter_eq_nil_iff.2 fun w hw => by simp [hservice w hw]
    rw [hwarnings, List.filter_append, hnone, List.nil_append]
    exact List.filter_eq_self.2 htask
  · have hnone : (tasks.filterMap fun t => (t.failure? cluster q.logAge).map t.warning).filter
        (fun w => !isAboutTask w) = [] :=
      List.filter_eq_nil_iff.2 fun w hw => by simp [htask w hw]
    rw [hwarnings, List.filter_append, hnone, List.append_nil]
    exact List.filter_eq_self.2 fun w hw => by simp [hservice w hw]

/-- A cluster that does not let the API of the broker be asked for, serves that of the connectors,
and has no pods. -/
private def guarded (nodes : Except ClusterError (List Node)) : Cluster where
  reply
    | .serverVersion => ⟨1, .ok ⟨[1, 30, 0]⟩⟩
    | .listApiResources api =>
      if api = Service.broker.api then ⟨2, .error (.api 403 "forbidden")⟩
      else if api = Service.connector.api then ⟨2, .ok []⟩
      else ⟨2, .error (.notFound "api" api.text)⟩
    | .listPods .. => ⟨5, .ok []⟩
    | .listNodes => ⟨5, nodes⟩
    | _ => ⟨2, .error (.api 503 "unavailable")⟩

/-- The request for a bundle of all services, without logs. -/
private def whatever : BundleRequest := ⟨none, 0, "bundles", "support.zip"⟩

private theorem isReached_guarded (nodes : Except ClusterError (List Node)) :
    Survey.IsReached (guarded nodes) whatever.candidates := by
  refine ⟨⟨_, rfl⟩, fun s _ e he => ?_⟩
  cases s <;> cases he <;> simp [ClusterError.IsLoss]

private theorem survey_guarded (nodes : Except ClusterError (List Node)) :
    whatever.survey (guarded nodes) = ⟨[.connector], [], []⟩ := by
  rfl

/-- The pods and the nodes are asked for, and the nodes may fail. -/
private theorem warnings_guarded (nodes : Except ClusterError (List Node)) :
    (Collection.plan (guarded nodes) 0 ⟨[.connector], [], []⟩).filterMap
      (fun t => (t.failure? (guarded nodes) 0).map t.warning) =
        match nodes with
        | .ok _ => []
        | .error e => [Task.nodes.warning e] := by
  cases nodes <;> rfl

/-- The bundle of four workers who act in the order of time. -/
private theorem result_guarded (nodes : Except ClusterError (List Node)) :
    (build (guarded nodes) 4 (inTime (guarded nodes) 0 none) (some Table.empty) whatever).result =
      .ok ⟨[.connector],
        match nodes with
        | .ok _ => []
        | .error e => [Task.nodes.warning e]⟩ := by
  have hok := (build_ends (guarded nodes) 4 (inTime (guarded nodes) 0 none) (some Table.empty)
    whatever).exists_ok_iff.2 ⟨nofun, isReached_guarded nodes, by rw [survey_guarded]; exact nofun⟩
  obtain ⟨⟨services, warnings⟩, hok⟩ := hok
  obtain ⟨-, hservices, hwarnings, -⟩ :=
    warnings_calls_of_ok (finishes_inTime (guarded nodes) whatever.logAge 4) hok
  rw [survey_guarded] at hservices hwarnings
  rw [hok, ← warnings_guarded nodes]
  simp only at hservices hwarnings
  rw [hservices, hwarnings]
  rfl

/-- The nodes are refused, which leaves a warning. -/
theorem build_warns_of_failures_nodes :
    (inTime (guarded (.error (.api 503 "unavailable"))) whatever.logAge none).Finishes
      (Collection.labour (guarded (.error (.api 503 "unavailable"))) whatever.logAge) 4 ∧
    (build (guarded (.error (.api 503 "unavailable"))) 4
      (inTime (guarded (.error (.api 503 "unavailable"))) whatever.logAge none) (some Table.empty)
      whatever).result = .ok ⟨[.connector],
        ["Failed to collect nodes: Kubernetes API error (503): unavailable"]⟩ ∧
    AccountsFor (guarded (.error (.api 503 "unavailable"))) whatever ⟨[.connector],
      ["Failed to collect nodes: Kubernetes API error (503): unavailable"]⟩ .listNodes
      (.api 503 "unavailable") := by
  have hfinishes := finishes_inTime (guarded (.error (.api 503 "unavailable"))) whatever.logAge 4
  have hresult := result_guarded (.error (.api 503 "unavailable"))
  obtain ⟨hcalls, haccounts, -⟩ := build_warns_of_failures hfinishes hresult
  refine ⟨hfinishes, hresult, haccounts .listNodes ?_ _ rfl rfl⟩
  rw [hcalls, survey_guarded]
  exact List.mem_append_right _ (by decide)

/-- A service that was not asked for by name and whose API does not answer is left out without a
warning. -/
theorem build_leaves_out_guarded :
    (inTime (guarded (.ok [])) whatever.logAge none).Finishes
      (Collection.labour (guarded (.ok [])) whatever.logAge) 4 ∧
    (build (guarded (.ok [])) 4 (inTime (guarded (.ok [])) whatever.logAge none) (some Table.empty)
      whatever).result = .ok ⟨[.connector], []⟩ ∧
    .listApiResources Service.broker.api ∈ (build (guarded (.ok [])) 4
      (inTime (guarded (.ok [])) whatever.logAge none) (some Table.empty) whatever).calls ∧
    ((guarded (.ok [])).reply (.listApiResources Service.broker.api)).answer =
      .error (.api 403 "forbidden") ∧
    (ClusterError.api 403 "forbidden").isNotFound = false := by
  have hfinishes := finishes_inTime (guarded (.ok [])) whatever.logAge 4
  have hresult := result_guarded (.ok [])
  obtain ⟨-, -, -, hcalls⟩ := warnings_calls_of_ok hfinishes hresult
  refine ⟨hfinishes, hresult, ?_, rfl, rfl⟩
  rw [hcalls]
  exact List.mem_append_left _ (by decide)

end Bundle

end EdgeHealth
