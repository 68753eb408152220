import EdgeHealth.Proofs.Bundle.Collected
import EdgeHealth.Proofs.Bundle.Drive

/-!
# A bundle does not depend on the schedule

The tasks of a bundle may be shared by any number of workers, who may act in any order. As long as
the work is not cancelled, the bundle is the one that comes of doing the tasks one after another in
the order of the plan. Where two artifacts have one path, that of the earlier task is kept.

## Main definitions

* `Collection.runInTurn`, `Bundle.buildInTurn` : the tasks one after another.
* `Collection.plan` : the tasks of a bundle.
* `Conductor.Finishes` : a conductor that leads pools to rest without a cancellation.

## Main results

* `Collection.phase_eq_phaseInTurn` : a phase does not depend on the schedule.
* `Bundle.build_eq_buildInTurn` : nor does the bundle.
-/

namespace EdgeHealth

/-! ### One task after another -/

/-- What a task comes to on a cluster. -/
def Task.outcome (cluster : Cluster) (logAge : Int) (t : Task) : TaskOutcome :=
  (t, t.harvest logAge (cluster.reply (t.call logAge)).answer)

namespace Collection

variable {cluster : Cluster} {logAge : Int}

/-- A collection after one more task. -/
def doTask (cluster : Cluster) (logAge : Int) (c : Collection) (t : Task) : Collection :=
  { c.add (t.outcome cluster logAge) with calls := c.calls ++ [t.call logAge] }

/-- A collection after tasks one after another. -/
def phaseInTurn (cluster : Cluster) (logAge : Int) (c : Collection) (tasks : List Task) :
    Collection :=
  tasks.foldl (doTask cluster logAge) c

/-- The collection of all tasks one after another, in two phases. -/
def runInTurn (cluster : Cluster) (logAge : Int) (survey : Survey) (calls : List Call) :
    Collection :=
  let first := (ofSurvey survey calls).phaseInTurn cluster logAge
    (Task.initial survey.services survey.kinds)
  first.phaseInTurn cluster logAge (Task.followUp logAge first.pods)

/-- A collection after tasks one after another holds what each of them came to. -/
theorem phaseInTurn_eq : (tasks : List Task) → (c : Collection) →
    c.phaseInTurn cluster logAge tasks =
      { (tasks.map (Task.outcome cluster logAge)).foldl add c with
        calls := c.calls ++ tasks.map (Task.call logAge) }
  | [], c => by simp [phaseInTurn]
  | t :: tasks, c => by
    have ih := phaseInTurn_eq tasks (c.doTask cluster logAge t)
    rw [phaseInTurn] at ih
    rw [phaseInTurn, List.foldl_cons, ih, List.map_cons, List.foldl_cons, foldl_add, foldl_add]
    simp [doTask]

/-- What tasks come to on a cluster does not depend on their numbers. -/
theorem outcomes_labour (tasks : List Task) :
    (labour cluster logAge).outcomes tasks = tasks.map (Task.outcome cluster logAge) := by
  calc (labour cluster logAge).outcomes tasks
      = ((Pool.numbered tasks).map Prod.snd).map (Task.outcome cluster logAge) := by
        rw [Labour.outcomes, List.map_map]
        rfl
    _ = tasks.map (Task.outcome cluster logAge) := by rw [Pool.map_snd_numbered]

end Collection

/-! ### Any schedule -/

/-- A conductor leads every pool from its start to rest, without a cancellation. -/
def Conductor.Finishes (conduct : Conductor) (labour : Labour Task (Except ClusterError Harvest))
    (workers : Nat) : Prop :=
  ∀ asked tasks, ∃ moves, .cancel ∉ moves ∧ Pool.Course labour (Pool.start workers false tasks)
    (conduct asked (Pool.start workers false tasks)) moves

/-- The steps in the order of time lead every pool to rest. -/
theorem Bundle.finishes_inTime (cluster : Cluster) (logAge : Int) (workers : Nat) :
    (inTime cluster logAge none).Finishes (Collection.labour cluster logAge) workers := by
  intro asked tasks
  obtain ⟨moves, hmoves, hcourse⟩ := Pool.exists_course_drive (Collection.labour cluster logAge)
    none (Pool.start workers false tasks)
  exact ⟨moves, hmoves rfl, hcourse⟩

namespace Collection

variable {cluster : Cluster} {logAge : Int} {workers : Nat} {conduct : Conductor}

/-- A phase that is not cancelled is the same as its tasks one after another. -/
theorem phase_eq_phaseInTurn (h : conduct.Finishes (labour cluster logAge) workers)
    (c : Collection) (hc : c.cancelled = false) (tasks : List Task) :
    c.phase workers conduct logAge tasks = c.phaseInTurn cluster logAge tasks := by
  obtain ⟨moves, hmoves, hcourse⟩ := h c.calls.length tasks
  rw [← hc] at hcourse
  have hcancelled :
      (conduct c.calls.length (Pool.start workers c.cancelled tasks)).cancelled = false := by
    rw [Bool.eq_false_iff, ne_eq, hcourse.cancelled_iff]
    simp [hc, hmoves]
  have hstarted := hcourse.started_eq hcancelled
  rw [phase_eq hcourse, hstarted, hcancelled, outcomes_labour, phaseInTurn_eq, foldl_add]
  simp [hc]

/-- Tasks one after another do not cancel the work. -/
theorem cancelled_phaseInTurn (c : Collection) (tasks : List Task) :
    (c.phaseInTurn cluster logAge tasks).cancelled = c.cancelled := by
  rw [phaseInTurn_eq, foldl_add]

/-- A collection that is not cancelled is the same as its tasks one after another. -/
theorem run_eq_runInTurn (h : conduct.Finishes (labour cluster logAge) workers) (survey : Survey)
    (calls : List Call) :
    run workers conduct logAge survey calls = runInTurn cluster logAge survey calls := by
  have hfirst := phase_eq_phaseInTurn h (ofSurvey survey calls) rfl
    (Task.initial survey.services survey.kinds)
  have hcancelled : ((ofSurvey survey calls).phaseInTurn cluster logAge
      (Task.initial survey.services survey.kinds)).cancelled = false := cancelled_phaseInTurn _ _
  have hsecond := phase_eq_phaseInTurn h _ hcancelled
  have hwhole : (runInTurn cluster logAge survey calls).cancelled = false :=
    (cancelled_phaseInTurn _ _).trans hcancelled
  have hnote : (runInTurn cluster logAge survey calls).noteCancelled =
      runInTurn cluster logAge survey calls := if_neg (by simp [hwhole])
  simp only [run, hfirst, hcancelled, hsecond, Bool.false_eq_true, if_false]
  exact hnote

/-- What the tasks of the first phase come to. -/
def firstOutcomes (cluster : Cluster) (logAge : Int) (survey : Survey) : List TaskOutcome :=
  (Task.initial survey.services survey.kinds).map (Task.outcome cluster logAge)

/-- The pods from which the tasks of the second phase are planned. -/
def foundPods (cluster : Cluster) (logAge : Int) (survey : Survey) : List Pod :=
  (firstOutcomes cluster logAge survey).flatMap TaskOutcome.pods

/-- The tasks of a bundle, in the order of the plan. -/
def plan (cluster : Cluster) (logAge : Int) (survey : Survey) : List Task :=
  Task.initial survey.services survey.kinds ++
    Task.followUp logAge (foundPods cluster logAge survey)

/-- Tasks one after another ask and warn in the order of the plan. -/
theorem warnings_calls_runInTurn (cluster : Cluster) (logAge : Int) (survey : Survey)
    (calls : List Call) :
    (runInTurn cluster logAge survey calls).warnings = survey.warnings ++
      ((plan cluster logAge survey).map (Task.outcome cluster logAge)).filterMap
        TaskOutcome.warning? ∧
    (runInTurn cluster logAge survey calls).calls =
      calls ++ (plan cluster logAge survey).map (Task.call logAge) := by
  simp [runInTurn, phaseInTurn_eq, foldl_add, ofSurvey, plan, foundPods, firstOutcomes]

/-- The slots of all artifacts in the order of the plan. -/
def slots (cluster : Cluster) (logAge : Int) (survey : Survey) : List (String × Payload) :=
  let first := (Task.initial survey.services survey.kinds).map (Task.outcome cluster logAge)
  let second := (Task.followUp logAge (first.flatMap TaskOutcome.pods)).map
    (Task.outcome cluster logAge)
  (first ++ second).flatMap TaskOutcome.artifacts

/-- The artifacts of the tasks one after another: of those with one path the first is kept. -/
theorem toList_artifacts_runInTurn (survey : Survey) (calls : List Call) :
    (runInTurn cluster logAge survey calls).artifacts.toList =
      Table.firsts (slots cluster logAge survey) := by
  simp only [runInTurn, phaseInTurn_eq, foldl_add, ofSurvey, List.nil_append]
  rw [← List.foldl_append, ← List.flatMap_append, Table.toList_foldl_insertNew]
  simp [slots, Table.empty, Table.keys]

end Collection

namespace Bundle

/-- A bundle whose tasks are done one after another in the order of the plan. -/
def buildInTurn (cluster : Cluster) (directory : Option Directory) (q : BundleRequest) :
    BundleOutcome :=
  buildBy (Collection.runInTurn cluster q.logAge) cluster directory q

/-- **A bundle does not depend on the schedule.** With any number of workers, who act in any order
and are not cancelled, the bundle, the directory and the questions are those of the tasks done one
after another in the order of the plan. The artifacts stand in the order of the plan, and of those
with one path the first is kept. -/
theorem build_eq_buildInTurn {cluster : Cluster} {workers : Nat} {conduct : Conductor}
    {q : BundleRequest} (h : conduct.Finishes (Collection.labour cluster q.logAge) workers) :
    (∀ directory, build cluster workers conduct directory q = buildInTurn cluster directory q) ∧
      ∀ (survey : Survey) (calls : List Call),
        let slots := Collection.slots cluster q.logAge survey
        let whole := Collection.run workers conduct q.logAge survey calls
        whole.artifacts.toList = Table.firsts slots ∧
          ∀ path, whole.artifacts.get? path = Table.find? path slots := by
  refine ⟨fun directory => ?_, fun survey calls => ?_⟩
  · have hrun : Collection.run workers conduct q.logAge =
        Collection.runInTurn cluster q.logAge :=
      funext fun survey => funext fun calls => Collection.run_eq_runInTurn h survey calls
    rw [build, buildInTurn, hrun]
  · intro slots whole
    have hlist : whole.artifacts.toList = Table.firsts slots := by
      rw [← Collection.toList_artifacts_runInTurn survey calls, ← Collection.run_eq_runInTurn h]
    refine ⟨hlist, fun path => ?_⟩
    rw [Table.get?, hlist, Table.find?_firsts]

/-- A pod that is listed in some phase. -/
private def gateway (phase : String) : Pod :=
  ⟨⟨some "gateway-0", some "edge", none⟩, none, some ⟨some phase, none, none⟩⟩

/-- A cluster that lists one pod for two services. It tells of an earlier phase of the pod for the
first service, and takes longer to do so. -/
private def shifting : Cluster where
  reply
    | .serverVersion => ⟨1, .ok ⟨[1, 30, 0]⟩⟩
    | .listApiResources _ => ⟨2, .ok []⟩
    | .listPods _ selector =>
      if selector = some Service.broker.podSelector then ⟨20, .ok [gateway "Pending"]⟩
      else ⟨5, .ok [gateway "Running"]⟩
    | _ => ⟨2, .error (.api 503 "unavailable")⟩

/-- The request for a bundle of these services. -/
private def both : BundleRequest := ⟨some [.broker, .connector], 60, "bundles", "support.zip"⟩

private theorem slots_shifting :
    Collection.slots shifting both.logAge ⟨[.broker, .connector], [], []⟩ =
      [("edge/pod.gateway-0.yaml", .yaml (gateway "Pending").toJson),
        ("edge/pod.gateway-0.yaml", .yaml (gateway "Running").toJson)] := by
  decide +kernel

/-- Three workers act in the order of time, so that the pod for the second service comes first. The
manifests of the pod have one path, and it is that for the first service which is kept. -/
theorem build_eq_buildInTurn_inTime :
    (inTime shifting 60 none).Finishes (Collection.labour shifting both.logAge) 3 ∧
      build shifting 3 (inTime shifting 60 none) (some Table.empty) both =
        buildInTurn shifting (some Table.empty) both ∧
      (Session.run (Survey.take both.services).run shifting).result =
        .ok (.ok ⟨[.broker, .connector], [], []⟩) ∧
      (Collection.slots shifting both.logAge ⟨[.broker, .connector], [], []⟩).map Prod.fst =
        ["edge/pod.gateway-0.yaml", "edge/pod.gateway-0.yaml"] ∧
      ∀ calls, (Collection.run 3 (inTime shifting 60 none) both.logAge
          ⟨[.broker, .connector], [], []⟩ calls).artifacts.toList =
        [("edge/pod.gateway-0.yaml", .yaml (gateway "Pending").toJson)] := by
  have hfinishes := finishes_inTime shifting 60 3
  obtain ⟨hbuild, hcollected⟩ := build_eq_buildInTurn (q := both) hfinishes
  refine ⟨hfinishes, hbuild _, rfl, ?_, fun calls => ?_⟩
  · rw [slots_shifting]
    rfl
  · obtain ⟨hartifacts, -⟩ := hcollected ⟨[.broker, .connector], [], []⟩ calls
    rw [slots_shifting] at hartifacts
    exact hartifacts

end Bundle

end EdgeHealth
