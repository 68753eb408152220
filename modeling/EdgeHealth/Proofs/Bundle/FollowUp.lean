import EdgeHealth.Proofs.Bundle.Accounts
import EdgeHealth.Proofs.Bundle.Kept
import EdgeHealth.Proofs.Bundle.Plan

/-!
# Every pod is followed up

The plan that follows from the pods of a bundle is complete and has no task twice. Where no logs are
wanted, no task of a bundle asks for one, and no entry of the archive has a path that ends like that
of a log: only logs have such paths. That holds whatever the cluster answers, and be it that it
answers one question in two ways.

## Main definitions

* `Collection.Harvests` : tasks come to what they make of some answer.
* `Collection.HasNoLogs` : a collection without the path of a log.

## Main results

* `Item.eq_log_of_suffix` : only the path of a log ends like that of a log.
* `Collection.HasNoLogs.phase`, `Collection.HasNoLogs.run` : what a phase without a task for a log
  preserves, and so does a collection for which no logs are wanted.
* `Bundle.follows_up_on_every_pod` : the plan, and a bundle without logs.
-/

namespace EdgeHealth

/-- Only the path of a log ends like that of a log. -/
theorem Item.eq_log_of_suffix {i : Item} (h : ".log".toList <:+ i.path.toList) :
    ∃ ns pod container, i = .log ns pod container := by
  obtain ⟨front, h⟩ := h
  have hlast : i.path.toList.getLast? = some 'g' := by
    rw [← h]
    simp
  cases i with
  | log ns pod container => exact ⟨ns, pod, container, rfl⟩
  | _ => simp [path, toString, List.getLast?_cons] at hlast

/-- Whatever the answer to a task is, there is a cluster that gives it. -/
theorem Cluster.exists_answer_eq (call : Call) (answer : Except ClusterError call.Answer) :
    ∃ cluster : Cluster, (cluster.reply call).answer = answer :=
  ⟨⟨fun other => ⟨0, if h : call = other then h ▸ answer else .error (.api 503 "unavailable")⟩⟩,
    dif_pos rfl⟩

/-- A task that does not ask for a log has no artifact with the path of one, whatever it is told. -/
theorem Task.not_suffix_of_mem_artifacts {t : Task} (ht : ¬ t.IsLog) {logAge : Int}
    {answer : Except ClusterError (t.call logAge).Answer} {path : String} {payload : Payload}
    (h : (path, payload) ∈ TaskOutcome.artifacts (t, t.harvest logAge answer)) :
    ¬ ".log".toList <:+ path.toList := by
  intro hlog
  obtain ⟨cluster, rfl⟩ := Cluster.exists_answer_eq (t.call logAge) answer
  obtain ⟨i, hyields, rfl⟩ := exists_yields_of_mem_artifacts h
  obtain ⟨ns, pod, container, rfl⟩ := Item.eq_log_of_suffix hlog
  cases hyields
  exact ht ⟨ns, pod, container, rfl⟩

namespace Collection

/-- Each task comes to what it makes of some answer. Two equal tasks need not be told the same. -/
def Harvests (logAge : Int) (labour : Labour Task (Except ClusterError Harvest)) : Prop :=
  ∀ number t, ∃ answer, labour.result number t = t.harvest logAge answer

/-- On a cluster each task is told the reply to its question. -/
theorem harvests_labour (cluster : Cluster) (logAge : Int) :
    Harvests logAge (labour cluster logAge) :=
  fun _ _ => ⟨_, rfl⟩

/-- No artifact of a collection has a path that ends like that of a log. -/
def HasNoLogs (c : Collection) : Prop := ∀ path ∈ c.artifacts.keys, ¬ ".log".toList <:+ path.toList

theorem hasNoLogs_ofSurvey (survey : Survey) (calls : List Call) :
    (ofSurvey survey calls).HasNoLogs :=
  fun _ h => absurd h List.not_mem_nil

namespace HasNoLogs

variable {c : Collection} {logAge : Int} {labour : Labour Task (Except ClusterError Harvest)}
  {workers : Nat} {conduct : Conductor} {moves : Nat → Bool → List Task → List Pool.Move}
  {tasks : List Task}

/-- A phase without a task for a log adds none. -/
theorem phase (hc : c.HasNoLogs) (htakes : conduct.Takes labour workers moves)
    (hlabour : Harvests logAge labour) (htasks : ∀ t ∈ tasks, ¬ t.IsLog) :
    (c.phase workers conduct logAge tasks).HasNoLogs := by
  have account := phase_account htakes logAge c tasks
  intro path hpath
  rw [account.artifacts_eq] at hpath
  rcases Table.mem_keys_foldl_insertNew hpath with hpath | hpath
  · exact hc path hpath
  · obtain ⟨⟨_, payload⟩, hpair, rfl⟩ := List.mem_map.1 hpath
    obtain ⟨outcome, houtcome, hpair⟩ := List.mem_flatMap.1 hpair
    obtain ⟨⟨number, t⟩, hnumbered, rfl⟩ := List.mem_map.1 houtcome
    obtain ⟨answer, hanswer⟩ := hlabour number t
    have hstarted : t ∈ (c.poolOf workers conduct tasks).started :=
      Pool.map_snd_numbered (c.poolOf workers conduct tasks).started ▸
        List.mem_map_of_mem hnumbered
    simp only [hanswer] at hpair
    exact Task.not_suffix_of_mem_artifacts (htasks t (account.started_prefix.subset hstarted)) hpair

theorem noteCancelled (hc : c.HasNoLogs) : c.noteCancelled.HasNoLogs := by
  rw [noteCancelled_eq]
  exact hc

/-- A collection for which no logs are wanted holds none. -/
theorem run (htakes : conduct.Takes labour workers moves) (hlabour : Harvests logAge labour)
    (hage : logAge ≤ 0) (survey : Survey) (calls : List Call) :
    (run workers conduct logAge survey calls).HasNoLogs := by
  let first := (ofSurvey survey calls).phase workers conduct logAge
    (Task.initial survey.services survey.kinds)
  have hfirst : first.HasNoLogs := (hasNoLogs_ofSurvey survey calls).phase htakes hlabour
    fun t => Task.not_isLog_of_mem_initial
  have hsecond : (first.phase workers conduct logAge
      (Task.followUp logAge first.pods)).HasNoLogs :=
    hfirst.phase htakes hlabour fun t ht => Task.not_isLog_of_mem_followUp ht hage
  have hall : (if first.cancelled then first
      else first.phase workers conduct logAge (Task.followUp logAge first.pods)).HasNoLogs := by
    split
    · exact hfirst
    · exact hsecond
  exact hall.noteCancelled

end HasNoLogs

end Collection

namespace Bundle

/-- **The plan that follows from the pods is complete and has no task twice.** For each address, in
the order in which they come first, there are the tasks for the logs of the containers of its first
pod, if logs of a positive age are wanted, and then the one for its measurement. After all of these
there are the six kinds of workloads for each namespace, in the order in which they come first. No
task stands in the plan twice, as long as no pod has two containers with one name, and pods whose
addresses have come before change nothing. A bundle for which no logs of a positive age are wanted
has no entry whose path ends like that of a log, whatever the cluster answers, however many workers
there are, in whatever order they act, and whenever the work is cancelled. -/
theorem follows_up_on_every_pod :
    (∀ (logAge : Int) (pods : List Pod), Task.followUp logAge pods =
      (Task.addresses pods).flatMap (Task.tasksAt logAge pods) ++
        (Task.namespaces pods).flatMap fun ns => Workload.all.map (Task.workloads ns)) ∧
    (Workload.all.length = 6 ∧ ∀ kind, Workload.all.count kind = 1) ∧
    (∀ (logAge : Int) (pods : List Pod), (∀ p ∈ pods, (Task.containersOf p).Nodup) →
      (Task.followUp logAge pods).Nodup) ∧
    (∀ (logAge : Int) (pods more : List Pod),
      (∀ p ∈ more, ∀ address, Task.address? p = some address → address ∈ Task.addresses pods) →
        Task.followUp logAge (pods ++ more) = Task.followUp logAge pods) ∧
    ∀ (cluster : Cluster) (workers : Nat) (conduct : Conductor)
      (labour : Labour Task (Except ClusterError Harvest))
      (moves : Nat → Bool → List Task → List Pool.Move) (directory : Option Directory)
      (q : BundleRequest) (bundle : Bundle), conduct.Takes labour workers moves →
        Collection.Harvests q.logAge labour → q.logAge ≤ 0 →
          (build cluster workers conduct directory q).result = .ok bundle →
            ∃ (d : Directory) (archive : Archive),
              (build cluster workers conduct directory q).directory = some d ∧
                d.get? q.fileName = some archive ∧
                ∀ path ∈ archive.keys, ¬ ".log".toList <:+ path.toList := by
  refine ⟨Task.followUp_eq, ⟨rfl, fun kind => by cases kind <;> rfl⟩,
    fun _ _ => Task.nodup_followUp, fun _ _ _ => Task.followUp_append, ?_⟩
  intro cluster workers conduct labour moves directory q bundle htakes hlabour hage hresult
  obtain ⟨survey, calls, d, archive, hbuild, harchive, hentries⟩ := exists_eq_of_ok hresult
  have hnone := Collection.HasNoLogs.run htakes hlabour hage survey calls
  refine ⟨d, archive, congrArg BundleOutcome.directory hbuild, harchive, fun path hpath =>
    hnone path ?_⟩
  rw [Table.keys, hentries] at hpath
  exact (Collection.map_fst_entries_sublist _).subset hpath

/-- A pod with a container that runs first and one that runs after it. -/
private def brokerPod : Pod :=
  ⟨⟨some "broker-0", some "edge", none⟩, some ⟨["broker"], some ["setup"], none⟩, none⟩

/-- A pod of which only its address is known. -/
private def listenerPod : Pod := ⟨⟨some "listener-0", some "edge", none⟩, none, none⟩

/-- A cluster with these pods, each of which has a log. -/
private def logged : Cluster where
  reply
    | .serverVersion => ⟨1, .ok ⟨[1, 30, 0]⟩⟩
    | .listApiResources _ => ⟨2, .ok []⟩
    | .listPods .. => ⟨5, .ok [brokerPod, listenerPod]⟩
    | .readPodLog .. => ⟨3, .ok "started"⟩
    | _ => ⟨2, .error (.api 503 "unavailable")⟩

/-- The request for a bundle without logs. -/
private def unlogged : BundleRequest := ⟨some [.broker], 0, "bundles", "support.zip"⟩

/-- Two pods, the first of which comes again: the plan with logs, and a bundle without them. -/
theorem follows_up_on_every_pod_logged :
    (∀ p ∈ [brokerPod, listenerPod], (Task.containersOf p).Nodup) ∧
    (Task.followUp 60 [brokerPod, listenerPod]).Nodup ∧
    Task.followUp 60 ([brokerPod, listenerPod] ++ [brokerPod]) =
      [.podLog "edge" "broker-0" "setup", .podLog "edge" "broker-0" "broker",
        .podMetric "edge" "broker-0", .podMetric "edge" "listener-0"] ++
      Workload.all.map (.workloads "edge") ∧
    ∃ (d : Directory) (archive : Archive),
      (build logged 2 (inTime logged 0 none) (some Table.empty) unlogged).directory = some d ∧
        d.get? "support.zip" = some archive ∧
        ∀ path ∈ archive.keys, ¬ ".log".toList <:+ path.toList := by
  obtain ⟨-, -, hnodup, happend, hbundle⟩ := follows_up_on_every_pod
  have hcontainers : ∀ p ∈ [brokerPod, listenerPod], (Task.containersOf p).Nodup := by decide
  have hcome : ∀ p ∈ [brokerPod], ∀ address, Task.address? p = some address →
      address ∈ Task.addresses [brokerPod, listenerPod] := by
    intro p hp address haddress
    cases List.mem_singleton.1 hp
    cases haddress
    decide
  obtain ⟨moves, htakes⟩ := exists_takes_inTime logged 0 none 2
  have hsurvey : (Session.run (Survey.take unlogged.services).run logged).result =
      .ok (.ok ⟨[.broker], [], []⟩) := rfl
  obtain ⟨b, -, -, hresult, -⟩ :=
    exists_archive (finishes_inTime logged unlogged.logAge 2) hsurvey Table.empty
  refine ⟨hcontainers, hnodup 60 _ hcontainers, ?_, ?_⟩
  · rw [happend 60 _ _ hcome]
    rfl
  · exact hbundle logged 2 _ _ moves (some Table.empty) unlogged b htakes
      (Collection.harvests_labour logged 0) (Int.le_refl 0) hresult

end Bundle

end EdgeHealth
