import EdgeHealth.Proofs.Bundle.Archived
import EdgeHealth.Proofs.Bundle.Items
import EdgeHealth.Proofs.Bundle.Plan

/-!
# What a bundle keeps

On a cluster whose objects have the names that the cluster lets them have, no item of a bundle takes
the place of another, save where the measurement of a pod has the path of a manifest: there the
manifest is kept, since it is collected in the first phase and the measurement in the second. Each
of the other items stands in the archive under its own path, with its own text, unless that is
empty.

## Main definitions

* `Cluster.IsWellNamed` : the objects of a cluster are told by their names.
* `Collection.Collects` : the items of a bundle.

## Main results

* `Collection.find?_slots` : the first artifact with the path of an item.
* `Bundle.exists_archive` : what the archive of a bundle holds.
* `Bundle.keeps_every_item` : every item that is not hidden is kept.
-/

namespace EdgeHealth

/-! ### The names of a cluster -/

/-- A custom resource of a kind is in a cluster. -/
def Cluster.HasResource (cluster : Cluster) (kind : Kind) (r : Resource) : Prop :=
  ∃ resources : List Resource,
    (cluster.reply (.listObjects kind.api kind.plural)).answer = .ok resources ∧ r ∈ resources

/-- A pod of one of the services is in a cluster. -/
def Cluster.HasPod (cluster : Cluster) (p : Pod) : Prop :=
  ∃ (s : Service) (pods : List Pod),
    (cluster.reply (.listPods none (some s.podSelector))).answer = .ok pods ∧ p ∈ pods

/-- The resources of a kind and the pods of a cluster are told by their namespaces and names. There
is no slash in a namespace and no dot in the name of a container, but there may be dots in all other
names. -/
structure Cluster.IsWellNamed (cluster : Cluster) : Prop where
  /-- Resources of one kind with one namespace and name are one. -/
  resource_ext : ∀ {kind : Kind} {r r' : Resource}, cluster.HasResource kind r →
    cluster.HasResource kind r' → Resource.ns r = Resource.ns r' →
    Resource.name r = Resource.name r' → r = r'
  /-- The namespaces of resources. -/
  slash_notMem_resource : ∀ {kind : Kind} {r : Resource}, cluster.HasResource kind r →
    '/' ∉ (Resource.ns r).toList
  /-- Pods with one namespace and name are one. -/
  pod_ext : ∀ {p p' : Pod}, cluster.HasPod p → cluster.HasPod p' →
    p.nsOr allNamespaces = p'.nsOr allNamespaces → p.name = p'.name → p = p'
  /-- The namespaces of pods. -/
  slash_notMem_pod : ∀ {p : Pod}, cluster.HasPod p → '/' ∉ (p.nsOr allNamespaces).toList
  /-- The names of containers. -/
  dot_notMem_container : ∀ {p : Pod}, cluster.HasPod p → ∀ container ∈ Task.containersOf p,
    '.' ∉ container.toList

/-! ### The tasks that follow from pods -/

namespace Task

variable {pods : List Pod} {logAge : Int}

theorem nsOr_of_address? {p : Pod} {ns name : String} (h : address? p = some (ns, name)) :
    p.nsOr allNamespaces = ns := by
  obtain ⟨ns', hns, hname⟩ := Option.bind_eq_some_iff.1 h
  obtain ⟨name', -, heq⟩ := Option.map_eq_some_iff.1 hname
  cases heq
  rw [Pod.nsOr, hns, Option.getD_some]

/-- What follows from pods is asked about the namespaces of pods and their containers. -/
inductive FollowsFrom (pods : List Pod) : Task → Prop
  | podLog {p : Pod} {ns pod container : String} (mem : p ∈ pods)
    (ns_eq : p.nsOr allNamespaces = ns) (container_mem : container ∈ containersOf p) :
    FollowsFrom pods (.podLog ns pod container)
  | podMetric {p : Pod} {ns pod : String} (mem : p ∈ pods)
    (ns_eq : p.nsOr allNamespaces = ns) : FollowsFrom pods (.podMetric ns pod)
  | workloads {p : Pod} {ns : String} {kind : Workload} (mem : p ∈ pods)
    (ns_eq : p.nsOr allNamespaces = ns) : FollowsFrom pods (.workloads ns kind)

theorem followsFrom_of_mem_followUp {t : Task} (h : t ∈ followUp logAge pods) :
    FollowsFrom pods t := by
  rw [followUp_eq, List.mem_append, List.mem_flatMap, List.mem_flatMap] at h
  rcases h with ⟨⟨ns, name⟩, haddresses, h⟩ | ⟨ns, hns, h⟩
  · obtain ⟨p, hp, haddress, hcontainers⟩ := exists_containersAt_eq haddresses
    have hns := nsOr_of_address? haddress
    rcases List.mem_append.1 h with h | h
    · split at h
      · obtain ⟨container, hcontainer, rfl⟩ := List.mem_map.1 h
        exact .podLog hp hns (hcontainers ▸ hcontainer)
      · cases h
    · cases List.mem_singleton.1 h
      exact .podMetric hp hns
  · obtain ⟨kind, -, rfl⟩ := List.mem_map.1 h
    obtain ⟨p, hp, name, haddress⟩ := mem_namespaces.1 hns
    exact .workloads hp (nsOr_of_address? haddress)

end Task

/-! ### The items of a bundle -/

namespace Collection

variable {cluster : Cluster} {logAge : Int} {survey : Survey}

/-- What is collected for a bundle: what the tasks of the plan yield. -/
def Collects (cluster : Cluster) (logAge : Int) (survey : Survey) (i : Item) (p : Payload) :
    Prop :=
  ∃ t ∈ plan cluster logAge survey, t.Yields cluster logAge i p

theorem slots_eq :
    slots cluster logAge survey = ((plan cluster logAge survey).map
      (Task.outcome cluster logAge)).flatMap TaskOutcome.artifacts := by
  rw [plan, List.map_append]
  rfl

/-- The artifacts of tasks are the items that they yield. -/
theorem mem_artifacts_iff {tasks : List Task} {path : String} {p : Payload} :
    (path, p) ∈ (tasks.map (Task.outcome cluster logAge)).flatMap TaskOutcome.artifacts ↔
      ∃ t ∈ tasks, ∃ i, t.Yields cluster logAge i p ∧ i.path = path := by
  rw [List.flatMap_map, List.mem_flatMap]
  constructor
  · rintro ⟨t, ht, h⟩
    exact ⟨t, ht, Task.exists_yields_of_mem_artifacts h⟩
  · rintro ⟨t, ht, i, hi, rfl⟩
    exact ⟨t, ht, hi.mem_artifacts⟩

/-- What a task with an answer comes to has the pods of the answer. -/
private theorem mem_pods_map {α : Type} {t : Task} {answer : Except ClusterError α}
    {f : α → Harvest} {p : Pod} (h : p ∈ TaskOutcome.pods (t, answer.map f)) :
    ∃ a, answer = .ok a ∧ p ∈ (f a).pods := by
  cases answer with
  | error e => cases h
  | ok a => exact ⟨a, rfl, h⟩

/-- The pods from which further tasks are planned are in the cluster. -/
theorem hasPod_of_mem_foundPods {p : Pod} (h : p ∈ foundPods cluster logAge survey) :
    cluster.HasPod p := by
  obtain ⟨outcome, houtcome, hp⟩ := List.mem_flatMap.1 h
  obtain ⟨t, -, rfl⟩ := List.mem_map.1 houtcome
  cases t with
  | pods s =>
    obtain ⟨pods, answer, hmem⟩ := mem_pods_map hp
    exact ⟨s, pods, answer, hmem⟩
  | resources | nodes | podLog | workloads =>
    obtain ⟨_, -, hmem⟩ := mem_pods_map hp
    cases hmem
  | podMetric ns pod =>
    simp only [Task.outcome, Task.harvest] at hp
    split at hp
    · cases hp
    · split at hp <;> cases hp

/-- The items of a bundle have the names that the cluster gives. -/
theorem Collects.isNamed (hnamed : cluster.IsWellNamed) {i : Item} {p : Payload}
    (h : Collects cluster logAge survey i p) : i.IsNamed := by
  obtain ⟨t, ht, hyields⟩ := h
  have hfollows (hlater : t ∉ Task.initial survey.services survey.kinds) :
      Task.FollowsFrom (foundPods cluster logAge survey) t :=
    Task.followsFrom_of_mem_followUp ((List.mem_append.1 ht).resolve_left hlater)
  have hns {q : Pod} {ns : String} (hq : q ∈ foundPods cluster logAge survey)
      (heq : q.nsOr allNamespaces = ns) : '/' ∉ ns.toList :=
    heq ▸ hnamed.slash_notMem_pod (hasPod_of_mem_foundPods hq)
  cases hyields with
  | resource answer mem => exact hnamed.slash_notMem_resource ⟨_, answer, mem⟩
  | manifest answer mem => exact hnamed.slash_notMem_pod ⟨_, _, answer, mem⟩
  | nodes => trivial
  | log =>
    cases hfollows (by simp [Task.initial]) with
    | podLog mem ns_eq container_mem =>
      exact ⟨hns mem ns_eq,
        hnamed.dot_notMem_container (hasPod_of_mem_foundPods mem) _ container_mem⟩
  | metric =>
    cases hfollows (by simp [Task.initial]) with
    | podMetric mem ns_eq => exact hns mem ns_eq
  | workloads =>
    cases hfollows (by simp [Task.initial]) with
    | workloads mem ns_eq => exact hns mem ns_eq

end Collection

/-- What is kept of an item is determined by the item. -/
theorem Task.Yields.payload_eq {cluster : Cluster} {logAge : Int} (hnamed : cluster.IsWellNamed)
    {t t' : Task} {i : Item} {p p' : Payload} (h : t.Yields cluster logAge i p)
    (h' : t'.Yields cluster logAge i p') : p = p' := by
  cases h with
  | @resource _ _ r answer mem =>
    generalize hns : Resource.ns r = ns, hname : Resource.name r = name at h'
    cases h' with
    | resource answer' mem' =>
      rw [hnamed.resource_ext ⟨_, answer, mem⟩ ⟨_, answer', mem'⟩ hns hname]
  | @manifest _ _ q answer mem =>
    generalize hns : q.nsOr allNamespaces = ns, hname : q.name = name at h'
    cases h' with
    | manifest answer' mem' =>
      rw [hnamed.pod_ext ⟨_, _, answer, mem⟩ ⟨_, _, answer', mem'⟩ hns hname]
  -- The other items are the whole answer to their question.
  | nodes answer =>
    cases h' with
    | nodes answer' =>
      cases answer.symm.trans answer'
      rfl
  | log answer =>
    cases h' with
    | log answer' =>
      cases answer.symm.trans answer'
      rfl
  | metric answer =>
    cases h' with
    | metric answer' =>
      cases answer.symm.trans answer'
      rfl
  | workloads answer =>
    cases h' with
    | workloads answer' =>
      cases answer.symm.trans answer'
      rfl

namespace Collection

variable {cluster : Cluster} {logAge : Int} {survey : Survey}

/-- Two items of a bundle with one path are one and the same, unless one of them is the measurement
of a pod and the other the manifest that has its path. -/
theorem Collects.eq_or_isHiddenBy (hnamed : cluster.IsWellNamed) {i j : Item} {p p' : Payload}
    (h : Collects cluster logAge survey i p) (h' : Collects cluster logAge survey j p')
    (hpath : i.path = j.path) : (i = j ∧ p = p') ∨ i.IsHiddenBy j ∨ j.IsHiddenBy i := by
  refine (Item.eq_or_isHiddenBy_of_path_eq (h.isNamed hnamed) (h'.isNamed hnamed) hpath).imp_left ?_
  rintro rfl
  obtain ⟨t, -, hyields⟩ := h
  obtain ⟨t', -, hyields'⟩ := h'
  exact ⟨rfl, hyields.payload_eq hnamed hyields'⟩

/-- No measurement is collected in the first phase. -/
theorem not_isHiddenBy_of_mem_initial {t : Task} {i j : Item} {p : Payload}
    (ht : t ∈ Task.initial survey.services survey.kinds) (h : t.Yields cluster logAge i p) :
    ¬ i.IsHiddenBy j := by
  rintro ⟨ns, pod, rfl, -⟩
  cases h
  simp [Task.initial] at ht

/-- No manifest is collected in the second phase. -/
theorem not_isHiddenBy_of_mem_followUp {pods : List Pod} {t : Task} {i j : Item} {p : Payload}
    (ht : t ∈ Task.followUp logAge pods) (h : t.Yields cluster logAge j p) :
    ¬ i.IsHiddenBy j := by
  rintro ⟨ns, pod, -, rfl⟩
  generalize pod ++ ".metric" = name at h
  cases h
  cases Task.followsFrom_of_mem_followUp ht

/-- Of the artifacts with the path of an item that is not hidden, the first is that of the item. -/
theorem find?_slots (hnamed : cluster.IsWellNamed) {i : Item} {p : Payload}
    (h : Collects cluster logAge survey i p)
    (hshown : ∀ j p', Collects cluster logAge survey j p' → ¬ i.IsHiddenBy j) :
    Table.find? i.path (slots cluster logAge survey) = some p := by
  -- Whatever is found is this item, provided that it is not hidden by it.
  have hfound {j : Item} {p' : Payload} (hj : Collects cluster logAge survey j p')
      (hpath : j.path = i.path) (hother : ¬ j.IsHiddenBy i) : p' = p := by
    rcases hj.eq_or_isHiddenBy hnamed h hpath with ⟨-, hp⟩ | hhidden | hhidden
    · exact hp
    · exact absurd hhidden hother
    · exact absurd hhidden (hshown j p' hj)
  obtain ⟨t, ht, hyields⟩ := h
  rcases List.mem_append.1 ht with hinitial | hfollowUp
  · obtain ⟨p', hp', hmem⟩ :=
      Table.exists_find?_of_mem (mem_artifacts_iff.2 ⟨t, hinitial, i, hyields, rfl⟩)
    obtain ⟨t', ht', j, hj, hpath⟩ := mem_artifacts_iff.1 hmem
    rw [slots, List.flatMap_append, Table.find?_append, hp', Option.some_or,
      hfound ⟨t', List.mem_append_left _ ht', hj⟩ hpath (not_isHiddenBy_of_mem_initial ht' hj)]
  · obtain ⟨p', hp', hmem⟩ :=
      Table.exists_find?_of_mem (mem_artifacts_iff.2 ⟨t, ht, i, hyields, rfl⟩)
    obtain ⟨t', ht', j, hj, hpath⟩ := mem_artifacts_iff.1 hmem
    rw [slots_eq, hp',
      hfound ⟨t', ht', hj⟩ hpath (not_isHiddenBy_of_mem_followUp hfollowUp hyields)]

/-- The artifact that is kept under a path is the first one with that path. -/
theorem get?_artifacts_run {workers : Nat} {conduct : Conductor}
    (h : conduct.Finishes (labour cluster logAge) workers) (calls : List Call) (path : String) :
    (run workers conduct logAge survey calls).artifacts.get? path =
      Table.find? path (slots cluster logAge survey) := by
  rw [run_eq_runInTurn h, Table.get?, toList_artifacts_runInTurn, Table.find?_firsts]

end Collection

namespace Bundle

/-- A bundle whose survey succeeds is written. Under each path its archive holds the text of the
first artifact with that path in the order of the plan, unless that is empty. -/
theorem exists_archive {cluster : Cluster} {workers : Nat} {conduct : Conductor} {q : BundleRequest}
    {survey : Survey} (h : conduct.Finishes (Collection.labour cluster q.logAge) workers)
    (hsurvey : (Session.run (Survey.take q.services).run cluster).result = .ok (.ok survey))
    (d : Directory) :
    ∃ (b : Bundle) (d' : Directory) (archive : Archive),
      (build cluster workers conduct (some d) q).result = .ok b ∧
        (build cluster workers conduct (some d) q).directory = some d' ∧
        d'.get? q.fileName = some archive ∧
        ∀ path, Table.get? archive path =
          (Table.find? path (Collection.slots cluster q.logAge survey)).bind
            Payload.contents? := by
  let surveyed := Session.run (Survey.take q.services).run cluster
  let collected := Collection.run workers conduct q.logAge survey (callsOf surveyed.events)
  obtain ⟨d', archive, hwrite, harchive, hget⟩ := collected.exists_write_entries d q.fileName
  have hbuild : build cluster workers conduct (some d) q = store q d survey collected := by
    simp only [build, buildBy, hsurvey]
    rfl
  have hstore : store q d survey collected =
      ⟨.ok ⟨survey.services, collected.warnings⟩, some d', collected.calls⟩ := by
    simp only [store, hwrite, if_true]
  refine ⟨⟨survey.services, collected.warnings⟩, d', archive, ?_, ?_, harchive, fun path => ?_⟩
  · rw [hbuild, hstore]
  · rw [hbuild, hstore]
  · rw [hget, Collection.get?_artifacts_run h]

/-- **No item of a bundle is lost to another**, save where the measurement of a pod has the path of
a manifest. On a cluster whose objects are told by their names, any two different items that are
collected have different paths or are such a pair; and every item that is not hidden by a manifest
stands in the archive under its path with its own text, unless that is empty. This holds for any
number of workers, who act in any order and are not cancelled. -/
theorem keeps_every_item {cluster : Cluster} {workers : Nat} {conduct : Conductor}
    {q : BundleRequest} {survey : Survey} (hnamed : cluster.IsWellNamed)
    (hfinishes : conduct.Finishes (Collection.labour cluster q.logAge) workers)
    (hsurvey : (Session.run (Survey.take q.services).run cluster).result = .ok (.ok survey))
    (d : Directory) :
    (∀ i j p p', Collection.Collects cluster q.logAge survey i p →
      Collection.Collects cluster q.logAge survey j p' → i.path = j.path →
        (i = j ∧ p = p') ∨ i.IsHiddenBy j ∨ j.IsHiddenBy i) ∧
    ∃ (b : Bundle) (d' : Directory) (archive : Archive),
      (build cluster workers conduct (some d) q).result = .ok b ∧
        (build cluster workers conduct (some d) q).directory = some d' ∧
        d'.get? q.fileName = some archive ∧
        ∀ i p, Collection.Collects cluster q.logAge survey i p →
          (∀ j p', Collection.Collects cluster q.logAge survey j p' → ¬ i.IsHiddenBy j) →
          Table.get? archive i.path = p.contents? := by
  refine ⟨fun i j p p' hi hj hpath => hi.eq_or_isHiddenBy hnamed hj hpath, ?_⟩
  obtain ⟨b, d', archive, hresult, hdirectory, harchive, hget⟩ := exists_archive hfinishes hsurvey d
  refine ⟨b, d', archive, hresult, hdirectory, harchive, fun i p hi hshown => ?_⟩
  rw [hget, Collection.find?_slots hnamed hi hshown, Option.bind_some]

/-- A pod with a namespace, a name, and nothing else. -/
private def barePod (ns name : String) : Pod := ⟨⟨some name, some ns, none⟩, none, none⟩

/-- A measurement. -/
private def window : Resource := .object [("window", .string "30s")]

/-- A cluster with two pods, one of which has the name of the other with `.metric` at its end. The
other one has a measurement. -/
private def crowded : Cluster where
  reply
    | .serverVersion => ⟨1, .ok ⟨[1, 30, 0]⟩⟩
    | .listApiResources _ => ⟨2, .ok []⟩
    | .listPods .. => ⟨5, .ok [barePod "edge" "broker-0", barePod "edge" "broker-0.metric"]⟩
    | .getObject _ _ _ name =>
      if name = "broker-0" then ⟨2, .ok window⟩
      else ⟨2, .error (.notFound "pods" name)⟩
    | .listObjects .. => ⟨2, .ok []⟩
    | _ => ⟨2, .error (.api 503 "unavailable")⟩

/-- The request for a bundle without logs. -/
private def quiet : BundleRequest := ⟨some [.broker], 0, "bundles", "support.zip"⟩

private theorem isWellNamed_crowded : crowded.IsWellNamed := by
  have hpod {p : Pod} (h : crowded.HasPod p) :
      p = barePod "edge" "broker-0" ∨ p = barePod "edge" "broker-0.metric" := by
    obtain ⟨s, pods, answer, hmem⟩ := h
    cases answer
    simpa using hmem
  have hresource {kind : Kind} {r : Resource} : ¬ crowded.HasResource kind r := by
    rintro ⟨resources, answer, hmem⟩
    cases answer
    cases hmem
  constructor
  case resource_ext => exact fun h => absurd h hresource
  case slash_notMem_resource => exact fun h => absurd h hresource
  case pod_ext =>
    intro p p' h h' _ hname
    rcases hpod h with rfl | rfl <;> rcases hpod h' with rfl | rfl <;>
      first | rfl | exact absurd hname (by decide)
  case slash_notMem_pod =>
    intro p h
    rcases hpod h with rfl | rfl <;> decide
  case dot_notMem_container =>
    intro p h
    rcases hpod h with rfl | rfl <;> exact fun _ hmem => absurd hmem List.not_mem_nil

/-- What there is to collect from the cluster with two pods. -/
private def brokerOnly : Survey := ⟨[.broker], [], []⟩

private theorem survey_crowded :
    (Session.run (Survey.take quiet.services).run crowded).result = .ok (.ok brokerOnly) := by
  rfl

private theorem collects_manifest_crowded :
    Collection.Collects crowded quiet.logAge brokerOnly (.manifest "edge" "broker-0.metric")
      (.yaml (barePod "edge" "broker-0.metric").toJson) :=
  ⟨.pods .broker, List.mem_append_left _ (by decide),
    .manifest (p := barePod "edge" "broker-0.metric") rfl (by decide)⟩

private theorem collects_metric_crowded :
    Collection.Collects crowded quiet.logAge brokerOnly (.metric "edge" "broker-0")
      (.yaml window) :=
  ⟨.podMetric "edge" "broker-0", List.mem_append_right _ (by decide), .metric rfl⟩

/-- The manifest that hides the measurement of another pod is kept. -/
theorem keeps_every_item_crowded :
    crowded.IsWellNamed ∧
      (inTime crowded 0 none).Finishes (Collection.labour crowded quiet.logAge) 2 ∧
      (Session.run (Survey.take quiet.services).run crowded).result = .ok (.ok brokerOnly) ∧
      ∃ (b : Bundle) (d' : Directory) (archive : Archive),
        (build crowded 2 (inTime crowded 0 none) (some Table.empty) quiet).result = .ok b ∧
          (build crowded 2 (inTime crowded 0 none) (some Table.empty) quiet).directory = some d' ∧
          d'.get? "support.zip" = some archive ∧
          Table.get? archive "edge/pod.broker-0.metric.yaml" =
            (Payload.yaml (barePod "edge" "broker-0.metric").toJson).contents? := by
  have hfinishes := finishes_inTime crowded quiet.logAge 2
  obtain ⟨-, b, d', archive, hresult, hdirectory, harchive, hkept⟩ :=
    keeps_every_item isWellNamed_crowded hfinishes survey_crowded Table.empty
  refine ⟨isWellNamed_crowded, hfinishes, survey_crowded, b, d', archive, hresult, hdirectory,
    harchive, ?_⟩
  refine hkept _ _ collects_manifest_crowded fun j p' _ hhidden => ?_
  obtain ⟨ns, pod, h, -⟩ := hhidden
  cases h

/-- A measurement can be lost. Here it is collected and not empty, but under its path the archive
holds the manifest of another pod, which has the same path. -/
theorem loses_measurement_crowded :
    crowded.IsWellNamed ∧
      (inTime crowded 0 none).Finishes (Collection.labour crowded quiet.logAge) 2 ∧
      (Session.run (Survey.take quiet.services).run crowded).result = .ok (.ok brokerOnly) ∧
      ∃ (i j : Item) (p p' : Payload) (d' : Directory) (archive : Archive),
        Collection.Collects crowded quiet.logAge brokerOnly i p ∧
          Collection.Collects crowded quiet.logAge brokerOnly j p' ∧ i ≠ j ∧ i.path = j.path ∧
          (build crowded 2 (inTime crowded 0 none) (some Table.empty) quiet).directory = some d' ∧
          d'.get? "support.zip" = some archive ∧
          p.contents? = some "window: 30s\n" ∧
          Table.get? archive i.path = some ("apiVersion: v1\nkind: Pod\nmetadata:\n" ++
            "  name: broker-0.metric\n  namespace: edge\n") := by
  have hfinishes := finishes_inTime crowded quiet.logAge 2
  obtain ⟨-, d', archive, -, hdirectory, harchive, hget⟩ :=
    exists_archive hfinishes survey_crowded Table.empty
  refine ⟨isWellNamed_crowded, hfinishes, survey_crowded, _, _, _, _, d', archive,
    collects_metric_crowded, collects_manifest_crowded, by decide, by decide, hdirectory, harchive,
    ?_, ?_⟩
  · simp only [Payload.contents?, Payload.isEmpty, Payload.isVoid, Payload.written, Yaml.document,
      Yaml.node, Yaml.member, Yaml.members, window]
    decide
  · have hslots : Table.find? (Item.metric "edge" "broker-0").path
        (Collection.slots crowded quiet.logAge brokerOnly) =
          some (.yaml (barePod "edge" "broker-0.metric").toJson) := by
      decide
    have hmanifest : (barePod "edge" "broker-0.metric").toJson =
        .object [("apiVersion", .string "v1"), ("kind", .string "Pod"),
          ("metadata", .object
            [("name", .string "broker-0.metric"), ("namespace", .string "edge")])] := rfl
    rw [hget, hslots, hmanifest]
    simp only [Option.bind_some, Payload.contents?, Payload.isEmpty, Payload.isVoid,
      Payload.written, Yaml.document, Yaml.node, Yaml.member, Yaml.members]
    decide +kernel

end Bundle

end EdgeHealth
