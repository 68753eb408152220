import EdgeHealth.Proofs.Bundle.Schedule
import EdgeHealth.Proofs.Evaluate.Names

/-!
# The items of a bundle and their paths

A bundle collects *items*: custom resources, the manifests of pods, the logs of containers, the
measurements of pods, the workloads of a namespace, and the nodes. An item is named by what it is;
the path under which it is kept is a text made of that name. The path tells the item, with one
exception: the measurement of a pod has the path of the manifest of the pod whose name has
`.metric` at its end. This needs no more than that no namespace has a slash in it and no name of a
container has a dot.

## Main definitions

* `Item`, `Item.path` : the items, and the paths under which they are kept.
* `Item.IsHiddenBy` : the measurement of a pod, and the manifest that has its path.
* `Task.Yields` : what the tasks of a bundle collect from a cluster.

## Main results

* `Item.eq_or_isHiddenBy_of_path_eq` : items with one path.
* `Task.Yields.mem_artifacts`, `Task.exists_yields_of_mem_artifacts` : the artifacts of a task are
  the items that it yields.
-/

namespace EdgeHealth

/-- Where a character stands in neither of two texts, what follows it and what comes before it are
told by the whole. -/
theorem Text.append_cons_inj {c : Char} {x x' y y' : List Char} (hx : c ∉ x) (hx' : c ∉ x')
    (h : x ++ c :: y = x' ++ c :: y') : x = x' ∧ y = y' := by
  rcases List.append_eq_append_iff.1 h with ⟨z, rfl, hz⟩ | ⟨z, rfl, hz⟩
  all_goals
    cases z with
    | nil => simpa [eq_comm] using hz
    | cons d z =>
      obtain ⟨rfl, -⟩ := List.cons_eq_cons.1 hz
      simp at hx hx'

theorem Workload.word_injective {w w' : Workload} (h : w.word = w'.word) : w = w' := by
  revert h
  cases w <;> cases w' <;> decide

/-- What a bundle collects. -/
inductive Item where
  /-- A custom resource of a kind. -/
  | resource (kind : Kind) (ns name : String)
  /-- The manifest of a pod. -/
  | manifest (ns pod : String)
  /-- The log of a container. -/
  | log (ns pod container : String)
  /-- The measurement of a pod. -/
  | metric (ns pod : String)
  /-- The workloads of a kind in a namespace. -/
  | workloads (ns : String) (kind : Workload)
  /-- The nodes. -/
  | nodes
  deriving DecidableEq, Repr

namespace Item

/-- The path under which an item is kept. -/
def path : Item → String
  | .resource kind ns name => s!"{ns}/{kind.word}.{name}.yaml"
  | .manifest ns pod => s!"{ns}/pod.{pod}.yaml"
  | .log ns pod container => s!"{ns}/pod.{pod}.{container}.log"
  | .metric ns pod => s!"{ns}/pod.{pod}.metric.yaml"
  | .workloads ns kind => s!"{ns}/{kind.word}s.json"
  | .nodes => "nodes.yaml"

/-- The namespace of an item, the start of the name of its file up to the first dot, and what
follows that dot. Only the nodes have none of these. -/
def parts? : Item → Option (String × String × String)
  | .resource kind ns name => some (ns, kind.word, name ++ ".yaml")
  | .manifest ns pod => some (ns, "pod", pod ++ ".yaml")
  | .log ns pod container => some (ns, "pod", pod ++ "." ++ container ++ ".log")
  | .metric ns pod => some (ns, "pod", pod ++ ".metric" ++ ".yaml")
  | .workloads ns kind => some (ns, kind.word ++ "s", "json")
  | .nodes => none

/-- Whether the names in an item are such as the cluster gives: there is no slash in a namespace,
and no dot in the name of a container. -/
def IsNamed : Item → Prop
  | .resource _ ns _ | .manifest ns _ | .metric ns _ | .workloads ns _ => '/' ∉ ns.toList
  | .log ns _ container => '/' ∉ ns.toList ∧ '.' ∉ container.toList
  | .nodes => True

/-- An item is the measurement of a pod, and another one the manifest of the pod whose name is that
name with `.metric` at its end. -/
def IsHiddenBy (i j : Item) : Prop :=
  ∃ ns pod, i = .metric ns pod ∧ j = .manifest ns (pod ++ ".metric")

/-! ### The parts of a path -/

theorem path_eq_of_parts? {i : Item} {ns stem rest : String}
    (h : i.parts? = some (ns, stem, rest)) : i.path = ns ++ "/" ++ stem ++ "." ++ rest := by
  cases i with
  | nodes => cases h
  | _ =>
    cases h
    simp [path, toString, String.append_assoc]

theorem slash_notMem_of_parts? {i : Item} (hi : i.IsNamed) {ns stem rest : String}
    (h : i.parts? = some (ns, stem, rest)) : '/' ∉ ns.toList := by
  cases i with
  | nodes => cases h
  | log ns pod container =>
    cases h
    exact hi.1
  | _ =>
    cases h
    exact hi

/-- The name of a file starts with a word. -/
theorem dot_notMem_of_parts? {i : Item} {ns stem rest : String}
    (h : i.parts? = some (ns, stem, rest)) : '.' ∉ stem.toList := by
  cases i with
  | resource kind ns name =>
    cases h
    cases kind <;> decide
  | workloads ns kind =>
    cases h
    cases kind <;> decide
  | nodes => cases h
  | _ =>
    cases h
    decide

/-- The path of an item tells its parts. -/
theorem parts?_eq_of_path_eq {i j : Item} (hi : i.IsNamed) (hj : j.IsNamed)
    (h : i.path = j.path) : i.parts? = j.parts? := by
  have hslash {k : Item} {parts : String × String × String} (hk : k.parts? = some parts) :
      k.path ≠ nodes.path := by
    intro hpath
    have hmem : '/' ∈ k.path.toList := by
      rw [path_eq_of_parts? hk]
      simp
    rw [hpath] at hmem
    revert hmem
    decide
  have hnodes {k : Item} (hk : k.parts? = none) : k = nodes := by
    cases k <;> first | rfl | cases hk
  cases hip : i.parts? with
  | none =>
    cases hjp : j.parts? with
    | none => rfl
    | some parts => exact absurd (h.symm.trans (congrArg path (hnodes hip))) (hslash hjp)
  | some parts =>
    cases hjp : j.parts? with
    | none => exact absurd (h.trans (congrArg path (hnodes hjp))) (hslash hip)
    | some parts' =>
      obtain ⟨ns, stem, rest⟩ := parts
      obtain ⟨ns', stem', rest'⟩ := parts'
      rw [path_eq_of_parts? hip, path_eq_of_parts? hjp] at h
      have hchars := congrArg String.toList h
      simp only [String.toList_append, List.append_assoc] at hchars
      obtain ⟨hns, hfile⟩ := Text.append_cons_inj (slash_notMem_of_parts? hi hip)
        (slash_notMem_of_parts? hj hjp) hchars
      obtain ⟨hstem, hrest⟩ := Text.append_cons_inj (dot_notMem_of_parts? hip)
        (dot_notMem_of_parts? hjp) hfile
      rw [String.toList_inj.1 hns, String.toList_inj.1 hstem, String.toList_inj.1 hrest]

/-! ### The items of one file -/

private theorem kind_word_ne_pod (k : Kind) : k.word ≠ "pod" := by
  cases k <;> decide

private theorem workload_words_ne_pod (w : Workload) : w.word ++ "s" ≠ "pod" := by
  cases w <;> decide

private theorem kind_word_ne_workload_words (k : Kind) (w : Workload) : k.word ≠ w.word ++ "s" := by
  cases k <;> cases w <;> decide

/-- No log is kept under a name that a document has. -/
private theorem yaml_ne_log (s t : String) : s ++ ".yaml" ≠ t ++ ".log" := by
  intro h
  have hlast := congrArg (fun u => u.toList.getLast?) h
  simp at hlast

/-- Two logs have one name only if they are logs of one container: its name has no dot in it. -/
private theorem log_injective {pod pod' container container' : String}
    (hc : '.' ∉ container.toList) (hc' : '.' ∉ container'.toList)
    (h : pod ++ "." ++ container = pod' ++ "." ++ container') :
    pod = pod' ∧ container = container' := by
  have hchars := congrArg (fun u => u.toList.reverse) h
  simp only [String.toList_append, List.reverse_append, List.append_assoc] at hchars
  have hdot : '.' ∉ container.toList.reverse := by simpa using hc
  have hdot' : '.' ∉ container'.toList.reverse := by simpa using hc'
  obtain ⟨hcontainer, hpod⟩ := Text.append_cons_inj hdot hdot' hchars
  exact ⟨String.toList_inj.1 (List.reverse_inj.1 hpod),
    String.toList_inj.1 (List.reverse_inj.1 hcontainer)⟩

/-- **The path of an item tells the item**, save that the measurement of a pod has the path of the
manifest of the pod whose name has `.metric` at its end. -/
theorem eq_or_isHiddenBy_of_path_eq {i j : Item} (hi : i.IsNamed) (hj : j.IsNamed)
    (h : i.path = j.path) : i = j ∨ i.IsHiddenBy j ∨ j.IsHiddenBy i := by
  have hparts := parts?_eq_of_path_eq hi hj h
  -- Items of different families have other words or other endings.
  cases i <;> cases j <;> simp only [parts?, Option.some.injEq, Prod.mk.injEq, reduceCtorEq,
    String.append_left_inj, kind_word_ne_pod, (kind_word_ne_pod _).symm, workload_words_ne_pod,
    (workload_words_ne_pod _).symm, kind_word_ne_workload_words,
    (kind_word_ne_workload_words _ _).symm, yaml_ne_log, (yaml_ne_log _ _).symm, false_and,
    and_false, true_and, and_true] at hparts
  case resource.resource =>
    obtain ⟨rfl, hword, rfl⟩ := hparts
    rw [Kind.word_injective hword]
    exact .inl rfl
  case manifest.manifest =>
    obtain ⟨rfl, rfl⟩ := hparts
    exact .inl rfl
  case manifest.metric =>
    obtain ⟨rfl, rfl⟩ := hparts
    exact .inr (.inr ⟨_, _, rfl, rfl⟩)
  case log.log =>
    obtain ⟨rfl, hname⟩ := hparts
    obtain ⟨rfl, rfl⟩ := log_injective hi.2 hj.2 hname
    exact .inl rfl
  case metric.manifest =>
    obtain ⟨rfl, rfl⟩ := hparts
    exact .inr (.inl ⟨_, _, rfl, rfl⟩)
  case metric.metric =>
    obtain ⟨rfl, rfl⟩ := hparts
    exact .inl rfl
  case workloads.workloads =>
    obtain ⟨rfl, hword⟩ := hparts
    rw [Workload.word_injective hword]
    exact .inl rfl
  case nodes.nodes => exact .inl rfl

end Item

/-! ### What tasks collect -/

namespace Task

variable {cluster : Cluster} {logAge : Int}

/-- What a task collects from a cluster, and what is kept of it. -/
inductive Yields (cluster : Cluster) (logAge : Int) : Task → Item → Payload → Prop
  | resource {kind : Kind} {resources : List Resource} {r : Resource}
    (answer : (cluster.reply (.listObjects kind.api kind.plural)).answer = .ok resources)
    (mem : r ∈ resources) :
    Yields cluster logAge (.resources kind) (.resource kind (Resource.ns r) (Resource.name r))
      (.yaml r)
  | manifest {s : Service} {pods : List Pod} {p : Pod}
    (answer : (cluster.reply (.listPods none (some s.podSelector))).answer = .ok pods)
    (mem : p ∈ pods) :
    Yields cluster logAge (.pods s) (.manifest (p.nsOr allNamespaces) p.name) (.yaml p.toJson)
  | nodes {nodes : List Node} (answer : (cluster.reply .listNodes).answer = .ok nodes) :
    Yields cluster logAge .nodes .nodes (.yaml (.array (nodes.map Node.toJson)))
  | log {ns pod container log : String}
    (answer : (cluster.reply (.readPodLog ns pod container logAge)).answer = .ok log) :
    Yields cluster logAge (.podLog ns pod container) (.log ns pod container) (.text log)
  | metric {ns pod : String} {metric : Resource}
    (answer : (cluster.reply (.getObject metricsApi ns "pods" pod)).answer = .ok metric) :
    Yields cluster logAge (.podMetric ns pod) (.metric ns pod) (.yaml metric)
  | workloads {ns : String} {kind : Workload} {items : List Json}
    (answer : (cluster.reply (.listWorkloads kind ns)).answer = .ok items) :
    Yields cluster logAge (.workloads ns kind) (.workloads ns kind) (.json (.array items))

/-- The artifacts of a task are made of the answer to its question. -/
private theorem mem_artifacts_map {α : Type} {t : Task} {answer : Except ClusterError α}
    {f : α → Harvest} {path : String} {payload : Payload} :
    (path, payload) ∈ TaskOutcome.artifacts (t, answer.map f) ↔
      ∃ a, answer = .ok a ∧ (⟨path, payload⟩ : Artifact) ∈ (f a).artifacts := by
  cases answer with
  | error e => simp [Except.map, TaskOutcome.artifacts]
  | ok a =>
    simp only [Except.map, TaskOutcome.artifacts, List.mem_map, Prod.mk.injEq, Except.ok.injEq,
      exists_eq_left']
    constructor
    · rintro ⟨artifact, h, rfl, rfl⟩
      exact h
    · exact fun h => ⟨_, h, rfl, rfl⟩

/-- What a task yields stands among its artifacts, under the path of the item. -/
theorem Yields.mem_artifacts {t : Task} {i : Item} {payload : Payload}
    (h : t.Yields cluster logAge i payload) :
    (i.path, payload) ∈ (t.outcome cluster logAge).artifacts := by
  cases h with
  | resource answer mem => exact mem_artifacts_map.2 ⟨_, answer, List.mem_map_of_mem mem⟩
  | manifest answer mem => exact mem_artifacts_map.2 ⟨_, answer, List.mem_map_of_mem mem⟩
  | nodes answer | log answer | workloads answer =>
    exact mem_artifacts_map.2 ⟨_, answer, List.mem_singleton_self _⟩
  | metric answer =>
    simp only [outcome, harvest, call, answer, TaskOutcome.artifacts]
    exact List.mem_singleton_self _

/-- Every artifact of a task is an item that the task yields. -/
theorem exists_yields_of_mem_artifacts {t : Task} {path : String} {payload : Payload}
    (h : (path, payload) ∈ (t.outcome cluster logAge).artifacts) :
    ∃ i, t.Yields cluster logAge i payload ∧ i.path = path := by
  cases t with
  | resources kind =>
    obtain ⟨resources, answer, h⟩ := mem_artifacts_map.1 h
    obtain ⟨r, hr, h⟩ := List.mem_map.1 h
    cases h
    exact ⟨_, .resource answer hr, rfl⟩
  | pods s =>
    obtain ⟨pods, answer, h⟩ := mem_artifacts_map.1 h
    obtain ⟨p, hp, h⟩ := List.mem_map.1 h
    cases h
    exact ⟨_, .manifest answer hp, rfl⟩
  | nodes =>
    obtain ⟨nodes, answer, h⟩ := mem_artifacts_map.1 h
    cases List.mem_singleton.1 h
    exact ⟨_, .nodes answer, rfl⟩
  | podLog ns pod container =>
    obtain ⟨log, answer, h⟩ := mem_artifacts_map.1 h
    cases List.mem_singleton.1 h
    exact ⟨_, .log answer, rfl⟩
  | podMetric ns pod =>
    cases answer : (cluster.reply (.getObject metricsApi ns "pods" pod)).answer with
    | error e =>
      -- That there is no measurement is no failure, but it yields nothing either.
      simp only [outcome, harvest, call, answer] at h
      split at h <;> cases h
    | ok metric =>
      simp only [outcome, harvest, call, answer, TaskOutcome.artifacts, List.map_cons,
        List.map_nil, List.mem_singleton] at h
      cases h
      exact ⟨_, .metric answer, rfl⟩
  | workloads ns kind =>
    obtain ⟨items, answer, h⟩ := mem_artifacts_map.1 h
    cases List.mem_singleton.1 h
    exact ⟨_, .workloads answer, rfl⟩

end Task

end EdgeHealth
