import EdgeHealth.Cluster.Snapshot
import EdgeHealth.Proofs.Run.InStep

/-!
# Runs that look at one namespace

A run may be told to look at one namespace only. After deployment it then lists the resources and
the pods of that namespace, follows references from them within it, and connects to a pod that it
has listed. So it asks about nothing outside of the namespace, tells of nothing outside of it, and
two clusters that have the same things in it cannot be told apart, whatever else they hold.

This rests on what a cluster answers when it is asked for the resources or the pods of a namespace:
none of them may stand in another one.

## Main definitions

* `Call.SpansNamespaces` : the questions for resources or pods of all namespaces.
* `Call.StaysIn` : the questions that concern one namespace, or what an API serves.
* `Cluster.AlikeIn` : two clusters with the same replies about a namespace.
* `Snapshot.AlikeIn` : two snapshots with the same contents in a namespace.

## Main results

* `Snapshot.AlikeIn.cluster` : the clusters of two such snapshots.
* `RunRequest.after_confined_to_namespace` : the phase after deployment.
-/

namespace EdgeHealth

namespace Call

/-- A question for the custom resources or the pods of all namespaces. -/
def SpansNamespaces : Call → Prop
  | .listObjects .. => True
  | .listPods none _ => True
  | _ => False

/-- A question that concerns pods or resources of a known kind in one namespace only, or asks what
an API serves. -/
def StaysIn (ns : String) : Call → Prop
  | .listApiResources _ => True
  | .listPods n _ => n = some ns
  | .listObjectsIn api n plural => n = ns ∧ ∃ k : Kind, k.api = api ∧ k.plural = plural
  | .getObject api n plural _ => n = ns ∧ ∃ k : Kind, k.api = api ∧ k.plural = plural
  | .forwardPort n _ _ => n = ns
  | _ => False

end Call

/-! ### Clusters with the same contents in a namespace -/

/-- Two clusters that reply alike to what concerns a namespace, and that list nothing for it which
stands elsewhere. -/
structure Cluster.AlikeIn (ns : String) (a b : Cluster) : Prop where
  /-- The replies. -/
  reply_eq : ∀ call, call.StaysIn ns → a.reply call = b.reply call
  /-- Where the listed resources stand. -/
  resource_ns : ∀ (k : Kind) resources,
    (a.reply (.listObjectsIn k.api ns k.plural)).answer = .ok resources →
      ∀ r ∈ resources, Resource.ns r = ns
  /-- Where the listed pods stand. -/
  pod_ns : ∀ pods, (a.reply (.listPods (some ns) none)).answer = .ok pods →
    ∀ p ∈ pods, p.metadata.ns = some ns

/-- Two snapshots with the same contents in a namespace: the same APIs, and the same resources and
pods in the same order. Questions about it take the same time, those fail that fail in the other
one, and connections come to the same. -/
structure Snapshot.AlikeIn (ns : String) (a b : Snapshot) : Prop where
  apis_eq : a.apis = b.apis
  connection_eq : a.connection = b.connection
  failure_eq : ∀ call, call.StaysIn ns → a.failure call = b.failure call
  delay_eq : ∀ call, call.StaysIn ns → a.delay call = b.delay call
  resources_eq : ∀ k : Kind, (a.objectsOf k.api k.plural).filter (isIn ns) =
    (b.objectsOf k.api k.plural).filter (isIn ns)
  pods_eq : (a.pods.filter fun p => p.metadata.ns == some ns) =
    b.pods.filter fun p => p.metadata.ns == some ns

theorem Resource.ns_eq_of_isIn {ns : String} {r : Resource} (h : Snapshot.isIn ns r) :
    Resource.ns r = ns := by
  rw [Resource.ns, beq_iff_eq.1 h, Option.getD_some]

namespace Snapshot

variable {ns : String} {a b : Snapshot}

theorem api_group_ne (k : Kind) : k.api.group ≠ metricsGroup := by
  cases k <;> decide

/-- A resource is found among those of its namespace. -/
theorem find?_objectsOf (s : Snapshot) (k : Kind) (ns name : String) :
    ((s.objectsOf k.api k.plural).find? fun r =>
        isIn ns r && Json.textAt? r "metadata.name" == some name) =
      ((s.objectsOf k.api k.plural).filter (isIn ns)).find? fun r =>
        Json.textAt? r "metadata.name" == some name := by
  rw [List.find?_filter]
  simp only [Bool.decide_and, Bool.decide_eq_true]

/-- The pods of a namespace. -/
theorem answer_listPods (s : Snapshot) (ns : String) (selector : Option String) :
    s.answer (.listPods (some ns) selector) =
      .ok ((s.pods.filter fun p => p.metadata.ns == some ns).filter fun p =>
        selector.all fun text => selects text p) := by
  rw [answer, List.filter_filter]
  simp [Bool.and_comm]

theorem AlikeIn.answer_eq (h : a.AlikeIn ns b) : (call : Call) → call.StaysIn ns →
    a.answer call = b.answer call
  | .listApiResources api, _ => by simp only [answer, h.apis_eq]
  | .listPods _ selector, rfl => by rw [answer_listPods, answer_listPods, h.pods_eq]
  | .listObjectsIn _ _ _, ⟨rfl, k, rfl, rfl⟩ => by simp only [answer, h.resources_eq k]
  | .getObject _ _ _ name, ⟨rfl, k, rfl, rfl⟩ => by
    simp only [answer, object, if_neg (api_group_ne k), find?_objectsOf, h.resources_eq k]
  | .forwardPort .., _ => by simp only [answer, h.connection_eq]

/-- What a snapshot answers if nothing makes it fail. -/
theorem answer_of_reply {s : Snapshot} {call : Call} {x : call.Answer}
    (h : (s.cluster.reply call).answer = .ok x) : s.answer call = .ok x := by
  simp only [cluster] at h
  split at h
  · cases h
  · exact h

/-- The clusters of snapshots with the same contents in a namespace. -/
theorem AlikeIn.cluster (h : a.AlikeIn ns b) : a.cluster.AlikeIn ns b.cluster where
  reply_eq call hcall := by
    simp only [Snapshot.cluster, h.failure_eq call hcall, h.delay_eq call hcall,
      h.answer_eq call hcall]
  resource_ns k resources hreply r hr := by
    cases answer_of_reply hreply
    exact Resource.ns_eq_of_isIn (List.mem_filter.1 hr).2
  pod_ns pods hreply p hp := by
    have hpods := answer_of_reply hreply
    rw [answer_listPods] at hpods
    cases hpods
    exact beq_iff_eq.1 (List.mem_filter.1 (List.mem_filter.1 hp).1).2

end Snapshot

/-! ### The phase after deployment -/

namespace RunRequest

variable {q : RunRequest} {context : RunContext} {ns : String}

/-- A run that looks at one namespace lists no resources or pods of all namespaces. -/
theorem not_spansNamespaces_of_asked (hns : context.ns = some ns) (cluster : Cluster) (past : Trace)
    (now : Nat) {call : Call}
    (hcall : .asked call ∈ (q.after context cluster.responder past none now).events) :
    ¬ call.SpansNamespaces := by
  let w : Comparison := ⟨cluster, cluster, 0, fun call => ¬ call.SpansNamespaces⟩
  have hshares {call : Call} (h : ¬ call.SpansNamespaces) : w.Shares call := ⟨h, rfl⟩
  have hwithin : w.SharesWithin (fun _ => True) context.ns := by
    rw [hns]
    exact ⟨fun _ _ _ _ => hshares id, fun _ _ _ _ => hshares id, hshares id,
      fun _ _ _ _ => trivial⟩
  have hlist (k : Kind) : w.Shares (k.listCall context.ns) := by
    rw [hns]
    exact hshares id
  have hstep := inStep_after (q := q) q.namePattern
    (Comparison.rel_lags_self rfl context.deadline) hwithin
    (fun _ _ => (hshares id).discovers)
    fun _ _ k _ => Kind.listsAlike_of_shares (hlist k) fun _ _ _ _ => trivial
  exact (hstep past past .none (Comparison.lags_self rfl now)).permits call hcall

/-- The runs with two clusters that are alike in a namespace. -/
theorem inStep_after_of_alikeIn (hns : context.ns = some ns) {a b : Cluster} (h : a.AlikeIn ns b) :
    (q.after context).InStep ⟨a, b, 0, Call.StaysIn ns⟩
      (Same fun cs => ∀ c ∈ cs, c.Confined (· = ns)) (q.after context) := by
  let w : Comparison := ⟨a, b, 0, Call.StaysIn ns⟩
  have hshares (call : Call) (hcall : call.StaysIn ns) : w.Shares call :=
    ⟨hcall, h.reply_eq call hcall⟩
  have hwithin : w.SharesWithin (· = ns) context.ns := by
    rw [hns]
    refine ⟨?_, ?_, hshares _ rfl, fun pods hpods p hp => ?_⟩
    · rintro _ k name rfl
      exact hshares _ ⟨rfl, k, rfl, rfl⟩
    · rintro _ pod port rfl
      exact hshares _ rfl
    · rw [Pod.nsOr, h.pod_ns pods hpods p hp, Option.getD_some]
  have hlist (k : Kind) :
      k.ListsAlike w (· = ns) (q.scopeAfter context) (q.scopeAfter context).names := by
    refine Kind.listsAlike_of_shares ?_ ?_ <;> simp only [scopeAfter, hns]
    · exact hshares _ ⟨rfl, k, rfl, rfl⟩
    · exact h.resource_ns k
  exact inStep_after (q := q) q.namePattern
    (Comparison.rel_lags_self rfl context.deadline) hwithin
    (fun s _ => (hshares (.listApiResources s.api) trivial).discovers)
    fun _ _ k _ => hlist k

/-- **A run that looks at one namespace is confined to it**, after deployment and whenever that
begins. It asks no cluster for resources or pods of all namespaces. With two clusters that are alike
in the namespace it does the same at the same moments, and comes to the same checks or is aborted
with both, whatever else the clusters hold; all that it asks concerns the namespace, and so does
every entry of the checks, unless it tells of all namespaces together. It is aborted only if the
restarts of a pod are wanted that cannot be added. Two snapshots with the same contents in the
namespace stand for such clusters. -/
theorem after_confined_to_namespace (q : RunRequest) (context : RunContext) {ns : String}
    (hns : context.ns = some ns) :
    (∀ cluster past now call,
      .asked call ∈ (q.after context (Cluster.responder cluster) past none now).events →
        ¬ call.SpansNamespaces) ∧
    (∀ a b, Cluster.AlikeIn ns a b → ∀ past now,
      let outcome := q.after context a.responder past none now
      outcome = q.after context b.responder past none now ∧
      (∀ call, .asked call ∈ outcome.events → call.StaysIn ns) ∧
      ((∃ checks, outcome.result = .ok checks ∧
        ∀ c ∈ checks, ∀ target n entry, (target, n, entry) ∈ Check.entries c →
          n = ns ∨ n = allNamespaces) ∨
        (outcome.result = .error .aborted ∧
          ∃ s ∈ q.selectedServices, q.PodsOverflow context a.responder s))) ∧
    ∀ a b, Snapshot.AlikeIn ns a b → a.cluster.AlikeIn ns b.cluster := by
  refine ⟨fun cluster past now call => not_spansNamespaces_of_asked hns cluster past now,
    fun a b h past now => ?_, fun a b h => h.cluster⟩
  have hstep := inStep_after_of_alikeIn (q := q) hns h past past .none
    (Comparison.lags_self rfl now)
  have heq := hstep.eq rfl fun _ _ h => h.1
  refine ⟨heq, hstep.permits, ?_⟩
  refine ((q.completes_after context).cases past now).imp_left fun ⟨checks, hchecks⟩ => ?_
  have hresult := hstep.result
  rw [← heq, hchecks] at hresult
  cases hresult with
  | ok h => exact ⟨checks, hchecks, h.2⟩

/-- A resource in a namespace. -/
private def resourceIn (ns : String) : Resource :=
  .object [("metadata", .object [("name", .string "b"), ("namespace", .string ns)])]

/-- A broker in one namespace, beside resources and pods elsewhere. -/
private def brokerBeside (resources : List Resource) (pods : List Pod) : Snapshot where
  version := ⟨[1, 28]⟩
  nodes := []
  pods := pods
  storageClasses := []
  apis := [("az-edge.com/v1alpha4", [⟨"brokers", "Broker"⟩])]
  objects := [("brokers.az-edge.com", resourceIn "edge" :: resources)]
  metrics := []
  logs := []
  workloads := []
  connection := none
  failure _ := none
  delay _ := 3

/-- A broker in one namespace, and nothing else. -/
private def brokerAlone : Snapshot := brokerBeside [] []

/-- The same broker, and another one and a pod in another namespace. -/
private def brokerInCompany : Snapshot :=
  brokerBeside [resourceIn "far"] [⟨⟨some "p", some "far", none⟩, none, none⟩]

/-- Another broker and a pod in another namespace make no difference. -/
theorem after_confined_to_namespace_company :
    (⟨some "edge", 5, none, true, 80⟩ : RunContext).ns = some "edge" ∧
    brokerAlone.AlikeIn "edge" brokerInCompany ∧
    (after default ⟨some "edge", 5, none, true, 80⟩).run brokerAlone.cluster =
      (after default ⟨some "edge", 5, none, true, 80⟩).run brokerInCompany.cluster ∧
    .asked (.listPods (some "edge") none) ∈
      ((after default ⟨some "edge", 5, none, true, 80⟩).run brokerInCompany.cluster).events ∧
    ¬ (Call.listPods (some "edge") none).SpansNamespaces := by
  have halike : brokerAlone.AlikeIn "edge" brokerInCompany :=
    ⟨rfl, rfl, fun _ _ => rfl, fun _ _ => rfl, fun k => by cases k <;> decide +kernel, rfl⟩
  obtain ⟨hlists, hconfined, hclusters⟩ :=
    after_confined_to_namespace default ⟨some "edge", 5, none, true, 80⟩ rfl
  obtain ⟨heq, -⟩ := hconfined _ _ (hclusters _ _ halike) [] 0
  have hasked : .asked (.listPods (some "edge") none) ∈
      ((after default ⟨some "edge", 5, none, true, 80⟩).run brokerInCompany.cluster).events := by
    decide +kernel
  exact ⟨rfl, halike, heq, hasked, hlists _ [] 0 _ hasked⟩

end RunRequest

end EdgeHealth
