import EdgeHealth.Proofs.Cluster.InStep
import EdgeHealth.Proofs.Evaluate.Confined

/-!
# Evaluations with two clusters

An evaluation is held with two clusters. It asks for the resources of a kind or for pods, and what
it asks after that is about the namespaces of these. So two evaluations are in step as soon as the
lists are shared and, for the namespaces in which something was found, the resources that are
referred to and the connections to pods. Which names are looked at matters to nothing but the list
of the resources, so that the two evaluations may differ in that.

## Main definitions

* `Comparison.SharesWithin` : what two clusters share about some namespaces.
* `Kind.ListsAlike` : two evaluations that look at the same resources of a kind.

## Main results

* `Kind.inStep_check`, `Service.inStep_checkPods`, `Statistics.inStep_check` : the evaluations after
  deployment.
-/

namespace EdgeHealth

variable {w : Comparison} {home : String → Prop}

/-- What two clusters share about some namespaces: their pods, if only these namespaces have any,
the resources in them by name, and the connections to their pods. -/
structure Comparison.SharesWithin (w : Comparison) (home : String → Prop) (ns : Option String) :
    Prop where
  /-- A resource by its name. -/
  object : ∀ n (k : Kind) name, home n → w.Shares (.getObject k.api n k.plural name)
  /-- A connection to a pod. -/
  connection : ∀ n pod port, home n → w.Shares (.forwardPort n pod port)
  /-- The pods. -/
  pods : w.Shares (.listPods ns none)
  /-- Where the pods are. -/
  pods_home : ∀ pods, (w.first.reply (.listPods ns none)).answer = .ok pods →
    ∀ p ∈ pods, home (p.nsOr allNamespaces)

/-- A question for custom resources, which is answered by a list of them. -/
def Call.ListsObjects : Call → Prop
  | .listObjects .. => True
  | .listObjectsIn .. => True
  | _ => False

/-- Where everything but lists of custom resources is shared, it is shared within all namespaces. -/
theorem Comparison.sharesWithin_of_forall (h : ∀ call, ¬ Call.ListsObjects call → w.Shares call)
    (ns : Option String) : w.SharesWithin (fun _ => True) ns :=
  ⟨fun _ _ _ _ => h _ id, fun _ _ _ _ => h _ id, h _ id, fun _ _ _ _ => trivial⟩

/-- The question for the resources of a kind in the namespaces that are looked at. -/
def Kind.listCall (k : Kind) : Option String → Call
  | some ns => .listObjectsIn k.api ns k.plural
  | none => .listObjects k.api k.plural

/-- The reply to the question for the resources of a kind. -/
def Cluster.listReply (cluster : Cluster) (k : Kind) : Option String → Reply (List Resource)
  | some ns => cluster.reply (.listObjectsIn k.api ns k.plural)
  | none => cluster.reply (.listObjects k.api k.plural)

/-- The scope with another choice of names. -/
def Scope.naming (scope : Scope) (names : NameFilter) : Scope := { scope with names := names }

/-- Two evaluations that look at the same resources of a kind, all of them in some namespaces. -/
def Kind.ListsAlike (w : Comparison) (home : String → Prop) (scope : Scope) (names : NameFilter)
    (k : Kind) : Prop :=
  (k.fetch scope).InStep w
    (Same fun resources => ∀ r ∈ resources, home (Resource.ns r))
    (k.fetch (scope.naming names))

/-- Two lists of resources of which the same ones are chosen by their names, all of them in some
namespaces. -/
def ChosenAlike (home : String → Prop) (names names' : NameFilter)
    (resources resources' : List Resource) : Prop :=
  Same (fun chosen => ∀ r ∈ chosen, home (Resource.ns r))
    (resources.filter fun r => names.accepts (Resource.name r))
    (resources'.filter fun r => names'.accepts (Resource.name r))

/-- Resources are listed alike if it takes the same time, and either the same ones are chosen, or
both clusters fail in the same way. -/
theorem Kind.listsAlike_of_replies {scope : Scope} {names : NameFilter} {k : Kind}
    (hpermits : w.permits (k.listCall scope.context.ns))
    (hdelay : (w.first.listReply k scope.context.ns).delay =
      (w.second.listReply k scope.context.ns).delay)
    (hanswer : Alike (ChosenAlike home scope.names names)
      (w.first.listReply k scope.context.ns).answer
      (w.second.listReply k scope.context.ns).answer) :
    k.ListsAlike w home scope names := by
  have hlisted : ∀ answer answer', Alike (ChosenAlike home scope.names names) answer
      answer' → (listed answer).InStep w (ChosenAlike home scope.names names) (listed answer') := by
    intro answer answer' h
    cases h with
    | ok h => exact Attempt.inStep_pure h
    | error e =>
      simp only [listed]
      split
      · exact Attempt.inStep_pure ⟨rfl, by simp⟩
      · exact Attempt.inStep_fail e
  have hlist : (k.list scope.context.ns).InStep w (ChosenAlike home scope.names names)
      (k.list scope.context.ns) := by
    cases hns : scope.context.ns with
    | some ns =>
      rw [hns] at hpermits hdelay hanswer
      exact (Attempt.inStep_askFor hpermits hdelay hanswer).bind hlisted
    | none =>
      rw [hns] at hpermits hdelay hanswer
      exact (Attempt.inStep_askFor hpermits hdelay hanswer).bind hlisted
  exact hlist.bind fun _ _ h => Attempt.inStep_pure h

theorem Comparison.Shares.listReply_eq {k : Kind} {ns : Option String}
    (h : w.Shares (k.listCall ns)) : w.first.listReply k ns = w.second.listReply k ns := by
  cases ns <;> exact h.reply_eq

/-- Resources are listed alike if the list is shared. -/
theorem Kind.listsAlike_of_shares {scope : Scope} {k : Kind}
    (h : w.Shares (k.listCall scope.context.ns))
    (hhome : ∀ resources, (w.first.listReply k scope.context.ns).answer = .ok resources →
      ∀ r ∈ resources, home (Resource.ns r)) : k.ListsAlike w home scope scope.names := by
  refine listsAlike_of_replies h.permits (by rw [h.listReply_eq]) ?_
  rw [← h.listReply_eq]
  cases hanswer : (w.first.listReply k scope.context.ns).answer with
  | ok resources =>
    exact .ok ⟨rfl, fun r hr => hhome resources hanswer r (List.mem_of_mem_filter hr)⟩
  | error e => exact .error e

/-! ### Resources -/

section References

variable {ns : String}
  (hobject : ∀ (k : Kind) name, w.Shares (.getObject k.api ns k.plural name))
include hobject

namespace Finding

theorem inStep_exists? (referent : Kind) (name : String) :
    (exists? ns referent name).InStep w Eq (exists? ns referent name) := by
  have hshares := hobject referent name
  refine (Attempt.inStep_askFor (R := Eq) hshares.permits (by rw [hshares.reply_eq])
    (by rw [hshares.reply_eq])).bind fun answer _ h => ?_
  subst h
  split
  · exact Attempt.inStep_pure rfl
  · split
    · exact Attempt.inStep_fail _
    · exact Attempt.inStep_pure rfl

theorem inStep_reference (path : String) (referent : Kind) (r : Resource) :
    (reference ns path referent r).InStep w Eq (reference ns path referent r) := by
  unfold reference
  split
  · exact Attempt.inStep_pure rfl
  · exact (inStep_exists? hobject referent _).bind fun _ _ h => h ▸ Attempt.inStep_pure rfl

theorem inStep_missingOf (referent : Kind) : (names : List String) →
    (missingOf ns referent names).InStep w Eq (missingOf ns referent names)
  | [] => Attempt.inStep_pure rfl
  | name :: names =>
    (inStep_exists? hobject referent name).bind fun _ _ hfound =>
      (inStep_missingOf referent names).bind fun _ _ hmissing =>
        Attempt.inStep_pure (by rw [hfound, hmissing])

theorem inStep_references (path : String) (referent : Kind) (r : Resource) :
    (references ns path referent r).InStep w Eq (references ns path referent r) := by
  unfold references
  split
  · exact Attempt.inStep_pure rfl
  · exact (inStep_missingOf hobject referent _).bind fun _ _ h => h ▸ Attempt.inStep_pure rfl

end Finding

theorem Rule.inStep_apply (r : Resource) (rule : Rule) :
    (rule.apply ns r).InStep w Eq (rule.apply ns r) := by
  cases rule with
  | demands condition requirements => exact Attempt.inStep_pure rfl
  | alternatives base fields => exact Attempt.inStep_pure rfl
  | reference path referent => exact Finding.inStep_reference hobject path referent r
  | references path referent => exact Finding.inStep_references hobject path referent r

theorem Kind.inStep_resourceNotes (level : DetailLevel) (k : Kind) (r : Resource) :
    (k.resourceNotes level ns r).InStep w Eq (k.resourceNotes level ns r) := by
  refine (Attempt.InStep.forEach (List.forall₂_same.2 fun rule _ =>
    Rule.inStep_apply hobject r rule)).bind fun findings findings' h => ?_
  rw [List.forall₂_eq_eq_eq] at h
  exact h ▸ Attempt.inStep_pure rfl

end References

namespace Kind

variable {scope : Scope} {names : NameFilter}

/-- The notes about resources, each of which is looked at in its own namespace. -/
theorem inStep_notes (hobject : ∀ n (k : Kind) name, home n →
      w.Shares (.getObject k.api n k.plural name))
    (k : Kind) {resources : List Resource} (hhome : ∀ r ∈ resources, home (Resource.ns r)) :
    (k.notes scope resources).InStep w
      (Same fun notes => ∀ n ∈ notes, n.Confined home)
      (k.notes (scope.naming names) resources) := by
  refine Attempt.InStep.and_ensures ?_ (k.notes_ensures_confined scope hhome)
  cases resources with
  | nil => exact Attempt.inStep_pure rfl
  | cons r rest =>
    refine (Attempt.InStep.forEach (S := Eq) (List.forall₂_same.2 fun pair hpair => ?_)).bind
      fun details details' h => ?_
    · obtain ⟨group, hgroup, hpair⟩ := List.mem_flatMap.1 hpair
      obtain ⟨r, -, rfl⟩ := List.mem_map.1 hpair
      have hns := home_of_mem_groups hhome hgroup
      exact inStep_resourceNotes (fun k name => hobject _ k name hns) scope.level k r
    · rw [List.forall₂_eq_eq_eq] at h
      exact h ▸ Attempt.inStep_pure rfl

/-- The check of a kind, of which the same resources are looked at. -/
theorem inStep_check (h : w.SharesWithin home scope.context.ns) {k : Kind}
    (hlist : k.ListsAlike w home scope names) :
    (k.check scope).InStep w (Same fun c => c.Confined home)
      (k.check (scope.naming names)) := by
  refine Attempt.InStep.bind hlist fun resources _ hresources => ?_
  obtain ⟨rfl, hhome⟩ := hresources
  refine (inStep_notes h.object k hhome).bind fun notes _ hnotes => ?_
  obtain ⟨rfl, hconfined⟩ := hnotes
  exact Attempt.inStep_pure ⟨rfl, Check.confined_ofNotesFor hconfined⟩

end Kind

/-! ### Pods and statistics -/

/-- The notes about the same pods, or none where they cannot be made. -/
theorem PodHealth.inStep_gather {withDisplays : Bool} {level : DetailLevel}
    {starts : List PodPrefix} {pods : List Pod}
    (h : ∀ n ∈ notes level starts pods, n.Confined home) :
    (gather withDisplays level starts pods).InStep w
      (Same fun notes => ∀ n ∈ notes, n.Confined home)
      (gather withDisplays level starts pods) := by
  unfold gather
  split
  · exact Attempt.inStep_abort
  · exact Attempt.inStep_pure ⟨rfl, h⟩

/-- The check of the pods of a service. -/
theorem Service.inStep_checkPods {scope : Scope} (h : w.SharesWithin home scope.context.ns)
    (s : Service) :
    (s.checkPods scope).InStep w (Same fun c => c.Confined home) (s.checkPods scope) := by
  refine (Attempt.inStep_ask_of_shares h.pods h.pods_home).bind fun pods _ hpods => ?_
  obtain ⟨rfl, hhome⟩ := hpods
  refine (PodHealth.inStep_gather (PodHealth.confined_notes scope.level s.podPrefixes hhome)).bind
    fun notes _ hnotes => ?_
  obtain ⟨rfl, hconfined⟩ := hnotes
  exact Attempt.inStep_pure ⟨rfl, Check.confined_ofNotesFor hconfined⟩

namespace Scrape

theorem inStep_send (port : Nat) :
    (Attempt.lift (Session.trace (.sent (request port)))).InStep w Eq
      (Attempt.lift (Session.trace (.sent (request port)))) :=
  Attempt.inStep_lift (Session.inStep_trace_sent _)

theorem inStep_exchange (port : Nat) (connection : Connection) :
    (exchange port connection).InStep w Eq (exchange port connection) := by
  cases connection with
  | failsWriting reason => exact Attempt.inStep_fail _
  | failsSending reason => exact Attempt.inStep_fail _
  | failsReading reason => exact (inStep_send port).bind fun _ _ _ => Attempt.inStep_fail _
  | stalls =>
    exact (inStep_send port).bind fun _ _ _ => Attempt.inStep_lift Session.inStep_never
  | responds bytes =>
    refine (inStep_send port).bind fun _ _ _ => ?_
    cases h : readResponse bytes with
    | ok stats => exact Session.inStep_pure (.ok rfl)
    | error e => exact Session.inStep_pure (.error e)

theorem inStep_fetch {ns pod : String} {port : Nat} (h : w.Shares (.forwardPort ns pod port)) :
    (fetch ns pod port).InStep w Eq (fetch ns pod port) :=
  (Attempt.inStep_ask_of_shares h fun _ _ => trivial).bind fun connection _ h =>
    h.1 ▸ inStep_exchange port connection

end Scrape

namespace Statistics

theorem inStep_gather {context : RunContext} (h : w.SharesWithin home context.ns) {pods : List Pod}
    (hhome : ∀ p ∈ pods, home (p.nsOr allNamespaces)) :
    (gather context pods).InStep w
      (Same fun notes => ∀ n ∈ notes, n.Confined home)
      (gather context pods) := by
  unfold gather
  split
  · exact Attempt.inStep_pure ⟨rfl, confined_record (.inr rfl) _ _ _⟩
  · next pod hpod =>
    have hns := hhome pod (List.mem_of_find?_eq_some hpod)
    refine (Attempt.inStep_lift ((Scrape.inStep_fetch (h.connection _ pod.name context.statsPort
      hns)).timeout context.apiTimeout)).bind fun outcome _ houtcome => ?_
    refine Attempt.inStep_pure ⟨?_, confined_fetchNotes context hns pod.name outcome⟩
    cases houtcome with
    | none => rfl
    | some hr => cases hr with
      | ok hstats => rw [hstats]
      | error e => rfl

/-- The check of the statistics, which one of the pods serves. -/
theorem inStep_check {scope : Scope} (h : w.SharesWithin home scope.context.ns) :
    (check scope).InStep w (Same fun c => c.Confined home) (check scope) := by
  refine (Attempt.inStep_ask_of_shares h.pods h.pods_home).bind fun pods _ hpods => ?_
  obtain ⟨rfl, hhome⟩ := hpods
  refine (inStep_gather h hhome).bind fun notes _ hnotes => ?_
  obtain ⟨rfl, hconfined⟩ := hnotes
  exact Attempt.inStep_pure ⟨rfl, Check.confined_ofNotesFor hconfined⟩

end Statistics

end EdgeHealth
