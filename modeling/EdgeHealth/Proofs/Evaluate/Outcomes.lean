import EdgeHealth.Evaluate.Pods
import EdgeHealth.Evaluate.Readiness
import EdgeHealth.Evaluate.Resources
import EdgeHealth.Proofs.Cluster.Plain
import EdgeHealth.Proofs.Status.Order

/-!
# What is observed is not skipped

Whatever an evaluation looks at, it comes to a success, a warning or an error. Only a check that
stands in for an evaluation has an observation that was skipped.

## Main results

* `Finding.status_ofStatus?_ne` : the status that a resource reports.
* `Rule.apply_ensures_status_ne` : what a rule comes to on a resource.
* `PodHealth.phaseStatus_ne`, `Cardinality.statusOf_ne`, `Readiness.status_nodeFindings_ne` : the
  phase of a pod, a number of resources, and the demands on a node.
-/

namespace EdgeHealth

/-! ### Single statuses -/

@[simp] theorem Cardinality.statusOf_ne (c : Cardinality) (count : Nat) :
    c.statusOf count ≠ .skipped := by
  unfold statusOf
  split <;> exact nofun

@[simp] theorem PodHealth.phaseStatus_ne (phase : Option String) :
    phaseStatus phase ≠ .skipped := by
  unfold phaseStatus
  split
  · split
    · exact nofun
    · split <;> exact nofun
  · exact nofun

theorem Readiness.statusOf_ne {α : Type} (value : Option α) (holds : α → Bool) :
    statusOf value holds ≠ .skipped := by
  unfold statusOf
  split
  · split <;> exact nofun
  · exact nofun

theorem Requirement.status_outcome_ne (r : Resource) (requirements : List Requirement) :
    (outcome r requirements).1 ≠ .skipped := by
  unfold outcome
  split <;> exact nofun

namespace Readiness

/-- What a demand on a node comes to is not skipped. -/
theorem status_nodeFindings_ne {policy : ReadinessPolicy} {least : Nat} {n : Node} :
    ∀ f ∈ nodeFindings policy least n, f.status ≠ .skipped := by
  intro f hf
  simp only [nodeFindings, List.mem_append, List.mem_cons, List.not_mem_nil, or_false,
    Option.mem_toList] at hf
  rcases hf with (rfl | rfl | rfl) | hf
  · exact statusOf_ne _ _
  · exact statusOf_ne _ _
  · exact statusOf_ne _ _
  · obtain ⟨kernel, _, rfl⟩ := Option.map_eq_some_iff.1 hf
    exact statusOf_ne _ _

end Readiness

/-! ### Findings about a resource -/

namespace Finding

theorem status_alternativesOutcome_ne (set fields : List String) :
    (alternativesOutcome set fields).1 ≠ .skipped := by
  unfold alternativesOutcome
  split <;> exact nofun

theorem reportedStatus_ne (word : String) : reportedStatus word ≠ .skipped := by
  simp only [reportedStatus]
  split
  · exact nofun
  · split <;> exact nofun

/-- The parts of a reported status are combined to one that is not skipped: it is that of one of
the parts. -/
theorem combinedStatus_ne (words : List (Option String)) : combinedStatus words ≠ .skipped := by
  unfold combinedStatus
  split
  · exact nofun
  · rcases Status.worstOf_eq_success_or_mem
      (words.map fun word => (word.map reportedStatus).getD .warning) with h | h
    · rw [h]
      exact nofun
    · obtain ⟨word, _, hword⟩ := List.mem_map.1 h
      rw [← hword]
      cases word with
      | none => exact nofun
      | some word => exact reportedStatus_ne word

theorem status_ofStatus?_ne {level : DetailLevel} {r : Resource} :
    ∀ f ∈ (ofStatus? level r).toList, f.status ≠ .skipped := by
  intro f hf
  obtain ⟨status, _, rfl⟩ := Option.map_eq_some_iff.1 (Option.mem_toList.1 hf)
  exact combinedStatus_ne _

theorem status_ofReference_ne (path : String) (referent : Kind) (name : String) (found : Bool) :
    (ofReference path referent name found).status ≠ .skipped := by
  cases found <;> exact nofun

theorem status_ofReferences_ne (path : String) (referent : Kind) (names missing : List String) :
    (ofReferences path referent names missing).status ≠ .skipped := by
  unfold ofReferences
  split <;> exact nofun

theorem reference_ensures_status_ne (ns path : String) (referent : Kind) (r : Resource) :
    (reference ns path referent r).Ensures fun f => f.status ≠ .skipped := by
  unfold reference
  split
  · exact Attempt.ensures_pure nofun
  · exact .bind (Attempt.ensures_of_forall (fun _ => trivial) _) fun found _ =>
      Attempt.ensures_pure (status_ofReference_ne path referent _ found)

theorem references_ensures_status_ne (ns path : String) (referent : Kind) (r : Resource) :
    (references ns path referent r).Ensures fun f => f.status ≠ .skipped := by
  unfold references
  split
  · exact Attempt.ensures_pure nofun
  · exact .bind (Attempt.ensures_of_forall (fun _ => trivial) _) fun missing _ =>
      Attempt.ensures_pure (status_ofReferences_ne path referent _ missing)

end Finding

/-- What a rule comes to on a resource is not skipped. -/
theorem Rule.apply_ensures_status_ne (ns : String) (r : Resource) (rule : Rule) :
    (rule.apply ns r).Ensures fun f => f.status ≠ .skipped := by
  cases rule with
  | demands condition requirements =>
    exact Attempt.ensures_pure (Requirement.status_outcome_ne r requirements)
  | alternatives base fields =>
    exact Attempt.ensures_pure (Finding.status_alternativesOutcome_ne _ fields)
  | reference path referent => exact Finding.reference_ensures_status_ne ns path referent r
  | references path referent => exact Finding.references_ensures_status_ne ns path referent r

end EdgeHealth
