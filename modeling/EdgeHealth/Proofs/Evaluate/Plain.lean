import EdgeHealth.Evaluate.Readiness
import EdgeHealth.Evaluate.Resources
import EdgeHealth.Evaluate.Statistics
import EdgeHealth.Proofs.Cluster.Plain

/-!
# Evaluations come to an end

Most evaluations are made of questions and nothing else, so that they come to an end, with a check
or with a failure, when they are not cut off. So do the statistics of the broker: a connection may
never respond, but the wait for it is given up after some time. None of these is ever aborted.

## Main results

* `Kind.plain_check`, `Readiness.plain_checkVersion`, `Readiness.plain_checkStorageClasses` :
  evaluations made of questions.
* `Statistics.completes_check` : the evaluation of the statistics comes to an end.
-/

namespace EdgeHealth

namespace Finding

/-! ### Findings -/

theorem plain_exists? (ns : String) (referent : Kind) (name : String) :
    (exists? ns referent name).Plain := by
  refine (Attempt.plain_askFor _).bind fun answer => ?_
  split
  · exact Attempt.plain_pure _
  · split
    · exact Attempt.plain_fail _
    · exact Attempt.plain_pure _

theorem plain_reference (ns path : String) (referent : Kind) (r : Resource) :
    (reference ns path referent r).Plain := by
  unfold reference
  split
  · exact Attempt.plain_pure _
  · exact (plain_exists? ns referent _).bind fun _ => Attempt.plain_pure _

theorem plain_missingOf (ns : String) (referent : Kind) : (names : List String) →
    (missingOf ns referent names).Plain
  | [] => Attempt.plain_pure _
  | name :: names =>
    (plain_exists? ns referent name).bind fun _ =>
      (plain_missingOf ns referent names).bind fun _ => Attempt.plain_pure _

theorem plain_references (ns path : String) (referent : Kind) (r : Resource) :
    (references ns path referent r).Plain := by
  unfold references
  split
  · exact Attempt.plain_pure _
  · exact (plain_missingOf ns referent _).bind fun _ => Attempt.plain_pure _

end Finding

theorem Rule.plain_apply (ns : String) (r : Resource) (rule : Rule) : (rule.apply ns r).Plain := by
  cases rule with
  | demands condition requirements => exact Attempt.plain_pure _
  | alternatives base fields => exact Attempt.plain_pure _
  | reference path referent => exact Finding.plain_reference ns path referent r
  | references path referent => exact Finding.plain_references ns path referent r

/-! ### Resources and readiness -/

namespace Kind

theorem plain_listed (answer : Except ClusterError (List Resource)) : (listed answer).Plain := by
  cases answer with
  | ok resources => exact Attempt.plain_pure _
  | error e =>
    simp only [listed]
    split
    · exact Attempt.plain_pure _
    · exact Attempt.plain_fail _

theorem plain_list (ns : Option String) (k : Kind) : (k.list ns).Plain := by
  cases ns <;> exact (Attempt.plain_askFor _).bind plain_listed

theorem plain_fetch (scope : Scope) (k : Kind) : (k.fetch scope).Plain :=
  (k.plain_list scope.context.ns).bind fun _ => Attempt.plain_pure _

theorem plain_resourceNotes (level : DetailLevel) (k : Kind) (ns : String) (r : Resource) :
    (k.resourceNotes level ns r).Plain :=
  (Attempt.Plain.forEach (Rule.plain_apply ns r) (k.rules r)).bind fun _ => Attempt.plain_pure _

theorem plain_notes (scope : Scope) (k : Kind) (resources : List Resource) :
    (k.notes scope resources).Plain := by
  cases resources with
  | nil => exact Attempt.plain_pure _
  | cons r rest =>
    exact (Attempt.Plain.forEach (fun (ns, r) => k.plain_resourceNotes scope.level ns r) _).bind
      fun _ => Attempt.plain_pure _

/-- The check of a kind is made of questions. -/
theorem plain_check (scope : Scope) (k : Kind) : (k.check scope).Plain :=
  (k.plain_fetch scope).bind fun resources =>
    (k.plain_notes scope resources).bind fun _ => Attempt.plain_pure _

end Kind

namespace Readiness

theorem plain_checkVersion (scope : Scope) (policy : ReadinessPolicy) :
    (checkVersion scope policy).Plain :=
  (Attempt.plain_askFor _).bind fun _ => Attempt.plain_pure _

theorem plain_checkStorageClasses (scope : Scope) (policy : ReadinessPolicy) :
    (checkStorageClasses scope policy).Plain :=
  (Attempt.plain_ask _).bind fun _ => Attempt.plain_pure _

end Readiness

/-! ### Statistics of the broker -/

namespace Statistics

variable {E : Prop} {responder : Responder}

/-- The connection is never aborted. -/
theorem result_fetch_ne_aborted (ns pod : String) (port : Nat) (past : Trace) (limit : Option Nat)
    (now : Nat) :
    ((Scrape.fetch ns pod port).run responder past limit now).result ≠ .error .aborted := by
  have hexchange (connection : Connection) (past : Trace) (limit : Option Nat) (now : Nat) :
      ((Scrape.exchange port connection).run responder past limit now).result ≠
        .error .aborted := by
    cases connection <;> exact nofun
  rw [Scrape.fetch, Session.run_bind]
  intro h
  cases hask : ((Attempt.ask (.forwardPort ns pod port)).run responder past limit now).result with
  | error i =>
    rw [Session.result_bind_of_error hask] at h
    cases h
    exact Session.result_ask_ne_aborted _ _ _ _ hask
  | ok r =>
    rw [Session.bind_of_ok hask] at h
    cases r with
    | ok connection => exact hexchange connection _ _ _ h
    | error e => cases h

/-- The wait for the statistics comes to an end, even if the connection never responds. -/
theorem completes_gather (context : RunContext) (pods : List Pod) :
    (gather context pods).run.CompletesUnless E responder := by
  unfold gather
  split
  · exact Session.completes_pure _
  · rw [Session.run_bind]
    refine ((Session.completes_timeout _ (result_fetch_ne_aborted _ _ _)).bind fun _ _ =>
      Session.completes_pure _).bind fun r _ => ?_
    cases r <;> exact Session.completes_pure _

/-- The check of the statistics comes to an end. -/
theorem completes_check (scope : Scope) : (check scope).run.CompletesUnless E responder :=
  Attempt.completes_run_bind (Session.completes_ask _) fun pods _ =>
    Attempt.completes_run_bind (completes_gather scope.context pods) fun _ _ =>
      Session.completes_pure _

end Statistics

end EdgeHealth
