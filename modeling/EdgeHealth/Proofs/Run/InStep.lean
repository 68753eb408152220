import EdgeHealth.Proofs.Evaluate.InStep
import EdgeHealth.Proofs.Run.Plans

/-!
# Runs with two clusters

A run is held with two clusters, for two requests that differ in the pattern of names only. Part by
part the two runs are in step: what was planned before deployment if the version, the nodes and the
storage classes are shared; a kind if its resources are listed alike; a service if what its API
serves is answered alike, in any order and with any repetition. How far a run is from its start
matters to nothing but a deadline, so the lag between the runs is arbitrary if there is none.

## Main definitions

* `RunRequest.naming` : a request with another pattern of names.
* `Comparison.SharesReadiness` : what two clusters share before deployment.
* `Comparison.Discovers` : what an API serves is answered alike.

## Main results

* `RunRequest.discovered_congr` : the order of what an API serves does not matter.
* `RunRequest.inStep_afterFor`, `RunRequest.inStep_after` : the phase after deployment.
* `RunRequest.inStep_before` : the phase before deployment.
* `RunRequest.inStep_report` : the whole run.
-/

namespace EdgeHealth

/-- The request with another pattern of names. -/
def RunRequest.naming (q : RunRequest) (pattern : Option String) : RunRequest :=
  { q with namePattern := pattern }

variable {w : Comparison} {home : String → Prop}

/-! ### Planned checks -/

/-- A planned check whose evaluations are in step. -/
theorem Planned.inStep_run {P : Check → Prop} (p : Planned) {evaluation : Attempt Check}
    {deadline : Option Nat} (hdeadline : Option.Rel w.Lags deadline deadline)
    (h : p.evaluation.InStep w (Same P) evaluation)
    (hfailed : ∀ e, P (p.failed e)) (hcancelled : P p.cancelled) :
    (p.run deadline).InStep w (Same P) (run deadline { p with evaluation := evaluation }) := by
  refine (Session.InStep.within h hdeadline).bind fun r r' hr => Session.inStep_pure ?_
  cases hr with
  | none => exact ⟨rfl, hcancelled⟩
  | some hr => cases hr with
    | ok hcheck => exact hcheck
    | error e => exact ⟨rfl, hfailed e⟩

/-! ### Before deployment -/

/-- What two clusters share before deployment. -/
structure Comparison.SharesReadiness (w : Comparison) : Prop where
  version : w.Shares .serverVersion
  nodes : w.Shares .listNodes
  storageClasses : w.Shares .listStorageClasses

theorem Comparison.sharesReadiness_of_forall
    (h : ∀ call, ¬ Call.ListsObjects call → w.Shares call) : w.SharesReadiness :=
  ⟨h _ id, h _ id, h _ id⟩

namespace Readiness

variable (scope : Scope) (policy : ReadinessPolicy)

theorem inStep_checkVersion (h : w.SharesReadiness) :
    (checkVersion scope policy).InStep w Eq (checkVersion scope policy) :=
  (Attempt.inStep_askFor (R := Eq) h.version.permits (by rw [h.version.reply_eq])
    (by rw [h.version.reply_eq])).bind fun _ _ hanswer => hanswer ▸ Attempt.inStep_pure rfl

theorem inStep_gatherNodes (level : DetailLevel) (nodes : List Node) :
    (gatherNodes level policy nodes).InStep w Eq (gatherNodes level policy nodes) := by
  unfold gatherNodes
  split
  · exact Attempt.inStep_pure rfl
  · exact Attempt.inStep_fail _
  · split
    · exact Attempt.inStep_pure rfl
    · exact Attempt.inStep_abort

theorem inStep_checkNodes (h : w.SharesReadiness) :
    (checkNodes scope policy).InStep w Eq (checkNodes scope policy) := by
  refine (Attempt.inStep_ask_of_shares h.nodes fun _ _ => trivial).bind fun nodes _ hnodes => ?_
  obtain ⟨rfl, -⟩ := hnodes
  exact (inStep_gatherNodes policy _ nodes).bind fun _ _ hnotes => hnotes ▸ Attempt.inStep_pure rfl

theorem inStep_checkStorageClasses (h : w.SharesReadiness) :
    (checkStorageClasses scope policy).InStep w Eq (checkStorageClasses scope policy) :=
  (Attempt.inStep_ask_of_shares h.storageClasses fun _ _ => trivial).bind fun _ _ hclasses =>
    hclasses.1 ▸ Attempt.inStep_pure rfl

end Readiness

namespace RunRequest

variable {q : RunRequest} {context : RunContext} (pattern : Option String)

/-- The phase before deployment, in which no names are chosen. -/
theorem inStep_before (hdeadline : Option.Rel w.Lags context.deadline context.deadline)
    (h : w.SharesReadiness) :
    (q.before context).InStep w Eq ((q.naming pattern).before context) := by
  have hevaluations : ∀ p ∈ q.plansBefore context, p.evaluation.InStep w Eq p.evaluation :=
    q.forall_plansBefore context (P := fun a => a.InStep w Eq a)
      (Readiness.inStep_checkVersion _ _ h) (Readiness.inStep_checkNodes _ _ h)
      (Readiness.inStep_checkStorageClasses _ _ h)
  refine (Session.InStep.forEach (S := Same fun _ => True) (List.forall₂_same.2 fun p hp =>
    p.inStep_run hdeadline ((hevaluations p hp).mono fun _ _ h => ⟨h, trivial⟩)
      (fun _ => trivial) trivial)).mono fun _ _ h => (forall₂_same_iff.1 h).1

theorem inStep_beforeIfAsked (hdeadline : Option.Rel w.Lags context.deadline context.deadline)
    (h : w.SharesReadiness) :
    (q.beforeIfAsked context).InStep w Eq ((q.naming pattern).beforeIfAsked context) := by
  change Session.InStep w Eq (if q.runsBefore then q.before context else pure [])
    (if q.runsBefore then (q.naming pattern).before context else pure [])
  split
  · exact inStep_before pattern hdeadline h
  · exact Session.inStep_pure rfl

end RunRequest

/-! ### What an API serves -/

namespace Discovery

variable {s : Service} {resources resources' : List ApiResource}

/-- Which kinds are served does not depend on the order in which resources are told, nor on how
often each is. -/
theorem mem_served_congr (h : ∀ r, r ∈ resources ↔ r ∈ resources') (k : Kind) :
    k ∈ served s resources ↔ k ∈ served s resources' := by
  simp [served, h]

theorem contains_congr {ks ks' : List Kind} (h : ∀ k, k ∈ ks ↔ k ∈ ks') :
    ks.contains = ks'.contains := funext fun k => by
  rw [Bool.eq_iff_iff, List.contains_iff_mem, List.contains_iff_mem, h]

theorem notes_congr {ks ks' : List Kind} (h : ∀ k, k ∈ ks ↔ k ∈ ks') :
    notes s ks = notes s ks' := by
  have hempty : ks.isEmpty = ks'.isEmpty := by
    rw [Bool.eq_iff_iff, List.isEmpty_iff, List.isEmpty_iff, List.eq_nil_iff_forall_not_mem,
      List.eq_nil_iff_forall_not_mem]
    exact forall_congr' fun k => not_congr (h k)
  simp only [notes, contains_congr h, hempty]

end Discovery

/-- What an API serves is answered alike: it takes the same time, and the same resources are told,
in any order and any number of times. -/
structure Comparison.Discovers (w : Comparison) (s : Service) : Prop where
  permits : w.permits (.listApiResources s.api)
  delay_eq : (w.first.reply (.listApiResources s.api)).delay =
    (w.second.reply (.listApiResources s.api)).delay
  answer : Alike (fun resources resources' => ∀ r, r ∈ resources ↔ r ∈ resources')
    (w.first.reply (.listApiResources s.api)).answer
    (w.second.reply (.listApiResources s.api)).answer

theorem Comparison.Shares.discovers {s : Service} (h : w.Shares (.listApiResources s.api)) :
    w.Discovers s where
  permits := h.permits
  delay_eq := by rw [h.reply_eq]
  answer := by
    rw [← h.reply_eq]
    cases (w.first.reply (.listApiResources s.api)).answer with
    | ok resources => exact .ok fun _ => Iff.rfl
    | error e => exact .error e

namespace RunRequest

variable {q : RunRequest} {context : RunContext} (pattern : Option String) {s : Service}

/-- The checks of a service do not depend on the order in which its API tells what it serves. -/
theorem discovered_congr {resources resources' : List ApiResource}
    (h : ∀ r, r ∈ resources ↔ r ∈ resources') :
    q.discovered context s resources = q.discovered context s resources' := by
  have hmem := Discovery.mem_served_congr (s := s) h
  have hkinds : q.kindCheck context (Discovery.served s resources) =
      q.kindCheck context (Discovery.served s resources') := funext fun k => by
    rw [kindCheck, kindCheck, congrFun (Discovery.contains_congr hmem) k]
  simp only [discovered, Discovery.check, hkinds, Discovery.notes_congr hmem]

/-! ### After deployment -/

theorem confined_of_mem_undiscovered : ∀ c ∈ q.undiscovered context s, c.Confined home := by
  refine List.forall_mem_cons.2 ⟨Check.confined_cancelled _ _ _, fun c hc => ?_⟩
  obtain ⟨p, -, rfl⟩ := List.mem_map.1 hc
  exact Check.confined_cancelled _ _ _

theorem undiscovered_naming :
    (q.naming pattern).undiscovered context s = q.undiscovered context s := by
  simp only [undiscovered, plansBeside, List.map_append, List.map_map]
  rfl

section After

variable (hdeadline : Option.Rel w.Lags context.deadline context.deadline)
include hdeadline

theorem inStep_kindCheck (h : w.SharesWithin home context.ns) {k : Kind}
    (hlist : k.ListsAlike w home (q.scopeAfter context) (.ofPattern pattern))
    (served : List Kind) :
    (q.kindCheck context served k).InStep w (Same fun c => c.Confined home)
      ((q.naming pattern).kindCheck context served k) := by
  unfold kindCheck
  split
  · exact Planned.inStep_run (q.kindPlan context k) hdeadline (Kind.inStep_check h hlist)
      (Check.confined_failed _ _ _) (Check.confined_cancelled _ _ _)
  · exact Session.inStep_pure ⟨rfl, Discovery.confined_absentKind _ k⟩

theorem inStep_plansBeside (h : w.SharesWithin home context.ns) :
    (Session.forEach (Planned.run context.deadline) (q.plansBeside context s)).InStep w
      (Same fun cs => ∀ c ∈ cs, c.Confined home)
      (Session.forEach (Planned.run context.deadline)
        ((q.naming pattern).plansBeside context s)) := by
  have hplans : ∀ p ∈ q.plansBeside context s,
      p.evaluation.InStep w (Same fun c => c.Confined home) p.evaluation :=
    q.forall_plansBeside context
      (P := fun a => a.InStep w (Same fun c => c.Confined home) a)
      (fun _ => Service.inStep_checkPods h s) (Statistics.inStep_check h)
  refine (Session.InStep.forEach (List.forall₂_same.2 fun p hp => Planned.inStep_run p hdeadline
    (hplans p hp) (Check.confined_failed _ _ _) (Check.confined_cancelled _ _ _))).mono
    fun _ _ h => forall₂_same_iff.1 h

theorem inStep_discovered (h : w.SharesWithin home context.ns)
    (hlists : ∀ k ∈ q.selectedKinds s,
      k.ListsAlike w home (q.scopeAfter context) (.ofPattern pattern))
    (resources : List ApiResource) :
    (q.discovered context s resources).InStep w (Same fun cs => ∀ c ∈ cs, c.Confined home)
      ((q.naming pattern).discovered context s resources) := by
  refine (Session.InStep.forEach (List.forall₂_same.2 fun k hk =>
    inStep_kindCheck pattern hdeadline h (hlists k hk) _)).bind fun ofKinds _ hofKinds => ?_
  refine (inStep_plansBeside pattern hdeadline h).bind fun beside _ hofRest => ?_
  obtain ⟨rfl, hkinds⟩ := forall₂_same_iff.1 hofKinds
  obtain ⟨rfl, hbeside⟩ := hofRest
  exact Session.inStep_pure ⟨rfl, List.forall_mem_cons.2
    ⟨Discovery.confined_check _ s resources, List.forall_mem_append.2 ⟨hkinds, hbeside⟩⟩⟩

/-- The phase after deployment for one service. -/
theorem inStep_afterFor (h : w.SharesWithin home context.ns) (hdiscovers : w.Discovers s)
    (hlists : ∀ k ∈ q.selectedKinds s,
      k.ListsAlike w home (q.scopeAfter context) (.ofPattern pattern)) :
    (q.afterFor context s).InStep w (Same fun cs => ∀ c ∈ cs, c.Confined home)
      ((q.naming pattern).afterFor context s) := by
  refine ((Session.inStep_ask hdiscovers.permits hdiscovers.delay_eq hdiscovers.answer).within
    hdeadline).bind fun r r' hr => ?_
  cases hr with
  | none =>
    exact Session.inStep_pure ⟨(undiscovered_naming pattern).symm, confined_of_mem_undiscovered⟩
  | some hr => cases hr with
    | ok hresources =>
      simp only [afterDiscovery]
      rw [discovered_congr hresources]
      exact inStep_discovered pattern hdeadline h hlists _
    | error e =>
      simp only [afterDiscovery]
      split
      · exact Session.inStep_pure ⟨rfl, List.forall_mem_singleton.2
          (Discovery.confined_missingApi _ s)⟩
      · exact Session.inStep_pure ⟨rfl, List.forall_mem_singleton.2 (Check.confined_failed _ _ _ e)⟩

/-- The phase after deployment. -/
theorem inStep_after (h : w.SharesWithin home context.ns)
    (hdiscovers : ∀ s ∈ q.selectedServices, w.Discovers s)
    (hlists : ∀ s ∈ q.selectedServices, ∀ k ∈ q.selectedKinds s,
      k.ListsAlike w home (q.scopeAfter context) (.ofPattern pattern)) :
    (q.after context).InStep w (Same fun cs => ∀ c ∈ cs, c.Confined home)
      ((q.naming pattern).after context) := by
  refine (Session.InStep.forEach (List.forall₂_same.2 fun s hs =>
    inStep_afterFor pattern hdeadline h (hdiscovers s hs) (hlists s hs))).bind
      fun lists _ hlists => ?_
  obtain ⟨rfl, hall⟩ := forall₂_same_iff.1 hlists
  refine Session.inStep_pure ⟨rfl, fun c hc => ?_⟩
  obtain ⟨cs, hcs, hc⟩ := List.mem_flatten.1 hc
  exact hall cs hcs c hc

/-- The whole run. -/
theorem inStep_report (hreadiness : w.SharesReadiness) (h : w.SharesWithin home context.ns)
    (hdiscovers : ∀ s ∈ q.selectedServices, w.Discovers s)
    (hlists : ∀ s ∈ q.selectedServices, ∀ k ∈ q.selectedKinds s,
      k.ListsAlike w home (q.scopeAfter context) (.ofPattern pattern)) :
    (q.report context).InStep w Eq ((q.naming pattern).report context) := by
  have hafter : (q.afterIfAsked context).InStep w Eq
      ((q.naming pattern).afterIfAsked context) := by
    change Session.InStep w Eq (if q.runsAfter then q.after context else pure [])
      (if q.runsAfter then (q.naming pattern).after context else pure [])
    split
    · exact (inStep_after pattern hdeadline h hdiscovers hlists).mono fun _ _ h => h.1
    · exact Session.inStep_pure rfl
  refine (inStep_beforeIfAsked pattern hdeadline hreadiness).bind fun before _ hbefore =>
    hafter.bind fun after _ hafter => ?_
  subst hbefore hafter
  exact Session.inStep_pure rfl

end After

end RunRequest

end EdgeHealth
