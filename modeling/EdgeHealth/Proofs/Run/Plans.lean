import EdgeHealth.Proofs.Evaluate.Overflow
import EdgeHealth.Proofs.Evaluate.Plain
import EdgeHealth.Run.Report

/-!
# The checks that a run plans

A run plans few kinds of evaluations: three before deployment, and after it those of the kinds, of
the pods and of the statistics. What holds of these holds of all plans. In particular every plan
comes to an end, and so does the run, whoever replies to its questions.

A run comes to an end in one of two ways: with a report, or by being aborted. It is aborted only
where a number is too great: the cores that its policy demands, or the restarts of a pod about which
lines are wanted.

## Main definitions

* `RunRequest.PodsOverflow`, `RunRequest.Overflows` : the cases in which a run may be aborted.

## Main results

* `RunRequest.forall_mem_plansBefore`, `RunRequest.forall_mem_plansBeside` : what holds of all
  plans.
* `RunRequest.completes_report` : a run comes to an end.
-/

namespace EdgeHealth

theorem Planned.completes_run {p : Planned} {E : Prop} {responder : Responder}
    (hp : p.evaluation.run.CompletesUnless E responder) (deadline : Option Nat) :
    (p.run deadline).CompletesUnless E responder :=
  (hp.within deadline).bind fun _ _ => Session.completes_pure _

namespace RunRequest

variable (q : RunRequest) (context : RunContext)

/-! ### Runs that may be aborted -/

/-- A request wants more than one line about the pods of a service, and pods of it are listed of
which one has restarts that cannot be added. -/
def PodsOverflow (responder : Responder) (s : Service) : Prop :=
  q.kinds = none ∧ q.withDisplays = true ∧ q.level ≠ .summary ∧ s.PodsOverflow context.ns responder

/-- A number is too great for one of the checks that a request asks for. -/
def Overflows (responder : Responder) : Prop :=
  (q.runsBefore = true ∧ q.policy.Overflows) ∨
    (q.runsAfter = true ∧ ∃ s ∈ q.selectedServices, q.PodsOverflow context responder s)

variable {q context} in
/-- Restarts are added only for the lines about a pod. -/
theorem Overflows.of_not_withDisplays {responder : Responder} (h : q.Overflows context responder)
    (hhidden : q.withDisplays = false) : q.runsBefore = true ∧ q.policy.Overflows :=
  h.resolve_right fun ⟨_, _, _, _, hshown, _⟩ => Bool.false_ne_true (hhidden.symm.trans hshown)

/-! ### The plans -/

/-- What holds of the three plans before deployment holds of all of them. -/
theorem forall_mem_plansBefore {P : Planned → Prop}
    (hversion : P ⟨Readiness.versionCheck, Readiness.versionDescription, Readiness.versionTarget,
      Readiness.checkVersion (q.scopeBefore context) q.policy⟩)
    (hnodes : P ⟨Readiness.nodesCheck, Readiness.nodesDescription, Readiness.nodesTarget,
      Readiness.checkNodes (q.scopeBefore context) q.policy⟩)
    (hstorage : P ⟨Readiness.storageCheck, Readiness.storageDescription, Readiness.storageTarget,
      Readiness.checkStorageClasses (q.scopeBefore context) q.policy⟩) :
    ∀ p ∈ q.plansBefore context, P p := by
  intro p hp
  simp only [plansBefore, List.mem_append, List.mem_cons, List.not_mem_nil, or_false] at hp
  rcases hp with (rfl | rfl) | hp
  · exact hversion
  · exact hnodes
  · split at hp
    · cases hp
    · rw [List.mem_singleton] at hp
      subst hp
      exact hstorage

/-- What holds of the three evaluations before deployment holds of all plans. -/
theorem forall_plansBefore {P : Attempt Check → Prop}
    (hversion : P (Readiness.checkVersion (q.scopeBefore context) q.policy))
    (hnodes : P (Readiness.checkNodes (q.scopeBefore context) q.policy))
    (hstorage : P (Readiness.checkStorageClasses (q.scopeBefore context) q.policy)) :
    ∀ p ∈ q.plansBefore context, P p.evaluation :=
  q.forall_mem_plansBefore context (P := fun p => P p.evaluation) hversion hnodes hstorage

/-- What holds of the plans for pods and statistics holds of all plans beside the kinds. The pods
are planned for only if all kinds are looked at. -/
theorem forall_mem_plansBeside {P : Planned → Prop} {s : Service}
    (hpods : q.kinds = none → P ⟨s.podCheck, s.podCheckDescription, s!"{s.word}/pods",
      s.checkPods (q.scopeAfter context)⟩)
    (hstatistics : P ⟨Statistics.checkName, Statistics.description, Statistics.target,
      Statistics.check (q.scopeAfter context)⟩) :
    ∀ p ∈ q.plansBeside context s, P p := by
  intro p hp
  rcases List.mem_append.1 hp with hp | hp
  · split at hp
    · next hkinds =>
      rw [List.mem_singleton] at hp
      subst hp
      exact hpods (Option.isNone_iff_eq_none.1 hkinds)
    · cases hp
  · split at hp
    · rw [List.mem_singleton] at hp
      subst hp
      exact hstatistics
    · cases hp

/-- What holds of the evaluations of pods and statistics holds of all plans beside the kinds. -/
theorem forall_plansBeside {P : Attempt Check → Prop} {s : Service}
    (hpods : q.kinds = none → P (s.checkPods (q.scopeAfter context)))
    (hstatistics : P (Statistics.check (q.scopeAfter context))) :
    ∀ p ∈ q.plansBeside context s, P p.evaluation :=
  q.forall_mem_plansBeside context (P := fun p => P p.evaluation) hpods hstatistics

/-! ### Coming to an end -/

variable {responder : Responder}

theorem completes_before : (q.before context).CompletesUnless q.policy.Overflows responder :=
  Session.CompletesUnless.forEach _ fun p hp => Planned.completes_run
    (q.forall_plansBefore context
      (P := fun a => a.run.CompletesUnless q.policy.Overflows responder)
      (Readiness.plain_checkVersion _ _).completes (Readiness.completes_checkNodes _ _)
      (Readiness.plain_checkStorageClasses _ _).completes p hp) _

theorem completes_kindCheck {E : Prop} (served : List Kind) (k : Kind) :
    (q.kindCheck context served k).CompletesUnless E responder := by
  unfold kindCheck
  split
  · exact Planned.completes_run (k.plain_check _).completes _
  · exact Session.completes_pure _

theorem completes_plansBeside (s : Service) :
    (Session.forEach (Planned.run context.deadline) (q.plansBeside context s)).CompletesUnless
      (q.PodsOverflow context responder s) responder :=
  Session.CompletesUnless.forEach _ fun p hp => Planned.completes_run
    (q.forall_plansBeside context
      (P := fun a => a.run.CompletesUnless (q.PodsOverflow context responder s) responder)
      (fun hkinds => (s.completes_checkPods _).mono fun h => ⟨hkinds, h⟩)
      (Statistics.completes_check _) p hp) _

theorem completes_discovered (s : Service) (resources : List ApiResource) :
    (q.discovered context s resources).CompletesUnless (q.PodsOverflow context responder s)
      responder :=
  (Session.CompletesUnless.forEach _ fun k _ => q.completes_kindCheck context _ k).bind
    fun _ _ => (q.completes_plansBeside context s).bind fun _ _ => Session.completes_pure _

theorem completes_afterFor (s : Service) :
    (q.afterFor context s).CompletesUnless (q.PodsOverflow context responder s) responder := by
  refine ((Session.completes_ask _).within context.deadline).bind fun r _ => ?_
  match r with
  | some (.ok resources) => exact q.completes_discovered context s resources
  | some (.error e) =>
    simp only [afterDiscovery]
    split <;> exact Session.completes_pure _
  | none => exact Session.completes_pure _

theorem completes_after : (q.after context).CompletesUnless
    (∃ s ∈ q.selectedServices, q.PodsOverflow context responder s) responder :=
  (Session.CompletesUnless.forEach _ fun s hs =>
    (q.completes_afterFor context s).mono fun h => ⟨s, hs, h⟩).bind
      fun _ _ => Session.completes_pure _

theorem completes_beforeIfAsked : (q.beforeIfAsked context).CompletesUnless
    (q.runsBefore = true ∧ q.policy.Overflows) responder := by
  unfold beforeIfAsked
  split
  · next hruns => exact (q.completes_before context).mono fun h => ⟨hruns, h⟩
  · exact Session.completes_pure []

theorem completes_afterIfAsked : (q.afterIfAsked context).CompletesUnless
    (q.runsAfter = true ∧ ∃ s ∈ q.selectedServices, q.PodsOverflow context responder s)
    responder := by
  unfold afterIfAsked
  split
  · next hruns => exact (q.completes_after context).mono fun h => ⟨hruns, h⟩
  · exact Session.completes_pure []

/-- A run comes to an end with a report, unless it is aborted because a number is too great. -/
theorem completes_report :
    (q.report context).CompletesUnless (q.Overflows context responder) responder :=
  ((q.completes_beforeIfAsked context).mono .inl).bind fun _ _ =>
    ((q.completes_afterIfAsked context).mono .inr).bind fun _ _ => Session.completes_pure _

end RunRequest

end EdgeHealth
