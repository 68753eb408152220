import EdgeHealth.Proofs.Evaluate.Soundness
import EdgeHealth.Proofs.Run.Plans

/-!
# Every check of a report is sound

All checks of a report are sound: those that were evaluated, those whose evaluation failed or was
cut off, and those that tell what an API serves. This holds whoever replies to the questions of the
run, whatever the replies are and however long they take, and under any deadline.

## Main results

* `RunRequest.report_ensures_isSound` : the checks of a report are sound.
* `RunRequest.report_checks_agree_with_evaluations` : a run comes to an end, and what its report
  says in statuses and conditions is what was observed.
-/

namespace EdgeHealth

namespace Planned

theorem isSound_settle (p : Planned) {r : Option (Except ClusterError Check)}
    (h : ∀ e, r = some e → ∀ c, e = .ok c → c.IsConclusive) : (p.settle r).IsSound := by
  match r with
  | none => exact Check.isSound_cancelled _ _ _
  | some (.ok c) => exact (h _ rfl c rfl).isSound
  | some (.error e) => exact (Check.isConclusive_failed _ _ _ e).isSound

/-- A planned check comes to a sound one if its evaluation comes to conclusive ones. -/
theorem run_ensures_isSound {p : Planned} (hp : p.evaluation.Ensures Check.IsConclusive)
    (deadline : Option Nat) : (p.run deadline).Ensures Check.IsSound :=
  .bind (Session.Ensures.within hp deadline) fun _ h => Session.ensures_pure (p.isSound_settle h)

end Planned

namespace RunRequest

variable (q : RunRequest) (context : RunContext)

theorem before_ensures_isSound : (q.before context).Ensures fun cs => ∀ c ∈ cs, c.IsSound :=
  Session.Ensures.forEach _ fun p hp => Planned.run_ensures_isSound
    (q.forall_plansBefore context (P := fun a => a.Ensures Check.IsConclusive)
      (Readiness.checkVersion_ensures_isConclusive _ _)
      (Readiness.checkNodes_ensures_isConclusive _ _)
      (Readiness.checkStorageClasses_ensures_isConclusive _ _) p hp) _

theorem kindCheck_ensures_isSound (served : List Kind) (k : Kind) :
    (q.kindCheck context served k).Ensures Check.IsSound := by
  unfold kindCheck
  split
  · exact Planned.run_ensures_isSound (k.check_ensures_isConclusive _) _
  · exact Session.ensures_pure (Discovery.isSound_absentKind _ k)

theorem discovered_ensures_isSound (s : Service) (resources : List ApiResource) :
    (q.discovered context s resources).Ensures fun cs => ∀ c ∈ cs, c.IsSound := by
  refine .bind (Session.Ensures.forEach _ fun k _ => q.kindCheck_ensures_isSound context _ k)
    fun ofKinds hkinds => ?_
  have hbeside : ∀ p ∈ q.plansBeside context s,
      (p.run context.deadline).Ensures Check.IsSound := fun p hp => Planned.run_ensures_isSound
    (q.forall_plansBeside context (P := fun a => a.Ensures Check.IsConclusive)
      (fun _ => s.checkPods_ensures_isConclusive _) (Statistics.check_ensures_isConclusive _) p
      hp) _
  refine .bind (Session.Ensures.forEach _ hbeside) fun beside hbeside => ?_
  exact Session.ensures_pure (List.forall_mem_cons.2
    ⟨(Discovery.isConclusive_check _ s _).isSound, List.forall_mem_append.2 ⟨hkinds, hbeside⟩⟩)

theorem isSound_of_mem_undiscovered (s : Service) : ∀ c ∈ q.undiscovered context s, c.IsSound := by
  intro c hc
  rcases List.mem_cons.1 hc with rfl | hc
  · exact Check.isSound_cancelled _ _ _
  · obtain ⟨p, _, rfl⟩ := List.mem_map.1 hc
    exact Check.isSound_cancelled _ _ _

theorem afterFor_ensures_isSound (s : Service) :
    (q.afterFor context s).Ensures fun cs => ∀ c ∈ cs, c.IsSound := by
  refine .bind (Session.ensures_of_forall (fun _ => trivial) _) fun r _ => ?_
  match r with
  | some (.ok resources) => exact q.discovered_ensures_isSound context s resources
  | some (.error e) =>
    simp only [afterDiscovery]
    split
    · exact Session.ensures_pure (by simpa using Discovery.isSound_missingApi _ s)
    · exact Session.ensures_pure (by simpa using (Check.isConclusive_failed _ _ _ e).isSound)
  | none => exact Session.ensures_pure (q.isSound_of_mem_undiscovered context s)

theorem after_ensures_isSound : (q.after context).Ensures fun cs => ∀ c ∈ cs, c.IsSound := by
  refine .bind (Session.Ensures.forEach _ fun s _ => q.afterFor_ensures_isSound context s)
    fun lists h => Session.ensures_pure fun c hc => ?_
  obtain ⟨cs, hcs, hc⟩ := List.mem_flatten.1 hc
  exact h cs hcs c hc

/-- The checks of a report are sound. -/
theorem report_ensures_isSound :
    (q.report context).Ensures fun report => ∀ c ∈ report.checks, c.IsSound := by
  have hbefore : (q.beforeIfAsked context).Ensures fun cs => ∀ c ∈ cs, c.IsSound := by
    unfold beforeIfAsked
    split
    · exact q.before_ensures_isSound context
    · exact Session.ensures_pure (by simp)
  have hafter : (q.afterIfAsked context).Ensures fun cs => ∀ c ∈ cs, c.IsSound := by
    unfold afterIfAsked
    split
    · exact q.after_ensures_isSound context
    · exact Session.ensures_pure (by simp)
  exact .bind hbefore fun _ hb => .bind hafter fun _ ha =>
    Session.ensures_pure (List.forall_mem_append.2 ⟨hb, ha⟩)

/-- **A report says what was observed.** A run comes to an end with a report, whoever replies to
its questions, unless it is aborted because a number is too great. In every check of the report the
status is the worst of all observations; in every entry of the check the status is the worst of the
observations of that entry, and there are as many conditions as observations. The worst of several
statuses is not exceeded by any of them, and is one of them unless it is a success. -/
theorem report_checks_agree_with_evaluations (responder : Responder) :
    (∃ report, ((q.report context).runWith responder).result = .ok report ∧
      ∀ c ∈ report.checks,
        (c.status = c.evaluatedStatus ∧
          c.status.IsWorstOf (c.evaluations.map Evaluation.status)) ∧
        ∀ target ns entry, (target, ns, entry) ∈ c.entries →
          (entry.status = .worstOf (entry.evaluations.map Evaluation.status) ∧
            entry.status.IsWorstOf (entry.evaluations.map Evaluation.status)) ∧
          entry.conditions.length = entry.evaluations.length) ∨
    (((q.report context).runWith responder).result = .error .aborted ∧
      q.Overflows context responder) := by
  refine ((q.completes_report context).cases [] 0).imp_left fun ⟨report, hreport⟩ => ?_
  refine ⟨report, hreport, fun c hc => ?_⟩
  have hsound : c.IsSound := q.report_ensures_isSound context hreport c hc
  refine ⟨⟨hsound.status_eq, Status.isWorstOf_iff.2 hsound.status_eq⟩,
    fun target ns entry hentry => ?_⟩
  have he := hsound.entry_isSound (Check.mem_entries_iff.1 hentry)
  exact ⟨⟨he.status_eq, Status.isWorstOf_iff.2 he.status_eq⟩, he.length_eq⟩

end RunRequest

end EdgeHealth
