import EdgeHealth.Proofs.Evaluate.Levels
import EdgeHealth.Proofs.Run.Plans

/-!
# A report at two levels of detail

The level of detail of a request changes no verdict. Two runs at different levels put the same
questions at the same moments, and come to reports with the same checks, entries, conditions and
statuses. What the higher level adds are lines for human readers, which come in between those of the
lower one, and descriptions in the statuses that resources report.

## Main results

* `RunRequest.report_extends` : the reports of two runs at different levels of detail.
-/

namespace EdgeHealth.RunRequest

/-- **The level of detail changes no verdict.** Whoever replies, a run at one level of detail puts
the same questions at the same moments as one at a higher level. Both come to an end, and the report
at the higher level extends the other: the checks, their entries and the conditions there are the
same, in the same order; the observations have the same statuses, names and kinds, and also the same
values, save for descriptions in a reported status where only the higher level shows all that is
known; and the lines of the lower level are there in the same order. This is so unless the run at
the higher level is aborted because a number is too great. -/
theorem report_extends {level level' : DetailLevel} (h : level.rank ≤ level'.rank)
    (q : RunRequest) (context : RunContext) (responder : Responder) :
    let low := (({ q with level := level } : RunRequest).report context).runWith responder
    let high := (({ q with level := level' } : RunRequest).report context).runWith responder
    (low.trace = high.trace ∧ low.time = high.time ∧
      ∃ report report', low.result = .ok report ∧ high.result = .ok report' ∧
        report.Corresponds (Check.Extends level level') report') ∨
    (high.result = .error .aborted ∧
      ({ q with level := level' } : RunRequest).Overflows context responder) := by
  have hchecks : MakesChecks (Note.ListExtends level level') (Check.Extends level level')
      q.withDisplays q.withDisplays :=
    ⟨fun name description notes notes' hnotes =>
      Check.extends_ofNotesFor hnotes q.withDisplays name description, id⟩
  exact ((q.parallel_report context (relatesNotes_extends h) hchecks).runWith
    (completes_report _ context)).symm

/-- A cluster with one resource, whose status is described. -/
private def describing : Cluster where
  reply
    | .listApiResources _ => ⟨2, .ok [⟨"assettypes", "AssetType"⟩]⟩
    | .listObjects .. =>
      ⟨5, .ok [.object [("metadata", .object [("name", .string "pump")]),
        ("status", .object [("runtimeStatus", .object
          [("status", .string "running"), ("statusDescription", .string "all is well")])])]]⟩
    | _ => ⟨2, .error (.api 503 "unavailable")⟩

/-- The least and the greatest level of detail. -/
theorem report_extends_summary_verbose :
    DetailLevel.summary.rank ≤ DetailLevel.verbose.rank ∧
      ∃ r r',
        (({ (default : RunRequest) with level := .summary }.report ⟨none, 5, none, false, 80⟩).run
          describing).result = .ok r ∧
        (({ (default : RunRequest) with level := .verbose }.report ⟨none, 5, none, false, 80⟩).run
          describing).result = .ok r' ∧
        r.Corresponds (Check.Extends .summary .verbose) r' := by
  have h : DetailLevel.summary.rank ≤ DetailLevel.verbose.rank := by decide
  have hfits : ¬ ({ (default : RunRequest) with level := .verbose }).Overflows
      ⟨none, 5, none, false, 80⟩ describing.responder :=
    fun h => absurd (h.of_not_withDisplays rfl).2 (by decide)
  obtain ⟨-, -, hreports⟩ := (report_extends h default ⟨none, 5, none, false, 80⟩
    describing.responder).resolve_right fun h => hfits h.2
  exact ⟨h, hreports⟩

/-- The request for the checks of one service with lines for human readers. -/
private def connectorAt (level : DetailLevel) : RunRequest :=
  { (default : RunRequest) with
    services := [.connector], afterDeployment := true, withDisplays := true, level := level }

/-- Restarts that cannot be added abort the run that shows them, and no other one. -/
theorem report_extends_restless :
    (∃ report, (((connectorAt .summary).report ⟨none, 5, none, false, 80⟩).run
      .restless).result = .ok report) ∧
    (((connectorAt .detail).report ⟨none, 5, none, false, 80⟩).run
      .restless).result = .error .aborted :=
  ⟨⟨_, rfl⟩, by decide +kernel⟩

end EdgeHealth.RunRequest
