import EdgeHealth.Check.Record
import EdgeHealth.Proofs.Evaluate.Stripped
import EdgeHealth.Proofs.Run.Plans

/-!
# A report for other programs

A run without lines for human readers does the same as one with them: it puts the same questions at
the same moments. Its report is that of the other run with the lines left out, with all targets and
namespaces in the same order. So the text for other programs is the same, too.

## Main results

* `RunRequest.parallel_report_asRecord` : the two runs side by side.
* `RunRequest.report_without_displays` : the two reports and their texts.
-/

namespace EdgeHealth

/-- Lines that were left out need not be left out again. -/
theorem Check.withoutDisplays_withoutDisplays (c : Check) :
    c.withoutDisplays.withoutDisplays = c.withoutDisplays := by
  simp [withoutDisplays, Table.mapValues, Entry.withoutDisplays, Function.comp_def]

namespace Report

theorem asRecord_false_asRecord_false (r : Report) :
    (r.asRecord false).asRecord false = r.asRecord false := by
  simp [asRecord, Check.asRecord, Check.withoutDisplays_withoutDisplays]

/-- The text for other programs does not tell whether lines were left out before. -/
theorem machineText_asRecord_false (r : Report) :
    (r.asRecord false).machineText = r.machineText := by
  rw [machineText, machineText, asRecord_false_asRecord_false]

/-- Two reports with the same checks, save that the lines were left out of those of one. -/
theorem Corresponds.eq_asRecord {r r' : Report}
    (h : r.Corresponds (fun c c' => c = c'.withoutDisplays) r') : r = r'.asRecord false := by
  have hmap {cs cs' : List Check} (h : List.Forall₂ (fun c c' => c = c'.withoutDisplays) cs cs') :
      cs = cs'.map (Check.asRecord false) := by
    induction h with
    | nil => rfl
    | cons hc _ ih => rw [hc, ih, List.map_cons, Check.asRecord, if_neg (by simp)]
  obtain ⟨htitle, hpre, hpost⟩ := h
  rw [asRecord, ← htitle, ← hmap hpre, ← hmap hpost]

end Report

namespace RunRequest

/-- A run without lines for human readers, and one with them. -/
theorem parallel_report_asRecord (q : RunRequest) (context : RunContext) :
    (({ q with withDisplays := false } : RunRequest).report context).Parallel
      (fun machine listed => machine = listed.asRecord false)
      (({ q with withDisplays := true } : RunRequest).report context) :=
  (q.parallel_report context (relatesNotes_strippable q.level) makesChecks_strippable).mono
    fun _ _ h => h.eq_asRecord

/-- **A report for other programs is a report with its lines left out.** Whoever replies, a run
without lines for human readers puts the same questions at the same moments as one with them. It
comes to the same report, with the lines left out and everything else in its place; and the text for
other programs is the same. This is so unless the run with lines is aborted because a number is too
great. The run without lines adds no restarts: it is aborted only if the policy demands too many
cores. -/
theorem report_without_displays (q : RunRequest) (context : RunContext) (responder : Responder) :
    let machine :=
      (({ q with withDisplays := false } : RunRequest).report context).runWith responder
    let listed :=
      (({ q with withDisplays := true } : RunRequest).report context).runWith responder
    ((machine.trace = listed.trace ∧ machine.time = listed.time ∧
      ∃ report, listed.result = .ok report ∧ machine.result = .ok (report.asRecord false) ∧
        (report.asRecord false).machineText = report.machineText) ∨
      (listed.result = .error .aborted ∧
        ({ q with withDisplays := true } : RunRequest).Overflows context responder)) ∧
    ((∃ report, machine.result = .ok report) ∨
      (machine.result = .error .aborted ∧ q.runsBefore = true ∧ q.policy.Overflows)) := by
  intro machine listed
  constructor
  · rcases (q.parallel_report_asRecord context).runWith (completes_report _ context) with
      haborted | ⟨htrace, htime, record, report, hmachine, hlisted, rfl⟩
    · exact .inr haborted
    · exact .inl ⟨htrace, htime, report, hlisted, hmachine, report.machineText_asRecord_false⟩
  · exact ((completes_report { q with withDisplays := false } context).cases [] 0).imp_right
      fun ⟨haborted, hoverflows⟩ => ⟨haborted, hoverflows.of_not_withDisplays rfl⟩

/-- The request for the checks of one service, with more than one line for each if any are kept. -/
private def connectorWith (withDisplays : Bool) : RunRequest :=
  { (default : RunRequest) with
    services := [.connector], afterDeployment := true, withDisplays := withDisplays
    level := .detail }

/-- Restarts that cannot be added abort the run that shows them, and no other one. -/
theorem report_without_displays_restless :
    (∃ report, (((connectorWith false).report ⟨none, 5, none, false, 80⟩).run
      .restless).result = .ok report) ∧
    (((connectorWith true).report ⟨none, 5, none, false, 80⟩).run
      .restless).result = .error .aborted :=
  ⟨⟨_, rfl⟩, by decide +kernel⟩

end RunRequest

end EdgeHealth
