import EdgeHealth.Proofs.Evaluate.Told
import EdgeHealth.Proofs.Run.Soundness
import EdgeHealth.Render.Terminal

/-!
# Failures in the text of a report

At the middle level of detail the text of a report has a line for each observation of an entry that
has no lines for human readers. An entry that has such lines shows them instead. So a failure is
seen there only if one of them tells it, and those that evaluations record without a line can be
missing from the text.

## Main definitions

* `Report.ShowsFailure` : a failure that can be seen in the text of a report.

## Main results

* `View.mem_reportLines`, `View.mem_checkLines` : which lines are in the text.
* `RunRequest.report_shows_failures` : the failures of a report are shown or are untold.
-/

namespace EdgeHealth

/-! ### Lines of a report -/

namespace View

variable {view : View}

/-- Unless only one line is shown for each check, the lines of its entries are among its lines. -/
theorem mem_checkLines (hdetail : view.level.showsDetail = true) {c : Check} {target ns : String}
    {e : Entry} (he : (target, ns, e) ∈ c.entries) {line : String}
    (h : line ∈ view.entryLines target ns e) : line ∈ view.checkLines c := by
  rw [checkLines, if_pos hdetail]
  exact List.mem_cons_of_mem _ (List.mem_flatMap.2 ⟨_, he, h⟩)

theorem mem_sectionLines {heading : String} {checks : List Check} {c : Check} (hc : c ∈ checks)
    {line : String} (h : line ∈ view.checkLines c) : line ∈ view.sectionLines heading checks := by
  have hne : ¬checks.isEmpty := fun hempty =>
    List.ne_nil_of_mem hc (List.isEmpty_iff.1 hempty)
  rw [sectionLines, if_neg hne]
  exact List.mem_append_left _ (List.mem_cons_of_mem _ (List.mem_flatMap.2 ⟨c, hc, h⟩))

/-- The lines of its checks are among the lines of a report. -/
theorem mem_reportLines {r : Report} {c : Check} (hc : c ∈ r.checks) {line : String}
    (h : line ∈ view.checkLines c) : line ∈ view.reportLines r := by
  refine List.mem_append_left _ ?_
  rcases List.mem_append.1 hc with hc | hc
  · exact List.mem_append_left _ (List.mem_append_right _ (mem_sectionLines hc h))
  · exact List.mem_append_right _ (mem_sectionLines hc h)

theorem display_mem_entryLines {target ns : String} {e : Entry} {d : Display}
    (hd : d ∈ e.displays) : display view.colored 4 d ∈ view.entryLines target ns e :=
  List.mem_append_left _ (List.mem_append_right _ (List.mem_map_of_mem hd))

/-- The observations of an entry have lines of their own where no other lines are about it. -/
theorem observation_mem_entryLines {target ns condition : String} {e : Entry} {x : Evaluation}
    (he : e.displays = []) (hx : (condition, x) ∈ e.pairs) :
    "    " ++ observation view.colored target condition x ∈ view.entryLines target ns e := by
  have hlines : view.observations target e ⊆ view.entryLines target ns e := by
    rw [entryLines, he]
    exact List.subset_append_right _ _
  exact hlines (List.mem_flatMap.2 ⟨_, hx, List.mem_cons_self⟩)

end View

/-- A failure that can be seen in the text of a report at the middle level of detail: there is the
line of the observation, or a line about the same entry that tells the failure. -/
def Report.ShowsFailure (r : Report) (colored : Bool) (target : String) (e : Entry)
    (condition : String) (x : Evaluation) : Prop :=
  "    " ++ View.observation colored target condition x ∈ View.reportLines ⟨.detail, colored⟩ r ∨
    ∃ d ∈ e.displays, d.Tells x.status

instance (r : Report) (colored : Bool) (target : String) (e : Entry) (condition : String)
    (x : Evaluation) : Decidable (r.ShowsFailure colored target e condition x) :=
  inferInstanceAs (Decidable (_ ∨ _))

theorem eq_ok_of_mem_toOption {ε α : Type} {r : Except ε α} {a : α} (h : a ∈ r.toOption) :
    r = .ok a := by
  cases r with
  | ok b => exact congrArg Except.ok (Option.some.inj h)
  | error e => cases h

namespace RunRequest

variable (q : RunRequest) (context : RunContext)

/-- The checks of a report tell all failures, save for those that are recorded without a line. -/
theorem report_ensures_tells :
    (({ q with withDisplays := true } : RunRequest).report context).Ensures fun r =>
      ∀ c ∈ r.checks, c.Tells Untold := by
  exact report_ensures_forall (relatesNotes_told q.level)
    (fun name description _ h => h.tells_ofNotes name description) q context

/-- **Failures in the text of a report.** Whoever replies, a run with lines for human readers comes
to a report, unless it is aborted because a number is too great. Each observation of the report has
a condition, and the lines of each entry are among those of the text. A warning or an error that was
observed has a line in the text, or a line about the same entry has its tone, or it is one of those
that are recorded without a line: a reference that is not set, a status of which a part is missing
while nothing is wrong with the rest, and an API that serves nothing that is known. -/
theorem report_shows_failures (responder : Responder) (colored : Bool) :
    (∃ report,
      ((({ q with withDisplays := true } : RunRequest).report context).runWith responder).result =
          .ok report ∧
        ∀ c ∈ report.checks, ∀ target ns e, (target, ns, e) ∈ c.entries →
          e.pairs.map Prod.snd = e.evaluations ∧
            (∀ d ∈ e.displays,
              View.display colored 4 d ∈ View.reportLines ⟨.detail, colored⟩ report) ∧
            ∀ condition x, (condition, x) ∈ e.pairs → x.status = .warning ∨ x.status = .error →
              report.ShowsFailure colored target e condition x ∨ Untold condition x) ∨
    (((({ q with withDisplays := true } : RunRequest).report context).runWith responder).result =
        .error .aborted ∧
      ({ q with withDisplays := true } : RunRequest).Overflows context responder) := by
  refine ((completes_report { q with withDisplays := true } context).cases [] 0).imp_left
    fun ⟨report, hreport⟩ => ⟨report, hreport, fun c hc target ns e he => ?_⟩
  have hentry := Check.mem_entries_iff.1 he
  have hlength := ((report_ensures_isSound _ context hreport c hc).entry_isSound hentry).length_eq
  have hlines {line : String} (h : line ∈ View.entryLines ⟨.detail, colored⟩ target ns e) :
      line ∈ View.reportLines ⟨.detail, colored⟩ report :=
    View.mem_reportLines hc (View.mem_checkLines rfl he h)
  refine ⟨List.map_snd_zip (Nat.le_of_eq hlength.symm),
    fun d hd => hlines (View.display_mem_entryLines hd), fun condition x hx hstatus => ?_⟩
  have hfailure : x.status.isFailure true :=
    Status.isFailure_iff.2 (hstatus.symm.imp_right fun h => ⟨rfl, h⟩)
  rcases q.report_ensures_tells context hreport c hc hentry hx hfailure with hnone | htold | huntold
  · exact .inl (.inl (hlines (View.observation_mem_entryLines hnone hx)))
  · exact .inl (.inr htold)
  · exact .inr huntold

/-- A cluster with one topic map, which does not name the bridge that it belongs to. -/
private def unbridged : Cluster where
  reply
    | .listApiResources _ => ⟨2, .ok [⟨"mqttbridgetopicmaps", "MqttBridgeTopicMap"⟩]⟩
    | .listObjects .. =>
      ⟨5, .ok [.object
        [("metadata", .object [("name", .string "map"), ("namespace", .string "edge")]),
          ("spec", .object [("routes", .array [.object
            [("direction", .string "local-to-remote"), ("source", .string "in"),
              ("target", .string "out")]])])]]⟩
    | _ => ⟨2, .error (.api 503 "unavailable")⟩

/-- A request that looks at topic maps. -/
private def topicMaps : RunRequest :=
  { (default : RunRequest) with
    services := [.connector]
    afterDeployment := true
    withDisplays := true
    kinds := some ["mqttbridgetopicmap"] }

/-- An error can be missing from the text of a report. Here it is that a topic map does not name its
bridge: the lines about the map tell that it was found, and nothing else. -/
theorem report_hides_error_unbridged :
    ∃ report, ((topicMaps.report ⟨none, 5, none, false, 80⟩).run unbridged).result = .ok report ∧
      ∃ c ∈ report.checks, ∃ target ns e, (target, ns, e) ∈ c.entries ∧
        ∃ condition x, (condition, x) ∈ e.pairs ∧ x.status = .error ∧
          ¬report.ShowsFailure false target e condition x := by
  have hhidden : ∃ report ∈
      ((topicMaps.report ⟨none, 5, none, false, 80⟩).run unbridged).result.toOption,
        ∃ c ∈ report.checks, ∃ p ∈ c.entries, ∃ pair ∈ p.2.2.pairs, pair.2.status = .error ∧
          ¬report.ShowsFailure false p.1 p.2.2 pair.1 pair.2 := by
    decide +kernel
  obtain ⟨report, hsome, c, hc, ⟨target, ns, e⟩, he, ⟨condition, x⟩, hx, hstatus, hnot⟩ := hhidden
  have hreport := eq_ok_of_mem_toOption hsome
  exact ⟨report, hreport, c, hc, target, ns, e, he, condition, x, hx, hstatus, hnot⟩

end RunRequest

end EdgeHealth
