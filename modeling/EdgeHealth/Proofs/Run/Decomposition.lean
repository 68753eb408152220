import EdgeHealth.Proofs.Cluster.Performs
import EdgeHealth.Proofs.Run.InStep

/-!
# Runs decompose

A run without a deadline is made of parts that know nothing of one another: the phase before
deployment, and each service after it. One clock passes through all of them, and a part begins later
the longer the parts before it took. But a part has no way to tell when it began, so it does what it
does when it runs alone: it asks the same questions, and its checks are the same.

So the report of a run is put together from the reports of runs for one part each, in the order of
the catalog. Where one of these runs is aborted, the whole run is aborted too. How the request
orders and repeats its services does not matter.

## Main definitions

* `RunRequest.beforeOnly`, `RunRequest.onlyFor` : the requests for one part.
* `RunRequest.forServices` : the request for other services.

## Main results

* `RunRequest.exists_performs_before`, `RunRequest.exists_performs_afterFor` : a part does the same
  whenever it begins.
* `RunRequest.exists_performs_report` : a run does what its parts do.
* `RunRequest.report_decomposes` : the report of a run and the reports of its parts.
-/

namespace EdgeHealth.RunRequest

/-- The request for the phase before deployment alone. -/
def beforeOnly (q : RunRequest) : RunRequest :=
  { q with beforeDeployment := true, afterDeployment := false }

/-- The request for the phase after deployment alone, for one service. -/
def onlyFor (q : RunRequest) (s : Service) : RunRequest :=
  { q with services := [s], beforeDeployment := false, afterDeployment := true }

/-- The request for other services. -/
def forServices (q : RunRequest) (services : List Service) : RunRequest :=
  { q with services := services }

/-! ### The selected services -/

theorem mem_selectedServices {q : RunRequest} {s : Service} :
    s ∈ q.selectedServices ↔ q.services = [] ∨ s ∈ q.services := by
  have hall : s ∈ Service.all := by cases s <;> decide
  simp [selectedServices, hall]

theorem selectedServices_onlyFor (q : RunRequest) (s : Service) :
    (q.onlyFor s).selectedServices = [s] := by
  cases s <;> rfl

/-- The order and the repetition of the services in a request do not matter. -/
theorem selectedServices_congr {q q' : RunRequest} (h : ∀ s, s ∈ q.services ↔ s ∈ q'.services) :
    q.selectedServices = q'.selectedServices := by
  have hnil : q.services = [] ↔ q'.services = [] := by
    rw [List.eq_nil_iff_forall_not_mem, List.eq_nil_iff_forall_not_mem]
    exact forall_congr' fun s => not_congr (h s)
  refine List.filter_congr fun s _ => ?_
  rw [Bool.eq_iff_iff]
  simp only [Bool.or_eq_true, List.isEmpty_iff, List.contains_iff_mem, hnil, h]

/-- A run for the same services, in another order or told several times, is the same run. -/
theorem report_congr (q : RunRequest) (context : RunContext) {services : List Service}
    (h : ∀ s, s ∈ services ↔ s ∈ q.services) :
    (q.forServices services).report context = q.report context := by
  have hselected : (q.forServices services).selectedServices = q.selectedServices :=
    selectedServices_congr h
  have hafter : (q.forServices services).after context = q.after context :=
    congrArg (fun l => (Session.forEach (q.afterFor context) l).bind fun checks =>
      Session.pure checks.flatten) hselected
  simp only [report, afterIfAsked, hafter]
  rfl

/-! ### What the parts do -/

section Parts

variable (q : RunRequest) (context : RunContext) (cluster : Cluster)

section NoDeadline

variable (hdeadline : context.deadline = none)
include hdeadline

/-- The phase before deployment does the same whenever it begins. -/
theorem exists_performs_before :
    ∃ events r, (q.before context).Performs cluster events r :=
  Session.exists_performs cluster fun _ h =>
    inStep_before q.namePattern (Comparison.rel_lags_of_none hdeadline)
      (Comparison.sharesReadiness_of_forall fun call _ => h call)

/-- The phase after deployment does the same for a service whenever it begins. -/
theorem exists_performs_afterFor (s : Service) :
    ∃ events r, (q.afterFor context s).Performs cluster events r :=
  Session.exists_performs cluster fun _ h =>
    (inStep_afterFor q.namePattern (Comparison.rel_lags_of_none hdeadline)
      (Comparison.sharesWithin_of_forall (fun call _ => h call) _) (h _).discovers
      fun _ _ => Kind.listsAlike_of_shares (h _) fun _ _ _ _ => trivial).mono fun _ _ h => h.1

end NoDeadline

variable {q context cluster} {asked : List Event} {before : Except Interruption (List Check)}
  {askedFor : Service → List Event} {ofService : Service → Except Interruption (List Check)}

theorem performs_beforeIfAsked (h : (q.before context).Performs cluster asked before) :
    (q.beforeIfAsked context).Performs cluster (if q.runsBefore then asked else [])
      (if q.runsBefore then before else .ok []) := by
  unfold beforeIfAsked
  split
  · exact h
  · exact Session.performs_pure []

/-- The phase after deployment does what its services do, up to the first that is aborted. -/
theorem exists_performs_afterIfAsked
    (h : ∀ s, (q.afterFor context s).Performs cluster (askedFor s) (ofService s)) :
    ∃ done, (q.afterIfAsked context).Performs cluster done
        (if q.runsAfter then (sequence (q.selectedServices.map ofService)).map List.flatten
          else .ok []) ∧
      done <+: (if q.runsAfter then q.selectedServices.flatMap askedFor else []) ∧
      ∀ checks, (if q.runsAfter then (sequence (q.selectedServices.map ofService)).map List.flatten
          else .ok []) = .ok checks →
        done = if q.runsAfter then q.selectedServices.flatMap askedFor else [] := by
  unfold afterIfAsked
  split
  · obtain ⟨done, hdone, hstarts, heq⟩ :=
      Session.Performs.exists_forEach q.selectedServices fun s _ => h s
    refine ⟨done, hdone.bind_pure List.flatten, hstarts, fun checks hchecks => ?_⟩
    obtain ⟨lists, hlists, -⟩ := exists_of_map_eq_ok hchecks
    exact heq lists hlists
  · exact ⟨[], Session.performs_pure [], List.prefix_rfl, fun _ _ => rfl⟩

variable (q before ofService) in
/-- The report that is put together from the checks of the parts of a run, in the order of the
catalog. Where a part that is asked for has none, there is no report, for the reason of the first
such part. -/
def composed : Except Interruption Report :=
  (if q.runsBefore then before else .ok []).bind fun first =>
    (if q.runsAfter then (sequence (q.selectedServices.map ofService)).map List.flatten
      else .ok []).map fun rest => ⟨q.title, first, rest⟩

/-- A run does what its parts do, one after another, up to the first that is aborted. -/
theorem exists_performs_report (hbefore : (q.before context).Performs cluster asked before)
    (hafter : ∀ s, (q.afterFor context s).Performs cluster (askedFor s) (ofService s)) :
    ∃ done, (q.report context).Performs cluster done (q.composed before ofService) ∧
      done <+: ((if q.runsBefore then asked else []) ++
        if q.runsAfter then q.selectedServices.flatMap askedFor else []) ∧
      ∀ report, q.composed before ofService = .ok report →
        done = (if q.runsBefore then asked else []) ++
          if q.runsAfter then q.selectedServices.flatMap askedFor else [] := by
  obtain ⟨later, hlater, hlaterPrefix, hlaterEq⟩ := exists_performs_afterIfAsked hafter
  obtain ⟨done, hdone, hstarts, heq⟩ := (performs_beforeIfAsked hbefore).exists_bind
    fun first _ => hlater.bind_pure (Report.mk q.title first)
  refine ⟨done, hdone, hstarts.trans ((List.prefix_append_right_inj _).2 hlaterPrefix),
    fun report hreport => ?_⟩
  rw [heq report hreport]
  -- where there is a report, the phase after deployment is not aborted
  cases hfirst : (if q.runsBefore then before else .ok [] : Except Interruption (List Check)) with
  | error i =>
    rw [composed, hfirst] at hreport
    cases hreport
  | ok first =>
    rw [composed, hfirst] at hreport
    obtain ⟨checks, hchecks, -⟩ := exists_of_map_eq_ok hreport
    rw [hlaterEq checks hchecks]

/-- A run for one service does what is done for the service. -/
theorem performs_report_onlyFor {s : Service} {asked : List Event}
    {r : Except Interruption (List Check)} (h : (q.afterFor context s).Performs cluster asked r) :
    ((q.onlyFor s).report context).Performs cluster asked
      (r.map fun checks => ⟨q.title, [], checks⟩) := by
  have hlists : (Session.forEach (q.afterFor context) [s]).Performs cluster asked
      (r.map fun checks => [checks]) :=
    h.bind_idle fun _ => (Session.performs_pure []).bind_pure _
  have hafter : ((q.onlyFor s).after context).Performs cluster asked r := by
    have hflat := hlists.bind_pure List.flatten
    rw [after, selectedServices_onlyFor]
    cases r with
    | ok checks =>
      simp only [Except.map, List.flatten_singleton] at hflat
      exact hflat
    | error i => exact hflat
  have hreport : (Session.bind (Session.pure []) fun first =>
      ((q.onlyFor s).after context).bind fun rest =>
        Session.pure (Report.mk q.title first rest)).Performs cluster ([] ++ asked)
      (r.map fun checks => ⟨q.title, [], checks⟩) :=
    (Session.performs_pure []).bind (hafter.bind_pure _)
  exact hreport

end Parts

/-- The report is put together where all parts have checks. -/
theorem composed_ok (q : RunRequest) (before : List Check) (ofService : Service → List Check) :
    q.composed (.ok before) (fun s => .ok (ofService s)) =
      .ok ⟨q.title, if q.runsBefore then before else [],
        if q.runsAfter then q.selectedServices.flatMap ofService else []⟩ := by
  have hsequence : (l : List Service) →
      sequence (l.map fun s => (.ok (ofService s) : Except Interruption _)) =
        .ok (l.map ofService) := by
    intro l
    induction l with
    | nil => rfl
    | cons s l ih => rw [List.map_cons, sequence, ih]; rfl
  rw [composed, hsequence]
  cases q.runsBefore <;> cases q.runsAfter <;> simp [Except.bind, Except.map, List.flatMap_def]

/-! ### The whole run -/

/-- **Runs decompose.** Without a deadline, the checks before deployment are those of a run for that
phase alone, and the checks after deployment are those of runs for one service each, one after
another in the order of the catalog; and the run asks what these runs ask. Where one of the runs
that are asked for is aborted, the whole run is, and asks nothing more. A run for the same services
in another order, or with repetitions, is the same. -/
theorem report_decomposes (q : RunRequest) (context : RunContext) (cluster : Cluster)
    (hdeadline : context.deadline = none) :
    (∃ (before : Except Interruption (List Check))
        (ofService : Service → Except Interruption (List Check)),
      ((∃ checks, before = .ok checks) ∨ (before = .error .aborted ∧ q.policy.Overflows)) ∧
      (∀ s, (∃ checks, ofService s = .ok checks) ∨
        (ofService s = .error .aborted ∧ q.PodsOverflow context cluster.responder s)) ∧
      ((q.beforeOnly.report context).run cluster).result =
        before.map (fun checks => ⟨q.title, checks, []⟩) ∧
      (∀ s, (((q.onlyFor s).report context).run cluster).result =
        (ofService s).map fun checks => ⟨q.title, [], checks⟩) ∧
      ((q.report context).run cluster).result =
        (if q.runsBefore then before else .ok []).bind fun first =>
          (if q.runsAfter then (sequence (q.selectedServices.map ofService)).map List.flatten
            else .ok []).map fun rest => ⟨q.title, first, rest⟩) ∧
    (let asked :=
      (if q.runsBefore then ((q.beforeOnly.report context).run cluster).events else []) ++
      (if q.runsAfter then q.selectedServices.flatMap fun s =>
        (((q.onlyFor s).report context).run cluster).events
      else [])
    ((q.report context).run cluster).events <+: asked ∧
      ∀ report, ((q.report context).run cluster).result = .ok report →
        ((q.report context).run cluster).events = asked) ∧
    q.selectedServices.Sublist Service.all ∧
    (∀ s, s ∈ q.selectedServices ↔ q.services = [] ∨ s ∈ q.services) ∧
    ∀ services : List Service, (∀ s, s ∈ services ↔ s ∈ q.services) →
      (q.forServices services).report context = q.report context := by
  obtain ⟨asked, before, hbefore⟩ := q.exists_performs_before context cluster hdeadline
  choose askedFor ofService hafter using q.exists_performs_afterFor context cluster hdeadline
  obtain ⟨done, hwhole, hstarts, heq⟩ := exists_performs_report hbefore hafter
  -- the phases of the requests for one part are those of `q`, which differ in what is selected only
  have hfirst : (q.beforeOnly.report context).Performs cluster asked
      (before.map fun checks => ⟨q.title, checks, []⟩) :=
    hbefore.bind_idle fun _ => (Session.performs_pure []).bind_pure _
  have hsingle (s : Service) : ((q.onlyFor s).report context).Performs cluster (askedFor s)
      ((ofService s).map fun checks => ⟨q.title, [], checks⟩) :=
    q.performs_report_onlyFor (hafter s)
  refine ⟨⟨before, ofService, ?_, fun s => ?_, hfirst.run.1, fun s => (hsingle s).run.1,
    hwhole.run.1⟩, ?_, List.filter_sublist, fun _ => mem_selectedServices,
    fun _ => q.report_congr context⟩
  · rw [← hbefore.yields [] 0]
    exact (q.completes_before context).cases [] 0
  · rw [← (hafter s).yields [] 0]
    exact (q.completes_afterFor context s).cases [] 0
  · simp only [hfirst.run.2, fun s => (hsingle s).run.2, hwhole.run.2, hwhole.run.1]
    exact ⟨hstarts, heq⟩

/-- A cluster that serves all APIs and refuses everything else after a while. -/
private def refusingLate : Cluster where
  reply
    | .listApiResources _ => ⟨20, .ok [⟨"brokerlisteners", "BrokerListener"⟩]⟩
    | _ => ⟨9000, .error (.api 403 "forbidden")⟩

/-- Services that are asked for in another order than that of the catalog, one of them twice; the
statistics of the broker are looked at last. -/
theorem report_decomposes_reordered :
    (⟨none, 5, none, true, 80⟩ : RunContext).deadline = none ∧
    ∃ (before : List Check) (ofService : Service → List Check),
      (∀ s, ((((forServices default [.diagnostics, .broker, .diagnostics]).onlyFor s).report
        ⟨none, 5, none, true, 80⟩).run refusingLate).result = .ok ⟨none, [], ofService s⟩) ∧
      (((forServices default [.diagnostics, .broker, .diagnostics]).report
        ⟨none, 5, none, true, 80⟩).run refusingLate).result =
          .ok ⟨none, before, ofService .broker ++ ofService .diagnostics⟩ := by
  obtain ⟨⟨first, rest, hfirst, hrest, -, hsingle, hwhole⟩, -⟩ := report_decomposes
    (forServices default [.diagnostics, .broker, .diagnostics]) ⟨none, 5, none, true, 80⟩
    refusingLate rfl
  obtain ⟨before, rfl⟩ := hfirst.resolve_right fun h => absurd h.2 (by decide)
  have hchecks (s : Service) : ∃ checks, rest s = .ok checks :=
    (hrest s).resolve_right fun h => absurd h.2.2.1 Bool.false_ne_true
  choose ofService hofService using hchecks
  obtain rfl : rest = fun s => .ok (ofService s) := funext hofService
  refine ⟨rfl, before, ofService, hsingle, hwhole.trans ?_⟩
  refine (composed_ok _ before ofService).trans ?_
  have hselected : (forServices default [.diagnostics, .broker, .diagnostics]).selectedServices =
      [.broker, .diagnostics] := rfl
  rw [hselected, List.flatMap_cons, List.flatMap_singleton]
  rfl

end EdgeHealth.RunRequest
