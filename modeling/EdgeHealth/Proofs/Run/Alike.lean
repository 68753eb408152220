import EdgeHealth.Proofs.Evaluate.Overflow
import EdgeHealth.Run.Report

/-!
# Two runs of one request

A request says how much of a resource is shown and whether there are lines for human readers. Two
runs of it that differ in nothing else put the same questions at the same moments, and their reports
have the same checks at the same places. How a check of one report differs from that of the other
rests on how the notes differ from which the two checks are made. So a relation between lists of
notes, in which those of every evaluation stand, is all that is needed in order to relate the
reports.

A run that shows more may be aborted where one that shows less is not: it computes more numbers. The
second of the two runs is the one that shows more.

## Main definitions

* `RunRequest.shownAs` : a request that is shown in some way.
* `RelatesNotes` : a relation in which the notes of all evaluations stand.
* `Report.Corresponds` : two reports whose checks stand in a relation.

## Main results

* `RunRequest.parallel_report` : two runs of one request.
* `RunRequest.report_ensures_forall` : what is known of the checks of one run.
-/

namespace EdgeHealth

/-- The request with another level of detail, and with lines for human readers or without. -/
def RunRequest.shownAs (q : RunRequest) (level : DetailLevel) (withDisplays : Bool) : RunRequest :=
  { q with level := level, withDisplays := withDisplays }

/-- A relation between lists of notes in which those of each evaluation at one level of detail stand
to those at another. -/
structure RelatesNotes (N : List Note → List Note → Prop) (level level' : DetailLevel) : Prop where
  /-- The second level shows what the first one does. -/
  detail : level ≠ .summary → level' ≠ .summary
  /-- An evaluation that failed or was cut off. -/
  verdict : ∀ target condition evaluation,
    N [.observe target allNamespaces condition evaluation]
      [.observe target allNamespaces condition evaluation]
  /-- An API or a kind that is not there. -/
  skipped : ∀ target condition (evaluation : Evaluation) line, evaluation.status = .skipped →
    N [.observe target allNamespaces condition evaluation, .display target allNamespaces [line]]
      [.observe target allNamespaces condition evaluation, .display target allNamespaces [line]]
  /-- What an API serves. -/
  enumeration : ∀ s resources, N (Discovery.notes s (Discovery.served s resources))
    (Discovery.notes s (Discovery.served s resources))
  /-- The version of the cluster. -/
  version : ∀ policy answer,
    N (Readiness.versionNotes policy answer) (Readiness.versionNotes policy answer)
  /-- There are no nodes. -/
  noNodes : N Readiness.noNodesNotes Readiness.noNodesNotes
  /-- The nodes. -/
  nodes : ∀ policy least nodes, N (Readiness.nodesNotes level policy least nodes)
    (Readiness.nodesNotes level' policy least nodes)
  /-- The storage classes. -/
  storage : ∀ policy names,
    N (Readiness.storageNotes policy names) (Readiness.storageNotes policy names)
  /-- The resources of a kind. -/
  resources : ∀ context names d d' (k : Kind) resources,
    (k.notes ⟨context, names, level, d⟩ resources).Parallel N
      (k.notes ⟨context, names, level', d'⟩ resources)
  /-- The pods of a service. -/
  pods : ∀ starts pods,
    N (PodHealth.notes level starts pods) (PodHealth.notes level' starts pods)
  /-- The statistics of the broker. -/
  statistics : ∀ context pods,
    (Statistics.gather context pods).Parallel N (Statistics.gather context pods)

/-- Two reports with one heading whose checks at the same places stand in a relation. -/
structure Report.Corresponds (R : Check → Check → Prop) (r r' : Report) : Prop where
  /-- The heading. -/
  title_eq : r.title = r'.title
  /-- The checks before deployment. -/
  preDeployment : List.Forall₂ R r.preDeployment r'.preDeployment
  /-- The checks after deployment. -/
  postDeployment : List.Forall₂ R r.postDeployment r'.postDeployment

section

variable {N : List Note → List Note → Prop} {R : Check → Check → Prop} {level level' : DetailLevel}
  {d d' : Bool}

/-! ### Evaluations -/

/-- Notes that stand in the relation make related checks, the second of which has lines for human
readers if the first one has. -/
structure MakesChecks (N : List Note → List Note → Prop) (R : Check → Check → Prop) (d d' : Bool) :
    Prop where
  /-- The checks are related. -/
  ofNotes : ∀ name description notes notes', N notes notes' →
    R (Check.ofNotesFor d name description notes) (Check.ofNotesFor d' name description notes')
  /-- The second check shows what the first one does. -/
  shown : d → d'

namespace RelatesNotes

variable (hN : RelatesNotes N level level') (hR : MakesChecks N R d d')
include hN hR

theorem check_verdict (name description target condition : String) (evaluation : Evaluation) :
    R (Check.ofNotes name description [.observe target allNamespaces condition evaluation])
      (Check.ofNotes name description [.observe target allNamespaces condition evaluation]) := by
  have h := hR.ofNotes name description _ _ (hN.verdict target condition evaluation)
  cases d <;> cases d' <;> exact h

theorem missingApi (s : Service) : R (Discovery.missingApi d s) (Discovery.missingApi d' s) :=
  hR.ofNotes _ _ _ _ (hN.skipped _ _ _ _ rfl)

theorem absentKind (k : Kind) : R (Discovery.absentKind d k) (Discovery.absentKind d' k) :=
  hR.ofNotes _ _ _ _ (hN.skipped _ _ _ _ rfl)

theorem checkVersion (context : RunContext) (names : NameFilter) (policy : ReadinessPolicy) :
    (Readiness.checkVersion ⟨context, names, level, d⟩ policy).Parallel R
      (Readiness.checkVersion ⟨context, names, level', d'⟩ policy) :=
  (Attempt.parallel_refl _).bind fun answer _ h =>
    h ▸ Attempt.parallel_pure (hR.ofNotes _ _ _ _ (hN.version policy answer))

theorem checkNodes (context : RunContext) (names : NameFilter) (policy : ReadinessPolicy) :
    (Readiness.checkNodes ⟨context, names, level, d⟩ policy).Parallel R
      (Readiness.checkNodes ⟨context, names, level', d'⟩ policy) := by
  refine (Attempt.parallel_refl _).bind fun nodes _ h => ?_
  subst h
  exact (Readiness.parallel_gatherNodes hN.noNodes fun least => hN.nodes policy least nodes).bind
    fun _ _ hnotes => Attempt.parallel_pure (hR.ofNotes _ _ _ _ hnotes)

theorem checkStorageClasses (context : RunContext) (names : NameFilter)
    (policy : ReadinessPolicy) :
    (Readiness.checkStorageClasses ⟨context, names, level, d⟩ policy).Parallel R
      (Readiness.checkStorageClasses ⟨context, names, level', d'⟩ policy) :=
  (Attempt.parallel_refl _).bind fun classes _ h =>
    h ▸ Attempt.parallel_pure (hR.ofNotes _ _ _ _ (hN.storage policy (classes.filterMap id)))

theorem check (context : RunContext) (names : NameFilter) (k : Kind) :
    (k.check ⟨context, names, level, d⟩).Parallel R (k.check ⟨context, names, level', d'⟩) :=
  (Attempt.parallel_refl (k.fetch ⟨context, names, level, d⟩)).bind fun resources _ h =>
    h ▸ (hN.resources context names d d' k resources).bind fun _ _ hnotes =>
      Attempt.parallel_pure (hR.ofNotes _ _ _ _ hnotes)

theorem checkPods (context : RunContext) (names : NameFilter) (s : Service) :
    (s.checkPods ⟨context, names, level, d⟩).Parallel R
      (s.checkPods ⟨context, names, level', d'⟩) :=
  (Attempt.parallel_refl _).bind fun pods _ h =>
    h ▸ (PodHealth.parallel_gather hR.shown hN.detail (hN.pods s.podPrefixes pods)).bind
      fun _ _ hnotes => Attempt.parallel_pure (hR.ofNotes _ _ _ _ hnotes)

theorem checkStatistics (context : RunContext) (names : NameFilter) :
    (Statistics.check ⟨context, names, level, d⟩).Parallel R
      (Statistics.check ⟨context, names, level', d'⟩) :=
  (Attempt.parallel_refl _).bind fun pods _ h =>
    h ▸ (hN.statistics context pods).bind fun _ _ hnotes =>
      Attempt.parallel_pure (hR.ofNotes _ _ _ _ hnotes)

end RelatesNotes

/-! ### Planned checks -/

/-- Two plans of one check whose evaluations run alike. -/
structure Planned.Alike (R : Check → Check → Prop) (p p' : Planned) : Prop where
  name_eq : p.name = p'.name
  description_eq : p.description = p'.description
  target_eq : p.target = p'.target
  evaluation : p.evaluation.Parallel R p'.evaluation

namespace RunRequest

variable (q : RunRequest) (context : RunContext) (hN : RelatesNotes N level level')
  (hR : MakesChecks N R d d')
include hN hR

theorem parallel_run {p p' : Planned} (h : p.Alike R p') (deadline : Option Nat) :
    (p.run deadline).Parallel R (p'.run deadline) := by
  obtain ⟨name, description, target, evaluation⟩ := p
  obtain ⟨name', description', target', evaluation'⟩ := p'
  obtain ⟨rfl, rfl, rfl, hevaluation⟩ := h
  refine (Session.Parallel.within hevaluation deadline).bind fun _ _ h => ?_
  refine Session.parallel_pure ?_
  cases h with
  | none => exact hN.check_verdict hR _ _ _ _ _
  | some h =>
    cases h with
    | ok hcheck => exact hcheck
    | error e => exact hN.check_verdict hR _ _ _ _ _

theorem parallel_before :
    ((q.shownAs level d).before context).Parallel (List.Forall₂ R)
      ((q.shownAs level' d').before context) := by
  have hplans : List.Forall₂ (Planned.Alike R) ((q.shownAs level d).plansBefore context)
      ((q.shownAs level' d').plansBefore context) := by
    refine List.rel_append (.cons ⟨rfl, rfl, rfl, hN.checkVersion hR _ _ _⟩
      (.cons ⟨rfl, rfl, rfl, hN.checkNodes hR _ _ _⟩ .nil)) ?_
    change List.Forall₂ _ (if q.policy.storageClasses.isEmpty then _ else _)
      (if q.policy.storageClasses.isEmpty then _ else _)
    split
    · exact .nil
    · exact .cons ⟨rfl, rfl, rfl, hN.checkStorageClasses hR _ _ _⟩ .nil
  exact .forEach (hplans.imp fun _ _ h => parallel_run hN hR h _)

theorem alike_kindPlan (k : Kind) :
    ((q.shownAs level d).kindPlan context k).Alike R ((q.shownAs level' d').kindPlan context k) :=
  ⟨rfl, rfl, rfl, hN.check hR _ _ k⟩

theorem alike_plansBeside (s : Service) :
    List.Forall₂ (Planned.Alike R) ((q.shownAs level d).plansBeside context s)
      ((q.shownAs level' d').plansBeside context s) := by
  refine List.rel_append ?_ ?_
  · change List.Forall₂ _ (if q.kinds.isNone then _ else _) (if q.kinds.isNone then _ else _)
    split
    · exact .cons ⟨rfl, rfl, rfl, hN.checkPods hR _ _ s⟩ .nil
    · exact .nil
  · split
    · exact .cons ⟨rfl, rfl, rfl, hN.checkStatistics hR _ _⟩ .nil
    · exact .nil

theorem parallel_kindCheck (served : List Kind) (k : Kind) :
    ((q.shownAs level d).kindCheck context served k).Parallel R
      ((q.shownAs level' d').kindCheck context served k) := by
  unfold kindCheck
  split
  · exact parallel_run hN hR (q.alike_kindPlan context hN hR k) _
  · exact Session.parallel_pure (hN.absentKind hR k)

theorem parallel_discovered (s : Service) (resources : List ApiResource) :
    ((q.shownAs level d).discovered context s resources).Parallel (List.Forall₂ R)
      ((q.shownAs level' d').discovered context s resources) := by
  refine (Session.Parallel.forEach (List.forall₂_same.2 fun k _ =>
    q.parallel_kindCheck context hN hR _ k)).bind fun _ _ hkinds => ?_
  refine (Session.Parallel.forEach ((q.alike_plansBeside context hN hR s).imp fun _ _ h =>
    parallel_run hN hR h _)).bind fun _ _ hbeside => ?_
  exact Session.parallel_pure (.cons (hR.ofNotes _ _ _ _ (hN.enumeration s resources))
    (List.rel_append hkinds hbeside))

theorem undiscovered_alike (s : Service) :
    List.Forall₂ R ((q.shownAs level d).undiscovered context s)
      ((q.shownAs level' d').undiscovered context s) := by
  refine .cons (hN.check_verdict hR _ _ _ _ _) ?_
  have hplans : List.Forall₂ (Planned.Alike R)
      ((q.selectedKinds s).map ((q.shownAs level d).kindPlan context) ++
        (q.shownAs level d).plansBeside context s)
      ((q.selectedKinds s).map ((q.shownAs level' d').kindPlan context) ++
        (q.shownAs level' d').plansBeside context s) := by
    refine List.rel_append ?_ (q.alike_plansBeside context hN hR s)
    rw [List.forall₂_map_left_iff, List.forall₂_map_right_iff]
    exact List.forall₂_same.2 fun k _ => q.alike_kindPlan context hN hR k
  refine List.rel_map (fun p p' h => ?_) hplans
  rw [Planned.cancelled, Planned.cancelled, h.name_eq, h.description_eq, h.target_eq]
  exact hN.check_verdict hR _ _ _ _ _

theorem parallel_afterFor (s : Service) :
    ((q.shownAs level d).afterFor context s).Parallel (List.Forall₂ R)
      ((q.shownAs level' d').afterFor context s) := by
  refine (Session.parallel_refl _).bind fun answer _ h => ?_
  subst h
  match answer with
  | some (.ok resources) => exact q.parallel_discovered context hN hR s resources
  | some (.error e) =>
    simp only [afterDiscovery]
    split
    · exact Session.parallel_pure (.cons (hN.missingApi hR s) .nil)
    · exact Session.parallel_pure (.cons (hN.check_verdict hR _ _ _ _ _) .nil)
  | none => exact Session.parallel_pure (q.undiscovered_alike context hN hR s)

/-- **Two runs of one request** that differ in what is shown put the same questions at the same
moments, and come to reports whose checks at the same places are related as their notes are, unless
the second run is aborted. -/
theorem parallel_report :
    ((q.shownAs level d).report context).Parallel (Report.Corresponds R)
      ((q.shownAs level' d').report context) := by
  have hbefore : ((q.shownAs level d).beforeIfAsked context).Parallel (List.Forall₂ R)
      ((q.shownAs level' d').beforeIfAsked context) := by
    change (if q.runsBefore then _ else _ : Session _).Parallel _ (if q.runsBefore then _ else _)
    split
    · exact q.parallel_before context hN hR
    · exact Session.parallel_pure .nil
  have hafter : ((q.shownAs level d).afterIfAsked context).Parallel (List.Forall₂ R)
      ((q.shownAs level' d').afterIfAsked context) := by
    change (if q.runsAfter then _ else _ : Session _).Parallel _ (if q.runsAfter then _ else _)
    split
    · refine (Session.Parallel.forEach (List.forall₂_same.2 fun s _ =>
        q.parallel_afterFor context hN hR s)).bind fun _ _ h => ?_
      exact Session.parallel_pure (List.rel_flatten h)
    · exact Session.parallel_pure .nil
  exact hbefore.bind fun _ _ hb => hafter.bind fun _ _ ha =>
    Session.parallel_pure ⟨rfl, hb, ha⟩

end RunRequest

end

/-! ### One run -/

/-- A report that corresponds to one by a relation of each check to itself. -/
theorem Report.Corresponds.eq_and_forall {P : Check → Prop} {r r' : Report}
    (h : r.Corresponds (fun c c' => c = c' ∧ P c) r') : r = r' ∧ ∀ c ∈ r.checks, P c := by
  have hchecks {cs cs' : List Check} (h : List.Forall₂ (fun c c' => c = c' ∧ P c) cs cs') :
      cs = cs' ∧ ∀ c ∈ cs, P c := by
    induction h with
    | nil => exact ⟨rfl, by simp⟩
    | cons hc _ ih => exact ⟨by rw [hc.1, ih.1], List.forall_mem_cons.2 ⟨hc.2, ih.2⟩⟩
  obtain ⟨title, before, after⟩ := r
  obtain ⟨htitle, hbefore, hafter⟩ := h
  obtain ⟨rfl, hbefore⟩ := hchecks hbefore
  obtain ⟨rfl, hafter⟩ := hchecks hafter
  cases htitle
  exact ⟨rfl, List.forall_mem_append.2 ⟨hbefore, hafter⟩⟩

/-- What is known of the notes of all evaluations is known of all checks of a report. -/
theorem RunRequest.report_ensures_forall {N : List Note → Prop} {P : Check → Prop}
    {level : DetailLevel} {d : Bool}
    (hN : RelatesNotes (fun notes notes' => notes = notes' ∧ N notes) level level)
    (hP : ∀ name description notes, N notes → P (Check.ofNotesFor d name description notes))
    (q : RunRequest) (context : RunContext) :
    ((q.shownAs level d).report context).Ensures fun r => ∀ c ∈ r.checks, P c := by
  have hchecks : MakesChecks (fun notes notes' => notes = notes' ∧ N notes)
      (fun c c' => c = c' ∧ P c) d d := by
    refine ⟨?_, id⟩
    rintro name description notes _ ⟨rfl, h⟩
    exact ⟨rfl, hP name description notes h⟩
  exact ((q.parallel_report context hN hchecks).mono fun _ _ h => h.eq_and_forall).ensures

end EdgeHealth
