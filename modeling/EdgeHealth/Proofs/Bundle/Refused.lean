import EdgeHealth.Proofs.Bundle.Archived
import EdgeHealth.Proofs.Bundle.Drive
import EdgeHealth.Proofs.Bundle.Survey

/-!
# A bundle fails only before anything is collected

There is no bundle if there is no directory for it, if the survey breaks off, or if the survey holds
no service. All of this is known before the first task is started, and nothing is written then.
Afterwards nothing can go wrong any more: a task that fails leaves a warning, of several artifacts
with one path the first is kept, so that the archive is complete, and the pools come to rest in
whatever order the workers act and whenever the work is cancelled. So nothing has to be known of the
conductor that leads the pools, nor of what it makes of the tasks.

## Main definitions

* `Bundle.Ends` : how a bundle ends.

## Main results

* `Bundle.build_ends` : every bundle ends in one of these ways.
* `Bundle.buildBy_of_breaksOff`, `Bundle.buildBy_of_nil`, `Bundle.exists_build_eq` : what comes of
  each end of the survey.
* `Bundle.build_fails_before_collecting` : the whole.
-/

namespace EdgeHealth

namespace Collection

variable {workers : Nat} {conduct : Conductor} {logAge : Int}

/-- The questions of a phase come after those before it. -/
theorem calls_prefix_phase (c : Collection) (tasks : List Task) :
    c.calls <+: (c.phase workers conduct logAge tasks).calls := List.prefix_append _ _

@[simp] theorem calls_noteCancelled (c : Collection) : c.noteCancelled.calls = c.calls := by
  unfold noteCancelled
  split <;> rfl

/-- The questions of a collection come after those of the survey. -/
theorem calls_prefix_run (survey : Survey) (calls : List Call) :
    calls <+: (run workers conduct logAge survey calls).calls := by
  have hfirst : calls <+: ((ofSurvey survey calls).phase workers conduct logAge
      (Task.initial survey.services survey.kinds)).calls :=
    calls_prefix_phase (ofSurvey survey calls) _
  simp only [run, calls_noteCancelled]
  split
  · exact hfirst
  · exact hfirst.trans (calls_prefix_phase _ _)

end Collection

namespace Bundle

variable {cluster : Cluster} {q : BundleRequest} {d : Directory}
  {collect : Survey → List Call → Collection}

/-! ### What comes of the survey -/

@[simp] theorem callsOf_map_asked (calls : List Call) : callsOf (calls.map .asked) = calls := by
  simp [callsOf, List.filterMap_map]

theorem buildBy_of_breaksOff {e : ClusterError} {asked : List Call}
    (h : Survey.BreaksOff cluster q.candidates e asked) :
    buildBy collect cluster (some d) q = ⟨.error (.unreachable e), some d, asked⟩ := by
  obtain ⟨hresult, hevents⟩ := (Survey.performs_take_of_breaksOff h).run
  simp only [buildBy, hresult, hevents, callsOf_map_asked]

theorem buildBy_of_nil (h : Survey.IsReached cluster q.candidates)
    (hnil : (q.survey cluster).services = []) :
    buildBy collect cluster (some d) q =
      ⟨.error .noServices, some d, Survey.questions q.candidates⟩ := by
  obtain ⟨hresult, hevents⟩ := (Survey.performs_take_of_isReached h).run
  rw [if_pos hnil] at hresult
  simp only [buildBy, hresult, hevents, callsOf_map_asked]

theorem buildBy_of_ne_nil (h : Survey.IsReached cluster q.candidates)
    (hne : (q.survey cluster).services ≠ []) :
    buildBy collect cluster (some d) q = store q d (q.survey cluster)
      (collect (q.survey cluster) (Survey.questions q.candidates)) := by
  obtain ⟨hresult, hevents⟩ := (Survey.performs_take_of_isReached h).run
  rw [if_neg hne] at hresult
  simp only [buildBy, hresult, hevents, callsOf_map_asked]

/-- If all candidates are reached and there is one to collect from, the bundle is built. -/
theorem exists_build_eq (workers : Nat) (conduct : Conductor) (d : Directory)
    (h : Survey.IsReached cluster q.candidates) (hne : (q.survey cluster).services ≠ []) :
    let c := Collection.run workers conduct q.logAge (q.survey cluster)
      (Survey.questions q.candidates)
    ∃ d', build cluster workers conduct (some d) q =
      ⟨.ok ⟨(q.survey cluster).services, c.warnings⟩, some d', c.calls⟩ := by
  intro c
  obtain ⟨d', -, hstore, -⟩ := exists_store_eq q d (q.survey cluster) c
  exact ⟨d', by rw [build, buildBy_of_ne_nil h hne, hstore]⟩

/-! ### How a bundle ends -/

/-- How a bundle ends. Whether it is built is told by the directory and the survey alone. -/
inductive Ends (cluster : Cluster) (q : BundleRequest) : Option Directory → BundleOutcome → Prop
  | noDirectory : Ends cluster q none ⟨.error (.invalidDirectory q.directory), none, []⟩
  | breaksOff {d : Directory} {e : ClusterError} {asked : List Call}
      (h : Survey.BreaksOff cluster q.candidates e asked) :
    Ends cluster q (some d) ⟨.error (.unreachable e), some d, asked⟩
  | noServices {d : Directory} (h : Survey.IsReached cluster q.candidates)
      (hnil : (q.survey cluster).services = []) :
    Ends cluster q (some d) ⟨.error .noServices, some d, Survey.questions q.candidates⟩
  | stored {d d' : Directory} {warnings : List String} {calls : List Call}
      (h : Survey.IsReached cluster q.candidates) (hne : (q.survey cluster).services ≠ [])
      (hcalls : Survey.questions q.candidates <+: calls) :
    Ends cluster q (some d) ⟨.ok ⟨(q.survey cluster).services, warnings⟩, some d', calls⟩

theorem build_ends (cluster : Cluster) (workers : Nat) (conduct : Conductor)
    (directory : Option Directory) (q : BundleRequest) :
    Ends cluster q directory (build cluster workers conduct directory q) := by
  cases directory with
  | none => exact .noDirectory
  | some d =>
    rcases Survey.isReached_or_breaksOff cluster q.candidates with h | ⟨e, asked, h⟩
    · by_cases hnil : (q.survey cluster).services = []
      · rw [build, buildBy_of_nil h hnil]
        exact .noServices h hnil
      · obtain ⟨d', hbuild⟩ := exists_build_eq workers conduct d h hnil
        rw [hbuild]
        exact .stored h hnil (Collection.calls_prefix_run _ _)
    · rw [build, buildBy_of_breaksOff h]
      exact .breaksOff h

namespace Ends

variable {directory : Option Directory} {outcome : BundleOutcome}
  (h : Ends cluster q directory outcome)
include h

theorem invalidDirectory_iff {path : String} :
    outcome.result = .error (.invalidDirectory path) ↔ directory = none ∧ path = q.directory := by
  cases h with
  | noDirectory => simp [eq_comm]
  | _ => simp

theorem unreachable_iff {e : ClusterError} :
    outcome.result = .error (.unreachable e) ↔
      directory ≠ none ∧ ∃ asked, Survey.BreaksOff cluster q.candidates e asked := by
  cases h with
  | noDirectory => simp
  | breaksOff h =>
    constructor
    · rintro ⟨⟩
      exact ⟨nofun, _, h⟩
    · rintro ⟨-, _, h'⟩
      rw [(h.unique h').1]
  | noServices h _ => exact iff_of_false nofun fun ⟨_, _, h'⟩ => h'.not_isReached h
  | stored h _ _ => exact iff_of_false nofun fun ⟨_, _, h'⟩ => h'.not_isReached h

theorem noServices_iff :
    outcome.result = .error .noServices ↔ directory ≠ none ∧
      Survey.IsReached cluster q.candidates ∧ (q.survey cluster).services = [] := by
  cases h with
  | noDirectory => simp
  | breaksOff h => exact iff_of_false nofun fun h' => h.not_isReached h'.2.1
  | noServices h hnil => exact iff_of_true rfl ⟨nofun, h, hnil⟩
  | stored _ hne _ => exact iff_of_false nofun fun h' => hne h'.2.2

theorem exists_ok_iff :
    (∃ bundle, outcome.result = .ok bundle) ↔ directory ≠ none ∧
      Survey.IsReached cluster q.candidates ∧ (q.survey cluster).services ≠ [] := by
  cases h with
  | noDirectory => simp
  | breaksOff h => exact iff_of_false nofun fun h' => h.not_isReached h'.2.1
  | noServices _ hnil => exact iff_of_false nofun fun h' => h'.2.2 hnil
  | stored h hne _ => exact iff_of_true ⟨_, rfl⟩ ⟨nofun, h, hne⟩

theorem ne_repeatedPath : outcome.result ≠ .error .repeatedPath := by
  cases h <;> exact nofun

theorem directory_eq {e : BundleError} (he : outcome.result = .error e) :
    outcome.directory = directory := by
  cases h with
  | stored => cases he
  | _ => rfl

theorem questions_prefix {bundle : Bundle} (hok : outcome.result = .ok bundle) :
    bundle.services = (q.survey cluster).services ∧
      Survey.questions q.candidates <+: outcome.calls := by
  cases h with
  | stored _ _ hcalls =>
    cases hok
    exact ⟨rfl, hcalls⟩
  | _ => cases hok

theorem calls_of_none (hnone : directory = none) : outcome.calls = [] := by
  cases h with
  | noDirectory => rfl
  | _ => cases hnone

theorem calls_of_breaksOff {e : ClusterError} {asked : List Call} (hsome : directory ≠ none)
    (hbreaks : Survey.BreaksOff cluster q.candidates e asked) : outcome.calls = asked := by
  cases h with
  | noDirectory => exact absurd rfl hsome
  | breaksOff h => exact (h.unique hbreaks).2
  | noServices h _ => exact absurd h hbreaks.not_isReached
  | stored h _ _ => exact absurd h hbreaks.not_isReached

theorem calls_of_noServices (he : outcome.result = .error .noServices) :
    outcome.calls = Survey.questions q.candidates := by
  cases h with
  | noServices => rfl
  | _ => cases he

end Ends

/-- **A bundle fails only before anything is collected.** Without a directory for it nothing is
asked. With one, the services that the request is about are asked for in the order of the catalog.
The bundle fails if that breaks off, after the questions that were asked up to then, or if all of
them were asked for and none of them is to be collected from. In all other cases it is built for
those that are to be collected from, and all these questions come first, whatever the tasks come to,
in whatever order the workers act and whenever the work is cancelled; the archive never has two
entries of one path, and the workers come to rest. Where there is no bundle, the directory is left
as it was. -/
theorem build_fails_before_collecting (cluster : Cluster) (workers : Nat) (conduct : Conductor)
    (directory : Option Directory) (q : BundleRequest) :
    ∃ candidates, q.IsAbout candidates ∧
      let outcome := build cluster workers conduct directory q
      (∀ path, outcome.result = .error (.invalidDirectory path) ↔
        directory = none ∧ path = q.directory) ∧
      (∀ e, outcome.result = .error (.unreachable e) ↔
        directory ≠ none ∧ ∃ asked, Survey.BreaksOff cluster candidates e asked) ∧
      (outcome.result = .error .noServices ↔ directory ≠ none ∧
        Survey.IsReached cluster candidates ∧ ∀ s, ¬ q.Selects cluster s) ∧
      ((∃ bundle, outcome.result = .ok bundle) ↔ directory ≠ none ∧
        Survey.IsReached cluster candidates ∧ ∃ s, q.Selects cluster s) ∧
      outcome.result ≠ .error .repeatedPath ∧
      (directory = none → outcome.calls = []) ∧
      (∀ e asked, directory ≠ none → Survey.BreaksOff cluster candidates e asked →
        outcome.calls = asked) ∧
      (outcome.result = .error .noServices → outcome.calls = Survey.questions candidates) ∧
      (∀ e, outcome.result = .error e → outcome.directory = directory) ∧
      (∀ bundle, outcome.result = .ok bundle →
        bundle.services.Sublist Service.all ∧
        (∀ s, s ∈ bundle.services ↔ q.Selects cluster s) ∧
        Survey.questions candidates <+: outcome.calls) ∧
      ∀ (labour : Labour Task (Except ClusterError Harvest)) (cancelled : Bool)
        (tasks : List Task), (Pool.start workers cancelled tasks).ComesToRest labour := by
  refine ⟨q.candidates, q.isAbout_candidates, ?_⟩
  intro outcome
  have hends : Ends cluster q directory outcome := build_ends cluster workers conduct directory q
  refine ⟨fun _ => hends.invalidDirectory_iff, fun _ => hends.unreachable_iff, ?_, ?_,
    hends.ne_repeatedPath, hends.calls_of_none, fun _ _ => hends.calls_of_breaksOff,
    hends.calls_of_noServices, fun _ => hends.directory_eq, fun bundle hok => ?_,
    fun labour _ _ => Pool.comesToRest labour _⟩
  · rw [hends.noServices_iff, BundleRequest.services_survey_eq_nil_iff]
  · have hsome : (q.survey cluster).services ≠ [] ↔ ∃ s, q.Selects cluster s :=
      (not_congr BundleRequest.services_survey_eq_nil_iff).trans not_forall_not
    rw [hends.exists_ok_iff, hsome]
  · obtain ⟨hservices, hquestions⟩ := hends.questions_prefix hok
    rw [hservices]
    exact ⟨BundleRequest.services_survey_sublist, fun s => BundleRequest.selects_iff.symm,
      hquestions⟩

end Bundle

end EdgeHealth
