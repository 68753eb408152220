import EdgeHealth.Proofs.Bundle.Collected
import EdgeHealth.Proofs.Bundle.Refused

/-!
# Every task is accounted for

The work may be cancelled at any moment, with any number of workers at their tasks. Still each task
of a phase is accounted for exactly once: it was started, and what it came to stands in the
collection, or it is one of those that were not started. The tasks that were started are the first
ones of the plan. When the work is cancelled, the collection says how many tasks were not started
in the phases that ran.

## Main definitions

* `Conductor.Takes` : the steps by which a conductor leads pools to rest.
* `Collection.PhaseAccount` : the books of a phase.

## Main results

* `Bundle.exists_takes_inTime` : the steps in the order of time lead pools to rest.
* `Collection.phase_account` : the books of every phase are right.
* `Collection.accounts_for_every_task` : the books of the phases and of the whole.
-/

namespace EdgeHealth

/-- The steps by which a conductor leads every pool from its start to rest. They depend on the
questions that were put before, on whether the work was cancelled before, and on the tasks. -/
def Conductor.Takes (conduct : Conductor) (labour : Labour Task (Except ClusterError Harvest))
    (workers : Nat) (moves : Nat → Bool → List Task → List Pool.Move) : Prop :=
  ∀ asked cancelled tasks, Pool.Course labour (Pool.start workers cancelled tasks)
    (conduct asked (Pool.start workers cancelled tasks)) (moves asked cancelled tasks)

/-- The steps in the order of time lead every pool to rest, also when the work is cancelled. -/
theorem Bundle.exists_takes_inTime (cluster : Cluster) (logAge : Int) (cancelAfter : Option Nat)
    (workers : Nat) :
    ∃ moves, (inTime cluster logAge cancelAfter).Takes (Collection.labour cluster logAge) workers
      moves := by
  have h (asked : Nat) (cancelled : Bool) (tasks : List Task) :=
    Pool.exists_course_drive (Collection.labour cluster logAge)
      (cancelAfter.map fun n => n - asked) (Pool.start workers cancelled tasks)
  exact ⟨fun asked cancelled tasks => (h asked cancelled tasks).choose,
    fun asked cancelled tasks => (h asked cancelled tasks).choose_spec.2⟩

/-- The warnings of a bundle are those of the collection for its survey. -/
theorem Bundle.warnings_eq_run {cluster : Cluster} {workers : Nat} {conduct : Conductor}
    {directory : Option Directory} {q : BundleRequest} {bundle : Bundle}
    (h : (build cluster workers conduct directory q).result = .ok bundle) :
    bundle.warnings = (Collection.run workers conduct q.logAge (q.survey cluster)
      (Survey.questions q.candidates)).warnings := by
  obtain ⟨hdirectory, hreached, hne⟩ :=
    (build_ends cluster workers conduct directory q).exists_ok_iff.1 ⟨bundle, h⟩
  obtain ⟨d, rfl⟩ := Option.ne_none_iff_exists'.1 hdirectory
  obtain ⟨d', hbuild⟩ := exists_build_eq workers conduct d hreached hne
  rw [hbuild] at h
  cases h
  rfl

namespace Collection

/-- The wording of the warning that a collection was cancelled. -/
def cancelledWarning (skipped : Nat) : String :=
  s!"Collection cancelled; {skipped} task(s) not started."

/-- The pool of a phase when it has come to rest. -/
def poolOf (workers : Nat) (conduct : Conductor) (c : Collection) (tasks : List Task) : TaskPool :=
  conduct c.calls.length (Pool.start workers c.cancelled tasks)

/-- The books of a phase in which the steps of a pool led from its start to rest, and a collection
from one state to another. -/
structure PhaseAccount (labour : Labour Task (Except ClusterError Harvest)) (tasks : List Task)
    (start : TaskPool) (moves : List Pool.Move) (pool : TaskPool) (before after : Collection) :
    Prop where
  /-- The tasks that were started are the first ones. -/
  started_prefix : pool.started <+: tasks
  /-- Each of them ran once. -/
  results_perm : (pool.results.map Prod.fst).Perm (List.range pool.started.length)
  /-- The artifacts of each that succeeded are taken once, in order. -/
  artifacts_eq : after.artifacts =
    ((labour.outcomes pool.started).flatMap TaskOutcome.artifacts).foldl
      (fun t pair => t.insertNew pair.1 pair.2) before.artifacts
  /-- The pods of each that succeeded are taken once, in order. -/
  pods_eq : after.pods = before.pods ++ (labour.outcomes pool.started).flatMap TaskOutcome.pods
  /-- There is one warning for each that failed. -/
  warnings_eq : after.warnings =
    before.warnings ++ (labour.outcomes pool.started).filterMap TaskOutcome.warning?
  /-- All others are counted as not started. -/
  skipped_eq : after.skipped = before.skipped + (tasks.length - pool.started.length)
  /-- The work is cancelled afterwards if it was before or by one of the steps. -/
  cancelled_iff : after.cancelled ↔ before.cancelled ∨ .cancel ∈ moves
  /-- Without a cancellation all tasks are started. -/
  started_eq : after.cancelled = false → pool.started = tasks
  /-- A worker that looks after the work was cancelled takes no further task. -/
  take_not_mem : ∀ {earlier later : List Pool.Move} {i : Nat} {between : TaskPool},
    moves = earlier ++ .look i :: later → start.follow? labour earlier = some between →
      between.cancelled → .take i ∉ later

variable {labour : Labour Task (Except ClusterError Harvest)} {workers : Nat} {conduct : Conductor}
  {moves : Nat → Bool → List Task → List Pool.Move}

/-- The books of every phase are right. -/
theorem phase_account (h : conduct.Takes labour workers moves) (logAge : Int) (c : Collection)
    (tasks : List Task) :
    PhaseAccount labour tasks (Pool.start workers c.cancelled tasks)
      (moves c.calls.length c.cancelled tasks) (c.poolOf workers conduct tasks) c
      (c.phase workers conduct logAge tasks) := by
  have hcourse := h c.calls.length c.cancelled tasks
  rw [phase_eq hcourse logAge, foldl_add]
  exact {
    started_prefix := hcourse.started_prefix
    results_perm := hcourse.isOrderly.results_perm hcourse.isAtRest
    artifacts_eq := rfl
    pods_eq := rfl
    warnings_eq := rfl
    skipped_eq := rfl
    cancelled_iff := hcourse.cancelled_iff
    started_eq := hcourse.started_eq
    take_not_mem := fun {earlier later i between} hmoves hbetween hcancelled => by
      have hfollow := hcourse.follow
      rw [hmoves] at hfollow
      obtain ⟨next, hnext, hlater⟩ := Pool.follow?_append_eq_some.1 hfollow
      cases hbetween.symm.trans hnext
      exact Pool.take_not_mem_of_look hcancelled hlater }

/-! ### The whole collection -/

/-- A collection that was cancelled says how many tasks were not started. -/
theorem noteCancelled_eq (c : Collection) :
    c.noteCancelled = { c with
      warnings := c.warnings ++ if c.cancelled then [cancelledWarning c.skipped] else [] } := by
  unfold noteCancelled
  split
  · rfl
  · rw [List.append_nil]

/-- **Every task is accounted for.** Whatever the tasks come to, however many workers there are, in
whatever order they act, and whenever the work is cancelled: the tasks of a phase that were started
are the first ones of its plan, each of them ran once, what it came to was taken once, and all
others are counted as not started. A worker that sees that the work was cancelled takes no further
task. After a cancellation in the first phase there is no second one. The warning that the work was
cancelled gives the number of the tasks that were not started in the phases that ran. It is the last
one of the collection, and the warnings of a bundle are those of the collection for its survey,
after the questions of that. -/
theorem accounts_for_every_task (h : conduct.Takes labour workers moves) :
    (∀ (logAge : Int) (c : Collection) (tasks : List Task),
      PhaseAccount labour tasks (Pool.start workers c.cancelled tasks)
        (moves c.calls.length c.cancelled tasks) (c.poolOf workers conduct tasks) c
        (c.phase workers conduct logAge tasks)) ∧
    (∀ (logAge : Int) (survey : Survey) (calls : List Call),
      let initial := Task.initial survey.services survey.kinds
      let first := (ofSurvey survey calls).phase workers conduct logAge initial
      let notInFirst :=
        initial.length - ((ofSurvey survey calls).poolOf workers conduct initial).started.length
      let followUp := Task.followUp logAge first.pods
      let second := first.phase workers conduct logAge followUp
      let notInSecond := followUp.length - (first.poolOf workers conduct followUp).started.length
      (first.cancelled → run workers conduct logAge survey calls =
        { first with warnings := first.warnings ++ [cancelledWarning notInFirst] }) ∧
      (first.cancelled = false → run workers conduct logAge survey calls =
        { second with warnings := second.warnings ++
            if second.cancelled then [cancelledWarning (notInFirst + notInSecond)] else [] })) ∧
    ∀ (cluster : Cluster) (directory : Option Directory) (q : BundleRequest) (bundle : Bundle),
      (Bundle.build cluster workers conduct directory q).result = .ok bundle →
        bundle.warnings = (run workers conduct q.logAge (q.survey cluster)
          (Survey.questions q.candidates)).warnings := by
  refine ⟨phase_account h, fun logAge survey calls => ?_, fun _ _ _ _ => Bundle.warnings_eq_run⟩
  intro initial first notInFirst followUp second notInSecond
  have hfirst : first.skipped = notInFirst :=
    (phase_account h logAge (ofSurvey survey calls) initial).skipped_eq.trans (Nat.zero_add _)
  have hsecond : second.skipped = notInFirst + notInSecond := by
    rw [← hfirst]
    exact (phase_account h logAge first followUp).skipped_eq
  constructor
  · intro hcancelled
    have hrun : run workers conduct logAge survey calls = first.noteCancelled := by
      simp only [run]
      rw [if_pos hcancelled]
    rw [hrun, noteCancelled_eq, if_pos hcancelled, hfirst]
  · intro hcancelled
    have hrun : run workers conduct logAge survey calls = second.noteCancelled := by
      simp only [run]
      rw [if_neg (by rw [hcancelled]; exact Bool.false_ne_true)]
    rw [hrun, noteCancelled_eq, hsecond]

/-- A cluster that refuses every question after two milliseconds. -/
private def refusal : Cluster := ⟨fun _ => ⟨2, .error (.api 503 "unavailable")⟩⟩

/-- Two workers, three tasks, and a cancellation after the first task was taken. -/
theorem accounts_for_every_task_refusal :
    ∃ moves, (Bundle.inTime refusal 0 (some 1)).Takes (Collection.labour refusal 0) 2 moves ∧
      ((ofSurvey default []).poolOf 2 (Bundle.inTime refusal 0 (some 1))
        [.nodes, .nodes, .nodes]).started = [.nodes] ∧
      PhaseAccount (Collection.labour refusal 0) [.nodes, .nodes, .nodes]
        (Pool.start 2 false [.nodes, .nodes, .nodes]) (moves 0 false [.nodes, .nodes, .nodes])
        ((ofSurvey default []).poolOf 2 (Bundle.inTime refusal 0 (some 1))
          [.nodes, .nodes, .nodes])
        (ofSurvey default [])
        ((ofSurvey default []).phase 2 (Bundle.inTime refusal 0 (some 1)) 0
          [.nodes, .nodes, .nodes]) := by
  obtain ⟨moves, h⟩ := Bundle.exists_takes_inTime refusal 0 (some 1) 2
  exact ⟨moves, h, by decide, (accounts_for_every_task h).1 0 (ofSurvey default []) _⟩

end Collection

end EdgeHealth
