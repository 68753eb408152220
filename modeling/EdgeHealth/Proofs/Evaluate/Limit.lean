import EdgeHealth.Proofs.Cluster.Limit
import EdgeHealth.Proofs.Evaluate.Plain

/-!
# The statistics of the broker under a limit

The evaluation of the statistics asks for pods, and then waits for a connection which may never
respond. That wait is given up after some time, and nothing is done after it. So the evaluation is
punctual and timely, although it is not made of questions alone.

## Main results

* `Statistics.punctual_check`, `Statistics.timely_check` : the evaluation under a limit.
-/

namespace EdgeHealth

namespace Scrape

theorem plain_send (port : Nat) :
    (Attempt.lift (Session.trace (.sent (request port)))).Plain :=
  Attempt.plain_lift (.trace _)

theorem punctual_exchange (port : Nat) (connection : Connection) :
    (exchange port connection).run.Punctual := by
  cases connection with
  | failsWriting reason => exact (Attempt.plain_fail _).punctual
  | failsSending reason => exact (Attempt.plain_fail _).punctual
  | failsReading reason => exact ((plain_send port).bind fun _ => Attempt.plain_fail _).punctual
  | stalls =>
    exact Attempt.punctual_run_bind (plain_send port).punctual fun _ =>
      Session.punctual_never.bind fun a => Session.punctual_pure (.ok a)
  | responds bytes => exact ((plain_send port).bind fun _ => .pure _).punctual

theorem prompt_exchange (port : Nat) (connection : Connection) :
    (exchange port connection).run.Prompt := by
  cases connection with
  | failsWriting reason => exact (Attempt.plain_fail _).prompt
  | failsSending reason => exact (Attempt.plain_fail _).prompt
  | failsReading reason => exact ((plain_send port).bind fun _ => Attempt.plain_fail _).prompt
  | stalls =>
    exact Attempt.prompt_run_bind (plain_send port).prompt fun _ =>
      Session.prompt_never.bind fun a => Session.prompt_pure (.ok a)
  | responds bytes => exact ((plain_send port).bind fun _ => .pure _).prompt

theorem punctual_fetch (ns pod : String) (port : Nat) : (fetch ns pod port).run.Punctual :=
  Attempt.punctual_run_bind (Attempt.plain_ask _).punctual (punctual_exchange port)

theorem prompt_fetch (ns pod : String) (port : Nat) : (fetch ns pod port).run.Prompt :=
  Attempt.prompt_run_bind (Attempt.plain_ask _).prompt (prompt_exchange port)

end Scrape

namespace Statistics

/-- The wait for the statistics is punctual. -/
theorem punctual_gather (context : RunContext) (pods : List Pod) :
    (gather context pods).run.Punctual := by
  unfold gather
  split
  · exact Session.punctual_pure _
  · exact Attempt.punctual_run_bind
      (((Scrape.punctual_fetch _ _ _).timeout _).bind fun _ => Session.punctual_pure _)
      fun _ => Session.punctual_pure _

/-- The evaluation of the statistics is punctual. -/
theorem punctual_check (scope : Scope) : (check scope).run.Punctual :=
  Attempt.punctual_run_bind (Attempt.plain_ask _).punctual fun pods =>
    Attempt.punctual_run_bind (punctual_gather scope.context pods) fun _ => Session.punctual_pure _

/-- Nothing is done after the wait for the statistics, so that it is timely. -/
theorem timely_gather (context : RunContext) (pods : List Pod) :
    (gather context pods).run.Timely := by
  unfold gather
  split
  · exact (Session.prompt_pure _).timely
  · next pod _ =>
    rw [Session.run_bind]
    have hwait : (Session.timeout context.apiTimeout
        (Scrape.fetch (pod.nsOr allNamespaces) pod.name context.statsPort).run).Timely :=
      (Scrape.prompt_fetch _ _ _).timely.timeout (Scrape.punctual_fetch _ _ _) _
    refine (hwait.bind_pure fun _ => ⟨_, rfl⟩).bind_pure fun r => ?_
    cases r <;> exact ⟨_, rfl⟩

/-- The evaluation of the statistics is timely. -/
theorem timely_check (scope : Scope) : (check scope).run.Timely := by
  refine Attempt.timely_run_bind (Attempt.plain_ask _).prompt fun pods => ?_
  rw [Session.run_bind]
  refine (timely_gather scope.context pods).bind_pure fun r => ?_
  cases r <;> exact ⟨_, rfl⟩

end Statistics

end EdgeHealth
