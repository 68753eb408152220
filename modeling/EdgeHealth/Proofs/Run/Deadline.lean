import EdgeHealth.Proofs.Evaluate.Limit
import EdgeHealth.Proofs.Run.Parts
import EdgeHealth.Proofs.Run.Plans

/-!
# A run with a deadline

Up to its deadline a run puts the same questions as the run without one, and comes to the same
checks. The check during which the deadline passes is cut off, and so is every later one; only of a
kind that is known not to be served the check still says so.

Where a number is too great, the run without a deadline is aborted. The run with one is aborted too,
unless the deadline passes before the number is computed; then it comes to a report.

## Main definitions

* `Attempt.IsEvaluation` : what all evaluations have in common.

## Main results

* `Planned.agrees_run` : a planned check under a deadline.
* `RunRequest.agrees_afterFor` : the phase after deployment for one service.
* `RunRequest.report_until_deadline` : a run with a deadline.
-/

namespace EdgeHealth

/-- An attempt that comes to an end with a conclusive check or a failure, and that a limit cuts off
without changing what comes before. -/
structure Attempt.IsEvaluation (a : Attempt Check) : Prop where
  /-- Without a limit the attempt comes to an end. -/
  not_cutOff : ∀ responder past now, (a.run responder past none now).result ≠ .error .cutOff
  /-- The attempt is the same under a limit, up to that. -/
  punctual : a.run.Punctual
  /-- Nothing is done at the moment of the limit. -/
  timely : a.run.Timely
  /-- The checks are conclusive. -/
  conclusive : a.Ensures Check.IsConclusive

theorem Attempt.Plain.isEvaluation {a : Attempt Check} (ha : a.Plain)
    (h : a.Ensures Check.IsConclusive) : a.IsEvaluation :=
  ⟨fun _ => (Session.Plain.completes (E := False) ha).not_cutOff, ha.punctual, ha.prompt.timely, h⟩

theorem Statistics.isEvaluation_check (scope : Scope) : (check scope).IsEvaluation :=
  ⟨fun _ => (completes_check (E := False) scope).not_cutOff, punctual_check scope,
    timely_check scope, check_ensures_isConclusive scope⟩

theorem Service.isEvaluation_checkPods (scope : Scope) (s : Service) :
    (s.checkPods scope).IsEvaluation :=
  ⟨fun _ => (s.completes_checkPods scope).not_cutOff, s.punctual_checkPods scope,
    (s.prompt_checkPods scope).timely, s.checkPods_ensures_isConclusive scope⟩

theorem Readiness.isEvaluation_checkNodes (scope : Scope) (policy : ReadinessPolicy) :
    (checkNodes scope policy).IsEvaluation :=
  ⟨fun _ => (completes_checkNodes scope policy).not_cutOff, punctual_checkNodes scope policy,
    (prompt_checkNodes scope policy).timely, checkNodes_ensures_isConclusive scope policy⟩

variable {q : RunRequest} {context : RunContext} {cluster : Cluster} {deadline : Nat}
  {known : Trace → Prop}

/-! ### Planned checks -/

namespace Planned

variable {p : Planned}

/-- From the deadline on a planned check is not started. -/
theorem isIdle_run (hmem : p.cancelled ∈ q.cancellations context) :
    q.IsIdle context cluster deadline known (fun c => [c]) (p.run (some deadline)) := by
  intro past now _ hnow
  refine ⟨p.cancelled, ?_, List.forall_mem_singleton.2 (.cancelled hmem)⟩
  rw [Planned.run, Session.bind_pure_of_ok (a := none) (by simp [Session.within, hnow])]
  simp [Session.within, hnow, settle]

/-- Without a deadline a planned check is not cut off. -/
theorem isCancelled_eq_of_run_none {responder : Responder} {past : Trace} {now : Nat}
    (hp : p.evaluation.IsEvaluation) {c : Check}
    (hc : (p.run none responder past none now).result = .ok c) : c.isCancelled = false := by
  obtain ⟨r, hr, hc⟩ := Session.exists_of_bind hc
  obtain rfl : p.settle r = c := Except.ok.inj hc
  -- without a deadline there is something that the evaluation came to
  cases hrun : (p.evaluation.run responder past none now).result with
  | error i =>
    simp only [Session.within, hrun] at hr
    cases hr
  | ok outcome =>
    simp only [Session.within, hrun] at hr
    cases hr
    cases outcome with
    | ok c => exact (hp.conclusive hrun c rfl).isCancelled_eq_false
    | error e => exact (Check.isConclusive_failed _ _ _ e).isCancelled_eq_false

/-- A planned check agrees with the same one without a deadline: the deadline does not pass, or the
check is cut off. -/
theorem agrees_run (hp : p.evaluation.IsEvaluation)
    (hmem : p.cancelled ∈ q.cancellations context) :
    q.Agrees context cluster deadline known (fun c => [c]) (p.run none)
      (p.run (some deadline)) where
  isCancelled_eq hc := List.forall_mem_singleton.2 (isCancelled_eq_of_run_none hp hc)
  agree past now _ := by
    rcases hp.punctual.within_cases deadline (hp.not_cutOff cluster.responder past now) with
      ⟨_, heq⟩ | ⟨trace, heq, htrace⟩
    · left
      simp only [Planned.run, Session.bind, heq]
    · right
      have hcut : (p.run (some deadline) cluster.responder past none now) =
          ⟨.ok p.cancelled, max deadline now, trace⟩ := by
        rw [Planned.run, Session.bind_pure_of_ok (a := none) (by rw [heq]), heq]
        rfl
      have hfree : (p.run none cluster.responder past none now).trace =
          (p.evaluation.run cluster.responder past none now).trace :=
        Session.trace_bind_of_pure fun _ => ⟨_, rfl⟩
      rw [hcut, hfree]
      exact ⟨_, [], rfl, Nat.le_max_left _ _, htrace,
        .of_leftOut (Check.isCancelled_cancelled _ _ _)
          (List.forall_mem_singleton.2 (.cancelled hmem)), fun _ _ => List.nil_prefix⟩
  timely := by
    intro past now havoids
    rw [Planned.run, Session.trace_bind_of_pure fun _ => ⟨_, rfl⟩] at havoids ⊢
    exact hp.timely.within havoids

end Planned

namespace RunRequest

variable (q context) in
theorem isEvaluation_of_mem_plansBefore : ∀ p ∈ q.plansBefore context, p.evaluation.IsEvaluation :=
  q.forall_plansBefore context
    ((Readiness.plain_checkVersion _ _).isEvaluation
      (Readiness.checkVersion_ensures_isConclusive _ _))
    (Readiness.isEvaluation_checkNodes _ _)
    ((Readiness.plain_checkStorageClasses _ _).isEvaluation
      (Readiness.checkStorageClasses_ensures_isConclusive _ _))

variable (q context) in
theorem isEvaluation_of_mem_plansBeside (s : Service) :
    ∀ p ∈ q.plansBeside context s, p.evaluation.IsEvaluation :=
  q.forall_plansBeside context
    (fun _ => s.isEvaluation_checkPods _)
    (Statistics.isEvaluation_check _)

variable (q context) in
theorem isEvaluation_kindPlan (k : Kind) : (q.kindPlan context k).evaluation.IsEvaluation :=
  (k.plain_check _).isEvaluation (k.check_ensures_isConclusive _)

/-! ### Cancellations of what is planned -/

theorem cancelled_mem_cancellations_of_mem_plansBefore {p : Planned}
    (hp : p ∈ q.plansBefore context) : p.cancelled ∈ q.cancellations context :=
  List.mem_append_left _ (List.mem_map_of_mem hp)

theorem mem_cancellations_of_mem_undiscovered {s : Service} (hs : s ∈ q.selectedServices)
    {c : Check} (hc : c ∈ q.undiscovered context s) : c ∈ q.cancellations context :=
  List.mem_append_right _ (List.mem_flatMap.2 ⟨s, hs, hc⟩)

theorem cancelled_kindPlan_mem_cancellations {s : Service} (hs : s ∈ q.selectedServices) {k : Kind}
    (hk : k ∈ q.selectedKinds s) : (q.kindPlan context k).cancelled ∈ q.cancellations context :=
  mem_cancellations_of_mem_undiscovered hs (List.mem_cons_of_mem _
    (List.mem_map_of_mem (List.mem_append_left _ (List.mem_map_of_mem hk))))

theorem cancelled_mem_cancellations_of_mem_plansBeside {s : Service}
    (hs : s ∈ q.selectedServices) {p : Planned} (hp : p ∈ q.plansBeside context s) :
    p.cancelled ∈ q.cancellations context :=
  mem_cancellations_of_mem_undiscovered hs (List.mem_cons_of_mem _
    (List.mem_map_of_mem (List.mem_append_right _ hp)))

/-! ### Planned checks one after another -/

theorem isIdle_plans {l : List Planned} (h : ∀ p ∈ l, p.cancelled ∈ q.cancellations context) :
    q.IsIdle context cluster deadline known (fun cs => cs)
      (Session.forEach (Planned.run (some deadline)) l) := by
  simpa only [List.flatMap_singleton'] using
    IsIdle.forEach (fun c => [c]) l fun p hp => Planned.isIdle_run (h p hp)

theorem agrees_plans (hknown : ∀ past trace, known past → known (past ++ trace))
    {l : List Planned} (hevaluation : ∀ p ∈ l, p.evaluation.IsEvaluation)
    (h : ∀ p ∈ l, p.cancelled ∈ q.cancellations context) :
    q.Agrees context cluster deadline known (fun cs => cs)
      (Session.forEach (Planned.run none) l)
      (Session.forEach (Planned.run (some deadline)) l) := by
  simpa only [List.flatMap_singleton'] using
    Agrees.forEach (fun c => [c]) hknown l
      (fun p hp => Planned.agrees_run (hevaluation p hp) (h p hp))
      fun p hp => Planned.isIdle_run (h p hp)

/-! ### Before deployment -/

/-- What is planned before deployment does not depend on the deadline. -/
theorem agrees_before : q.Agrees context cluster deadline (fun _ => True) (fun cs => cs)
    (q.before { context with deadline := none })
    (q.before { context with deadline := some deadline }) :=
  agrees_plans (fun _ _ _ => trivial) (q.isEvaluation_of_mem_plansBefore context)
    fun _ hp => cancelled_mem_cancellations_of_mem_plansBefore hp

/-! ### The kinds of a service -/

section Service

variable {s : Service} (hs : s ∈ q.selectedServices) (resources : List ApiResource)

include hs

/-- From the deadline on the kinds of a service are not looked at. Of a kind that is not served that
is said. -/
theorem isIdle_kindCheck {k : Kind} (hk : k ∈ q.selectedKinds s) :
    q.IsIdle context cluster deadline
      (fun past => cluster.Discovers deadline past s resources) (fun c => [c])
      (q.kindCheck { context with deadline := some deadline } (Discovery.served s resources)
        k) := by
  unfold kindCheck
  split
  · exact Planned.isIdle_run (cancelled_kindPlan_mem_cancellations hs hk)
  · next hserved =>
    rw [List.contains_iff_mem] at hserved
    exact isIdle_pure fun _ hdiscovers =>
      List.forall_mem_singleton.2 (.absent hs hk hdiscovers hserved)

theorem agrees_kindCheck {k : Kind} (hk : k ∈ q.selectedKinds s) :
    q.Agrees context cluster deadline known (fun c => [c])
      (q.kindCheck { context with deadline := none } (Discovery.served s resources) k)
      (q.kindCheck { context with deadline := some deadline } (Discovery.served s resources)
        k) := by
  unfold kindCheck
  split
  · exact Planned.agrees_run (q.isEvaluation_kindPlan context k)
      (cancelled_kindPlan_mem_cancellations hs hk)
  · exact agrees_pure (List.forall_mem_singleton.2 (Discovery.isCancelled_absentKind _ k))

/-- The checks of a service whose API has been discovered. -/
theorem agrees_discovered :
    q.Agrees context cluster deadline (fun past => cluster.Discovers deadline past s resources)
      (fun cs => cs)
      (q.discovered { context with deadline := none } s resources)
      (q.discovered { context with deadline := some deadline } s resources) := by
  have hknown (past trace : Trace) (h : cluster.Discovers deadline past s resources) :
      cluster.Discovers deadline (past ++ trace) s resources :=
    h.mono (List.subset_append_left _ _)
  have hkinds : q.Agrees context cluster deadline
      (fun past => cluster.Discovers deadline past s resources) (fun cs => cs)
      (Session.forEach (q.kindCheck { context with deadline := none }
        (Discovery.served s resources)) (q.selectedKinds s))
      (Session.forEach (q.kindCheck { context with deadline := some deadline }
        (Discovery.served s resources)) (q.selectedKinds s)) := by
    simpa only [List.flatMap_singleton'] using
      Agrees.forEach (fun c => [c]) hknown (q.selectedKinds s)
        (fun k hk => agrees_kindCheck hs resources hk)
        fun k hk => isIdle_kindCheck hs resources hk
  have hmem (p : Planned) (hp : p ∈ q.plansBeside context s) :
      p.cancelled ∈ q.cancellations context :=
    cancelled_mem_cancellations_of_mem_plansBeside hs hp
  exact .append [Discovery.check q.withDisplays s (Discovery.served s resources)]
    (List.forall_mem_singleton.2 (Discovery.isConclusive_check _ _ _).isCancelled_eq_false) hkinds
    (agrees_plans hknown (q.isEvaluation_of_mem_plansBeside context s) hmem)
    (isIdle_plans hmem) hknown fun _ _ => rfl

/-- What comes of the answer to the question what the API of a service serves is the same without a
deadline, as far as it goes. -/
theorem agrees_afterDiscovery :
    q.Agrees context cluster deadline
      (fun past => ∃ t, (t, .asked (.listApiResources s.api)) ∈ past ∧
        t + (cluster.reply (.listApiResources s.api)).delay ≤ deadline)
      (fun cs => cs)
      (q.afterDiscovery { context with deadline := none } s
        (some (cluster.reply (.listApiResources s.api)).answer))
      (q.afterDiscovery { context with deadline := some deadline } s
        (some (cluster.reply (.listApiResources s.api)).answer)) := by
  cases hanswer : (cluster.reply (.listApiResources s.api)).answer with
  | ok resources =>
    have h : q.Agrees context cluster deadline
        (fun past => cluster.Discovers deadline past s resources) (fun cs => cs)
        (q.discovered { context with deadline := none } s resources)
        (q.discovered { context with deadline := some deadline } s resources) :=
      agrees_discovered hs resources
    exact { h with agree := fun past now hpast => h.agree past now ⟨hanswer, hpast⟩ }
  | error e =>
    simp only [afterDiscovery]
    split
    · exact agrees_pure (List.forall_mem_singleton.2 (Discovery.isCancelled_missingApi _ s))
    · exact agrees_pure (List.forall_mem_singleton.2
        (Check.isConclusive_failed _ _ _ e).isCancelled_eq_false)

/-- The phase after deployment for one service. When the deadline passes while the API is asked for,
all that was planned for the service is cut off. -/
theorem agrees_afterFor : q.Agrees context cluster deadline known (fun cs => cs)
    (q.afterFor { context with deadline := none } s)
    (q.afterFor { context with deadline := some deadline } s) :=
  (agrees_afterDiscovery hs).within_ask rfl rfl (Check.isCancelled_cancelled _ _ _)
    fun _ _ hc => .cancelled (mem_cancellations_of_mem_undiscovered hs hc)

/-- From the deadline on the API of a service is not asked for. -/
theorem isIdle_afterFor : q.IsIdle context cluster deadline known (fun cs => cs)
    (q.afterFor { context with deadline := some deadline } s) :=
  .within_ask rfl fun _ _ hc => .cancelled (mem_cancellations_of_mem_undiscovered hs hc)

end Service

/-! ### The whole run -/

theorem agrees_after : q.Agrees context cluster deadline (fun _ => True) (fun cs => cs)
    (q.after { context with deadline := none })
    (q.after { context with deadline := some deadline }) :=
  (Agrees.forEach (fun cs => cs) (fun _ _ _ => trivial) q.selectedServices
    (fun _ hs => agrees_afterFor hs) fun _ hs => isIdle_afterFor hs).map
    fun _ => List.flatMap_id'.symm

theorem isIdle_after : q.IsIdle context cluster deadline known (fun cs => cs)
    (q.after { context with deadline := some deadline }) :=
  (IsIdle.forEach (fun cs => cs) q.selectedServices
    fun _ hs => isIdle_afterFor hs).map fun _ => List.flatMap_id'.symm

theorem agrees_report : q.Agrees context cluster deadline (fun _ => True) Report.checks
    (q.report { context with deadline := none })
    (q.report { context with deadline := some deadline }) := by
  have hbefore : q.Agrees context cluster deadline (fun _ => True) (fun cs => cs)
      (q.beforeIfAsked { context with deadline := none })
      (q.beforeIfAsked { context with deadline := some deadline }) := by
    unfold beforeIfAsked
    split
    · exact agrees_before
    · exact agrees_pure (List.forall_mem_nil _)
  have hafter : q.Agrees context cluster deadline (fun _ => True) (fun cs => cs)
      (q.afterIfAsked { context with deadline := none })
      (q.afterIfAsked { context with deadline := some deadline }) := by
    unfold afterIfAsked
    split
    · exact agrees_after
    · exact agrees_pure (List.forall_mem_nil _)
  have hidle : q.IsIdle context cluster deadline (fun _ => True) (fun cs => cs)
      (q.afterIfAsked { context with deadline := some deadline }) := by
    unfold afterIfAsked
    split
    · exact isIdle_after
    · exact isIdle_pure fun _ _ => List.forall_mem_nil _
  exact .append [] (List.forall_mem_nil _) hbefore hafter hidle (fun _ _ _ => trivial)
    fun _ _ => rfl

/-- **A run with a deadline is the run without one, up to the deadline.** Both runs end with a
report, unless they are aborted because a number is too great. Up to the first check that was cut
off the reports agree; if none was cut off they agree as a whole. From there on every check is
skipped: it says that something planned was cut off, or that a kind is not served by an API that had
been discovered by the deadline. If the run with the deadline is aborted, the other one is the same;
if only the latter is aborted, something was cut off. What the run with the deadline did is the
start of what the other one did, and it asks and sends nothing at the deadline or after it, unless a
reply arrives just then. -/
theorem report_until_deadline (q : RunRequest) (context : RunContext) (cluster : Cluster)
    (deadline : Nat) :
    let free := (q.report { context with deadline := none }).run cluster
    let bound := (q.report { context with deadline := some deadline }).run cluster
    ((∃ full, free.result = .ok full) ∨
      (free.result = .error .aborted ∧ q.Overflows context cluster.responder)) ∧
    ((∃ given, bound.result = .ok given) ∨ (bound = free ∧ free.result = .error .aborted)) ∧
    (∀ given, bound.result = .ok given →
      let k := given.checks.findIdx Check.isCancelled
      (∀ full, free.result = .ok full → given.checks.take k = full.checks.take k ∧
        (k = given.checks.length → given.checks = full.checks)) ∧
      (free.result = .error .aborted → k < given.checks.length) ∧
      ∀ c ∈ given.checks.drop k, c.status = .skipped ∧
        q.LeftOut context cluster deadline bound.trace c) ∧
    bound.trace <+: free.trace ∧
    (cluster.Avoids deadline bound.trace → ∀ e ∈ bound.trace, e.1 < deadline) := by
  intro free bound
  have h : q.Agrees context cluster deadline (fun _ => True) Report.checks
    (q.report { context with deadline := none })
    (q.report { context with deadline := some deadline }) := agrees_report
  have hfree : (∃ full, free.result = .ok full) ∨
      (free.result = .error .aborted ∧ q.Overflows context cluster.responder) :=
    (q.completes_report { context with deadline := none }).cases [] 0
  have htimely (havoids : cluster.Avoids deadline bound.trace) :
      ∀ e ∈ bound.trace, e.1 < deadline := h.timely havoids
  rcases h.agree [] 0 trivial with heq | ⟨given, kept, hgiven, -, htrace, hcut, hstarts⟩
  · -- the deadline does not pass
    have hsame : bound = free := heq
    rw [hsame]
    refine ⟨hfree, hfree.imp_right fun haborted => ⟨rfl, haborted.1⟩, fun given hgiven => ?_,
      List.prefix_rfl, hsame ▸ htimely⟩
    have hidx : given.checks.findIdx Check.isCancelled = given.checks.length :=
      List.findIdx_eq_length.2 (h.isCancelled_eq hgiven)
    refine ⟨fun full hfull => ?_, fun haborted => ?_, ?_⟩
    · obtain rfl : given = full := Except.ok.inj (hgiven.symm.trans hfull)
      exact ⟨rfl, fun _ => rfl⟩
    · cases hgiven.symm.trans haborted
    · rw [hidx, List.drop_length]
      exact List.forall_mem_nil _
  · obtain ⟨hidx, hlt, htake, hdrop⟩ := hcut.at_findIdx
    refine ⟨hfree, .inl ⟨given, hgiven⟩, fun given' hgiven' => ?_, htrace, htimely⟩
    obtain rfl : given = given' := Except.ok.inj (hgiven.symm.trans hgiven')
    rw [hidx]
    refine ⟨fun full hfull => ⟨?_, fun hlength => absurd hlength (Nat.ne_of_lt hlt)⟩,
      fun _ => hlt, fun c hc => ⟨(hdrop c hc).status_eq, hdrop c hc⟩⟩
    rw [htake]
    exact List.prefix_iff_eq_take.1 (hstarts full hfull)

/-- A request for the connectors, with more than one line about each pod. -/
private def connectorInDetail : RunRequest :=
  { (default : RunRequest) with
    services := [.connector], afterDeployment := true, withDisplays := true, level := .detail }

/-- Where the restarts of a pod cannot be added, a deadline that passes before the pods are listed
leaves a report, of which five checks were not cut off. The run without a deadline, which should
begin with these five, has no report. -/
theorem report_until_deadline_restless :
    (∃ given,
      ((connectorInDetail.report ⟨none, 5, some 4, false, 80⟩).run .restless).result = .ok given ∧
        given.checks.findIdx Check.isCancelled = 5) ∧
    Cluster.restless.Avoids 4
      ((connectorInDetail.report ⟨none, 5, some 4, false, 80⟩).run .restless).trace ∧
    ((connectorInDetail.report ⟨none, 5, none, false, 80⟩).run .restless).result =
      .error .aborted := by
  have htrace : ((connectorInDetail.report ⟨none, 5, some 4, false, 80⟩).run .restless).trace =
      [(0, .asked (.listApiResources Service.connector.api)), (2, .asked (.listPods none none))] :=
    rfl
  refine ⟨⟨_, rfl, by decide +kernel⟩, ?_, by decide +kernel⟩
  intro t call hmem
  rw [htrace, List.mem_cons, List.mem_singleton] at hmem
  rcases hmem with hmem | hmem <;> cases hmem <;> decide

/-- A cluster that refuses every question after two milliseconds. -/
private def refusing : Cluster := ⟨fun _ => ⟨2, .error (.api 503 "unavailable")⟩⟩

/-- A deadline that passes during the second question to a cluster that refuses every one. -/
theorem report_until_deadline_refusing :
    refusing.Avoids 3 ((report default ⟨none, 5, some 3, false, 80⟩).run refusing).trace ∧
      ∀ e ∈ ((report default ⟨none, 5, some 3, false, 80⟩).run refusing).trace, e.1 < 3 := by
  have htrace : ((report default ⟨none, 5, some 3, false, 80⟩).run refusing).trace =
      [(0, .asked .serverVersion), (2, .asked .listNodes)] := rfl
  have havoids : refusing.Avoids 3
      ((report default ⟨none, 5, some 3, false, 80⟩).run refusing).trace := by
    intro t call hmem
    rw [htrace, List.mem_cons, List.mem_singleton] at hmem
    have ht : t = 0 ∨ t = 2 := hmem.imp (congrArg Prod.fst) (congrArg Prod.fst)
    have hdelay : (refusing.reply call).delay = 2 := rfl
    omega
  obtain ⟨-, -, -, -, h⟩ :=
    report_until_deadline default ⟨none, 5, none, false, 80⟩ refusing 3
  exact ⟨havoids, h havoids⟩

end RunRequest

end EdgeHealth
