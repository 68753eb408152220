import EdgeHealth.Proofs.Evaluate.Soundness
import EdgeHealth.Proofs.Run.InStep
import EdgeHealth.Proofs.Run.Kinds

/-!
# The outline of the checks of a service

A check has a heading: its name and what it does. The headings of the checks of a service are known
before anything is asked. Whether a kind is served or not, and whether an evaluation succeeds, fails
or is cut off, its check has the same heading, and all checks stand in the same order. Only when the
API cannot be asked for is there a single check, which says so. There are no checks at all where the
restarts of a pod cannot be added, for that aborts the run.

## Main definitions

* `Check.heading` : the name of a check and what it does.
* `RunRequest.outline` : the headings of the checks of a service.

## Main results

* `Planned.run_ensures_heading` : a planned check has the planned heading.
* `RunRequest.discovered_ensures_outline` : the headings of the checks of a service.
* `RunRequest.afterFor_follows_outline` : the phase after deployment for one service.
-/

namespace EdgeHealth

/-! ### Headings -/

/-- The name of a check and what it does. -/
def Check.heading (c : Check) : String × String := (c.name, c.description)

theorem Check.heading_ofNotes (name description : String) (notes : List Note) :
    (ofNotes name description notes).heading = (name, description) := by
  have hfoldl : (notes : List Note) → ∀ c : Check, (notes.foldl note c).heading = c.heading := by
    intro notes
    induction notes with
    | nil => exact fun c => rfl
    | cons n notes ih => exact fun c => ih (c.note n)
  exact hfoldl notes _

/-- Notes do not change the heading of a check. -/
@[simp] theorem Check.heading_ofNotesFor (withDisplays : Bool) (name description : String)
    (notes : List Note) : (ofNotesFor withDisplays name description notes).heading =
      (name, description) :=
  heading_ofNotes name description _

theorem Attempt.bind_ensures_heading {α : Type} {a : Attempt α} {f : α → Attempt Check}
    {heading : String × String} (h : ∀ x, (f x).Ensures fun c => c.heading = heading) :
    (a >>= f).Ensures fun c => c.heading = heading :=
  .bind (Attempt.ensures_of_forall (fun _ => trivial) a) fun x _ => h x

theorem Kind.check_ensures_heading (scope : Scope) (k : Kind) :
    (k.check scope).Ensures fun c => c.heading = (k.checkName, k.description) :=
  Attempt.bind_ensures_heading fun _ => Attempt.bind_ensures_heading fun _ =>
    Attempt.ensures_pure (Check.heading_ofNotesFor _ _ _ _)

theorem Service.checkPods_ensures_heading (scope : Scope) (s : Service) :
    (s.checkPods scope).Ensures fun c => c.heading = (s.podCheck, s.podCheckDescription) :=
  Attempt.bind_ensures_heading fun _ => Attempt.bind_ensures_heading fun _ =>
    Attempt.ensures_pure (Check.heading_ofNotesFor _ _ _ _)

theorem Statistics.check_ensures_heading (scope : Scope) :
    (check scope).Ensures fun c => c.heading = (checkName, description) :=
  Attempt.bind_ensures_heading fun _ => Attempt.bind_ensures_heading fun _ =>
    Attempt.ensures_pure (Check.heading_ofNotesFor _ _ _ _)

namespace Readiness

variable (scope : Scope) (policy : ReadinessPolicy)

theorem checkVersion_ensures_heading :
    (checkVersion scope policy).Ensures fun c => c.heading = (versionCheck, versionDescription) :=
  Attempt.bind_ensures_heading fun _ => Attempt.ensures_pure (Check.heading_ofNotesFor _ _ _ _)

theorem checkNodes_ensures_heading :
    (checkNodes scope policy).Ensures fun c => c.heading = (nodesCheck, nodesDescription) :=
  Attempt.bind_ensures_heading fun _ => Attempt.bind_ensures_heading fun _ =>
    Attempt.ensures_pure (Check.heading_ofNotesFor _ _ _ _)

theorem checkStorageClasses_ensures_heading :
    (checkStorageClasses scope policy).Ensures fun c =>
      c.heading = (storageCheck, storageDescription) :=
  Attempt.bind_ensures_heading fun _ => Attempt.ensures_pure (Check.heading_ofNotesFor _ _ _ _)

end Readiness

namespace Planned

/-- The heading that a planned check is going to have. -/
def heading (p : Planned) : String × String := (p.name, p.description)

/-- A planned check has the planned heading, also if its evaluation fails or is cut off. -/
theorem run_ensures_heading {p : Planned}
    (hp : p.evaluation.Ensures fun c => c.heading = p.heading) (deadline : Option Nat) :
    (p.run deadline).Ensures fun c => c.heading = p.heading := by
  refine .bind (Session.Ensures.within hp deadline) fun r hr => Session.ensures_pure ?_
  match r with
  | none => exact Check.heading_ofNotes _ _ _
  | some (.ok c) => exact hr _ rfl c rfl
  | some (.error e) => exact Check.heading_ofNotes _ _ _

end Planned

/-- What is known of the result of each of several sessions, one after another. -/
theorem Session.Ensures.map_forEach {α β γ : Type} {f : α → Session β} {g : β → γ} {h : α → γ} :
    (l : List α) → (∀ a ∈ l, (f a).Ensures fun b => g b = h a) →
      (Session.forEach f l).Ensures fun bs => bs.map g = l.map h
  | [], _ => ensures_pure rfl
  | a :: l, hl =>
    (hl a List.mem_cons_self).bind fun b hb =>
      (Ensures.map_forEach l fun a ha => hl a (List.mem_cons_of_mem _ ha)).bind fun bs hbs =>
        ensures_pure (by rw [List.map_cons, List.map_cons, hb, hbs])

/-! ### The checks of a service -/

namespace RunRequest

variable (q : RunRequest) (context : RunContext) (s : Service)

/-- The headings of the checks beside those of kinds: the pods unless single kinds are asked for,
and for the diagnostics the statistics if they are looked at. -/
def outlineBeside : List (String × String) :=
  (if q.kinds = none then [(s.podCheck, s.podCheckDescription)] else []) ++
    if s = .diagnostics ∧ context.brokerStats then
      [(Statistics.checkName, Statistics.description)]
    else []

/-- The headings of the checks of a service of which some kinds are looked at: what its API serves,
each of these kinds, and what is looked at beside them. -/
def outline (kinds : List Kind) : List (String × String) :=
  (s.enumerationCheck, Discovery.description s) ::
    kinds.map (fun k => (k.checkName, k.description)) ++ q.outlineBeside context s

theorem map_heading_plansBeside :
    (q.plansBeside context s).map Planned.heading = q.outlineBeside context s := by
  simp only [plansBeside, outlineBeside, Option.isNone_iff_eq_none, List.map_append,
    apply_ite (List.map Planned.heading)]
  rfl

theorem plansBeside_ensures_heading : ∀ p ∈ q.plansBeside context s,
    p.evaluation.Ensures fun c => c.heading = p.heading :=
  q.forall_mem_plansBeside context
    (P := fun p => p.evaluation.Ensures fun c => c.heading = p.heading)
    (fun _ => s.checkPods_ensures_heading _) (Statistics.check_ensures_heading _)

/-- The check of a kind has one heading, whether the kind is served or not. -/
theorem kindCheck_ensures_heading (served : List Kind) (k : Kind) :
    (q.kindCheck context served k).Ensures fun c => c.heading = (k.checkName, k.description) := by
  unfold kindCheck
  split
  · exact Planned.run_ensures_heading (p := q.kindPlan context k) (k.check_ensures_heading _) _
  · exact Session.ensures_pure (Check.heading_ofNotesFor _ _ _ _)

theorem beside_ensures_outlineBeside :
    (Session.forEach (Planned.run context.deadline) (q.plansBeside context s)).Ensures fun cs =>
      cs.map Check.heading = q.outlineBeside context s :=
  (Session.Ensures.map_forEach _ fun p hp =>
    Planned.run_ensures_heading (q.plansBeside_ensures_heading context s p hp) _).mono
    fun _ h => h.trans (q.map_heading_plansBeside context s)

theorem discovered_ensures_outline (resources : List ApiResource) :
    (q.discovered context s resources).Ensures fun cs =>
      cs.map Check.heading = q.outline context s (q.selectedKinds s) := by
  refine .bind (Session.Ensures.map_forEach _ fun k _ =>
    q.kindCheck_ensures_heading context _ k) fun ofKinds hkinds => ?_
  refine .bind (q.beside_ensures_outlineBeside context s)
    fun beside hbeside => Session.ensures_pure ?_
  rw [List.map_append, List.map_cons, hkinds, hbeside, Discovery.check, Check.heading_ofNotesFor]
  rfl

/-- The checks that say that they were cut off have the same headings. -/
theorem map_heading_undiscovered :
    (q.undiscovered context s).map Check.heading =
      q.outline context s (q.selectedKinds s) := by
  have hcancelled : Check.heading ∘ Planned.cancelled = Planned.heading :=
    funext fun p => Check.heading_ofNotes _ _ _
  rw [undiscovered, List.map_cons, List.map_map, hcancelled, List.map_append,
    map_heading_plansBeside, List.map_map, Check.cancelled, Check.heading_ofNotes]
  rfl

/-! ### When the API is asked for -/

/-- The question what the API of a service serves, under the deadline of the run. -/
def discovery : Session (Option (Except ClusterError (List ApiResource))) :=
  Session.within context.deadline (Session.ask (.listApiResources s.api))

theorem trace_ask (call : Call) (responder : Responder) (past : Trace) (limit : Option Nat)
    (now : Nat) : (Session.ask call responder past limit now).trace = [(now, .asked call)] := by
  simp only [Session.ask]
  split
  · rfl
  · split <;> rfl

/-- A question under a deadline that was answered is all that was done. -/
theorem events_within_ask {deadline : Option Nat} {call : Call} {responder : Responder}
    {past : Trace} {now : Nat} {answer : Except ClusterError call.Answer}
    (h : (Session.within deadline (Session.ask call) responder past none now).result =
      .ok (some answer)) :
    (Session.within deadline (Session.ask call) responder past none now).events =
      [.asked call] := by
  cases deadline with
  | none => rfl
  | some moment =>
    by_cases hmoment : moment ≤ now
    · simp [Session.within, hmoment] at h
    · simp only [Session.within, hmoment, if_false, Outcome.events, trace_ask]
      rfl

/-- The only check of a service whose API could not be asked for: it has one target and one
observation, and was skipped if there is no such API. -/
structure IsAlone (c : Check) (e : ClusterError) : Prop where
  heading_eq : c.heading = (s.enumerationCheck, Discovery.description s)
  keys_eq : c.targets.keys = [s.api.text]
  length_evaluations : c.evaluations.length = 1
  status_eq : c.status = match e with
    | .notFound .. => .skipped
    | _ => .error

theorem isAlone_missingApi {e : ClusterError} (h : e.isNotFound) :
    IsAlone s (Discovery.missingApi q.withDisplays s) e where
  heading_eq := Check.heading_ofNotesFor _ _ _ _
  keys_eq := by cases q.withDisplays <;> cases s <;> rfl
  length_evaluations := by cases q.withDisplays <;> cases s <;> rfl
  status_eq := by
    cases e with
    | notFound => cases q.withDisplays <;> rfl
    | _ => cases h

theorem isAlone_failed {e : ClusterError} (h : ¬ e.isNotFound) :
    IsAlone s (.failed s.enumerationCheck (Discovery.description s) s.api.text e) e where
  heading_eq := Check.heading_ofNotes _ _ _
  keys_eq := rfl
  length_evaluations := rfl
  status_eq := by
    cases e with
    | notFound => exact absurd rfl h
    | _ => rfl

/-- What comes of the answer to the question what the API of a service serves. -/
theorem afterDiscovery_ensures (answer : Option (Except ClusterError (List ApiResource))) :
    (q.afterDiscovery context s answer).Ensures fun checks =>
      match answer with
      | some (.error e) => ∃ c, checks = [c] ∧ IsAlone s c e
      | _ => checks.map Check.heading = q.outline context s (q.selectedKinds s) := by
  match answer with
  | none => exact Session.ensures_pure (q.map_heading_undiscovered context s)
  | some (.ok resources) => exact q.discovered_ensures_outline context s resources
  | some (.error e) =>
    simp only [afterDiscovery]
    split
    · next h => exact Session.ensures_pure ⟨_, rfl, q.isAlone_missingApi s h⟩
    · next h => exact Session.ensures_pure ⟨_, rfl, isAlone_failed s h⟩

/-- After a failure nothing more is asked. -/
theorem trace_afterDiscovery_error (e : ClusterError) (responder : Responder) (past : Trace)
    (limit : Option Nat) (now : Nat) :
    (q.afterDiscovery context s (some (.error e)) responder past limit now).trace = [] := by
  simp only [afterDiscovery]
  split <;> rfl

/-- The checks of a service with two clusters whose APIs serve the same. -/
theorem afterFor_congr {cluster : Cluster} {resources resources' : List ApiResource} {wait : Nat}
    (h : ∀ r, r ∈ resources ↔ r ∈ resources') (past : Trace) (now : Nat) :
    q.afterFor context s
        (cluster.answering (.listApiResources s.api) ⟨wait, .ok resources⟩).responder past none
          now =
      q.afterFor context s
        (cluster.answering (.listApiResources s.api) ⟨wait, .ok resources'⟩).responder past none
          now := by
  let w : Comparison :=
    ⟨cluster.answering (.listApiResources s.api) ⟨wait, .ok resources⟩,
      cluster.answering (.listApiResources s.api) ⟨wait, .ok resources'⟩, 0, fun _ => True⟩
  have hshares {call : Call} (hne : call ≠ .listApiResources s.api) : w.Shares call :=
    ⟨trivial, by rw [Cluster.reply_answering_of_ne hne, Cluster.reply_answering_of_ne hne]⟩
  have hwithin : w.SharesWithin (fun _ => True) context.ns :=
    ⟨fun _ _ _ _ => hshares nofun, fun _ _ _ _ => hshares nofun, hshares nofun,
      fun _ _ _ _ => trivial⟩
  have hdiscovers : w.Discovers s :=
    ⟨trivial, by simp [w], by simp only [w, Cluster.reply_answering_self]; exact .ok h⟩
  have hlist (k : Kind) : w.Shares (k.listCall context.ns) := by
    cases context.ns <;> exact hshares nofun
  have hstep := inStep_afterFor (q := q) q.namePattern
    (Comparison.rel_lags_self rfl context.deadline) hwithin hdiscovers
    fun k _ => Kind.listsAlike_of_shares (hlist k) fun _ _ _ _ => trivial
  exact (hstep past past .none (Comparison.lags_self rfl now)).eq rfl fun _ _ h => h.1

/-- **The checks of a service follow its outline**, whoever replies, at any moment and under any
deadline. Where the API of the service can be asked for, or that is cut off, the headings of the
checks are those of the outline, in order; what is served and what comes of each evaluation does not
matter. Where it cannot, there is one check, with one target and one observation: it was skipped if
there is no such API, and is an error otherwise, and nothing more is asked. Only where more than one
line about the pods is wanted and the restarts of one of them cannot be added is the run aborted.
With a cluster that answers, it does not matter in which order or how often the API tells what it
serves. -/
theorem afterFor_follows_outline (q : RunRequest) (context : RunContext) (s : Service) :
    (∃ kinds, q.LooksAt s kinds ∧ ∀ responder past now,
      (∃ answer checks,
        (discovery context s responder past none now).result = .ok answer ∧
        (q.afterFor context s responder past none now).result = .ok checks ∧
        match answer with
        | some (.error e) =>
          (∃ c, checks = [c] ∧ IsAlone s c e) ∧
            (q.afterFor context s responder past none now).events =
              [.asked (.listApiResources s.api)]
        | _ => checks.map Check.heading = q.outline context s kinds) ∨
      ((q.afterFor context s responder past none now).result = .error .aborted ∧
        q.PodsOverflow context responder s)) ∧
    ∀ cluster resources resources' wait past now, (∀ r, r ∈ resources ↔ r ∈ resources') →
      q.afterFor context s
          (Cluster.answering cluster (.listApiResources s.api) ⟨wait, .ok resources⟩).responder past
          none now =
        q.afterFor context s
          (Cluster.answering cluster (.listApiResources s.api) ⟨wait, .ok resources'⟩).responder
          past none now := by
  refine ⟨⟨q.selectedKinds s, q.looksAt_selectedKinds s, fun responder past now => ?_⟩,
    fun _ _ _ _ past now h => q.afterFor_congr context s h past now⟩
  rcases (q.completes_afterFor context s).cases past now with ⟨checks, hchecks⟩ | haborted
  · obtain ⟨answer, hanswer, hafter⟩ := Session.exists_of_bind hchecks
    refine .inl ⟨answer, checks, hanswer, hchecks, ?_⟩
    have hensured := q.afterDiscovery_ensures context s answer hafter
    match answer with
    | none => exact hensured
    | some (.ok resources) => exact hensured
    | some (.error e) =>
      refine ⟨hensured, ?_⟩
      have hrest : q.afterFor context s responder past none now = _ := Session.bind_of_ok hanswer
      rw [Outcome.events, hrest, trace_afterDiscovery_error, List.append_nil]
      exact events_within_ask hanswer
  · exact .inr haborted

/-- A cluster that refuses every question after some time. -/
private def unwilling : Cluster := ⟨fun _ => ⟨4, .error (.api 403 "forbidden")⟩⟩

/-- A request for the connectors, with more than one line about each pod. -/
private def detailed : RunRequest :=
  { (default : RunRequest) with withDisplays := true, level := .detail }

/-- The API is asked for, and yet there are no checks where the restarts of a pod cannot be added.
-/
theorem afterFor_follows_outline_restless :
    ((discovery ⟨none, 5, none, false, 80⟩ .connector).run .restless).result =
      .ok (some (.ok [])) ∧
    ((detailed.afterFor ⟨none, 5, none, false, 80⟩ .connector).run .restless).result =
      .error .aborted := by
  decide +kernel

/-- Two resources that an API tells once, and in the other order and twice. -/
theorem afterFor_follows_outline_repeated :
    (∀ r : ApiResource, r ∈ [⟨"brokers", "Broker"⟩, ⟨"brokers/status", "Broker"⟩] ↔
      r ∈ [⟨"brokers/status", "Broker"⟩, ⟨"brokers", "Broker"⟩, ⟨"brokers/status", "Broker"⟩]) ∧
    (afterFor default ⟨none, 5, some 9, false, 80⟩ .broker).run
        (unwilling.answering (.listApiResources Service.broker.api)
          ⟨4, .ok [⟨"brokers", "Broker"⟩, ⟨"brokers/status", "Broker"⟩]⟩) =
      (afterFor default ⟨none, 5, some 9, false, 80⟩ .broker).run
        (unwilling.answering (.listApiResources Service.broker.api)
          ⟨4, .ok [⟨"brokers/status", "Broker"⟩, ⟨"brokers", "Broker"⟩,
            ⟨"brokers/status", "Broker"⟩]⟩) := by
  have hmem (r : ApiResource) : r ∈ [⟨"brokers", "Broker"⟩, ⟨"brokers/status", "Broker"⟩] ↔
      r ∈ [⟨"brokers/status", "Broker"⟩, ⟨"brokers", "Broker"⟩,
        ⟨"brokers/status", "Broker"⟩] := by
    simp only [List.mem_cons, List.not_mem_nil, or_false]
    tauto
  obtain ⟨-, hrepeated⟩ := afterFor_follows_outline default ⟨none, 5, some 9, false, 80⟩ .broker
  exact ⟨hmem, hrepeated unwilling _ _ 4 [] 0 hmem⟩

end RunRequest

end EdgeHealth
