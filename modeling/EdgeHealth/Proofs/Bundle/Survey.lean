import EdgeHealth.Bundle.Build
import EdgeHealth.Proofs.Cluster.Performs

/-!
# What a survey comes to

Before anything is collected, the cluster is asked for its version, and then, in the order of the
catalog, for what the API of each candidate serves. Where the connection fails, the survey *breaks
off*, and nothing more is asked. Otherwise all candidates are *reached*, and the survey holds those
that have an API; those that were asked for by name stay without one, with a warning.

## Main definitions

* `Cluster.serves` : what the cluster says about the API of a service.
* `ClusterError.IsLoss` : the failures for want of a connection.
* `Survey.IsReached`, `Survey.BreaksOff` : how a survey ends.
* `Survey.ofReached` : the survey of services that are all reached.
* `BundleRequest.candidates`, `BundleRequest.survey` : what a request is about.
* `BundleRequest.IsAbout`, `BundleRequest.Selects` : the same, of each service by itself.

## Main results

* `Survey.isReached_or_breaksOff` : every survey ends in one of these ways.
* `BundleRequest.isAbout_candidates`, `BundleRequest.selects_iff` : which services a survey is
  about, and which it holds.
* `Survey.performs_take_of_breaksOff`, `Survey.performs_take_of_isReached` : what a survey asks, and
  what it comes to.
-/

namespace EdgeHealth

/-- What the cluster says that the API of a service serves. -/
def Cluster.serves (cluster : Cluster) (s : Service) : Except ClusterError (List ApiResource) :=
  (cluster.reply (.listApiResources s.api)).answer

/-- A failure for want of a connection: the cluster was not reached, or it was not reached in
time. -/
def ClusterError.IsLoss (e : ClusterError) : Prop :=
  (∃ text, e = .connectivity text) ∨ ∃ operation after, e = .timeout operation after

theorem ClusterError.isConnectivity_iff {e : ClusterError} : e.isConnectivity ↔ e.IsLoss := by
  cases e <;> simp [isConnectivity, IsLoss]

theorem Service.mem_all (s : Service) : s ∈ all := by
  cases s <;> decide

namespace Survey

/-- The question for what the API of a service serves. -/
def question (s : Service) : Call := .listApiResources s.api

variable {cluster : Cluster} {services : List Service} {s : Service} {e : ClusterError}
  {named : Bool}

/-! ### How a survey ends -/

/-- The question about a service does not fail for want of a connection. -/
def Reaches (cluster : Cluster) (s : Service) : Prop :=
  ∀ e, cluster.serves s = .error e → ¬ e.IsLoss

/-- The cluster tells its version, and no question about a service fails for want of a
connection. -/
structure IsReached (cluster : Cluster) (services : List Service) : Prop where
  version : ∃ v, (cluster.reply .serverVersion).answer = .ok v
  reaches : ∀ s ∈ services, Reaches cluster s

/-- The survey ends with a failure, after some questions: the cluster does not tell its version, or
the question about a service fails for want of a connection. -/
inductive BreaksOff (cluster : Cluster) (services : List Service) :
    (cause : ClusterError) → (asked : List Call) → Prop
  /-- The cluster does not tell its version. -/
  | version {e : ClusterError} (h : (cluster.reply .serverVersion).answer = .error e) :
    BreaksOff cluster services e [.serverVersion]
  /-- All services before this one are reached. -/
  | service {v : Version} {before after : List Service} {s : Service} {e : ClusterError}
      (hversion : (cluster.reply .serverVersion).answer = .ok v)
      (hservices : services = before ++ s :: after) (hbefore : ∀ s' ∈ before, Reaches cluster s')
      (hserves : cluster.serves s = .error e) (he : e.IsLoss) :
    BreaksOff cluster services e (.serverVersion :: (before ++ [s]).map question)

/-- The services up to the first one that is not reached. -/
theorem forall_reaches_or_exists_first (cluster : Cluster) : (services : List Service) →
    (∀ s ∈ services, Reaches cluster s) ∨ ∃ before s after e, services = before ++ s :: after ∧
      (∀ s' ∈ before, Reaches cluster s') ∧ cluster.serves s = .error e ∧ e.IsLoss
  | [] => .inl (List.forall_mem_nil _)
  | s :: rest => by
    by_cases hs : Reaches cluster s
    · rcases forall_reaches_or_exists_first cluster rest with
        hrest | ⟨before, s', after, e, rfl, hbefore, hfails⟩
      · exact .inl (List.forall_mem_cons.2 ⟨hs, hrest⟩)
      · exact .inr ⟨s :: before, s', after, e, rfl, List.forall_mem_cons.2 ⟨hs, hbefore⟩, hfails⟩
    · simp only [Reaches, not_forall, not_not] at hs
      obtain ⟨e, hserves, he⟩ := hs
      exact .inr ⟨[], s, rest, e, rfl, List.forall_mem_nil _, hserves, he⟩

/-- A survey reaches all services, or it breaks off. -/
theorem isReached_or_breaksOff (cluster : Cluster) (services : List Service) :
    IsReached cluster services ∨ ∃ e asked, BreaksOff cluster services e asked := by
  cases hversion : (cluster.reply .serverVersion).answer with
  | error e => exact .inr ⟨e, _, .version hversion⟩
  | ok v =>
    rcases forall_reaches_or_exists_first cluster services with
      hall | ⟨before, s, after, e, hservices, hbefore, hserves, he⟩
    · exact .inl ⟨⟨v, hversion⟩, hall⟩
    · exact .inr ⟨e, _, .service hversion hservices hbefore hserves he⟩

theorem BreaksOff.not_isReached {asked : List Call} (h : BreaksOff cluster services e asked) :
    ¬ IsReached cluster services := by
  intro hreached
  cases h with
  | version hversion =>
    obtain ⟨v, hv⟩ := hreached.version
    cases hv.symm.trans hversion
  | service _ hservices _ hserves he =>
    exact hreached.reaches _ (hservices ▸ List.mem_append_cons_self) _ hserves he

/-! ### What a survey holds -/

/-- Whether a service that is reached is collected from: it has an API, or it was asked for by
name. -/
def isChosen (named : Bool) (cluster : Cluster) (s : Service) : Bool :=
  match cluster.serves s with
  | .ok _ => true
  | .error _ => named

/-- The kinds of a service that are served. -/
def kindsServed (cluster : Cluster) (s : Service) : List Kind :=
  match cluster.serves s with
  | .ok resources => Discovery.served s resources
  | .error _ => []

/-- The wording of the warning that a service has no API. -/
def warning (s : Service) (e : ClusterError) : String :=
  s!"{s.api.text} API not detected: {e.message}"

/-- The warning about a service that was asked for by name and has no API. -/
def warning? (named : Bool) (cluster : Cluster) (s : Service) : Option String :=
  match cluster.serves s with
  | .ok _ => none
  | .error e => if named then some (warning s e) else none

/-- The survey of services that are all reached. -/
def ofReached (named : Bool) (cluster : Cluster) (services : List Service) : Survey where
  services := services.filter (isChosen named cluster)
  kinds := services.flatMap (kindsServed cluster)
  warnings := services.filterMap (warning? named cluster)

theorem ofReached_append (services services' : List Service) :
    (ofReached named cluster services).append (ofReached named cluster services') =
      ofReached named cluster (services ++ services') := by
  simp [append, ofReached]

theorem ofAnswer_of_reaches (h : Reaches cluster s) :
    ofAnswer named s (cluster.serves s) = .ok (ofReached named cluster [s]) := by
  cases hserves : cluster.serves s with
  | ok resources => simp [ofAnswer, ofReached, isChosen, kindsServed, warning?, hserves]
  | error e =>
    have he : ¬ e.isConnectivity := mt ClusterError.isConnectivity_iff.1 (h e hserves)
    cases named
    · simp [ofAnswer, he, ofReached, isChosen, kindsServed, warning?, hserves]
      rfl
    · simp [ofAnswer, he, ofReached, isChosen, kindsServed, warning?, warning, hserves]

end Survey

/-- The services that a request may be about, in the order of the catalog. -/
def BundleRequest.candidates (q : BundleRequest) : List Service := Survey.candidates q.services

/-- The survey of a request all of whose candidates are reached. -/
def BundleRequest.survey (q : BundleRequest) (cluster : Cluster) : Survey :=
  .ofReached q.services.isSome cluster q.candidates

/-! ### The services of a request -/

namespace BundleRequest

/-- The services that a request is about stand in the order of the catalog. They are those that the
request names, or all of them if it names none. -/
structure IsAbout (q : BundleRequest) (services : List Service) : Prop where
  sublist_all : services.Sublist Service.all
  mem_iff (s : Service) : s ∈ services ↔ ∀ named, q.services = some named → s ∈ named

/-- A service is collected from if the request names it, or if it names none and the cluster has the
API of the service. -/
def Selects (q : BundleRequest) (cluster : Cluster) (s : Service) : Prop :=
  match q.services with
  | some named => s ∈ named
  | none => ∃ resources, (cluster.reply (.listApiResources s.api)).answer = .ok resources

variable {q : BundleRequest} {cluster : Cluster} {s : Service}

theorem isAbout_candidates (q : BundleRequest) : q.IsAbout q.candidates := by
  unfold candidates Survey.candidates
  cases hservices : q.services with
  | none => exact ⟨List.Sublist.refl _, fun s => by simp [hservices, Service.mem_all]⟩
  | some named => exact ⟨List.filter_sublist, fun s => by simp [hservices, Service.mem_all]⟩

/-- The services that a survey holds stand in the order of the catalog. -/
theorem services_survey_sublist : (q.survey cluster).services.Sublist Service.all :=
  List.filter_sublist.trans q.isAbout_candidates.sublist_all

/-- The services that a survey holds are those that are collected from. -/
theorem selects_iff : q.Selects cluster s ↔ s ∈ (q.survey cluster).services := by
  rw [survey, Survey.ofReached, List.mem_filter, q.isAbout_candidates.mem_iff, Selects,
    Survey.isChosen, Cluster.serves]
  cases q.services <;> cases (cluster.reply (.listApiResources s.api)).answer <;> simp

theorem services_survey_eq_nil_iff :
    (q.survey cluster).services = [] ↔ ∀ s, ¬ q.Selects cluster s := by
  simp only [selects_iff, List.eq_nil_iff_forall_not_mem]

end BundleRequest

namespace Survey

variable {cluster : Cluster} {s : Service} {e : ClusterError} {named : Bool} {q : BundleRequest}

/-! ### What a survey asks -/

/-- The questions of a survey that reaches all candidates. -/
def questions (services : List Service) : List Call := .serverVersion :: services.map question

section Asking

open Session

theorem performs_version {answer : Except ClusterError Version}
    (h : (cluster.reply .serverVersion).answer = answer) :
    (ExceptT.lift (ask .serverVersion) : ExceptT BundleError Session _).run.Performs cluster
      [.asked .serverVersion] (.ok (.ok answer)) := by
  rw [← h]
  exact performs_run_lift (performs_ask .serverVersion)

theorem performs_ofAnswer {answer : Except ClusterError (List ApiResource)}
    {r : Except BundleError Survey} (h : ofAnswer named s answer = r) :
    (ExceptT.mk (Session.pure (ofAnswer named s answer))).run.Performs cluster [] (.ok r) := by
  rw [h]
  exact performs_pure r

/-- After a service that is reached the others are asked for. -/
theorem performs_ofServices_cons {rest : List Service} {events : List Event}
    {r : Except BundleError Survey} (hs : Reaches cluster s)
    (hrest : (ofServices named rest).run.Performs cluster events (.ok r)) :
    (ofServices named (s :: rest)).run.Performs cluster (.asked (question s) :: events)
      (.ok (r.map (ofReached named cluster [s]).append)) := by
  refine performs_run_bind (performs_run_lift (performs_ask (question s))) ?_
  -- the answer is read without a further question
  refine performs_run_bind (performs_ofAnswer (ofAnswer_of_reaches hs)) ?_
  cases r with
  | ok others => exact performs_run_bind_pure hrest _
  | error e => exact performs_run_bind_error hrest

theorem performs_ofServices : (services : List Service) → (∀ s ∈ services, Reaches cluster s) →
    (ofServices named services).run.Performs cluster ((services.map question).map .asked)
      (.ok (.ok (ofReached named cluster services)))
  | [], _ => performs_pure _
  | s :: rest, h => by
    obtain ⟨hs, hrest⟩ := List.forall_mem_cons.1 h
    have happend : (ofReached named cluster [s]).append (ofReached named cluster rest) =
        ofReached named cluster (s :: rest) := ofReached_append [s] rest
    rw [← happend]
    exact performs_ofServices_cons hs (performs_ofServices rest hrest)

/-- After a service that is not reached no further one is asked for. The recursion is on the
services before it. -/
theorem performs_ofServices_error {after : List Service} (hserves : cluster.serves s = .error e)
    (he : e.IsLoss) : (before : List Service) → (∀ s' ∈ before, Reaches cluster s') →
    (ofServices named (before ++ s :: after)).run.Performs cluster
      (((before ++ [s]).map question).map .asked) (.ok (.error (.unreachable e)))
  | [], _ => by
    refine performs_run_bind (performs_run_lift (performs_ask (question s))) ?_
    have hanswer : ofAnswer named s (cluster.serves s) = .error (.unreachable e) := by
      rw [hserves, ofAnswer, if_pos (ClusterError.isConnectivity_iff.2 he)]
    exact performs_run_bind_error (performs_ofAnswer hanswer)
  | s' :: before, h => by
    obtain ⟨hs', hbefore⟩ := List.forall_mem_cons.1 h
    exact performs_ofServices_cons hs' (performs_ofServices_error hserves he before hbefore)

/-- A survey that breaks off asks nothing after the failure. -/
theorem performs_take_of_breaksOff {asked : List Call}
    (h : BreaksOff cluster q.candidates e asked) :
    (take q.services).run.Performs cluster (asked.map .asked)
      (.ok (.error (.unreachable e))) := by
  cases h with
  | version hversion =>
    refine performs_run_bind (performs_version hversion) ?_
    exact performs_pure _
  | service hversion hservices hbefore hserves he =>
    refine performs_run_bind (performs_version hversion) ?_
    have hcandidates : candidates q.services = _ := hservices
    rw [hcandidates]
    exact performs_run_bind_error (performs_ofServices_error hserves he _ hbefore)

/-- A survey that reaches all candidates asks for each of them. It fails if it holds no service. -/
theorem performs_take_of_isReached (h : IsReached cluster q.candidates) :
    (take q.services).run.Performs cluster ((questions q.candidates).map .asked)
      (.ok (if (q.survey cluster).services = [] then .error .noServices
        else .ok (q.survey cluster))) := by
  obtain ⟨v, hversion⟩ := h.version
  refine performs_run_bind (performs_version hversion) ?_
  rw [← List.append_nil (List.map _ _)]
  refine performs_run_bind (performs_ofServices q.candidates h.reaches) ?_
  simp only [List.isEmpty_iff]
  unfold BundleRequest.survey
  split
  · exact performs_pure _
  · exact performs_pure _

/-- A survey breaks off in one way. -/
theorem BreaksOff.unique {e' : ClusterError} {asked asked' : List Call}
    (h : BreaksOff cluster q.candidates e asked) (h' : BreaksOff cluster q.candidates e' asked') :
    e = e' ∧ asked = asked' := by
  obtain ⟨hresult, hevents⟩ := (performs_take_of_breaksOff h).run
  obtain ⟨hresult', hevents'⟩ := (performs_take_of_breaksOff h').run
  have hinjective : Function.Injective Event.asked := fun _ _ => Event.asked.inj
  cases hresult.symm.trans hresult'
  exact ⟨rfl, hinjective.list_map (hevents.symm.trans hevents')⟩

end Asking

end Survey

end EdgeHealth
