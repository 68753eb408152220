import Mathlib.Data.List.Nodup
import EdgeHealth.Proofs.Cluster.Performs
import EdgeHealth.Proofs.Evaluate.Names
import EdgeHealth.Proofs.Run.Outline

/-!
# The failure of a list concerns one check

The resources of a kind are listed by the check of the kind and by nothing else. So what is replied
to that question decides about one check only, and so does how long the reply takes, unless there is
a deadline: all other checks of the report are the same and stand in the same order. If the question
fails, nothing is left of that check but the failure; if the cluster does not know the kind, the
check says that there is none of it.

The other checks fall into parts: those before deployment, those of other services, and within the
service of the kind those of other kinds and those beside the kinds. Each part is *unaffected*,
since it does not put the question. They are put together around the check of the kind. If a part is
aborted, so is the run, whatever is replied to the question.

## Main definitions

* `RunRequest.Unaffected` : a part of the run that yields the same whatever is replied.
* `RunRequest.SetsApart` : a part in which the check of the kind has its place.
* `RunRequest.reportAround` : the report around the check of the kind.

## Main results

* `RunRequest.setsApart_afterFor`, `RunRequest.setsApart_after`,
  `RunRequest.exists_report_around` : where the check of a kind stands.
* `RunRequest.report_isolates_failure` : the whole run.
-/

namespace EdgeHealth

variable {cluster c c' : Cluster} {k : Kind}

/-! ### Who lists a kind -/

theorem Kind.listsObjects_listCall (k : Kind) : (ns : Option String) →
    (k.listCall ns).ListsObjects
  | some _ => trivial
  | none => trivial

/-- Other kinds are listed by other questions. -/
theorem Kind.listCall_ne {k' : Kind} (h : k' ≠ k) (ns : Option String) :
    k'.listCall ns ≠ k.listCall ns := by
  intro heq
  cases ns with
  | some ns => exact h (plural_injective (Call.listObjectsIn.inj heq).2.2)
  | none => exact h (plural_injective (Call.listObjects.inj heq).2)

namespace Cluster.SameBut

variable {ns : Option String} (hc : cluster.SameBut (k.listCall ns) c)
  (hc' : cluster.SameBut (k.listCall ns) c') (lag : Int)
include hc hc'

theorem shares {call : Call} (h : call ≠ k.listCall ns) :
    (⟨c, c', lag, fun _ => True⟩ : Comparison).Shares call :=
  ⟨trivial, (hc call h).trans (hc' call h).symm⟩

theorem shares_of_not_listsObjects (call : Call) (h : ¬ call.ListsObjects) :
    (⟨c, c', lag, fun _ => True⟩ : Comparison).Shares call :=
  hc.shares hc' lag fun heq => h (heq ▸ k.listsObjects_listCall ns)

end Cluster.SameBut

/-! ### The check of the kind -/

theorem Cluster.listReply_answering (cluster : Cluster) (k : Kind) (ns : Option String) (wait : Nat)
    (e : ClusterError) :
    (cluster.answering (k.listCall ns) ⟨wait, .error e⟩).listReply k ns = ⟨wait, .error e⟩ := by
  cases ns <;> exact reply_answering_self _ _ _

theorem Planned.yields_run {p : Planned} {r : Except ClusterError Check}
    (h : p.evaluation.run.Yields c (.ok r)) :
    (p.run none).Yields c (.ok (p.settle (some r))) :=
  h.within_none.bind (Session.yields_pure _)

namespace Kind

variable (scope : Scope)

/-- What comes of the question for a kind is told by the reply. -/
theorem yields_list {ns : Option String} {r : Except ClusterError (List Resource)}
    (h : (listed (c.listReply k ns).answer).run.Yields c (.ok r)) :
    (k.list ns).run.Yields c (.ok r) := by
  cases ns <;> exact Attempt.yields_bind (Attempt.yields_askFor _) h

/-- If the question for a kind fails, so does its check. -/
theorem yields_check_of_error {e : ClusterError} (he : ¬ e.isNotFound)
    (h : (c.listReply k scope.context.ns).answer = .error e) :
    (k.check scope).run.Yields c (.ok (.error e)) := by
  refine Attempt.yields_bind_error (Attempt.yields_bind_error (yields_list ?_))
  rw [h, listed, if_neg he]
  exact Session.yields_pure _

/-- If there is no resource of a kind, its check says so. -/
theorem yields_check_of_nil
    (h : (listed (c.listReply k scope.context.ns).answer).run.Yields c (.ok (.ok []))) :
    (k.check scope).run.Yields c (.ok (.ok (.ofNotesFor scope.withDisplays k.checkName
      k.description (k.absenceNotes scope.context.ns)))) :=
  Attempt.yields_bind (Attempt.yields_bind (yields_list h) (Session.yields_pure _))
    (Attempt.yields_bind (Session.yields_pure _) (Session.yields_pure _))

end Kind

/-! ### The parts of a run -/

namespace RunRequest

variable {α : Type} {q : RunRequest} {context : RunContext}

/-- A session that yields the same whatever is replied to the question for a kind, and something is
known of its result. -/
def Unaffected (context : RunContext) (cluster : Cluster) (k : Kind) (P : α → Prop)
    (s : Session α) : Prop :=
  ∃ r, (∀ a, r = .ok a → P a) ∧ ∀ c, cluster.SameBut (k.listCall context.ns) c → s.Yields c r

theorem unaffected_of_inStep {P : α → Prop} {s : Session α} (hP : s.Ensures P)
    (h : ∀ c c' lag, cluster.SameBut (k.listCall context.ns) c →
      cluster.SameBut (k.listCall context.ns) c' → s.InStep ⟨c, c', lag, fun _ => True⟩ Eq s) :
    Unaffected context cluster k P s := by
  have hcluster := Cluster.SameBut.refl (k.listCall context.ns) cluster
  obtain ⟨r, hr⟩ := Session.exists_yields _ hcluster h
  exact ⟨r, fun a ha => hP.of_yields (ha ▸ hr cluster hcluster), hr⟩

/-! ### Names of checks -/

theorem plansBefore_ensures_heading : ∀ p ∈ q.plansBefore context,
    p.evaluation.Ensures fun c => c.heading = p.heading :=
  q.forall_mem_plansBefore context
    (P := fun p => p.evaluation.Ensures fun c => c.heading = p.heading)
    (Readiness.checkVersion_ensures_heading _ _) (Readiness.checkNodes_ensures_heading _ _)
    (Readiness.checkStorageClasses_ensures_heading _ _)

theorem name_ne_of_mem_plansBefore (k : Kind) :
    ∀ p ∈ q.plansBefore context, p.name ≠ k.checkName := by
  obtain ⟨hversion, hnodes, hstorage⟩ := Readiness.name_ne k
  exact q.forall_mem_plansBefore context (P := fun p => p.name ≠ k.checkName) hversion hnodes
    hstorage

theorem fst_ne_of_mem_outlineBeside (q : RunRequest) (context : RunContext) {s : Service}
    (k : Kind) : ∀ heading ∈ q.outlineBeside context s, heading.1 ≠ k.checkName := by
  intro heading hmem
  rw [← q.map_heading_plansBeside context s] at hmem
  obtain ⟨p, hp, rfl⟩ := List.mem_map.1 hmem
  exact q.forall_mem_plansBeside context (P := fun p => p.name ≠ k.checkName)
    (fun _ => s.podCheck_ne k) (Statistics.checkName_ne k) p hp

/-- Only the check of a kind has the name of that. -/
theorem fst_ne_of_mem_outline {s : Service} (h : k ∉ q.selectedKinds s) :
    ∀ heading ∈ q.outline context s (q.selectedKinds s), heading.1 ≠ k.checkName := by
  intro heading hmem
  rcases List.mem_append.1 hmem with hmem | hmem
  · rcases List.mem_cons.1 hmem with rfl | hmem
    · exact s.enumerationCheck_ne k
    · obtain ⟨k', hk', rfl⟩ := List.mem_map.1 hmem
      exact fun hname => h (Kind.checkName_injective hname ▸ hk')
  · exact q.fst_ne_of_mem_outlineBeside context k heading hmem

theorem afterFor_ensures_name_ne {s : Service} (h : k ∉ q.selectedKinds s) :
    (q.afterFor context s).Ensures fun cs => ∀ c ∈ cs, c.name ≠ k.checkName := by
  refine .bind (Session.ensures_of_forall (P := fun _ => True) (fun _ => trivial) _)
    fun answer _ => (q.afterDiscovery_ensures context s answer).mono fun cs hcs c hc => ?_
  have houtlined (hcs : cs.map Check.heading = q.outline context s (q.selectedKinds s)) :
      c.name ≠ k.checkName :=
    fst_ne_of_mem_outline h c.heading (hcs ▸ List.mem_map_of_mem hc)
  match answer with
  | none => exact houtlined hcs
  | some (.ok resources) => exact houtlined hcs
  | some (.error e) =>
    obtain ⟨alone, rfl, halone⟩ := hcs
    rw [List.mem_singleton.1 hc]
    exact (congrArg Prod.fst halone.heading_eq).trans_ne (s.enumerationCheck_ne k)

/-! ### The other checks -/

section Others

variable (q cluster k) (hdeadline : context.deadline = none)
include hdeadline

theorem unaffected_before : Unaffected context cluster k
    (fun cs => ∀ c ∈ cs, c.name ≠ k.checkName) (q.beforeIfAsked context) := by
  refine unaffected_of_inStep ?_ fun c c' lag hc hc' =>
    inStep_beforeIfAsked q.namePattern (Comparison.rel_lags_of_none hdeadline)
      (Comparison.sharesReadiness_of_forall (hc.shares_of_not_listsObjects hc' lag))
  unfold beforeIfAsked
  split
  · refine Session.Ensures.forEach _ fun p hp =>
      (Planned.run_ensures_heading (plansBefore_ensures_heading p hp) _).mono fun c hheading => ?_
    exact (congrArg Prod.fst hheading).trans_ne (name_ne_of_mem_plansBefore k p hp)
  · exact Session.ensures_pure (List.forall_mem_nil _)

theorem unaffected_afterFor {s : Service} (hs : s ≠ k.service) : Unaffected context cluster k
    (fun cs => ∀ c ∈ cs, c.name ≠ k.checkName) (q.afterFor context s) := by
  have hkinds {k' : Kind} (hk' : k' ∈ q.selectedKinds s) : k' ≠ k := by
    rintro rfl
    exact hs (Kind.service_eq_of_mem_kinds (List.mem_of_mem_filter hk')).symm
  refine unaffected_of_inStep
    (afterFor_ensures_name_ne fun hk => hkinds hk rfl) fun c c' lag hc hc' => ?_
  have hshares := hc.shares_of_not_listsObjects hc' lag
  refine (inStep_afterFor q.namePattern (Comparison.rel_lags_of_none hdeadline)
    (Comparison.sharesWithin_of_forall hshares _) (hshares _ id).discovers fun k' hk' =>
      Kind.listsAlike_of_shares ?_ fun _ _ _ _ => trivial).mono fun _ _ h => h.1
  exact hc.shares hc' lag (Kind.listCall_ne (hkinds hk') _)

theorem unaffected_kindCheck (served : List Kind) {k' : Kind} (hk : k' ≠ k) :
    Unaffected context cluster k (fun c => c.name ≠ k.checkName)
      (q.kindCheck context served k') := by
  refine unaffected_of_inStep
    ((q.kindCheck_ensures_heading context served k').mono fun c hheading =>
      (congrArg Prod.fst hheading).trans_ne fun hname => hk (Kind.checkName_injective hname))
    fun c c' lag hc hc' => ?_
  have hshares := hc.shares_of_not_listsObjects hc' lag
  refine (inStep_kindCheck q.namePattern (Comparison.rel_lags_of_none hdeadline)
    (Comparison.sharesWithin_of_forall hshares _)
    (Kind.listsAlike_of_shares ?_ fun _ _ _ _ => trivial) served).mono fun _ _ h => h.1
  exact hc.shares hc' lag (Kind.listCall_ne hk _)

theorem unaffected_beside (s : Service) :
    Unaffected context cluster k (fun cs => ∀ c ∈ cs, c.name ≠ k.checkName)
      (Session.forEach (Planned.run context.deadline) (q.plansBeside context s)) := by
  refine unaffected_of_inStep
    ((q.beside_ensures_outlineBeside context s).mono fun cs hcs c hc =>
      q.fst_ne_of_mem_outlineBeside context k c.heading (hcs ▸ List.mem_map_of_mem hc))
    fun c c' lag hc hc' => ?_
  exact (inStep_plansBeside q.namePattern (Comparison.rel_lags_of_none hdeadline)
    (Comparison.sharesWithin_of_forall (hc.shares_of_not_listsObjects hc' lag) _)).mono
    fun _ _ h => h.1

end Others

/-! ### Around the check of a kind -/

/-- One result between lists of results, unless something has none. -/
def around {β : Type} (earlier later : Except Interruption (List β))
    (r : Except Interruption β) : Except Interruption (List β) :=
  earlier.bind fun bs => r.bind fun b => later.map fun bs' => bs ++ b :: bs'

theorem sequence_around {β : Type} (rs rs' : List (Except Interruption β))
    (r : Except Interruption β) :
    sequence (rs ++ r :: rs') = around (sequence rs) (sequence rs') r := by
  rw [sequence_append]
  cases sequence rs <;> cases r <;> cases h : sequence rs' <;> simp [around, sequence, h] <;> rfl

/-- Sessions for the members of a list, all but one of which are unaffected. -/
theorem exists_forEach_around {β : Type} {f : α → Session β} {P : β → Prop} {l : List α} {a : α}
    (hl : l.Nodup) (ha : a ∈ l)
    (hothers : ∀ a', a' ≠ a → Unaffected context cluster k P (f a')) :
    ∃ earlier later : Except Interruption (List β),
      (∀ bs, earlier = .ok bs → ∀ b ∈ bs, P b) ∧ (∀ bs, later = .ok bs → ∀ b ∈ bs, P b) ∧
      ∀ c r, cluster.SameBut (k.listCall context.ns) c → (f a).Yields c r →
        (Session.forEach f l).Yields c (around earlier later r) := by
  obtain ⟨l₁, l₂, rfl⟩ := List.append_of_mem ha
  obtain ⟨hnot, -⟩ := List.nodup_cons.1 (List.nodup_middle.1 hl)
  rw [List.mem_append, not_or] at hnot
  obtain ⟨rs, hPs, hrs⟩ := exists_forall₂ l₁ fun a' ha' =>
    hothers a' (ne_of_mem_of_not_mem ha' hnot.1)
  obtain ⟨rs', hPs', hrs'⟩ := exists_forall₂ l₂ fun a' ha' =>
    hothers a' (ne_of_mem_of_not_mem ha' hnot.2)
  -- `rs` and `rs'` were chosen before `c`, so that they are the same for all clusters
  refine ⟨sequence rs, sequence rs',
    fun bs hbs b hb => hPs _ (mem_of_sequence_eq_ok hbs b hb) b rfl,
    fun bs hbs b hb => hPs' _ (mem_of_sequence_eq_ok hbs b hb) b rfl, fun c r hc hr => ?_⟩
  rw [← sequence_around]
  exact .forEach (List.rel_append (hrs.imp fun _ _ h => h c hc)
    (.cons hr (hrs'.imp fun _ _ h => h c hc)))

/-- The report of parts that may be aborted, with the check of a kind in its place. -/
def reportAround (q : RunRequest) (before earlier later : Except Interruption (List Check))
    (check : Check) : Except Interruption Report :=
  before.bind fun first => (around earlier later (.ok check)).map fun rest =>
    ⟨q.title, first, rest⟩

/-- Where there is a report, every part of it has a result. -/
theorem exists_of_reportAround_eq_ok {before earlier later : Except Interruption (List Check)}
    {check : Check} {report : Report} (h : q.reportAround before earlier later check = .ok report) :
    ∃ first front back, before = .ok first ∧ earlier = .ok front ∧ later = .ok back := by
  obtain ⟨first, hfirst, hrest⟩ := exists_of_bind_eq_ok h
  obtain ⟨after, haround, -⟩ := exists_of_map_eq_ok hrest
  obtain ⟨front, hfront, hplaced⟩ := exists_of_bind_eq_ok haround
  obtain ⟨back, hback, -⟩ := exists_of_map_eq_ok hplaced
  exact ⟨first, front, back, hfirst, hfront, hback⟩

/-- What is aborted is another part than the check of the kind. -/
theorem reportAround_eq_error {before earlier later : Except Interruption (List Check)}
    {check check' : Check} {i : Interruption}
    (h : q.reportAround before earlier later check = .error i) :
    q.reportAround before earlier later check' = .error i := by
  cases before with
  | error i => exact h
  | ok before => cases earlier with
    | error i => exact h
    | ok earlier => cases later with
      | error i => exact h
      | ok later => cases h

/-- A part of the run in which the check of a kind has its place: whatever is replied to the
question for the kind, all checks before it and after it are the same, and none of them has its
name. -/
def SetsApart (q : RunRequest) (context : RunContext) (cluster : Cluster) (k : Kind)
    (s : Session (List Check)) : Prop :=
  ∃ earlier later : Except Interruption (List Check),
    (∀ cs, earlier = .ok cs → ∀ c ∈ cs, c.name ≠ k.checkName) ∧
    (∀ cs, later = .ok cs → ∀ c ∈ cs, c.name ≠ k.checkName) ∧
    ∀ c check, cluster.SameBut (k.listCall context.ns) c →
      ((q.kindPlan context k).run none).Yields c (.ok check) →
        s.Yields c (around earlier later (.ok check))

section Around

variable (q cluster) (hdeadline : context.deadline = none) {resources : List ApiResource}
  (hkind : k ∈ q.selectedKinds k.service) (hserved : k ∈ Discovery.served k.service resources)
include hdeadline hkind hserved

theorem setsApart_discovered :
    SetsApart q context cluster k (q.discovered context k.service resources) := by
  have hnodup : (q.selectedKinds k.service).Nodup :=
    List.Nodup.filter _ (by cases k.service <;> decide)
  obtain ⟨earlier, later, hearlier, hlater, hyields⟩ := exists_forEach_around hnodup hkind
    fun k' hk' => q.unaffected_kindCheck cluster k hdeadline
      (Discovery.served k.service resources) hk'
  obtain ⟨beside, hbeside, hyieldsBeside⟩ :=
    q.unaffected_beside cluster k hdeadline k.service
  let enumeration := Discovery.check q.withDisplays k.service (Discovery.served k.service resources)
  refine ⟨earlier.map (enumeration :: ·), later.bind fun cs => beside.map (cs ++ ·),
    ?_, ?_, fun c check hc hcheck => ?_⟩
  · intro _ hall
    obtain ⟨cs, hcs, rfl⟩ := exists_of_map_eq_ok hall
    exact List.forall_mem_cons.2 ⟨(congrArg Prod.fst (Check.heading_ofNotesFor _ _ _ _)).trans_ne
      (k.service.enumerationCheck_ne k), hearlier cs hcs⟩
  · intro _ hall
    obtain ⟨ofKinds, hofKinds, hrest⟩ := exists_of_bind_eq_ok hall
    obtain ⟨ofOthers, hofOthers, rfl⟩ := exists_of_map_eq_ok hrest
    exact List.forall_mem_append.2 ⟨hlater _ hofKinds, hbeside _ hofOthers⟩
  · have hplan : (q.kindCheck context (Discovery.served k.service resources) k).Yields c
        (.ok check) := by
      rw [kindCheck, if_pos (List.contains_iff_mem.2 hserved), hdeadline]
      exact hcheck
    have hdiscovered : (q.discovered context k.service resources).Yields c
        ((around earlier later (.ok check)).bind fun ofKinds =>
          beside.map fun others => enumeration :: ofKinds ++ others) :=
      (hyields c _ hc hplan).bind_of_forall fun ofKinds _ =>
        (hyieldsBeside c hc).bind_pure (enumeration :: ofKinds ++ ·)
    convert hdiscovered using 1
    cases earlier <;> cases later <;> cases beside <;> simp [around, Except.bind, Except.map]

variable (hanswer : (cluster.reply (.listApiResources k.service.api)).answer = .ok resources)
include hanswer

/-- The check of a kind stands among those of its service. -/
theorem setsApart_afterFor : SetsApart q context cluster k (q.afterFor context k.service) := by
  obtain ⟨earlier, later, hearlier, hlater, hyields⟩ :=
    q.setsApart_discovered cluster hdeadline hkind hserved
  refine ⟨earlier, later, hearlier, hlater, fun c check hc hcheck => ?_⟩
  have hne : Call.listApiResources k.service.api ≠ k.listCall context.ns := by
    cases context.ns <;> exact nofun
  have hasked : (Session.within context.deadline
      (Session.ask (.listApiResources k.service.api))).Yields c
        (.ok (some (.ok resources))) := by
    rw [hdeadline, ← hanswer, ← hc _ hne]
    exact (Session.yields_ask _).within_none
  exact hasked.bind (hyields c check hc hcheck)

variable (hservice : k.service ∈ q.selectedServices)
include hservice

/-- The check of a kind stands among those after deployment. -/
theorem setsApart_after : SetsApart q context cluster k (q.after context) := by
  obtain ⟨earlier, later, hearlier, hlater, hyields⟩ :=
    q.setsApart_afterFor cluster hdeadline hkind hserved hanswer
  obtain ⟨lists, lists', hlists, hlists', hservices⟩ := exists_forEach_around
    (List.Nodup.filter _ (by decide)) hservice
    fun s hs => q.unaffected_afterFor cluster k hdeadline hs
  refine ⟨lists.bind fun ls => earlier.map (ls.flatten ++ ·),
    later.bind fun cs => lists'.map fun ls => cs ++ ls.flatten, ?_, ?_, fun c check hc hcheck => ?_⟩
  · intro _ hall
    obtain ⟨ls, hls, hrest⟩ := exists_of_bind_eq_ok hall
    obtain ⟨cs, hcs, rfl⟩ := exists_of_map_eq_ok hrest
    rw [List.forall_mem_append, List.forall_mem_flatten]
    exact ⟨hlists ls hls, hearlier cs hcs⟩
  · intro _ hall
    obtain ⟨cs, hcs, hrest⟩ := exists_of_bind_eq_ok hall
    obtain ⟨ls, hls, rfl⟩ := exists_of_map_eq_ok hrest
    rw [List.forall_mem_append, List.forall_mem_flatten]
    exact ⟨hlater cs hcs, hlists' ls hls⟩
  · have hafter : (q.after context).Yields c
        ((around lists lists' (around earlier later (.ok check))).map List.flatten) :=
      (hservices c _ hc (hyields c check hc hcheck)).bind_pure List.flatten
    convert hafter using 1
    cases lists <;> cases lists' <;> cases earlier <;> cases later <;>
      simp [around, Except.bind, Except.map]

/-! ### The whole run -/

variable (hafter : q.runsAfter)
include hafter

/-- The check of a kind stands in the report among those after deployment. -/
theorem exists_report_around : ∃ before earlier later : Except Interruption (List Check),
    (∀ cs, before = .ok cs → ∀ c ∈ cs, c.name ≠ k.checkName) ∧
    (∀ cs, earlier = .ok cs → ∀ c ∈ cs, c.name ≠ k.checkName) ∧
    (∀ cs, later = .ok cs → ∀ c ∈ cs, c.name ≠ k.checkName) ∧
    ∀ c check, cluster.SameBut (k.listCall context.ns) c →
      ((q.kindPlan context k).run none).Yields c (.ok check) →
        ((q.report context).run c).result = q.reportAround before earlier later check := by
  obtain ⟨before, hbefore, hyieldsBefore⟩ := q.unaffected_before cluster k hdeadline
  obtain ⟨earlier, later, hearlier, hlater, hyields⟩ :=
    q.setsApart_after cluster hdeadline hkind hserved hanswer hservice
  refine ⟨before, earlier, later, hbefore, hearlier, hlater, fun c check hc hcheck => ?_⟩
  have hrest : (q.afterIfAsked context).Yields c (around earlier later (.ok check)) := by
    rw [afterIfAsked, if_pos hafter]
    exact hyields c check hc hcheck
  have hreport : (q.report context).Yields c (q.reportAround before earlier later check) :=
    (hyieldsBefore c hc).bind_of_forall fun before _ =>
      hrest.bind_pure fun after => Report.mk q.title before after
  exact hreport [] 0

end Around

/-- The check of the kind comes to something with the cluster as it is. -/
theorem exists_yields_kindPlan (q : RunRequest) (context : RunContext) (cluster : Cluster)
    (k : Kind) : ∃ check, check.name = k.checkName ∧
      ((q.kindPlan context k).run none).Yields cluster (.ok check) := by
  obtain ⟨_, r, hperforms⟩ := Session.exists_performs (s := (q.kindPlan context k).run none) cluster
    fun w hshares => (Planned.inStep_run (P := fun c => c.Confined fun _ => True) _ .none
      (Kind.inStep_check (Comparison.sharesWithin_of_forall (fun call _ => hshares call) _)
        (Kind.listsAlike_of_shares (hshares _) fun _ _ _ _ => trivial))
      (Check.confined_failed _ _ _) (Check.confined_cancelled _ _ _)).mono fun _ _ h => h.1
  obtain ⟨check, hcheck⟩ := (Planned.completes_run (p := q.kindPlan context k)
    (k.plain_check (q.scopeAfter context)).completes none).exists_ok [] 0
  obtain rfl : r = .ok check := (hperforms.yields [] 0).symm.trans hcheck
  have hheading := Planned.run_ensures_heading (p := q.kindPlan context k)
    (k.check_ensures_heading (q.scopeAfter context)) none
  exact ⟨check, congrArg Prod.fst (hheading.of_yields hperforms.yields), hperforms.yields⟩

/-- **The failure of a list concerns one check.** In a run without a deadline that looks at a kind
which is served, all checks but that of the kind are the same, and stand in the same order, whatever
the question for the kind comes to and however long that takes. If it fails, the check of the kind
tells of the failure and of nothing else; if the cluster does not know the kind, it is the check
with a cluster that has no resource of the kind. A run that is aborted, since a number is too great,
is aborted in all these cases. -/
theorem report_isolates_failure (q : RunRequest) (context : RunContext) (cluster : Cluster)
    (k : Kind) {resources : List ApiResource} (hdeadline : context.deadline = none)
    (hafter : q.runsAfter) (hservice : k.service ∈ q.selectedServices)
    (hkind : k ∈ q.selectedKinds k.service)
    (hanswer : (cluster.reply (.listApiResources k.service.api)).answer = .ok resources)
    (hserved : k ∈ Discovery.served k.service resources) :
    (∃ before earlier later former,
      (∀ c ∈ before ++ earlier ++ later, c.name ≠ k.checkName) ∧
      former.name = k.checkName ∧
      ((q.report context).run cluster).result =
        .ok ⟨q.title, before, earlier ++ former :: later⟩ ∧
      (∀ wait e,
        ((q.report context).run
          (cluster.answering (k.listCall context.ns) ⟨wait, .error e⟩)).result =
            .ok ⟨q.title, before, earlier ++
              (if e.isNotFound then
                .ofNotesFor q.withDisplays k.checkName k.description (k.absenceNotes context.ns)
              else .failed k.checkName k.description k.target e) :: later⟩) ∧
      ∀ empty, cluster.SameBut (k.listCall context.ns) empty →
        (empty.listReply k context.ns).answer = .ok [] →
          ((q.report context).run empty).result =
            .ok ⟨q.title, before, earlier ++
              .ofNotesFor q.withDisplays k.checkName k.description (k.absenceNotes context.ns) ::
                later⟩) ∨
    (q.Overflows context cluster.responder ∧
      ∀ c, cluster.SameBut (k.listCall context.ns) c →
        ((q.report context).run c).result = .error .aborted) := by
  obtain ⟨before, earlier, later, hbefore, hearlier, hlater, hreport⟩ :=
    q.exists_report_around cluster hdeadline hkind hserved hanswer hservice hafter
  obtain ⟨former, hformer, hyieldsFormer⟩ := exists_yields_kindPlan q context cluster k
  have hasItIs := hreport cluster former (.refl _ _) hyieldsFormer
  rcases (q.completes_report context).cases [] 0 with ⟨report, hresult⟩ | ⟨haborted, hoverflows⟩
  · obtain ⟨before, earlier, later, rfl, rfl, rfl⟩ :=
      exists_of_reportAround_eq_ok (hasItIs.symm.trans hresult)
    -- a cluster that does not know the kind and one that has no resource of it are one case here
    have habsent {c : Cluster} (hc : cluster.SameBut (k.listCall context.ns) c)
        (h : (Kind.listed (c.listReply k context.ns).answer).run.Yields c (.ok (.ok []))) :=
      hreport c _ hc (Planned.yields_run (p := q.kindPlan context k)
        (Kind.yields_check_of_nil (q.scopeAfter context) h))
    refine .inl ⟨before, earlier, later, former, ?_, hformer, hasItIs, fun wait e => ?_,
      fun empty hempty hnil => habsent hempty ?_⟩
    · rw [List.forall_mem_append, List.forall_mem_append]
      exact ⟨⟨hbefore _ rfl, hearlier _ rfl⟩, hlater _ rfl⟩
    · have hc := cluster.sameBut_answering (k.listCall context.ns) ⟨wait, .error e⟩
      have hreply := cluster.listReply_answering k context.ns wait e
      split
      · next he =>
        refine habsent hc ?_
        rw [hreply, Kind.listed, if_pos he]
        exact Session.yields_pure _
      · next he =>
        exact hreport _ _ hc (Planned.yields_run (p := q.kindPlan context k)
          (Kind.yields_check_of_error (q.scopeAfter context) he (by
            rw [show (q.scopeAfter context).context = context from rfl, hreply])))
    · rw [hnil]
      exact Session.yields_pure _
  · refine .inr ⟨hoverflows, fun c hc => ?_⟩
    obtain ⟨check, -, hcheck⟩ := exists_yields_kindPlan q context c k
    exact (hreport c check hc hcheck).trans
      (reportAround_eq_error (hasItIs.symm.trans haborted))

/-- A cluster that serves listeners of brokers and has one. -/
private def listening : Cluster where
  reply
    | .listApiResources _ => ⟨2, .ok [⟨"brokerlisteners", "BrokerListener"⟩]⟩
    | .listObjects _ _ => ⟨2, .ok [.object [("metadata", .object [("name", .string "l")])]]⟩
    | _ => ⟨2, .error (.api 403 "forbidden")⟩

/-- The list of the listeners is refused, after some time. -/
theorem report_isolates_failure_listeners :
    (⟨none, 5, none, false, 80⟩ : RunContext).deadline = none ∧
    (default : RunRequest).runsAfter ∧
    Kind.brokerListener.service ∈ (default : RunRequest).selectedServices ∧
    Kind.brokerListener ∈ (default : RunRequest).selectedKinds .broker ∧
    (listening.reply (.listApiResources Service.broker.api)).answer =
      .ok [⟨"brokerlisteners", "BrokerListener"⟩] ∧
    Kind.brokerListener ∈ Discovery.served .broker [⟨"brokerlisteners", "BrokerListener"⟩] ∧
    ∃ before earlier later former,
      ((report default ⟨none, 5, none, false, 80⟩).run listening).result =
        .ok ⟨none, before, earlier ++ former :: later⟩ ∧
      ((report default ⟨none, 5, none, false, 80⟩).run (listening.answering
        (Kind.brokerListener.listCall none) ⟨90, .error (.api 503 "unavailable")⟩)).result =
          .ok ⟨none, before, earlier ++
            .failed "evalBrokerListeners" "Evaluate MQTT broker listeners"
              "brokerlisteners.az-edge.com" (.api 503 "unavailable") :: later⟩ := by
  have hserved : Kind.brokerListener ∈
      Discovery.served .broker [⟨"brokerlisteners", "BrokerListener"⟩] := by decide +kernel
  have hsmall : ¬ (default : RunRequest).Overflows ⟨none, 5, none, false, 80⟩
      listening.responder :=
    fun h => absurd (h.of_not_withDisplays rfl).2 (by decide)
  obtain ⟨before, earlier, later, former, -, -, hformer, hfailed, -⟩ | ⟨hoverflows, -⟩ :=
    report_isolates_failure default ⟨none, 5, none, false, 80⟩ listening .brokerListener rfl
      (by decide) (by decide) (by decide) rfl hserved
  swap
  · exact absurd hoverflows hsmall
  exact ⟨rfl, by decide, by decide, by decide, rfl, hserved, before, earlier, later, former,
    hformer, hfailed 90 (.api 503 "unavailable")⟩

end RunRequest

end EdgeHealth
