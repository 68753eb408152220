import Mathlib.Data.List.Flatten
import EdgeHealth.Proofs.Check.Levels
import EdgeHealth.Proofs.Evaluate.Soundness
import EdgeHealth.Proofs.Run.Alike

/-!
# Every evaluation at two levels of detail

The level of detail decides which lines an evaluation adds, and whether the status that a resource
reports is recorded with its descriptions. It decides nothing else: neither which questions are put
nor what comes of them. At a higher level the lines of a lower one stay, in the same order.

## Main results

* `project_sublist`, `PodHealth.lines_sublist`, `Readiness.nodeLines_sublist` : the lines.
* `Finding.rel_ofStatus?` : the status that a resource reports.
* `relatesNotes_extends` : the notes of all evaluations.
-/

namespace EdgeHealth

open Json

variable {level level' : DetailLevel}

/-! ### Levels of detail -/

namespace DetailLevel

theorem isVerbose_of_rank_le (h : level.rank ≤ level'.rank) (hv : level.isVerbose = true) :
    level'.isVerbose = true := by
  revert h hv
  cases level <;> cases level' <;> decide

theorem showsDetail_of_rank_le (h : level.rank ≤ level'.rank) (hd : level.showsDetail = true) :
    level'.showsDetail = true := by
  revert h hd
  cases level <;> cases level' <;> decide

end DetailLevel

/-! ### Lines -/

/-- Lines that are there under a condition, and under a weaker one. -/
private theorem ite_sublist {α : Type} {b b' : Bool} (h : b = true → b' = true) (l : List α) :
    (if b then l else []).Sublist (if b' then l else []) := by
  cases b with
  | true => simp [h rfl]
  | false => exact List.nil_sublist _

/-- At a higher level of detail more properties are shown. -/
theorem project_sublist (h : level.rank ≤ level'.rank) (r : Resource) (properties : List Property)
    (indent : Nat) :
    (project r properties level indent).Sublist (project r properties level' indent) := by
  refine List.Sublist.flatMap (List.monotone_filter_right properties fun p hp => ?_) _
  rcases Bool.or_eq_true_iff.1 hp with hp | hp
  · exact Bool.or_eq_true_iff.2 (.inl hp)
  · exact Bool.or_eq_true_iff.2 (.inr (DetailLevel.isVerbose_of_rank_le h hp))

theorem PodHealth.lines_sublist (h : level.rank ≤ level'.rank) (p : Pod) :
    (lines level p).Sublist (lines level' p) :=
  .cons_cons _ (.append (ite_sublist (DetailLevel.showsDetail_of_rank_le h) (containerLines p))
    (ite_sublist (DetailLevel.isVerbose_of_rank_le h) (placeLines p)))

theorem Readiness.nodeLines_sublist (h : level.rank ≤ level'.rank) (n : Node)
    (findings : List NodeFinding) :
    (nodeLines level n findings).Sublist (nodeLines level' n findings) :=
  .append (.refl _) (ite_sublist (DetailLevel.isVerbose_of_rank_le h) (machineLines n))

/-! ### The status that a resource reports -/

namespace Finding

/-- A finding, and the same one at another level of detail. -/
structure Extends (level level' : DetailLevel) (f f' : Finding) : Prop where
  /-- The condition. -/
  condition_eq : f.condition = f'.condition
  /-- What came of it. -/
  evaluation : ∀ name kind, (Evaluation.mk f.status f.value name kind).Extends level level'
    f.condition ⟨f'.status, f'.value, name, kind⟩
  /-- The lines. -/
  displays_eq : f.displays = f'.displays

theorem extends_refl (f : Finding) : f.Extends level level' f :=
  ⟨rfl, fun _ _ => Evaluation.extends_refl _ _, rfl⟩

theorem Extends.notes {f f' : Finding} (h : f.Extends level level' f')
    (target ns name kind : String) :
    List.Forall₂ (Note.Extends level level') (f.notes target ns name kind)
      (f'.notes target ns name kind) := by
  rw [Finding.notes, Finding.notes, ← h.condition_eq, ← h.displays_eq]
  exact .cons (.observe _ _ (h.evaluation _ _)) (.cons (.display _ _ (.refl _)) .nil)

/-- The parts of a status without their descriptions. -/
theorem reportedPart?_false (status : Json) (part : String) :
    reportedPart? false status part =
      (reportedPart? true status part).map fun p =>
        (p.1, p.2.withoutMember "statusDescription") := by
  unfold reportedPart?
  cases reportedWord? status part with
  | none => rfl
  | some word =>
    simp only [Option.map_some, Option.some.injEq, Prod.mk.injEq, true_and, withoutMember]
    cases status.lookup? (below part "statusDescription") <;> rfl

/-- What comes of a status, without the descriptions of its parts. -/
theorem statusOutcome_false (status : Json) :
    statusOutcome false status =
      ((statusOutcome true status).1, (statusOutcome true status).2.withoutDescriptions) := by
  have hparts : (statusParts.filterMap fun part => reportedPart? false status part.1) =
      (statusParts.filterMap fun part => reportedPart? true status part.1).map fun p =>
        (p.1, p.2.withoutMember "statusDescription") := by
    simp only [reportedPart?_false, List.map_filterMap]
  simp only [statusOutcome, hparts, List.isEmpty_map]
  split <;> rfl

/-- The status of a resource is recorded with its descriptions where all that is known is shown. -/
theorem rel_ofStatus? (h : level.rank ≤ level'.rank) (r : Resource) :
    Option.Rel (Extends level level') (ofStatus? level r) (ofStatus? level' r) := by
  unfold ofStatus?
  cases Resource.status? r with
  | none => exact .none
  | some status =>
    refine .some ⟨rfl, fun name kind => ?_, rfl⟩
    change Evaluation.Extends level level' "status"
      ⟨(statusOutcome level.isVerbose status).1, (statusOutcome level.isVerbose status).2, name,
        kind⟩
      ⟨(statusOutcome level'.isVerbose status).1, (statusOutcome level'.isVerbose status).2, name,
        kind⟩
    cases hv : level.isVerbose with
    | true =>
      rw [DetailLevel.isVerbose_of_rank_le h hv]
      exact Evaluation.extends_refl _ _
    | false =>
      cases hv' : level'.isVerbose with
      | false => exact Evaluation.extends_refl _ _
      | true =>
        rw [statusOutcome_false]
        exact ⟨rfl, rfl, rfl, .inr ⟨rfl, hv, hv', rfl⟩⟩

end Finding

/-! ### The notes of evaluations -/

namespace Kind

theorem parallel_resourceNotes (h : level.rank ≤ level'.rank) (k : Kind) (ns : String)
    (r : Resource) :
    (k.resourceNotes level ns r).Parallel (List.Forall₂ (Note.Extends level level'))
      (k.resourceNotes level' ns r) := by
  refine (Attempt.parallel_refl _).bind fun findings _ heq => ?_
  subst heq
  have hstatus : List.Forall₂ (Finding.Extends level level') (Finding.ofStatus? level r).toList
      (Finding.ofStatus? level' r).toList := by
    have hrel := Finding.rel_ofStatus? h r
    generalize Finding.ofStatus? level r = o at hrel
    generalize Finding.ofStatus? level' r = o' at hrel
    cases hrel with
    | some hf => exact .cons hf .nil
    | none => exact .nil
  have hall : List.Forall₂ (Finding.Extends level level')
      (findings ++ (Finding.ofStatus? level r).toList)
      (findings ++ (Finding.ofStatus? level' r).toList) :=
    List.rel_append (List.forall₂_same.2 fun f _ => f.extends_refl) hstatus
  refine Attempt.parallel_pure (.cons (.display _ _ (.refl _)) (List.rel_append ?_ ?_))
  · exact List.rel_flatMap hall fun f f' hf => hf.notes _ _ _ _
  · exact .cons (.display _ _ (project_sublist h r _ _)) .nil

theorem parallel_notes (h : level.rank ≤ level'.rank) (context : RunContext) (names : NameFilter)
    (d d' : Bool) (k : Kind) (resources : List Resource) :
    (k.notes ⟨context, names, level, d⟩ resources).Parallel
      (List.Forall₂ (Note.Extends level level'))
      (k.notes ⟨context, names, level', d'⟩ resources) := by
  cases resources with
  | nil => exact Attempt.parallel_pure (Note.forall₂_extends_refl (by simp [absenceNotes]))
  | cons r rest =>
    refine (Attempt.Parallel.forEach (List.forall₂_same.2 fun pair _ =>
      k.parallel_resourceNotes h pair.1 pair.2)).bind fun details details' hdetails => ?_
    refine Attempt.parallel_pure (List.rel_append ?_ (List.rel_flatten hdetails))
    refine Note.forall₂_extends_refl fun n hn => ?_
    obtain ⟨pair, -, hn⟩ := List.mem_flatMap.1 hn
    exact Change.isPaired_of_isFinding (isFinding_of_mem_countNotes n hn)

end Kind

namespace PodHealth

theorem extends_notes (h : level.rank ≤ level'.rank) (starts : List PodPrefix) (pods : List Pod) :
    List.Forall₂ (Note.Extends level level') (notes level starts pods)
      (notes level' starts pods) := by
  refine List.rel_flatMap (List.forall₂_same.2 fun p _ => rfl) fun p _ hp => ?_
  subst hp
  unfold startNotes
  split
  · split
    · exact Note.forall₂_extends_refl (by simp [absenceNotes])
    · exact .nil
  · refine List.rel_flatMap (List.forall₂_same.2 fun pod _ => rfl) fun pod _ hpod => ?_
    subst hpod
    exact .cons (.observe _ _ (Evaluation.extends_refl _ _))
      (.cons (.display _ _ (lines_sublist h pod)) .nil)

end PodHealth

namespace Readiness

theorem extends_nodesNotes (h : level.rank ≤ level'.rank) (policy : ReadinessPolicy) (least : Nat)
    (nodes : List Node) : List.Forall₂ (Note.Extends level level')
      (nodesNotes level policy least nodes) (nodesNotes level' policy least nodes) := by
  refine .cons (.observe _ _ (Evaluation.extends_refl _ _)) ?_
  refine List.rel_flatMap (List.forall₂_same.2 fun n _ => rfl) fun n _ hn => ?_
  subst hn
  refine List.rel_append (Note.forall₂_extends_refl fun m hm => ?_)
    (.cons (.display _ _ (nodeLines_sublist h n _)) .nil)
  obtain ⟨f, -, rfl⟩ := List.mem_map.1 hm
  rfl

end Readiness

/-- The notes of all evaluations at two levels of detail. -/
theorem relatesNotes_extends (h : level.rank ≤ level'.rank) :
    RelatesNotes (Note.ListExtends level level') level level' where
  detail hne := DetailLevel.showsDetail_iff.1
    (DetailLevel.showsDetail_of_rank_le h (DetailLevel.showsDetail_iff.2 hne))
  verdict _ _ _ := .paired (Note.forall₂_extends_refl (by simp))
  skipped _ _ _ _ _ := .paired (Note.forall₂_extends_refl (by simp))
  enumeration _ _ := .paired (Note.forall₂_extends_refl fun n hn =>
    Change.isPaired_of_isFinding (Discovery.isFinding_of_mem_notes n hn))
  version policy answer := by
    obtain ⟨notes, hnotes, heq⟩ := Readiness.exists_versionNotes_eq policy answer
    rw [heq]
    exact .started _ _ _ (Note.forall₂_extends_refl fun n hn =>
      Change.isPaired_of_isFinding (hnotes n hn))
  noNodes := .paired (Note.forall₂_extends_refl (by simp [Readiness.noNodesNotes]))
  nodes policy least nodes := .paired (Readiness.extends_nodesNotes h policy least nodes)
  storage _ _ := .paired (Note.forall₂_extends_refl fun n hn =>
    Change.isPaired_of_isFinding (Readiness.isFinding_of_mem_storageNotes n hn))
  resources context names d d' k resources :=
    (k.parallel_notes h context names d d' resources).mono fun _ _ => .paired
  pods starts pods := .paired (PodHealth.extends_notes h starts pods)
  statistics context pods :=
    (Statistics.gather_ensures_isFinding context pods).parallel.mono fun notes _ hnotes => by
      obtain ⟨rfl, hfinding⟩ := hnotes
      exact .paired (Note.forall₂_extends_refl fun n hn =>
        Change.isPaired_of_isFinding (hfinding n hn))

end EdgeHealth
