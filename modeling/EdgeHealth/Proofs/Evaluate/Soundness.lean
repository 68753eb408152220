import EdgeHealth.Evaluate.Resources
import EdgeHealth.Evaluate.Statistics
import EdgeHealth.Proofs.Check.Soundness
import EdgeHealth.Proofs.Evaluate.Outcomes
import EdgeHealth.Proofs.Evaluate.Overflow
import EdgeHealth.Run.Discovery
import EdgeHealth.Run.Planned

/-!
# Every evaluation makes conclusive checks

Each evaluation records its conditions together with what was observed, and adds lines for human
readers apart from that. So the check that comes of it is sound, whatever the cluster replies, and
nothing in it was skipped. The check of the version starts its entry beforehand, without a
condition. The checks that are made without an evaluation are sound too.

## Main results

* `Kind.check_ensures_isConclusive`, `Service.checkPods_ensures_isConclusive`,
  `Statistics.check_ensures_isConclusive`, `Readiness.checkVersion_ensures_isConclusive`,
  `Readiness.checkNodes_ensures_isConclusive`,
  `Readiness.checkStorageClasses_ensures_isConclusive` : the evaluations.
* `Check.isConclusive_failed`, `Discovery.isConclusive_check` : a failure and what an API serves.
* `Check.isSound_cancelled`, `Discovery.isSound_missingApi`, `Discovery.isSound_absentKind` : the
  checks that say that something was skipped.
-/

namespace EdgeHealth

namespace Note

@[simp] theorem isPaired_observe (target ns condition : String) (e : Evaluation) :
    (observe target ns condition e).change.isPaired = true := rfl

@[simp] theorem isPaired_display (target ns : String) (lines : List Display) :
    (display target ns lines).change.isPaired = true := rfl

@[simp] theorem isFinding_observe (target ns condition : String) (e : Evaluation) :
    (observe target ns condition e).change.isFinding = (e.status != .skipped) := rfl

@[simp] theorem isFinding_display (target ns : String) (lines : List Display) :
    (display target ns lines).change.isFinding = true := rfl

end Note

@[simp] theorem Evaluation.status_of (status : Status) (value : Json) :
    (Evaluation.of status value).status = status := rfl

/-! ### Checks without an evaluation -/

theorem Check.isConclusive_failed (name description target : String) (e : ClusterError) :
    (Check.failed name description target e).IsConclusive :=
  Check.isConclusive_ofNotes name description (by simp)

theorem Check.isSound_cancelled (name description target : String) :
    (Check.cancelled name description target).IsSound :=
  Check.isSound_ofNotes name description (by simp)

namespace Discovery

theorem isFinding_of_mem_notes {s : Service} {served : List Kind} :
    ∀ n ∈ notes s served, n.change.isFinding := by
  intro n hn
  rcases List.mem_cons.1 hn with rfl | hn
  · rfl
  · rcases List.mem_append.1 hn with hn | hn
    · split at hn
      · rw [List.mem_singleton] at hn
        subst hn
        rfl
      · cases hn
    · obtain ⟨k, _, hn⟩ := List.mem_flatMap.1 hn
      simp only [servedNotes, List.mem_cons, List.not_mem_nil, or_false] at hn
      rcases hn with rfl | rfl <;> rfl

theorem isConclusive_check (withDisplays : Bool) (s : Service) (served : List Kind) :
    (check withDisplays s served).IsConclusive :=
  Check.isConclusive_ofNotesFor withDisplays _ _ isFinding_of_mem_notes

theorem isSound_missingApi (withDisplays : Bool) (s : Service) :
    (missingApi withDisplays s).IsSound :=
  Check.isSound_ofNotesFor withDisplays _ _ (by simp)

theorem isSound_absentKind (withDisplays : Bool) (k : Kind) :
    (absentKind withDisplays k).IsSound :=
  Check.isSound_ofNotesFor withDisplays _ _ (by simp)

end Discovery

/-! ### Resources of a kind -/

theorem Finding.isFinding_of_mem_notes {f : Finding} (hf : f.status ≠ .skipped)
    {target ns name kind : String} : ∀ n ∈ f.notes target ns name kind, n.change.isFinding := by
  simp [Finding.notes, hf]

namespace Kind

theorem isFinding_of_mem_absenceNotes {ns : Option String} {k : Kind} :
    ∀ n ∈ k.absenceNotes ns, n.change.isFinding := by
  simp [absenceNotes]

theorem isFinding_of_mem_countNotes {k : Kind} {ns : String} {count : Nat} :
    ∀ n ∈ k.countNotes ns count, n.change.isFinding := by
  simp [countNotes]

/-- Whatever a resource is, the notes about it are findings: so are those of its rules and of the
status that it reports. -/
theorem resourceNotes_ensures_isFinding (level : DetailLevel) (k : Kind) (ns : String)
    (r : Resource) :
    (k.resourceNotes level ns r).Ensures fun notes => ∀ n ∈ notes, n.change.isFinding := by
  refine .bind (Attempt.Ensures.forEach _ fun rule _ => rule.apply_ensures_status_ne ns r)
    fun findings hfindings => ?_
  refine Attempt.ensures_pure fun n hn => ?_
  simp only [List.mem_cons, List.mem_append, List.mem_flatMap, List.not_mem_nil, or_false] at hn
  rcases hn with (rfl | ⟨f, hf, hn⟩) | rfl
  · rfl
  · have hstatus := hf.elim (hfindings f) (Finding.status_ofStatus?_ne f)
    exact Finding.isFinding_of_mem_notes hstatus n hn
  · rfl

theorem notes_ensures_isFinding (scope : Scope) (k : Kind) (resources : List Resource) :
    (k.notes scope resources).Ensures fun notes => ∀ n ∈ notes, n.change.isFinding := by
  cases resources with
  | nil => exact Attempt.ensures_pure isFinding_of_mem_absenceNotes
  | cons r rest =>
    refine .bind (Attempt.Ensures.forEach _ fun (ns, r) _ =>
      resourceNotes_ensures_isFinding scope.level k ns r) fun details hdetails => ?_
    refine Attempt.ensures_pure fun n hn => ?_
    rcases List.mem_append.1 hn with hn | hn
    · obtain ⟨_, _, hn⟩ := List.mem_flatMap.1 hn
      exact isFinding_of_mem_countNotes n hn
    · obtain ⟨notes, hnotes, hn⟩ := List.mem_flatten.1 hn
      exact hdetails notes hnotes n hn

/-- The check of a kind is conclusive. -/
theorem check_ensures_isConclusive (scope : Scope) (k : Kind) :
    (k.check scope).Ensures Check.IsConclusive :=
  .bind (Attempt.ensures_of_forall (fun _ => trivial) _) fun resources _ =>
    .bind (k.notes_ensures_isFinding scope resources) fun _ h =>
      Attempt.ensures_pure (Check.isConclusive_ofNotesFor scope.withDisplays _ _ h)

end Kind

/-! ### Pods -/

namespace PodHealth

theorem isFinding_of_mem_startNotes {level : DetailLevel} {starts : List PodPrefix}
    {pods : List Pod} {p : PodPrefix} :
    ∀ n ∈ startNotes level starts pods p, n.change.isFinding := by
  intro n hn
  unfold startNotes at hn
  split at hn
  · split at hn
    · simp only [absenceNotes, List.mem_cons, List.not_mem_nil, or_false] at hn
      rcases hn with rfl | rfl <;> rfl
    · cases hn
  · obtain ⟨pod, _, hn⟩ := List.mem_flatMap.1 hn
    simp only [podNotes, List.mem_cons, List.not_mem_nil, or_false] at hn
    rcases hn with rfl | rfl
    · simp
    · rfl

theorem isFinding_of_mem_notes {level : DetailLevel} {starts : List PodPrefix}
    {pods : List Pod} : ∀ n ∈ notes level starts pods, n.change.isFinding := by
  intro n hn
  obtain ⟨p, _, hn⟩ := List.mem_flatMap.1 hn
  exact isFinding_of_mem_startNotes n hn

end PodHealth

/-- The check of the pods of a service is conclusive. -/
theorem Service.checkPods_ensures_isConclusive (scope : Scope) (s : Service) :
    (s.checkPods scope).Ensures Check.IsConclusive :=
  s.checkPods_ensures scope fun _ =>
    Check.isConclusive_ofNotesFor scope.withDisplays _ _ PodHealth.isFinding_of_mem_notes

/-! ### Statistics of the broker -/

namespace Statistics

theorem isFinding_of_mem_record {ns condition : String} {status : Status} {value : Json} {n : Note}
    (hn : n ∈ record ns condition status value) (hstatus : status ≠ .skipped) :
    n.change.isFinding := by
  simp only [record, List.mem_cons, List.not_mem_nil, or_false] at hn
  rcases hn with rfl | rfl
  · rfl
  · simpa using hstatus

/-- The notes about statistics are records of conditions that were not skipped. -/
theorem exists_notes_eq_flatten (ns : String) (stats : BrokerStats) :
    ∃ records : List (List Note), notes ns stats = records.flatten ∧
      ∀ l ∈ records, ∃ condition status value,
        status ≠ .skipped ∧ l = record ns condition status value := by
  refine ⟨_, rfl, fun l hl => ?_⟩
  rcases List.mem_append.1 hl with hl | hl
  · obtain ⟨metric, _, hl⟩ := List.mem_filterMap.1 hl
    obtain ⟨v, _, rfl⟩ := Option.map_eq_some_iff.1 hl
    exact ⟨metric, .success, .ofBinary64 v, nofun, rfl⟩
  · obtain ⟨t, _, rfl⟩ := List.mem_map.1 hl
    refine ⟨t.condition, if t.met then .success else .warning, .ofBinary64 t.value, ?_, rfl⟩
    split <;> exact nofun

theorem isFinding_of_mem_notes {ns : String} {stats : BrokerStats} :
    ∀ n ∈ notes ns stats, n.change.isFinding := by
  obtain ⟨records, heq, hrecords⟩ := exists_notes_eq_flatten ns stats
  intro n hn
  rw [heq] at hn
  obtain ⟨l, hl, hn⟩ := List.mem_flatten.1 hn
  obtain ⟨condition, status, value, hstatus, rfl⟩ := hrecords l hl
  exact isFinding_of_mem_record hn hstatus

theorem isFinding_of_mem_fetchNotes {context : RunContext} {ns pod : String}
    {outcome : Option (Except ClusterError BrokerStats)} :
    ∀ n ∈ fetchNotes context ns pod outcome, n.change.isFinding := by
  intro n hn
  simp only [fetchNotes] at hn
  split at hn
  · rcases List.mem_append.1 hn with hn | hn
    · exact isFinding_of_mem_record hn nofun
    · exact isFinding_of_mem_notes n hn
  · exact isFinding_of_mem_record hn nofun

/-- What is known of the notes when no pod serves statistics, and of those when one is asked. -/
theorem gather_ensures {P : List Note → Prop} {context : RunContext} (pods : List Pod)
    (hnone : ∀ message, P (record allNamespaces (reachable context.statsPort) .warning message))
    (hfetch : ∀ ns pod outcome, P (fetchNotes context ns pod outcome)) :
    (gather context pods).Ensures P := by
  unfold gather
  split
  · exact Attempt.ensures_pure (hnone _)
  · exact .bind (Attempt.ensures_of_forall (fun _ => trivial) _) fun _ _ =>
      Attempt.ensures_pure (hfetch _ _ _)

theorem gather_ensures_isFinding (context : RunContext) (pods : List Pod) :
    (gather context pods).Ensures fun notes => ∀ n ∈ notes, n.change.isFinding :=
  gather_ensures pods (fun _ _ hn => isFinding_of_mem_record hn nofun)
    fun _ _ _ => isFinding_of_mem_fetchNotes

/-- The check of the statistics is conclusive. -/
theorem check_ensures_isConclusive (scope : Scope) : (check scope).Ensures Check.IsConclusive :=
  .bind (Attempt.ensures_of_forall (fun _ => trivial) _) fun pods _ =>
    .bind (gather_ensures_isFinding scope.context pods) fun _ h =>
      Attempt.ensures_pure (Check.isConclusive_ofNotesFor scope.withDisplays _ _ h)

end Statistics

/-! ### Readiness of the cluster -/

namespace Readiness

/-- The notes about the version are findings after the start of the entry. -/
theorem exists_versionNotes_eq (policy : ReadinessPolicy) (answer : Except ClusterError Version) :
    ∃ notes, (∀ n ∈ notes, n.change.isFinding) ∧ versionNotes policy answer =
      ⟨versionTarget, allNamespaces, .declare [] (some "Kubernetes server version")⟩ :: notes := by
  refine ⟨_, ?_, rfl⟩
  cases answer with
  | ok version => cases h : version.atLeast policy.minVersion <;> simp [h]
  | error e => simp

/-- The check of the version is conclusive: its entry is started while nothing stands in it. -/
theorem checkVersion_ensures_isConclusive (scope : Scope) (policy : ReadinessPolicy) :
    (checkVersion scope policy).Ensures Check.IsConclusive := by
  refine .bind (Attempt.ensures_of_forall (fun _ => trivial) _) fun answer _ => ?_
  refine Attempt.ensures_pure ?_
  obtain ⟨notes, hnotes, heq⟩ := exists_versionNotes_eq policy answer
  have hstart : ((Check.empty versionCheck versionDescription).note ⟨versionTarget, allNamespaces,
      .declare [] (some "Kubernetes server version")⟩).IsConclusive :=
    { isSound := (Check.isSound_empty _ _).note_declare rfl _
      status_ne e he := (Check.mem_evaluations_note.1 he).elim
        ((Check.isConclusive_empty _ _).status_ne e) (by simp [Change.evaluations]) }
  rw [heq]
  cases scope.withDisplays with
  | true => exact hstart.foldl_note notes hnotes
  | false => exact hstart.foldl_note _ fun n hn => hnotes n (List.mem_filter.1 hn).1

theorem isFinding_of_mem_nodeNotes {level : DetailLevel} {policy : ReadinessPolicy} {least : Nat}
    {node : Node} : ∀ n ∈ nodeNotes level policy least node, n.change.isFinding := by
  intro n hn
  rcases List.mem_append.1 hn with hn | hn
  · obtain ⟨f, hf, rfl⟩ := List.mem_map.1 hn
    simpa using status_nodeFindings_ne f hf
  · rw [List.mem_singleton] at hn
    subst hn
    rfl

theorem isFinding_of_mem_nodesNotes {level : DetailLevel} {policy : ReadinessPolicy} {least : Nat}
    {nodes : List Node} : ∀ n ∈ nodesNotes level policy least nodes, n.change.isFinding := by
  intro n hn
  rcases List.mem_cons.1 hn with rfl | hn
  · rfl
  · obtain ⟨node, _, hn⟩ := List.mem_flatMap.1 hn
    exact isFinding_of_mem_nodeNotes n hn

theorem isFinding_of_mem_noNodesNotes : ∀ n ∈ noNodesNotes, n.change.isFinding := by
  simp [noNodesNotes]

/-- The check of the nodes is conclusive. -/
theorem checkNodes_ensures_isConclusive (scope : Scope) (policy : ReadinessPolicy) :
    (checkNodes scope policy).Ensures Check.IsConclusive :=
  checkNodes_ensures scope policy
    (Check.isConclusive_ofNotesFor scope.withDisplays _ _ isFinding_of_mem_noNodesNotes)
    fun _ _ => Check.isConclusive_ofNotesFor scope.withDisplays _ _ isFinding_of_mem_nodesNotes

theorem isFinding_of_mem_storageNotes {policy : ReadinessPolicy} {names : List String} :
    ∀ n ∈ storageNotes policy names, n.change.isFinding := by
  simp only [storageNotes]
  split <;> simp

/-- The check of the storage classes is conclusive. -/
theorem checkStorageClasses_ensures_isConclusive (scope : Scope) (policy : ReadinessPolicy) :
    (checkStorageClasses scope policy).Ensures Check.IsConclusive :=
  .bind (Attempt.ensures_of_forall (fun _ => trivial) _) fun _ _ => Attempt.ensures_pure
    (Check.isConclusive_ofNotesFor scope.withDisplays _ _ isFinding_of_mem_storageNotes)

end Readiness

end EdgeHealth
