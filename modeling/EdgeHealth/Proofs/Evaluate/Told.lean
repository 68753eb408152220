import EdgeHealth.Proofs.Check.Told
import EdgeHealth.Proofs.Evaluate.Soundness
import EdgeHealth.Proofs.Run.Alike

/-!
# Which failures evaluations tell

An evaluation that records a failure adds a line with the tone of it, with three exceptions: a
reference that is not set, a status of which a part is not reported, and an API that serves no known
kind. Each of them has a like failure beside it that is told: a reference that leads nowhere, a part
of a status with a word that is no success, and a kind of which there is no resource.

## Main definitions

* `Untold` : the failures that are recorded without a line.
* `Finding.IsTold` : a finding that tells its failure, or records one of these.

## Main results

* `Finding.isTold_ofStatus?` : the status that a resource reports.
* `Rule.apply_ensures_isTold` : what a rule comes to on a resource.
* `relatesNotes_told` : the notes of all evaluations.
-/

namespace EdgeHealth

open Note

/-- The failures that evaluations record without a line that tells them. -/
inductive Untold : String → Evaluation → Prop
  /-- A reference that names nothing. -/
  | unset (path : String) (name kind : Option String) :
    Untold s!"valid({path})" ⟨.error, .string s!"{path} is not set", name, kind⟩
  /-- A status of which a part is not reported, while nothing is wrong with a part that is. -/
  | unreported {verbose : Bool} {status : Json}
    (missing : ∃ part ∈ Finding.statusParts, Finding.reportedWord? status part.1 = none)
    (well : ∀ part ∈ Finding.statusParts, ∀ word,
      Finding.reportedWord? status part.1 = some word → Finding.reportedStatus word = .success)
    (name kind : Option String) :
    Untold "status"
      ⟨(Finding.statusOutcome verbose status).1, (Finding.statusOutcome verbose status).2, name,
        kind⟩
  /-- An API that serves nothing that is known. -/
  | unserved (s : Service) :
    Untold s!"discovered({s.api.text})"
      (.of .warning (.string "No known resource kinds are served."))

/-! ### Findings about a resource -/

namespace Finding

/-- A finding whose failure is told by one of its lines, or is one that is recorded without. -/
def IsTold (f : Finding) : Prop :=
  f.status.isFailure true →
    (∀ name kind, Untold f.condition ⟨f.status, f.value, name, kind⟩) ∨
      ∃ d ∈ f.displays, d.Tells f.status

/-- The notes of a finding accompany its failure by its lines. -/
theorem IsTold.accompanied_notes {f : Finding} (h : f.IsTold) (target ns name kind : String) :
    Accompanied Untold (f.notes target ns name kind) :=
  accompanied_pair fun hfailure => (h hfailure).imp_left fun huntold => huntold _ _

/-- Each complaint about the fields of a resource is a line. -/
theorem isTold_ofRequirements (condition : String) (requirements : List Requirement)
    (r : Resource) : (ofRequirements condition requirements r).IsTold := by
  intro hfailure
  simp only [ofRequirements, Requirement.outcome] at hfailure ⊢
  cases hproblems : Requirement.allProblems r requirements with
  | nil =>
    rw [hproblems] at hfailure
    cases hfailure
  | cons message rest =>
    exact .inr ⟨_, List.mem_cons_self, Display.tells_status _ _ _⟩

theorem isTold_ofAlternatives (base : String) (fields : List String) (r : Resource) :
    (ofAlternatives base fields r).IsTold := by
  intro hfailure
  have herror : (ofAlternatives base fields r).status = .error := by
    revert hfailure
    simp only [ofAlternatives, alternativesOutcome]
    split
    · exact fun _ => rfl
    · exact nofun
    · exact fun _ => rfl
  have hdisplays : (ofAlternatives base fields r).displays =
      [.notice 6 s!"{base}: expected exactly one of {Text.enumerated fields}" .error] := by
    simp only [ofAlternatives] at herror ⊢
    rw [if_pos herror]
  rw [hdisplays, herror]
  exact .inr ⟨_, List.mem_singleton_self _, Display.tells_status _ _ _⟩

theorem isTold_unset (path : String) : (unset path).IsTold :=
  fun _ => .inl (Untold.unset path)

theorem isTold_ofReference (path : String) (referent : Kind) (name : String) (found : Bool) :
    (ofReference path referent name found).IsTold :=
  fun _ => .inr ⟨_, List.mem_singleton_self _, Display.tells_status _ _ _⟩

theorem isTold_ofReferences (path : String) (referent : Kind) (names missing : List String) :
    (ofReferences path referent names missing).IsTold := by
  unfold ofReferences
  split
  · exact nofun
  · exact fun _ => .inr ⟨_, List.mem_singleton_self _, Display.tells_status _ _ _⟩

/-! ### The status that a resource reports -/

/-- Each part of a status that is reported is told by the line about it. -/
theorem tells_statusLine {status : Json} {part : String × String} (hpart : part ∈ statusParts)
    {word : String} (hword : reportedWord? status part.1 = some word) :
    (statusLine status).Tells (reportedStatus word) := by
  simp only [statusParts, List.mem_cons, List.not_mem_nil, or_false] at hpart
  simp only [statusLine, statusParts, List.foldl_cons, List.foldl_nil]
  rcases hpart with rfl | rfl
  · rw [hword]
    split
    · exact (Display.tells_status _ _ _).push _ _
    · exact ((((Display.tells_status _ _ _).push _ _).push _ _).push _ _).push _ _
  · rw [hword]
    exact (Display.tells_status _ _ _).push _ _

/-- A word that is neither a success nor worse than a warning is a warning. -/
theorem reportedStatus_eq_warning {word : String} (hbad : reportedStatus word ≠ .success)
    (hle : (reportedStatus word).rank ≤ Status.warning.rank) : reportedStatus word = .warning := by
  have hskipped := reportedStatus_ne word
  revert hbad hle hskipped
  cases reportedStatus word <;> decide

/-- A failure in the parts of a status is that of a part that is reported, or a part is missing and
nothing is wrong with those that are not. -/
theorem combinedStatus_cases {words : List (Option String)} (hne : words ≠ [])
    (hfailure : (combinedStatus words).isFailure true) :
    (∃ word, some word ∈ words ∧ combinedStatus words = reportedStatus word) ∨
      none ∈ words ∧ ∀ word, some word ∈ words → reportedStatus word = .success := by
  by_cases hall : words.all Option.isNone
  · have hnone : ∀ w ∈ words, w = none := fun w hw => by simpa using List.all_eq_true.1 hall w hw
    obtain ⟨w, hw⟩ := List.exists_mem_of_ne_nil words hne
    exact .inr ⟨hnone w hw ▸ hw, fun word hword => nomatch hnone _ hword⟩
  · have hworst : combinedStatus words =
        .worstOf (words.map fun w => (w.map reportedStatus).getD .warning) := if_neg hall
    rcases Status.worstOf_eq_success_or_mem
      (words.map fun w => (w.map reportedStatus).getD .warning) with h | h
    · rw [hworst, h] at hfailure
      cases hfailure
    · obtain ⟨w, hw, heq⟩ := List.mem_map.1 h
      rw [← hworst] at heq
      cases w with
      | some word => exact .inl ⟨word, hw, heq.symm⟩
      | none =>
        -- A missing part is a warning, so that no part that is reported is worse.
        by_cases hwell : ∀ word, some word ∈ words → reportedStatus word = .success
        · exact .inr ⟨hw, hwell⟩
        · obtain ⟨word, hword, hbad⟩ :
              ∃ word, some word ∈ words ∧ reportedStatus word ≠ .success := by
            simpa using hwell
          have hle : (reportedStatus word).rank ≤ (combinedStatus words).rank :=
            hworst ▸ Status.rank_worstOf_le_iff.1 Nat.le.refl _ (List.mem_map.2 ⟨_, hword, rfl⟩)
          rw [← heq] at hle ⊢
          exact .inl ⟨word, hword, (reportedStatus_eq_warning hbad hle).symm⟩

/-- The status that a resource reports is told unless a part of it is missing. -/
theorem isTold_ofStatus? {level : DetailLevel} {r : Resource} {f : Finding}
    (hf : f ∈ (ofStatus? level r).toList) : f.IsTold := by
  obtain ⟨status, -, rfl⟩ := Option.map_eq_some_iff.1 (Option.mem_toList.1 hf)
  intro hfailure
  have hne : (statusParts.map fun part => reportedWord? status part.1) ≠ [] :=
    List.cons_ne_nil _ _
  rcases combinedStatus_cases hne hfailure with ⟨word, hword, heq⟩ | ⟨hmissing, hwell⟩
  · obtain ⟨part, hpart, hword⟩ := List.mem_map.1 hword
    refine .inr ⟨statusLine status, List.mem_singleton_self _, ?_⟩
    exact (congrArg (Display.Tells · (statusLine status)) heq).mpr (tells_statusLine hpart hword)
  · refine .inl (Untold.unreported (List.mem_map.1 hmissing) fun part hpart word hword => ?_)
    exact hwell word (hword ▸ List.mem_map_of_mem hpart)

end Finding

/-- What a rule comes to on a resource tells its failure, unless a reference is not set. -/
theorem Rule.apply_ensures_isTold (ns : String) (r : Resource) (rule : Rule) :
    (rule.apply ns r).Ensures Finding.IsTold := by
  cases rule with
  | demands condition requirements =>
    exact Attempt.ensures_pure (Finding.isTold_ofRequirements condition requirements r)
  | alternatives base fields =>
    exact Attempt.ensures_pure (Finding.isTold_ofAlternatives base fields r)
  | reference path referent =>
    simp only [apply, Finding.reference]
    split
    · exact Attempt.ensures_pure (Finding.isTold_unset path)
    · exact .bind (Attempt.ensures_of_forall (fun _ => trivial) _) fun found _ =>
        Attempt.ensures_pure (Finding.isTold_ofReference path referent _ found)
  | references path referent =>
    simp only [apply, Finding.references]
    split
    · exact Attempt.ensures_pure (Finding.isTold_unset path)
    · exact .bind (Attempt.ensures_of_forall (fun _ => trivial) _) fun missing _ =>
        Attempt.ensures_pure (Finding.isTold_ofReferences path referent _ missing)

/-! ### Resources of a kind -/

namespace Kind

theorem accompanied_absenceNotes (ns : Option String) (k : Kind) :
    Accompanied Untold (k.absenceNotes ns) :=
  accompanied_pair fun _ => .inr ⟨_, List.mem_singleton_self _, Display.tells_status _ _ _⟩

theorem accompanied_countNotes (k : Kind) (ns : String) (count : Nat) :
    Accompanied Untold (k.countNotes ns count) :=
  accompanied_pair fun _ =>
    .inr ⟨_, List.mem_singleton_self _, ((Display.tells_status _ _ _).push _ _).push _ _⟩

theorem resourceNotes_ensures_accompanied (level : DetailLevel) (k : Kind) (ns : String)
    (r : Resource) : (k.resourceNotes level ns r).Ensures (Accompanied Untold) := by
  refine .bind (Attempt.Ensures.forEach _ fun rule _ => rule.apply_ensures_isTold ns r)
    fun findings hfindings => ?_
  refine Attempt.ensures_pure
    (.append (.cons_display ?_ _ _ _) (accompanied_nil.cons_display _ _ _))
  refine Accompanied.flatMap fun f hf => Finding.IsTold.accompanied_notes ?_ _ _ _ _
  exact (List.mem_append.1 hf).elim (hfindings f) Finding.isTold_ofStatus?

theorem notes_ensures_accompanied (scope : Scope) (k : Kind) (resources : List Resource) :
    (k.notes scope resources).Ensures (Accompanied Untold) := by
  cases resources with
  | nil => exact Attempt.ensures_pure (k.accompanied_absenceNotes _)
  | cons r rest =>
    refine .bind (Attempt.Ensures.forEach _ fun pair _ =>
      k.resourceNotes_ensures_accompanied scope.level pair.1 pair.2) fun details hdetails => ?_
    exact Attempt.ensures_pure (.append
      (Accompanied.flatMap fun pair _ => k.accompanied_countNotes pair.1 pair.2.length)
      (Accompanied.flatten hdetails))

end Kind

/-! ### Pods and statistics -/

namespace PodHealth

theorem accompanied_startNotes (level : DetailLevel) (starts : List PodPrefix) (pods : List Pod)
    (p : PodPrefix) : Accompanied Untold (startNotes level starts pods p) := by
  unfold startNotes
  split
  · split
    · exact accompanied_pair fun _ =>
        .inr ⟨_, List.mem_singleton_self _, Display.tells_status _ _ _⟩
    · exact accompanied_nil
  · exact Accompanied.flatMap fun pod _ => accompanied_pair fun _ =>
      .inr ⟨_, List.mem_cons_self, Display.tells_status _ _ _⟩

end PodHealth

namespace Statistics

theorem accompanied_record (ns condition : String) (status : Status) (value : Json) :
    Accompanied Untold (record ns condition status value) := by
  refine Accompanied.perm ?_ (.swap _ _ [])
  exact accompanied_pair fun _ => .inr ⟨_, List.mem_singleton_self _, Display.tells_status _ _ _⟩

theorem accompanied_notes (ns : String) (stats : BrokerStats) :
    Accompanied Untold (notes ns stats) := by
  obtain ⟨records, heq, hrecords⟩ := exists_notes_eq_flatten ns stats
  rw [heq]
  refine Accompanied.flatten fun l hl => ?_
  obtain ⟨condition, status, value, -, rfl⟩ := hrecords l hl
  exact accompanied_record ns condition status value

theorem accompanied_fetchNotes (context : RunContext) (ns pod : String)
    (outcome : Option (Except ClusterError BrokerStats)) :
    Accompanied Untold (fetchNotes context ns pod outcome) := by
  simp only [fetchNotes]
  split
  · exact (accompanied_record _ _ _ _).append (accompanied_notes _ _)
  · exact accompanied_record _ _ _ _

theorem gather_ensures_accompanied (context : RunContext) (pods : List Pod) :
    (gather context pods).Ensures (Accompanied Untold) :=
  gather_ensures pods (fun _ => accompanied_record _ _ _ _) fun ns pod outcome =>
    accompanied_fetchNotes context ns pod outcome

end Statistics

/-! ### Readiness of the cluster -/

namespace Readiness

theorem accompanied_versionNotes (policy : ReadinessPolicy)
    (answer : Except ClusterError Version) : Accompanied Untold (versionNotes policy answer) := by
  refine Accompanied.cons (accompanied_pair fun _ => .inr ⟨_, List.mem_singleton_self _, ?_⟩) nofun
  cases answer with
  | ok version => exact Display.tells_status _ _ _
  | error e => exact Display.tells_status _ _ _

/-- Each demand on a node is shown with what came of it. -/
theorem accompanied_nodeNotes (level : DetailLevel) (policy : ReadinessPolicy) (least : Nat)
    (n : Node) : Accompanied Untold (nodeNotes level policy least n) := by
  refine accompanied_append_display (fun m hm => ?_) fun m hm p hp _ => .inr ?_
  · obtain ⟨f, -, rfl⟩ := List.mem_map.1 hm
    exact ⟨rfl, rfl⟩
  · obtain ⟨f, hf, rfl⟩ := List.mem_map.1 hm
    cases List.mem_singleton.1 hp
    exact ⟨_, List.mem_cons_of_mem _ (List.mem_append_left _ (List.mem_map_of_mem hf)),
      Display.tells_status _ _ _⟩

theorem accompanied_noNodesNotes : Accompanied Untold noNodesNotes :=
  accompanied_pair fun _ => .inr ⟨_, List.mem_singleton_self _, Display.tells_status _ _ _⟩

theorem accompanied_nodesNotes (level : DetailLevel) (policy : ReadinessPolicy) (least : Nat)
    (nodes : List Node) : Accompanied Untold (nodesNotes level policy least nodes) :=
  (Accompanied.flatMap fun n _ => accompanied_nodeNotes level policy least n).cons
    (List.forall_mem_singleton.2 nofun)

theorem accompanied_storageNotes (policy : ReadinessPolicy) (names : List String) :
    Accompanied Untold (storageNotes policy names) :=
  accompanied_pair fun _ => .inr ⟨_, List.mem_cons_self, Display.tells_status _ _ _⟩

end Readiness

/-! ### What an API serves -/

/-- The kinds that are served are no failures; that there is none is a failure without a line. -/
theorem Discovery.accompanied_notes (s : Service) (served : List Kind) :
    Accompanied Untold (notes s served) := by
  refine .append (.cons_display ?_ _ _ _) (Accompanied.flatMap fun k _ => accompanied_pair nofun)
  split
  · exact accompanied_nil.cons (List.forall_mem_singleton.2 fun _ => Untold.unserved s)
  · exact accompanied_nil

/-! ### All evaluations -/

/-- Notes that are findings tell their failures if lines accompany these. -/
theorem Note.told_of_isFinding {notes : List Note} (hfinding : ∀ n ∈ notes, n.change.isFinding)
    (h : Accompanied Untold notes) : Told Untold notes :=
  ⟨.inl fun n hn => Change.isPaired_of_isFinding (hfinding n hn), .inr h⟩

/-- The notes of all evaluations tell their failures, save for those that are recorded without a
line. A check that failed or was cut off has no lines at all. -/
theorem relatesNotes_told (level : DetailLevel) :
    RelatesNotes (fun notes notes' => notes = notes' ∧ Told Untold notes) level level where
  detail := id
  verdict _ _ _ := ⟨rfl, .inl (by simp), .inl (List.forall_mem_singleton.2 rfl)⟩
  skipped _ _ evaluation _ hskipped := by
    refine ⟨rfl, .inl (by simp), .inr (accompanied_pair fun hfailure => ?_)⟩
    rw [hskipped] at hfailure
    cases hfailure
  enumeration s resources :=
    ⟨rfl, told_of_isFinding Discovery.isFinding_of_mem_notes (Discovery.accompanied_notes s _)⟩
  version policy answer := by
    have haccompanied := Readiness.accompanied_versionNotes policy answer
    obtain ⟨notes, hnotes, heq⟩ := Readiness.exists_versionNotes_eq policy answer
    refine ⟨rfl, .inr ⟨_, _, _, notes, heq, fun n hn => ?_⟩, .inr haccompanied⟩
    exact Change.isPaired_of_isFinding (hnotes n hn)
  noNodes := ⟨rfl, told_of_isFinding Readiness.isFinding_of_mem_noNodesNotes
    Readiness.accompanied_noNodesNotes⟩
  nodes policy least nodes := ⟨rfl, told_of_isFinding Readiness.isFinding_of_mem_nodesNotes
    (Readiness.accompanied_nodesNotes level policy least nodes)⟩
  storage policy names :=
    ⟨rfl, told_of_isFinding Readiness.isFinding_of_mem_storageNotes
      (Readiness.accompanied_storageNotes policy names)⟩
  resources context names d d' k resources := by
    have hfinding := k.notes_ensures_isFinding ⟨context, names, level, d⟩ resources
    have haccompanied := k.notes_ensures_accompanied ⟨context, names, level, d⟩ resources
    have h := ((hfinding.and haccompanied).mono fun _ h => told_of_isFinding h.1 h.2).parallel
    cases resources <;> exact h
  pods starts pods :=
    ⟨rfl, told_of_isFinding PodHealth.isFinding_of_mem_notes
      (Accompanied.flatMap fun p _ => PodHealth.accompanied_startNotes level starts pods p)⟩
  statistics context pods := by
    have hfinding := Statistics.gather_ensures_isFinding context pods
    have haccompanied := Statistics.gather_ensures_accompanied context pods
    exact ((hfinding.and haccompanied).mono fun _ h => told_of_isFinding h.1 h.2).parallel

end EdgeHealth
