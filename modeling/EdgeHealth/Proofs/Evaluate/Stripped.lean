import EdgeHealth.Proofs.Check.Stripped
import EdgeHealth.Proofs.Evaluate.Soundness
import EdgeHealth.Proofs.Run.Alike

/-!
# Every evaluation makes strippable notes

In the notes of an evaluation the lines for human readers follow other notes about their entry. The
discovery of an API and the statistics of the broker start with a line, which is followed at once by
another note about the same entry. So all notes are strippable, whatever the cluster replies.

## Main results

* `relatesNotes_strippable` : the notes of all evaluations are strippable.
-/

namespace EdgeHealth

namespace Note

/-- Notes about one entry of which the first adds no lines. -/
theorem strippable_of_place_eq {n : Note} {notes : List Note} (hn : n.isDisplay = false)
    (h : ∀ m ∈ notes, m.place = n.place) : Strippable (n :: notes) := by
  refine Led.strippable ⟨fun hdisplay => ?_, led_of_place_mem fun m hm => ?_⟩
  · rw [hn] at hdisplay
    cases hdisplay
  · rw [h m hm]
    exact List.mem_singleton_self n.place

/-- Notes about one entry of which the first adds lines and the second does not. -/
theorem strippable_cons_cons {target ns : String} {lines : List Display} {n : Note}
    {notes : List Note} (hn : n.isDisplay = false) (hplace : n.place = (target, ns))
    (h : ∀ m ∈ notes, m.place = (target, ns)) :
    Strippable (.display target ns lines :: n :: notes) := by
  obtain ⟨target', ns', change⟩ := n
  cases hplace
  exact Strippable.cons_display hn
    (strippable_of_place_eq hn (List.forall_mem_cons.2 ⟨rfl, h⟩))

end Note

open Note

/-! ### What an API serves -/

namespace Kind

theorem mem_kinds_service (k : Kind) : k ∈ k.service.kinds := by
  cases k <;> decide

end Kind

namespace Discovery

theorem place_of_mem_servedNotes {target : String} {k : Kind} :
    ∀ n ∈ servedNotes target k, n.place = (target, allNamespaces) := by
  simp [servedNotes]

/-- A kind that is served is one of the service. -/
theorem mem_kinds_of_mem_served {s : Service} {resources : List ApiResource} {k : Kind}
    (h : k ∈ served s resources) : k ∈ s.kinds := by
  have hservice : k.service = s := by simpa using (List.mem_filter.1 h).2
  exact hservice ▸ k.mem_kinds_service

/-- After the line that introduces them, the notes about what an API serves start with an
observation, and all are about one entry. -/
theorem strippable_notes (s : Service) (resources : List ApiResource) :
    Strippable (notes s (served s resources)) := by
  have hserved : ∀ ks : List Kind, ∀ n ∈ ks.flatMap (servedNotes s.api.text),
      n.place = (s.api.text, allNamespaces) := by
    intro ks n hn
    obtain ⟨k, -, hn⟩ := List.mem_flatMap.1 hn
    exact place_of_mem_servedNotes n hn
  unfold notes
  cases hempty : (served s resources).isEmpty with
  | true => exact strippable_cons_cons rfl rfl (hserved _)
  | false =>
    obtain ⟨k, hk⟩ := List.exists_mem_of_ne_nil _ (by simpa using hempty)
    cases hkinds : s.kinds.filter (served s resources).contains with
    | nil =>
      have hmem : k ∈ s.kinds.filter (served s resources).contains :=
        List.mem_filter.2 ⟨mem_kinds_of_mem_served hk, by simpa using hk⟩
      rw [hkinds] at hmem
      cases hmem
    | cons first rest =>
      exact strippable_cons_cons rfl rfl
        (List.forall_mem_cons.2 ⟨rfl, hserved rest⟩)

end Discovery

/-! ### Readiness of the cluster -/

namespace Readiness

theorem strippable_versionNotes (policy : ReadinessPolicy)
    (answer : Except ClusterError Version) : Strippable (versionNotes policy answer) :=
  strippable_of_place_eq rfl (List.forall_mem_cons.2 ⟨rfl, List.forall_mem_singleton.2 rfl⟩)

theorem strippable_noNodesNotes : Strippable noNodesNotes :=
  strippable_of_place_eq rfl (by simp)

theorem strippable_nodesNotes (level : DetailLevel) (policy : ReadinessPolicy) (least : Nat)
    (nodes : List Node) : Strippable (nodesNotes level policy least nodes) := by
  refine strippable_of_place_eq rfl fun n hn => ?_
  obtain ⟨node, -, hn⟩ := List.mem_flatMap.1 hn
  rcases List.mem_append.1 hn with hn | hn
  · obtain ⟨f, -, rfl⟩ := List.mem_map.1 hn
    rfl
  · cases List.mem_singleton.1 hn
    rfl

theorem strippable_storageNotes (policy : ReadinessPolicy) (names : List String) :
    Strippable (storageNotes policy names) :=
  strippable_of_place_eq rfl (by simp)

end Readiness

/-! ### Resources of a kind -/

namespace Kind

theorem resourceNotes_ensures_place (level : DetailLevel) (k : Kind) (ns : String) (r : Resource) :
    (k.resourceNotes level ns r).Ensures fun notes => ∀ n ∈ notes, n.place = (k.target, ns) := by
  refine .bind (Attempt.ensures_of_forall (fun _ => trivial) _) fun findings _ => ?_
  refine Attempt.ensures_pure fun n hn => ?_
  simp only [List.mem_cons, List.mem_append, List.mem_flatMap, List.not_mem_nil, or_false] at hn
  rcases hn with (rfl | ⟨f, -, hn⟩) | rfl
  · rfl
  · simp only [Finding.notes, List.mem_cons, List.not_mem_nil, or_false] at hn
    rcases hn with rfl | rfl <;> rfl
  · rfl

/-- The resources are counted in each namespace before they are looked at. -/
theorem notes_ensures_strippable (scope : Scope) (k : Kind) (resources : List Resource) :
    (k.notes scope resources).Ensures Strippable := by
  cases resources with
  | nil => exact Attempt.ensures_pure (strippable_of_place_eq rfl (by simp))
  | cons r rest =>
    let groups := (groupByNamespace (r :: rest)).toList
    let counts := groups.flatMap fun pair => k.countNotes pair.1 pair.2.length
    have hcounts : Led [] counts := Led.flatMap fun pair _ => by simp [countNotes, Led]
    have hknown : ∀ pair ∈ groups, (k.target, pair.1) ∈ counts.map place := fun pair hpair =>
      List.mem_map.2 ⟨_, List.mem_flatMap.2 ⟨pair, hpair, List.mem_cons_self⟩, rfl⟩
    refine .bind (P := fun details => ∀ notes ∈ details, Led (counts.map place) notes)
      (Attempt.Ensures.forEach _ fun pair hpair => ?_) fun details hdetails => ?_
    · obtain ⟨group, hgroup, hpair⟩ := List.mem_flatMap.1 hpair
      obtain ⟨_, -, rfl⟩ := List.mem_map.1 hpair
      refine (k.resourceNotes_ensures_place scope.level group.1 _).mono fun notes hnotes => ?_
      exact led_of_place_mem fun n hn => hnotes n hn ▸ hknown group hgroup
    · refine Attempt.ensures_pure (Led.strippable (hcounts.append ?_))
      rw [List.append_nil]
      exact Led.flatten hdetails

end Kind

/-! ### Pods and statistics -/

namespace PodHealth

theorem led_startNotes (level : DetailLevel) (starts : List PodPrefix) (pods : List Pod)
    (p : PodPrefix) : Led [] (startNotes level starts pods p) := by
  unfold startNotes
  split
  · split
    · simp [absenceNotes, Led]
    · trivial
  · exact Led.flatMap fun pod _ => by simp [podNotes, Led]

theorem strippable_notes (level : DetailLevel) (starts : List PodPrefix) (pods : List Pod) :
    Strippable (notes level starts pods) :=
  Led.strippable (Led.flatMap fun p _ => led_startNotes level starts pods p)

end PodHealth

namespace Statistics

theorem place_of_mem_record {ns condition : String} {status : Status} {value : Json} :
    ∀ n ∈ record ns condition status value, n.place = (target, ns) := by
  simp [record]

theorem place_of_mem_notes {ns : String} {stats : BrokerStats} :
    ∀ n ∈ notes ns stats, n.place = (target, ns) := by
  obtain ⟨records, heq, hrecords⟩ := exists_notes_eq_flatten ns stats
  intro n hn
  rw [heq] at hn
  obtain ⟨l, hl, hn⟩ := List.mem_flatten.1 hn
  obtain ⟨condition, status, value, -, rfl⟩ := hrecords l hl
  exact place_of_mem_record n hn

theorem strippable_fetchNotes (context : RunContext) (ns pod : String)
    (outcome : Option (Except ClusterError BrokerStats)) :
    Strippable (fetchNotes context ns pod outcome) := by
  simp only [fetchNotes]
  split
  · exact strippable_cons_cons rfl rfl place_of_mem_notes
  · exact strippable_cons_cons rfl rfl (by simp)

theorem gather_ensures_strippable (context : RunContext) (pods : List Pod) :
    (gather context pods).Ensures Strippable :=
  gather_ensures pods (fun _ => strippable_cons_cons rfl rfl (by simp))
    fun ns pod outcome => strippable_fetchNotes context ns pod outcome

end Statistics

/-- The notes of all evaluations are strippable. -/
theorem relatesNotes_strippable (level : DetailLevel) :
    RelatesNotes (fun notes notes' => notes = notes' ∧ Strippable notes) level level where
  detail := id
  verdict _ _ _ := ⟨rfl, strippable_of_place_eq rfl (by simp)⟩
  skipped _ _ _ _ _ := ⟨rfl, strippable_of_place_eq rfl (by simp)⟩
  enumeration s resources := ⟨rfl, Discovery.strippable_notes s resources⟩
  version policy answer := ⟨rfl, Readiness.strippable_versionNotes policy answer⟩
  noNodes := ⟨rfl, Readiness.strippable_noNodesNotes⟩
  nodes policy least nodes := ⟨rfl, Readiness.strippable_nodesNotes level policy least nodes⟩
  storage policy names := ⟨rfl, Readiness.strippable_storageNotes policy names⟩
  resources context names d d' k resources := by
    have h := (k.notes_ensures_strippable ⟨context, names, level, d⟩ resources).parallel
    cases resources <;> exact h
  pods starts pods := ⟨rfl, PodHealth.strippable_notes level starts pods⟩
  statistics context pods := (Statistics.gather_ensures_strippable context pods).parallel

/-- Strippable notes make the check without lines and, with the lines left out, the one with them.
-/
theorem makesChecks_strippable :
    MakesChecks (fun notes notes' => notes = notes' ∧ Strippable notes)
      (fun c c' => c = c'.withoutDisplays) false true where
  ofNotes := by
    rintro name description notes _ ⟨rfl, h⟩
    exact h name description
  shown _ := rfl

end EdgeHealth
