import EdgeHealth.Proofs.Evaluate.Groups
import EdgeHealth.Proofs.Evaluate.Stripped

/-!
# The namespaces of which a check tells

The entries of a check belong to the namespaces to which its notes are addressed. An evaluation of
resources or pods addresses its notes to the namespaces of these, and everything else is told of all
namespaces together. So a check tells of no other namespaces than those that it has looked at.

## Main definitions

* `Check.Confined` : a check that tells of some namespaces only, besides of all together.

## Main results

* `Check.confined_ofNotesFor` : a check is as confined as its notes.
* `Kind.notes_ensures_confined`, `PodHealth.confined_notes`, `Statistics.confined_fetchNotes` : the
  notes of the evaluations.
-/

namespace EdgeHealth

variable {home : String → Prop}

/-- A note that tells of some namespaces, or of all together. -/
def Note.Confined (home : String → Prop) (n : Note) : Prop := home n.ns ∨ n.ns = allNamespaces

@[simp] theorem Note.confined_observe {target ns condition : String} {evaluation : Evaluation} :
    (Note.observe target ns condition evaluation).Confined home ↔ home ns ∨ ns = allNamespaces :=
  Iff.rfl

@[simp] theorem Note.confined_display {target ns : String} {lines : List Display} :
    (Note.display target ns lines).Confined home ↔ home ns ∨ ns = allNamespaces := Iff.rfl

/-- A check whose entries tell of some namespaces, or of all together. -/
def Check.Confined (home : String → Prop) (c : Check) : Prop :=
  ∀ target ns entry, (target, ns, entry) ∈ c.entries → home ns ∨ ns = allNamespaces

namespace Check

theorem confined_empty (name description : String) : (empty name description).Confined home :=
  fun _ _ _ h => nomatch h

theorem Confined.note {c : Check} (hc : c.Confined home) {n : Note} (hn : n.Confined home) :
    (c.note n).Confined home := by
  intro target ns entry hentry
  rw [mem_entries_iff, entryAt?_note] at hentry
  split at hentry
  · next h => exact h.2 ▸ hn
  · exact hc target ns entry (mem_entries_iff.2 hentry)

theorem confined_ofNotes {name description : String} {notes : List Note}
    (h : ∀ n ∈ notes, n.Confined home) : (ofNotes name description notes).Confined home := by
  have hfoldl : (notes : List Note) → (∀ n ∈ notes, n.Confined home) → ∀ c : Check,
      c.Confined home → (notes.foldl Check.note c).Confined home := by
    intro notes hnotes
    induction notes with
    | nil => exact fun c hc => hc
    | cons n notes ih =>
      obtain ⟨hn, hnotes⟩ := List.forall_mem_cons.1 hnotes
      exact fun c hc => ih hnotes (c.note n) (hc.note hn)
  exact hfoldl notes h _ (confined_empty name description)

/-- A check tells of the namespaces of its notes. -/
theorem confined_ofNotesFor {withDisplays : Bool} {name description : String} {notes : List Note}
    (h : ∀ n ∈ notes, n.Confined home) :
    (ofNotesFor withDisplays name description notes).Confined home := by
  unfold ofNotesFor
  split
  · exact confined_ofNotes h
  · exact confined_ofNotes fun n hn => h n (List.mem_of_mem_filter hn)

theorem confined_failed (name description target : String) (e : ClusterError) :
    (failed name description target e).Confined home :=
  confined_ofNotes (List.forall_mem_singleton.2 (.inr rfl))

theorem confined_cancelled (name description target : String) :
    (cancelled name description target).Confined home :=
  confined_ofNotes (List.forall_mem_singleton.2 (.inr rfl))

end Check

namespace Discovery

theorem confined_check (withDisplays : Bool) (s : Service) (resources : List ApiResource) :
    (check withDisplays s (served s resources)).Confined home := by
  refine Check.confined_ofNotesFor ?_
  refine List.forall_mem_append.2 ⟨List.forall_mem_cons.2 ⟨by simp, ?_⟩, fun n hn => .inr ?_⟩
  · split <;> simp
  · obtain ⟨k, -, hn⟩ := List.mem_flatMap.1 hn
    exact congrArg Prod.snd (place_of_mem_servedNotes n hn)

theorem confined_missingApi (withDisplays : Bool) (s : Service) :
    (missingApi withDisplays s).Confined home :=
  Check.confined_ofNotesFor (by simp)

theorem confined_absentKind (withDisplays : Bool) (k : Kind) :
    (absentKind withDisplays k).Confined home :=
  Check.confined_ofNotesFor (by simp)

end Discovery

/-! ### Resources -/

namespace Kind

variable {resources : List Resource}

/-- The namespaces in which resources are looked at. -/
theorem home_of_mem_groups (h : ∀ r ∈ resources, home (Resource.ns r))
    {pair : String × List Resource}
    (hpair : pair ∈ (groupByNamespace resources).toList) : home pair.1 := by
  obtain ⟨r, hr, hns⟩ := ((isGrouping_groupByNamespace resources).mem_keys_iff pair.1).1
    (List.mem_map.2 ⟨pair, hpair, rfl⟩)
  exact hns ▸ h r hr

theorem confined_countNotes (k : Kind) {ns : String} (h : home ns) (count : Nat) :
    ∀ n ∈ k.countNotes ns count, n.Confined home := by
  simp [countNotes, h]

/-- The notes about resources tell of the namespaces of these. -/
theorem notes_ensures_confined (scope : Scope) (k : Kind)
    (h : ∀ r ∈ resources, home (Resource.ns r)) :
    (k.notes scope resources).Ensures fun notes => ∀ n ∈ notes, n.Confined home := by
  cases resources with
  | nil => exact Attempt.ensures_pure (by simp [absenceNotes])
  | cons r rest =>
    refine .bind (P := fun details => ∀ notes ∈ details, ∀ n ∈ notes, n.Confined home)
      (Attempt.Ensures.forEach _ fun pair hpair => ?_) fun details hdetails =>
        Attempt.ensures_pure fun n hn => ?_
    · obtain ⟨group, hgroup, hpair⟩ := List.mem_flatMap.1 hpair
      obtain ⟨_, -, rfl⟩ := List.mem_map.1 hpair
      refine (k.resourceNotes_ensures_place scope.level group.1 _).mono fun notes hnotes n hn => ?_
      have hns : n.ns = group.1 := congrArg Prod.snd (hnotes n hn)
      exact .inl (hns ▸ home_of_mem_groups h hgroup)
    · rcases List.mem_append.1 hn with hn | hn
      · obtain ⟨group, hgroup, hn⟩ := List.mem_flatMap.1 hn
        exact k.confined_countNotes (home_of_mem_groups h hgroup) _ n hn
      · obtain ⟨notes, hnotes, hn⟩ := List.mem_flatten.1 hn
        exact hdetails notes hnotes n hn

end Kind

/-! ### Pods and statistics -/

namespace PodHealth

theorem confined_absenceNotes (start : String) : ∀ n ∈ absenceNotes start, n.Confined home := by
  simp [absenceNotes]

theorem confined_podNotes (level : DetailLevel) (target : String) {p : Pod}
    (h : home (p.nsOr allNamespaces)) : ∀ n ∈ podNotes level target p, n.Confined home := by
  simp [podNotes, h]

/-- The notes about pods tell of the namespaces of these. -/
theorem confined_notes (level : DetailLevel) (starts : List PodPrefix) {pods : List Pod}
    (h : ∀ p ∈ pods, home (p.nsOr allNamespaces)) :
    ∀ n ∈ notes level starts pods, n.Confined home := by
  intro n hn
  obtain ⟨start, -, hn⟩ := List.mem_flatMap.1 hn
  rw [startNotes] at hn
  split at hn
  · split at hn
    · exact confined_absenceNotes start.start n hn
    · cases hn
  · obtain ⟨p, hp, hn⟩ := List.mem_flatMap.1 hn
    exact confined_podNotes level _ (h p (List.mem_of_mem_filter hp)) n hn

end PodHealth

namespace Statistics

theorem confined_record {ns : String} (hns : home ns ∨ ns = allNamespaces) (condition : String)
    (status : Status) (value : Json) : ∀ n ∈ record ns condition status value, n.Confined home := by
  intro n hn
  have hplace : n.ns = ns := congrArg Prod.snd (place_of_mem_record n hn)
  rwa [Note.Confined, hplace]

/-- The notes about what a pod serves tell of the namespace of the pod. -/
theorem confined_fetchNotes (context : RunContext) {ns : String} (hns : home ns) (pod : String)
    (outcome : Option (Except ClusterError BrokerStats)) :
    ∀ n ∈ fetchNotes context ns pod outcome, n.Confined home := by
  intro n hn
  simp only [fetchNotes] at hn
  split at hn
  · rcases List.mem_append.1 hn with hn | hn
    · exact confined_record (.inl hns) _ _ _ n hn
    · have hplace : n.ns = ns := congrArg Prod.snd (place_of_mem_notes n hn)
      exact .inl (hplace ▸ hns)
  · exact confined_record (.inl hns) _ _ _ n hn

end Statistics

end EdgeHealth
