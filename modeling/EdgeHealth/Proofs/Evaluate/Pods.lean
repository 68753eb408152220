import Mathlib.Data.List.Nodup
import EdgeHealth.Proofs.Check.Contents
import EdgeHealth.Proofs.Evaluate.Overflow

/-!
# What the check of the pods records

The starts of names divide the pods: a pod belongs to the longest start that its name begins with,
and there is no more than one, since two starts of one name that are equally long are the same. So
starts may go on from one another, and a pod is still recorded only once: under the target of its
start and in its namespace, in the order of the pods. A pod whose name begins with none of the
starts is not recorded. For a start that has to have a pod and has none, a single warning is
recorded, in all namespaces.

This is so wherever the notes about the pods can be made. They cannot where lines are wanted about a
pod whose restarts are too many to be added: then the check is aborted, and nothing is recorded.

## Main definitions

* `PodHealth.IsLongestStart` : the start that a name belongs to.
* `PodHealth.phaseRecord`, `PodHealth.absenceRecord` : what is recorded.
* `PodHealth.Partitions` : a check that records pods by their starts.

## Main results

* `PodHealth.bestStart?_eq_some_iff` : the start that is found for a name.
* `PodHealth.partitions_ofNotesFor` : the check of the notes about pods.
* `PodHealth.notes_partition_pods` : the pods, their records and the number of these.
-/

namespace EdgeHealth

/-! ### Lists put together -/

section Lists

variable {α β : Type}

/-- A list that is put together is filtered as its parts are, where each part is kept as a whole or
left out as a whole. -/
theorem filter_flatMap_of_forall_eq {f : α → List β} {p : β → Bool} {q : α → Bool} :
    {l : List α} → (∀ a ∈ l, ∀ b ∈ f a, p b = q a) →
    (l.flatMap f).filter p = (l.filter q).flatMap f
  | [], _ => rfl
  | a :: l, h => by
    obtain ⟨ha, hl⟩ := List.forall_mem_cons.1 h
    rw [List.flatMap_cons, List.filter_append, filter_flatMap_of_forall_eq hl]
    cases hq : q a with
    | true =>
      rw [List.filter_eq_self.2 fun b hb => (ha b hb).trans hq, List.filter_cons_of_pos hq,
        List.flatMap_cons]
    | false =>
      have hnone : (f a).filter p = [] :=
        List.filter_eq_nil_iff.2 fun b hb => by rw [ha b hb, hq]; exact Bool.false_ne_true
      rw [hnone, List.filter_cons_of_neg (by rw [hq]; exact Bool.false_ne_true), List.nil_append]

/-- The parts of a list that belong to distinct members are, put together, the part that belongs to
any of them, if nothing belongs to two. -/
theorem perm_flatMap_filter {q : α → β → Bool} {l : List β} : {ks : List α} → ks.Nodup →
    (∀ b ∈ l, ∀ a ∈ ks, ∀ a' ∈ ks, q a b → q a' b → a = a') →
    (ks.flatMap fun a => l.filter (q a)).Perm (l.filter fun b => ks.any fun a => q a b)
  | [], _, _ => by simp
  | a :: ks, hnodup, hq => by
    obtain ⟨ha, hks⟩ := List.nodup_cons.1 hnodup
    have ih := perm_flatMap_filter hks fun b hb c hc c' hc' =>
      hq b hb c (List.mem_cons_of_mem a hc) c' (List.mem_cons_of_mem a hc')
    let both := l.filter fun b => (a :: ks).any fun c => q c b
    have hown : both.filter (q a) = l.filter (q a) := by
      rw [List.filter_filter]
      exact List.filter_congr fun b _ => by cases h : q a b <;> simp [h]
    have hothers : both.filter (fun b => !q a b) = l.filter fun b => ks.any fun c => q c b := by
      rw [List.filter_filter]
      refine List.filter_congr fun b hb => ?_
      cases h : q a b with
      | false => simp [h]
      | true =>
        have hnone : (ks.any fun c => q c b) = false := by
          refine List.any_eq_false.2 fun c hc hcb => ha ?_
          have heq := hq b hb a List.mem_cons_self c (List.mem_cons_of_mem a hc) h hcb
          rwa [heq]
        simp [hnone]
    have hboth := List.filter_append_perm (q a) both
    rw [hown, hothers] at hboth
    exact (ih.append_left _).trans hboth

/-- Parts of one member or none. -/
theorem flatMap_ite_singleton {p : α → Bool} {f : α → β} (l : List α) :
    (l.flatMap fun a => if p a then [f a] else []) = (l.filter p).map f := by
  induction l with
  | nil => rfl
  | cons a l ih => cases h : p a <;> simp [h, ih]

end Lists

namespace PodHealth

/-! ### Starts of names -/

/-- The start that a name belongs to: the longest of those that it begins with. -/
structure IsLongestStart (starts : List PodPrefix) (name start : String) : Prop where
  /-- It is one of the starts. -/
  mem : ∃ p ∈ starts, p.start = start
  /-- The name begins with it. -/
  begins : start.toList <+: name.toList
  /-- The name begins with none that is longer. -/
  longest : ∀ p ∈ starts, p.start.toList <+: name.toList → p.start.length ≤ start.length

variable {starts : List PodPrefix} {name start : String}

/-- A name belongs to one start at most. -/
theorem IsLongestStart.unique {start' : String} (h : IsLongestStart starts name start)
    (h' : IsLongestStart starts name start') : start = start' := by
  obtain ⟨p, hp, rfl⟩ := h.mem
  obtain ⟨q, hq, rfl⟩ := h'.mem
  have hlength : p.start.toList.length = q.start.toList.length :=
    Nat.le_antisymm (h'.longest p hp h.begins) (h.longest q hq h'.begins)
  have hsame := (List.prefix_of_prefix_length_le h.begins h'.begins
    (Nat.le_of_eq hlength)).eq_of_length hlength
  exact String.toList_inj.1 hsame

/-- A start that the name begins with and that is longer than the one found so far. -/
theorem IsLongestStart.cons_of_lt {p : PodPrefix} {best : String}
    (h : IsLongestStart starts name best) (hp : p.start.toList <+: name.toList)
    (hlt : best.length < p.start.length) : IsLongestStart (p :: starts) name p.start where
  mem := ⟨p, List.mem_cons_self, rfl⟩
  begins := hp
  longest q hq hbegins := by
    rcases List.mem_cons.1 hq with rfl | hq
    · exact Nat.le_refl _
    · exact Nat.le_trans (h.longest q hq hbegins) (Nat.le_of_lt hlt)

/-- A start that the name does not begin with, or that is no longer than the one found so far. -/
theorem IsLongestStart.cons {p : PodPrefix} (h : IsLongestStart starts name start)
    (hp : p.start.toList <+: name.toList → p.start.length ≤ start.length) :
    IsLongestStart (p :: starts) name start where
  mem := by
    obtain ⟨q, hq, hstart⟩ := h.mem
    exact ⟨q, List.mem_cons_of_mem p hq, hstart⟩
  begins := h.begins
  longest := List.forall_mem_cons.2 ⟨hp, h.longest⟩

/-- What is found for a name: the longest start, or none if there is none. -/
theorem bestStart?_spec (name : String) : (starts : List PodPrefix) →
    (∀ start, bestStart? name starts = some start → IsLongestStart starts name start) ∧
    (bestStart? name starts = none → ∀ p ∈ starts, ¬ p.start.toList <+: name.toList)
  | [] => by simp [bestStart?]
  | p :: starts => by
    obtain ⟨hsome, hnone⟩ := bestStart?_spec name starts
    have hbegins : name.startsWith p.start = true ↔ p.start.toList <+: name.toList :=
      String.startsWith_string_iff
    cases hbest : bestStart? name starts with
    | none =>
      have hnone := hnone hbest
      by_cases hp : name.startsWith p.start = true
      · have hfound : bestStart? name (p :: starts) = some p.start := by
          rw [bestStart?, hbest]
          exact if_pos hp
        have hlongest : IsLongestStart (p :: starts) name p.start :=
          ⟨⟨p, List.mem_cons_self, rfl⟩, hbegins.1 hp, List.forall_mem_cons.2
            ⟨fun _ => Nat.le_refl _, fun q hq hq' => absurd hq' (hnone q hq)⟩⟩
        simpa [hfound] using hlongest
      · have hfound : bestStart? name (p :: starts) = none := by
          rw [bestStart?, hbest]
          exact if_neg hp
        have hp' : ¬ p.start.toList <+: name.toList := fun h => hp (hbegins.2 h)
        simpa [hfound, hp'] using hnone
    | some best =>
      have hlongest := hsome best hbest
      by_cases hp : (name.startsWith p.start && best.length < p.start.length) = true
      · have hfound : bestStart? name (p :: starts) = some p.start := by
          rw [bestStart?, hbest]
          exact if_pos hp
        rw [Bool.and_eq_true, decide_eq_true_eq] at hp
        simpa [hfound] using hlongest.cons_of_lt (hbegins.1 hp.1) hp.2
      · have hfound : bestStart? name (p :: starts) = some best := by
          rw [bestStart?, hbest]
          exact if_neg hp
        rw [Bool.and_eq_true, decide_eq_true_eq] at hp
        have hp' : p.start.toList <+: name.toList → p.start.length ≤ best.length :=
          fun h => Nat.not_lt.1 fun hlt => hp ⟨hbegins.2 h, hlt⟩
        simpa [hfound] using hlongest.cons hp'

/-- **The start that is found for a name is the one that it belongs to.** -/
theorem bestStart?_eq_some_iff :
    bestStart? name starts = some start ↔ IsLongestStart starts name start := by
  obtain ⟨hsome, hnone⟩ := bestStart?_spec name starts
  refine ⟨hsome start, fun h => ?_⟩
  cases hbest : bestStart? name starts with
  | none =>
    obtain ⟨p, hp, rfl⟩ := h.mem
    exact absurd h.begins (hnone hbest p hp)
  | some best => rw [(hsome best hbest).unique h]

instance (starts : List PodPrefix) (name start : String) :
    Decidable (IsLongestStart starts name start) :=
  decidable_of_iff _ bestStart?_eq_some_iff

/-- A name belongs to a start if it begins with any. -/
theorem exists_isLongestStart_iff :
    (∃ start, IsLongestStart starts name start) ↔
      ∃ p ∈ starts, p.start.toList <+: name.toList := by
  constructor
  · rintro ⟨start, h⟩
    obtain ⟨p, hp, rfl⟩ := h.mem
    exact ⟨p, hp, h.begins⟩
  · rintro ⟨p, hp, hbegins⟩
    cases hbest : bestStart? name starts with
    | none => exact absurd hbegins ((bestStart?_spec name starts).2 hbest p hp)
    | some best => exact ⟨best, bestStart?_eq_some_iff.1 hbest⟩

/-! ### What is recorded -/

/-- What is recorded of a pod: a success if it runs or has succeeded, an error if it has failed, and
a warning in any other phase and in none. -/
def phaseRecord (pod : Pod) : String × Evaluation :=
  ("status.phase",
    { status := match pod.phase? with
        | some "Running" => .success
        | some "Succeeded" => .success
        | some "Failed" => .error
        | _ => .warning
      value := .object [("name", .string pod.name),
        ("status.phase", (pod.phase?.map Json.string).getD .null)]
      name := some pod.name
      kind := some "pod" })

/-- What is recorded when there is no pod for a start. -/
def absenceRecord (start : String) : String × Evaluation :=
  (s!"len({target start})>=1",
    { status := .warning
      value := .string s!"{start} pod not detected."
      name := none
      kind := some "pod" })

/-- The pods that belong to a start, in their order. -/
def belonging (starts : List PodPrefix) (pods : List Pod) (start : String) : List Pod :=
  pods.filter fun pod => IsLongestStart starts pod.name start

/-- The starts that have to have a pod and have none. -/
def missing (starts : List PodPrefix) (pods : List Pod) : List PodPrefix :=
  starts.filter fun p => p.required && (belonging starts pods p.start).isEmpty

/-- The pods whose names begin with any of the starts. -/
def known (starts : List PodPrefix) (pods : List Pod) : List Pod :=
  pods.filter fun pod => ∃ p ∈ starts, p.start.toList <+: pod.name.toList

/-- A check that records pods by the starts that they belong to. -/
structure Partitions (starts : List PodPrefix) (pods : List Pod) (c : Check) : Prop where
  /-- All entries are about starts. -/
  target_eq : ∀ entry ∈ c.entries, ∃ p ∈ starts, entry.1 = target p.start
  /-- Every observation has a condition beside it. -/
  isConsistent : ∀ entry ∈ c.entries, entry.2.2.isConsistent
  /-- The entry of a start in a namespace holds its pods of that namespace, in their order, and that
  of all namespaces holds whether a pod is missing. -/
  pairs_eq : ∀ p ∈ starts, ∀ ns,
    ((c.entryAt? (target p.start) ns).getD Entry.empty).pairs =
      ((belonging starts pods p.start).filter fun pod => pod.nsOr allNamespaces = ns).map
          phaseRecord ++
        if p ∈ missing starts pods ∧ ns = allNamespaces then [absenceRecord p.start] else []
  /-- The pods that are known and the starts that miss a pod are recorded once each, and nothing
  else is. -/
  evaluations_perm : c.evaluations.Perm
    (((known starts pods).map phaseRecord ++
      (missing starts pods).map fun p => absenceRecord p.start).map Prod.snd)

/-! ### The notes about pods -/

section

variable (level : DetailLevel) (starts : List PodPrefix) (pods : List Pod)

/-- The notes about a start, as far as they record something. -/
theorem startNotes_eq (p : PodPrefix) :
    startNotes level starts pods p =
      (belonging starts pods p.start).flatMap (podNotes level (target p.start)) ++
        if p.required && (belonging starts pods p.start).isEmpty then absenceNotes p.start
        else [] := by
  have hfilter : (pods.filter fun pod => bestStart? pod.name starts == some p.start) =
      belonging starts pods p.start :=
    List.filter_congr fun pod _ => by
      rw [Bool.eq_iff_iff, beq_iff_eq, bestStart?_eq_some_iff, decide_eq_true_iff]
  rw [startNotes, hfilter]
  cases hpods : belonging starts pods p.start with
  | nil => simp
  | cons pod rest => simp

theorem phaseStatus_eq (phase : Option String) :
    phaseStatus phase = match phase with
      | some "Running" => .success
      | some "Succeeded" => .success
      | some "Failed" => .error
      | _ => .warning := by
  cases phase with
  | none => rfl
  | some phase => split <;> simp_all [phaseStatus]

theorem observed_podNotes (target : String) (pod : Pod) :
    (podNotes level target pod).flatMap (fun n => n.change.observed) = [phaseRecord pod] := by
  cases hphase : pod.phase? <;> simp [podNotes, phaseRecord, hphase, phaseStatus_eq] <;> rfl

theorem target_of_mem_startNotes {p : PodPrefix} :
    ∀ n ∈ startNotes level starts pods p, n.target = target p.start := by
  intro n hn
  rw [startNotes_eq] at hn
  rcases List.mem_append.1 hn with hn | hn
  · obtain ⟨pod, -, hn⟩ := List.mem_flatMap.1 hn
    simp only [podNotes, List.mem_cons, List.not_mem_nil, or_false] at hn
    rcases hn with rfl | rfl <;> rfl
  · split at hn
    · simp only [absenceNotes, List.mem_cons, List.not_mem_nil, or_false] at hn
      rcases hn with rfl | rfl <;> rfl
    · cases hn

/-- What the notes about a start record. -/
theorem observed_startNotes (p : PodPrefix) :
    (startNotes level starts pods p).flatMap (fun n => n.change.observed) =
      (belonging starts pods p.start).map phaseRecord ++
        if p.required && (belonging starts pods p.start).isEmpty then [absenceRecord p.start]
        else [] := by
  rw [startNotes_eq, List.flatMap_append, List.flatMap_assoc]
  simp only [observed_podNotes, ← List.map_eq_flatMap]
  split <;> rfl

/-- What the notes about a start record in a namespace. -/
theorem observed_filter_startNotes (p : PodPrefix) (ns : String) :
    ((startNotes level starts pods p).filter fun n => n.place = (target p.start, ns)).flatMap
        (fun n => n.change.observed) =
      ((belonging starts pods p.start).filter fun pod => pod.nsOr allNamespaces = ns).map
          phaseRecord ++
        if (p.required && (belonging starts pods p.start).isEmpty) ∧ ns = allNamespaces then
          [absenceRecord p.start]
        else [] := by
  have hpods : ((belonging starts pods p.start).flatMap (podNotes level (target p.start))).filter
        (fun n => n.place = (target p.start, ns)) =
      ((belonging starts pods p.start).filter fun pod => pod.nsOr allNamespaces = ns).flatMap
        (podNotes level (target p.start)) := by
    refine filter_flatMap_of_forall_eq fun pod _ n hn => ?_
    simp only [podNotes, List.mem_cons, List.not_mem_nil, or_false] at hn
    rcases hn with rfl | rfl <;> simp
  have habsence : ((absenceNotes p.start).filter fun n => n.place = (target p.start, ns)).flatMap
        (fun n => n.change.observed) =
      if ns = allNamespaces then [absenceRecord p.start] else [] := by
    by_cases hns : ns = allNamespaces
    · subst hns
      simp [absenceNotes]
      rfl
    · simp [absenceNotes, hns, Ne.symm hns]
  rw [startNotes_eq, List.filter_append, hpods, List.flatMap_append, List.flatMap_assoc]
  simp only [observed_podNotes, ← List.map_eq_flatMap, ite_and]
  split
  · rw [habsence]
  · rfl

theorem target_injective {start start' : String} (h : target start = target start') :
    start = start' := by
  have hsame : toString start = toString start' := by simpa [target] using h
  exact hsame

/-- The notes with the target of a start are the notes about it. -/
theorem filter_place_notes (hdistinct : (starts.map PodPrefix.start).Nodup) {p : PodPrefix}
    (hp : p ∈ starts) (ns : String) :
    ((notes level starts pods).filter fun n => n.place = (target p.start, ns)) =
      (startNotes level starts pods p).filter fun n => n.place = (target p.start, ns) := by
  rw [notes, List.filter_flatMap, flatMap_eq_of_nodup (.of_map _ hdistinct) hp]
  intro q hq hne
  refine List.filter_eq_nil_iff.2 fun n hn hplace => hne ?_
  have htarget : target q.start = target p.start :=
    (target_of_mem_startNotes level starts pods n hn).symm.trans
      (congrArg Prod.fst (of_decide_eq_true hplace))
  exact List.inj_on_of_nodup_map hdistinct hq hp (target_injective htarget)

/-- The pods that belong to the starts are those that are known. -/
theorem perm_flatMap_belonging (hdistinct : (starts.map PodPrefix.start).Nodup) :
    (starts.flatMap fun p => belonging starts pods p.start).Perm (known starts pods) := by
  have hone : ∀ pod ∈ pods, ∀ p ∈ starts, ∀ p' ∈ starts,
      decide (IsLongestStart starts pod.name p.start) →
      decide (IsLongestStart starts pod.name p'.start) → p = p' := by
    intro pod _ p hp p' hp' h h'
    exact List.inj_on_of_nodup_map hdistinct hp hp'
      ((of_decide_eq_true h).unique (of_decide_eq_true h'))
  have hknown : known starts pods =
      pods.filter fun pod => starts.any fun p => IsLongestStart starts pod.name p.start := by
    refine List.filter_congr fun pod _ => ?_
    rw [Bool.eq_iff_iff, decide_eq_true_iff, ← exists_isLongestStart_iff, List.any_eq_true]
    constructor
    · rintro ⟨start, h⟩
      obtain ⟨p, hp, rfl⟩ := h.mem
      exact ⟨p, hp, decide_eq_true h⟩
    · rintro ⟨p, -, h⟩
      exact ⟨p.start, of_decide_eq_true h⟩
  rw [hknown]
  exact perm_flatMap_filter (.of_map _ hdistinct) hone

/-- What the notes record: the pods that are known and the starts that miss a pod. -/
theorem perm_observed_notes (hdistinct : (starts.map PodPrefix.start).Nodup) :
    ((notes level starts pods).flatMap fun n => n.change.observed).Perm
      ((known starts pods).map phaseRecord ++
        (missing starts pods).map fun p => absenceRecord p.start) := by
  rw [notes, List.flatMap_assoc]
  simp only [observed_startNotes]
  refine (List.flatMap_append_perm _ _ _).symm.trans (.append ?_ ?_)
  · rw [← List.map_flatMap]
    exact (perm_flatMap_belonging starts pods hdistinct).map _
  · rw [flatMap_ite_singleton]
    exact .refl _

end

/-! ### The check of the pods -/

variable {pods : List Pod}

/-- The check of the notes about pods records them by their starts. -/
theorem partitions_ofNotesFor (withDisplays : Bool) (level : DetailLevel)
    (name description : String) (hdistinct : (starts.map PodPrefix.start).Nodup) :
    Partitions starts pods
      (.ofNotesFor withDisplays name description (notes level starts pods)) := by
  have hfinding : ∀ n ∈ notes level starts pods, n.change.isFinding := isFinding_of_mem_notes
  have hpaired : ∀ n ∈ notes level starts pods, n.change.isPaired :=
    fun n hn => Change.isPaired_of_isFinding (hfinding n hn)
  have hsound := Check.isSound_ofNotesFor withDisplays name description hpaired
  refine ⟨fun entry hentry => ?_, fun entry hentry => ?_, fun p hp ns => ?_, ?_⟩
  · obtain ⟨n, hn, hplace⟩ := Check.exists_note_of_mem_entries name description hentry
    obtain ⟨p, hp, hn⟩ := List.mem_flatMap.1 hn
    exact ⟨p, hp, (congrArg Prod.fst hplace).symm.trans
      (target_of_mem_startNotes level starts pods n hn)⟩
  · exact beq_iff_eq.2 (hsound.entry_isSound (Check.mem_entries_iff.1 hentry)).length_eq
  · rw [Check.pairs_entryAt?_ofNotesFor name description withDisplays hpaired,
      filter_place_notes level starts pods hdistinct hp, observed_filter_startNotes]
    simp only [missing, List.mem_filter, hp, true_and]
  · refine (Check.perm_observed_ofNotesFor withDisplays name description hpaired).trans ?_
    exact (perm_observed_notes level starts pods hdistinct).map _

/-- The check of the notes about pods has as many observations as there are known pods and starts
that miss a pod. -/
theorem Partitions.length_evaluations {c : Check} (h : Partitions starts pods c) :
    c.evaluations.length = (known starts pods).length + (missing starts pods).length := by
  have hlength := h.evaluations_perm.length_eq
  rwa [List.length_map, List.length_append, List.length_map, List.length_map] at hlength

theorem anyOverflows_iff :
    AnyOverflows starts pods ↔ ∃ pod ∈ known starts pods, Overflows pod.containers := by
  simp only [AnyOverflows, known, List.mem_filter, decide_eq_true_iff, and_assoc]

/-- **The starts of names divide the pods.** A pod whose name begins with any of distinct starts
belongs to exactly one of them, the longest. Where the notes about the pods are made, the check
records it once, under the target of that start and in its own namespace, with the status of its
phase, and the pods of one entry stand in their order. Other pods are not recorded. A start that has
to have a pod and has none is recorded by one warning in all namespaces, and any other one is not.
So there are as many observations as there are known pods and starts that miss a pod. The notes are
made unless more than one line is wanted about a known pod whose restarts cannot be added; then the
check is aborted. -/
theorem notes_partition_pods (withDisplays : Bool) (level : DetailLevel)
    (name description : String) {starts : List PodPrefix}
    (hdistinct : (starts.map PodPrefix.start).Nodup) (pods : List Pod) (responder : Responder)
    (past : Trace) (limit : Option Nat) (now : Nat) :
    let result := ((gather withDisplays level starts pods).run responder past limit now).result
    (∀ pod ∈ known starts pods, ∃! start, IsLongestStart starts pod.name start) ∧
    (∀ notes, result = .ok (.ok notes) →
      let c := Check.ofNotesFor withDisplays name description notes
      Partitions starts pods c ∧
        c.evaluations.length = (known starts pods).length + (missing starts pods).length) ∧
    ((∃ notes, result = .ok (.ok notes)) ↔
      ¬ (withDisplays = true ∧ level ≠ .summary ∧
        ∃ pod ∈ known starts pods, Overflows pod.containers)) ∧
    (result = .error .aborted ↔
      withDisplays = true ∧ level ≠ .summary ∧
        ∃ pod ∈ known starts pods, Overflows pod.containers) := by
  intro result
  have hlongest : ∀ pod ∈ known starts pods, ∃! start, IsLongestStart starts pod.name start := by
    intro pod hpod
    obtain ⟨start, hstart⟩ :=
      exists_isLongestStart_iff.2 (of_decide_eq_true (List.mem_filter.1 hpod).2)
    exact ⟨start, hstart, fun _ hstart' => hstart'.unique hstart⟩
  rw [← anyOverflows_iff, ← isTooMuch_iff]
  cases htoo : isTooMuch withDisplays level starts pods with
  | true =>
    have hresult : result = .error .aborted := by
      simp only [result, gather_of_isTooMuch htoo]
      rfl
    rw [hresult]
    exact ⟨hlongest, nofun, by simp, by simp⟩
  | false =>
    have hresult : result = .ok (.ok (notes level starts pods)) := by
      simp only [result, gather_of_not_isTooMuch htoo]
      rfl
    rw [hresult]
    refine ⟨hlongest, ?_, by simp, by simp⟩
    rintro _ ⟨⟩
    have hc : Partitions starts pods (.ofNotesFor withDisplays name description _) :=
      partitions_ofNotesFor withDisplays level name description hdistinct
    exact ⟨hc, hc.length_evaluations⟩

/-- A pod with a name, perhaps a namespace, and a phase. -/
private def podIn (name : String) (ns : Option String) (phase : String) : Pod where
  metadata := ⟨some name, ns, none⟩
  spec := none
  status := some ⟨some phase, none, none⟩

/-- Starts that go on from one another: the longer one takes its pods away from the shorter one,
which then misses a pod. -/
theorem notes_partition_pods_nested :
    let starts : List PodPrefix := [⟨"aio-opc", true⟩, ⟨"aio-opc-opc", false⟩, ⟨"aio-mq", true⟩]
    let pods := [podIn "aio-opc-opc-1" (some "edge") "Running", podIn "other" none "Failed",
      podIn "aio-mq-0" none "Pending"]
    (starts.map PodPrefix.start).Nodup ∧
    IsLongestStart starts "aio-opc-opc-1" "aio-opc-opc" ∧
    ∃ notes, ((gather true .summary starts pods).run Cluster.restless.responder [] none 0).result =
        .ok (.ok notes) ∧
      Partitions starts pods (.ofNotesFor true "evalPods" "Evaluate pods" notes) ∧
      (Check.ofNotesFor true "evalPods" "Evaluate pods" notes).evaluations.length = 3 := by
  intro starts pods
  have hdistinct : (starts.map PodPrefix.start).Nodup := by decide
  obtain ⟨-, hnotes, hmade, -⟩ := notes_partition_pods true .summary "evalPods" "Evaluate pods"
    hdistinct pods Cluster.restless.responder [] none 0
  obtain ⟨notes, hresult⟩ := hmade.2 fun h => h.2.1 rfl
  obtain ⟨hpartitions, hlength⟩ := hnotes notes hresult
  have hknown : (known starts pods).length = 2 := by decide +kernel
  have hmissing : (missing starts pods).length = 1 := by decide +kernel
  exact ⟨hdistinct, by decide +kernel, notes, hresult, hpartitions,
    by rw [hlength, hknown, hmissing]⟩

/-- Restarts that cannot be added keep a known pod from being recorded. -/
theorem notes_partition_pods_restless :
    let starts : List PodPrefix := [⟨"aio-mq", true⟩]
    (starts.map PodPrefix.start).Nodup ∧ known starts [.restless] = [.restless] ∧
      ((gather true .detail starts [.restless]).run Cluster.restless.responder [] none 0).result =
        .error .aborted := by
  refine ⟨by decide, by decide +kernel, ?_⟩
  rw [gather_of_isTooMuch (by decide +kernel)]
  rfl

end PodHealth

/-! ### The pods of a service -/

namespace Service

/-- No service has one start of names twice. -/
theorem nodup_podPrefixes (s : Service) : (s.podPrefixes.map PodPrefix.start).Nodup := by
  cases s <;> decide

/-- Where pods are listed, the check of the pods of a service records them by its starts, unless
more than one line is wanted about a pod whose restarts cannot be added. -/
theorem checkPods_partitions (scope : Scope) (s : Service) {pods : List Pod}
    {responder : Responder} {past : Trace} {limit : Option Nat} {now : Nat}
    (hpods : ((Attempt.ask (.listPods scope.context.ns none)).run responder past limit now).result =
      .ok (.ok pods)) :
    let result := ((s.checkPods scope).run responder past limit now).result
    let tooMuch := scope.withDisplays = true ∧ scope.level ≠ .summary ∧
      PodHealth.AnyOverflows s.podPrefixes pods
    (tooMuch → result = .error .aborted) ∧
      (¬ tooMuch → ∃ c, result = .ok (.ok c) ∧ PodHealth.Partitions s.podPrefixes pods c) := by
  simp only [s.result_checkPods scope hpods, ← PodHealth.isTooMuch_iff]
  refine ⟨fun htoo => if_pos htoo, fun htoo => ⟨_, if_neg htoo, ?_⟩⟩
  exact PodHealth.partitions_ofNotesFor scope.withDisplays scope.level s.podCheck
    s.podCheckDescription s.nodup_podPrefixes

end Service

end EdgeHealth
