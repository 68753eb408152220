import Mathlib.Algebra.GroupWithZero.Nat
import Mathlib.Data.List.Forall2
import EdgeHealth.Proofs.Check.Locality
import EdgeHealth.Proofs.Evaluate.Groups
import EdgeHealth.Proofs.Evaluate.Stripped

/-!
# What the check of a kind consists of

The check of a kind has one target. Where there are resources, it has an entry for each of their
namespaces. The first observation of such an entry is the number of resources in the namespace; then
each of these resources has a block of observations, which carry its name and the kind. Only a
broker may have an empty block, for its rules depend on how it is set up. Where there is no
resource, a single warning says so.

The lines for human readers have no part in this. So it is shown for the check of all notes, and it
stays when the lines are left out.

## Main definitions

* `Kind.countEvaluation` : what is observed of a number of resources.
* `Kind.IsAbout` : observations about one resource.
* `Kind.IsSurvey` : an entry about the resources of a namespace.
* `Kind.Covers` : a check about all resources.

## Main results

* `Kind.covers_ofNotes` : the check of notes that count resources and then look at each of them.
* `Kind.Covers.sum_counts` : the numbers of resources in the namespaces add up.
* `Kind.check_covers` : the check of a kind is about the resources that were fetched.
-/

namespace EdgeHealth

/-! ### Results one by one -/

/-- What is known of each of several attempts is known of their results, one by one. -/
theorem Attempt.Ensures.forEach_forall₂ {α β : Type} {R : α → β → Prop} {f : α → Attempt β} :
    (l : List α) → (∀ x ∈ l, (f x).Ensures (R x)) →
    (Attempt.forEach f l).Ensures (List.Forall₂ R l)
  | [], _ => ensures_pure .nil
  | x :: l, h =>
    (h x List.mem_cons_self).bind fun _ hy =>
      (forEach_forall₂ l fun x hx => h x (List.mem_cons_of_mem _ hx)).bind fun _ hys =>
        ensures_pure (.cons hy hys)

/-- What comes of an attempt after another one comes of a result of that. -/
theorem Attempt.exists_of_run_bind {α β : Type} {a : Attempt α} {f : α → Attempt β} {y : β}
    {responder : Responder} {past : Trace} {limit : Option Nat} {now : Nat}
    (h : ((a >>= f).run responder past limit now).result = .ok (.ok y)) :
    ∃ x, (a.run responder past limit now).result = .ok (.ok x) ∧
      ((f x).run responder (past ++ (a.run responder past limit now).trace) limit
        (a.run responder past limit now).time).result = .ok (.ok y) := by
  rw [Session.run_bind] at h
  cases ha : (a.run responder past limit now).result with
  | error i =>
    rw [Session.bind_of_error ha] at h
    cases h
  | ok r =>
    rw [Session.bind_of_ok ha] at h
    cases r with
    | ok x => exact ⟨x, rfl, h⟩
    | error e => cases h

/-! ### The observations of an entry -/

namespace Entry

/-- Changes add their observations one after another. -/
theorem evaluations_foldl_apply : (changes : List Change) → (e : Entry) →
    (changes.foldl apply e).evaluations = e.evaluations ++ changes.flatMap Change.evaluations
  | [], e => by simp
  | ch :: changes, e => by
    rw [List.foldl_cons, evaluations_foldl_apply changes, evaluations_apply, List.flatMap_cons,
      List.append_assoc]

/-- The first condition stays the first one when conditions come with their observations. -/
theorem head?_conditions_foldl_apply {condition : String} : (changes : List Change) →
    (∀ ch ∈ changes, ch.isPaired) → {e : Entry} → e.conditions.head? = some condition →
    (changes.foldl apply e).conditions.head? = some condition
  | [], _, _, he => he
  | ch :: changes, h, e, he => by
    obtain ⟨hch, hchanges⟩ := List.forall_mem_cons.1 h
    refine head?_conditions_foldl_apply changes hchanges ?_
    cases ch with
    | observe c x => exact List.head?_append.trans (by rw [he]; rfl)
    | display lines => exact he
    | _ => cases hch

/-- How many resources the first observation counts. -/
def count? (e : Entry) : Option Nat := e.evaluations.head?.bind fun x => x.value.toNat?

end Entry

namespace Kind

/-! ### What a check of a kind is about -/

/-- What is observed of the number of resources of a kind in a namespace. A broker and a diagnostic
service have to be the only ones of their kind there. -/
def countEvaluation (k : Kind) (count : Nat) : Evaluation where
  status := if (k = .broker ∨ k = .diagnosticService) ∧ count ≠ 1 then .error else .success
  value := .ofNat count
  name := none
  kind := some k.word

/-- Observations about one resource of a kind. Only about a broker there may be none. -/
structure IsAbout (k : Kind) (r : Resource) (block : List Evaluation) : Prop where
  /-- They carry its name. -/
  name_eq : ∀ x ∈ block, x.name = some (Resource.name r)
  /-- They carry the kind. -/
  kind_eq : ∀ x ∈ block, x.kind = some k.word
  /-- There are some, unless the resource is a broker. -/
  ne_nil : k ≠ .broker → block ≠ []

/-- An entry about the resources of a namespace: their number, then a block about each of them. -/
structure IsSurvey (k : Kind) (group : List Resource) (e : Entry) : Prop where
  /-- The first condition is that on the number. -/
  head?_conditions : e.conditions.head? = some k.countCondition
  /-- The observations are the number and the blocks, in the order of the resources. -/
  evaluations_eq : ∃ blocks, List.Forall₂ k.IsAbout group blocks ∧
    e.evaluations = k.countEvaluation group.length :: blocks.flatten

/-- A check about resources of a kind: one target, and an entry for each namespace of the resources,
in the order in which these come first, or a single warning. -/
structure Covers (k : Kind) (resources : List Resource) (c : Check) : Prop where
  /-- There is one target. -/
  keys_eq : c.targets.keys = [k.target]
  /-- Without resources there is a warning in all namespaces. -/
  of_eq_nil : resources = [] → ∃ e message,
    c.entries = [(k.target, allNamespaces, e)] ∧
    e.evaluations = [⟨.warning, .string message, none, some k.word⟩]
  /-- With resources there is an entry for each of their namespaces. -/
  of_ne_nil : resources ≠ [] →
    List.Forall₂
      (fun ns entry => entry.1 = k.target ∧ entry.2.1 = ns ∧
        k.IsSurvey (resources.filter fun r => Resource.ns r = ns) entry.2.2)
      (resources.map Resource.ns).eraseDups c.entries

variable {k : Kind} {resources : List Resource} {c : Check}

theorem statusOf_cardinality (k : Kind) (count : Nat) :
    k.cardinality.statusOf count =
      if (k = .broker ∨ k = .diagnosticService) ∧ count ≠ 1 then .error else .success := by
  cases k <;> simp [cardinality, Cardinality.statusOf]

/-- The lines of a check have no part in what it is about. -/
theorem Covers.withoutDisplays (h : k.Covers resources c) :
    k.Covers resources c.withoutDisplays := by
  refine ⟨?_, fun hnil => ?_, fun hne => ?_⟩
  · exact (List.map_map ..).trans h.keys_eq
  · obtain ⟨e, message, heq, hevaluations⟩ := h.of_eq_nil hnil
    refine ⟨e.withoutDisplays, message, ?_, hevaluations⟩
    rw [Check.entries_withoutDisplays, heq]
    rfl
  · rw [Check.entries_withoutDisplays, List.forall₂_map_right_iff]
    refine (h.of_ne_nil hne).imp fun ns entry hentry => ?_
    obtain ⟨htarget, hns, hsurvey⟩ := hentry
    exact ⟨htarget, hns, hsurvey.head?_conditions, hsurvey.evaluations_eq⟩

/-- The numbers that the entries count add up to the number of all resources. -/
theorem Covers.sum_counts (h : k.Covers resources c) (hne : resources ≠ []) :
    (c.entries.filterMap fun entry => entry.2.2.count?).sum = resources.length := by
  have hcounts : {keys : List String} → {entries : List (String × String × Entry)} →
      List.Forall₂ (fun ns entry => entry.1 = k.target ∧ entry.2.1 = ns ∧
        k.IsSurvey (resources.filter fun r => Resource.ns r = ns) entry.2.2) keys entries →
      (entries.filterMap fun entry => entry.2.2.count?) =
        keys.map fun ns => (resources.filter fun r => Resource.ns r = ns).length := by
    intro keys entries hsurveys
    induction hsurveys with
    | nil => rfl
    | cons hentry _ ih =>
      obtain ⟨-, -, hsurvey⟩ := hentry
      obtain ⟨blocks, -, hevaluations⟩ := hsurvey.evaluations_eq
      rw [List.filterMap_cons, Entry.count?, hevaluations, List.map_cons, ih]
      rfl
  rw [hcounts (h.of_ne_nil hne), ← List.length_flatMap]
  exact (perm_flatMap_eraseDups Resource.ns resources).length_eq

/-! ### The notes about resources -/

/-- Notes about one resource of a kind in a namespace. -/
structure IsDetail (k : Kind) (ns : String) (r : Resource) (notes : List Note) : Prop where
  /-- They are addressed to the namespace. -/
  place_eq : ∀ n ∈ notes, n.place = (k.target, ns)
  /-- Conditions and observations come together. -/
  isFinding : ∀ n ∈ notes, n.change.isFinding
  /-- What they observe is about the resource. -/
  isAbout : k.IsAbout r (notes.flatMap fun n => n.change.evaluations)

/-- Every kind but that of brokers has a rule for whatever resource. -/
theorem rules_ne_nil (hk : k ≠ .broker) (r : Resource) : k.rules r ≠ [] := by
  cases k with
  | broker => exact absurd rfl hk
  | _ => exact List.cons_ne_nil _ _

/-- The notes of findings about a resource, with lines before and after them. -/
theorem evaluations_findings (target ns name kind : String) (first last : List Display)
    (findings : List Finding) :
    (Note.display target ns first :: findings.flatMap (fun f => f.notes target ns name kind) ++
        [Note.display target ns last]).flatMap (fun n => n.change.evaluations) =
      findings.map fun f => ⟨f.status, f.value, some name, some kind⟩ := by
  rw [List.flatMap_append, List.flatMap_cons, List.flatMap_assoc, ← List.flatMap_pure_eq_map]
  exact List.append_nil _

theorem resourceNotes_ensures_isAbout (level : DetailLevel) (k : Kind) (ns : String)
    (r : Resource) :
    (k.resourceNotes level ns r).Ensures fun notes =>
      k.IsAbout r (notes.flatMap fun n => n.change.evaluations) := by
  have hrules : (Attempt.forEach (Rule.apply ns r) (k.rules r)).Ensures fun findings =>
      findings.length = (k.rules r).length :=
    (Attempt.Ensures.forEach_forall₂ (R := fun _ _ => True) _ fun rule _ =>
      Attempt.ensures_of_forall (fun _ => trivial) _).mono fun _ h => h.length_eq.symm
  refine .bind hrules fun findings hlength => Attempt.ensures_pure ?_
  rw [evaluations_findings]
  refine ⟨List.forall_mem_map.2 fun _ _ => rfl, List.forall_mem_map.2 fun _ _ => rfl,
    fun hk hnil => rules_ne_nil hk r ?_⟩
  have hfindings : findings = [] := (List.append_eq_nil_iff.1 (List.map_eq_nil_iff.1 hnil)).1
  exact List.length_eq_zero_iff.1 (hlength ▸ hfindings ▸ rfl)

theorem resourceNotes_ensures_isDetail (level : DetailLevel) (k : Kind) (ns : String)
    (r : Resource) : (k.resourceNotes level ns r).Ensures (k.IsDetail ns r) :=
  ((k.resourceNotes_ensures_place level ns r).and
    ((k.resourceNotes_ensures_isFinding level ns r).and
      (k.resourceNotes_ensures_isAbout level ns r))).mono fun _ h => ⟨h.1, h.2.1, h.2.2⟩

/-- The resources with their namespaces, in the order in which they are looked at. -/
def visits (resources : List Resource) : List (String × Resource) :=
  (groupByNamespace resources).toList.flatMap fun (ns, group) => group.map fun r => (ns, r)

/-- The notes about the number of resources in each namespace. -/
def tally (k : Kind) (resources : List Resource) : List Note :=
  (groupByNamespace resources).toList.flatMap fun (ns, group) => k.countNotes ns group.length

/-- Each resource is looked at under its own namespace. -/
theorem visits_eq (resources : List Resource) :
    visits resources = ((resources.map Resource.ns).eraseDups.flatMap fun ns =>
      resources.filter fun r => Resource.ns r = ns).map fun r => (Resource.ns r, r) := by
  rw [visits, toList_groupByNamespace, List.flatMap_map, List.map_flatMap]
  refine List.flatMap_congr fun ns _ => List.map_congr_left fun r hr => ?_
  have hns : Resource.ns r = ns := by simpa using (List.mem_filter.1 hr).2
  rw [hns]

/-- What is looked at is one of the resources, under its own namespace. -/
theorem of_mem_visits {pair : String × Resource} (h : pair ∈ visits resources) :
    pair.2 ∈ resources ∧ pair.1 = Resource.ns pair.2 := by
  rw [visits_eq] at h
  obtain ⟨r, hr, rfl⟩ := List.mem_map.1 h
  obtain ⟨ns, -, hr⟩ := List.mem_flatMap.1 hr
  exact ⟨(List.mem_filter.1 hr).1, rfl⟩

/-- The resources that are looked at under a namespace are those that belong to it. -/
theorem map_snd_filter_visits (resources : List Resource) (ns : String) :
    ((visits resources).filter fun pair => pair.1 = ns).map Prod.snd =
      resources.filter fun r => Resource.ns r = ns := by
  rw [visits_eq, List.filter_map, List.map_map]
  exact (List.map_id _).trans (filter_flatMap_eraseDups Resource.ns resources ns)

theorem tally_eq (k : Kind) (resources : List Resource) :
    k.tally resources = (resources.map Resource.ns).eraseDups.flatMap fun ns =>
      k.countNotes ns (resources.filter fun r => Resource.ns r = ns).length := by
  rw [tally, toList_groupByNamespace, List.flatMap_map]

theorem place_of_mem_countNotes {ns : String} {count : Nat} :
    ∀ n ∈ k.countNotes ns count, n.place = (k.target, ns) := by
  simp [countNotes]

/-- In the tally each namespace stands for itself. -/
theorem filter_tally {ns : String} (h : ns ∈ resources.map Resource.ns) :
    (k.tally resources).filter (fun n => n.ns = ns) =
      k.countNotes ns (resources.filter fun r => Resource.ns r = ns).length := by
  rw [tally_eq, List.filter_flatMap, flatMap_eq_of_nodup (nodup_eraseDups _)
    (List.mem_eraseDups.2 h)]
  · exact List.filter_eq_self.2 fun n hn =>
      decide_eq_true (congrArg Prod.snd (place_of_mem_countNotes n hn))
  · intro ns' _ hne
    exact List.filter_eq_nil_iff.2 fun n hn heq =>
      hne ((congrArg Prod.snd (place_of_mem_countNotes n hn)).symm.trans (of_decide_eq_true heq))

theorem eraseDups_map_ns_tally (k : Kind) (resources : List Resource) :
    ((k.tally resources).map Note.ns).eraseDups = (resources.map Resource.ns).eraseDups := by
  rw [tally_eq, List.map_flatMap]
  refine eraseDups_flatMap_of_nodup (nodup_eraseDups _) fun ns _ => ?_
  refine ⟨List.cons_ne_nil _ _, List.forall_mem_map.2 fun n hn => ?_⟩
  exact congrArg Prod.snd (place_of_mem_countNotes n hn)

/-! ### The check of the notes -/

/-- Details about resources, one list of notes for each resource that is looked at. -/
abbrev AreDetails (k : Kind) (pairs : List (String × Resource)) (details : List (List Note)) :
    Prop :=
  List.Forall₂ (fun pair notes => k.IsDetail pair.1 pair.2 notes) pairs details

variable {details : List (List Note)}

/-- A note of the details is addressed to the namespace of a resource. -/
theorem exists_pair_of_mem_details {n : Note} : {pairs : List (String × Resource)} →
    {details : List (List Note)} → k.AreDetails pairs details → n ∈ details.flatten →
    (∃ pair ∈ pairs, n.place = (k.target, pair.1)) ∧ n.change.isFinding
  | [], [], .nil, hn => absurd hn List.not_mem_nil
  | pair :: _, _ :: _, .cons hdetail hdetails, hn => by
    rw [List.flatten_cons, List.mem_append] at hn
    rcases hn with hn | hn
    · exact ⟨⟨pair, List.mem_cons_self, hdetail.place_eq n hn⟩, hdetail.isFinding n hn⟩
    · obtain ⟨⟨pair', hpair, hplace⟩, hfinding⟩ := exists_pair_of_mem_details hdetails hn
      exact ⟨⟨pair', List.mem_cons_of_mem pair hpair, hplace⟩, hfinding⟩

/-- In a namespace, notes about resources are blocks about those resources that belong to it. What
of a note is looked at does not matter. -/
theorem exists_blocks_of_forall₂ {β : Type} {R : Resource → List β → Prop} {g : Note → List β}
    (ns : String) : {pairs : List (String × Resource)} → {details : List (List Note)} →
    List.Forall₂ (fun pair notes => (∀ n ∈ notes, n.ns = pair.1) ∧ R pair.2 (notes.flatMap g))
      pairs details →
    ∃ blocks, List.Forall₂ R ((pairs.filter fun pair => pair.1 = ns).map Prod.snd) blocks ∧
      (details.flatten.filter fun n => n.ns = ns).flatMap g = blocks.flatten
  | [], [], .nil => ⟨[], .nil, rfl⟩
  | (ns', r) :: pairs, notes :: details, .cons ⟨hns, hblock⟩ hdetails => by
    obtain ⟨blocks, hblocks, heq⟩ := exists_blocks_of_forall₂ ns hdetails
    rw [List.flatten_cons, List.filter_append, List.flatMap_append, heq]
    by_cases h : ns' = ns
    · subst h
      rw [List.filter_cons_of_pos (by simp),
        List.filter_eq_self.2 fun n hn => decide_eq_true (hns n hn)]
      exact ⟨_ :: blocks, .cons hblock hblocks, rfl⟩
    · have hnone : notes.filter (fun n => n.ns = ns) = [] :=
        List.filter_eq_nil_iff.2 fun n hn heq => h ((hns n hn).symm.trans (of_decide_eq_true heq))
      rw [List.filter_cons_of_neg (by simpa using h), hnone]
      exact ⟨blocks, hblocks, rfl⟩

/-- In a namespace, the details are blocks about the resources that belong to it. -/
theorem exists_blocks_of_details (ns : String) {pairs : List (String × Resource)}
    {details : List (List Note)} (h : k.AreDetails pairs details) :
    ∃ blocks, List.Forall₂ k.IsAbout ((pairs.filter fun pair => pair.1 = ns).map Prod.snd) blocks ∧
      (details.flatten.filter fun n => n.ns = ns).flatMap (fun n => n.change.evaluations) =
        blocks.flatten :=
  exists_blocks_of_forall₂ ns (h.imp fun _ _ hdetail =>
    ⟨fun n hn => congrArg Prod.snd (hdetail.place_eq n hn), hdetail.isAbout⟩)

/-- A note of the details is addressed to the target of the kind, in the namespace of a resource. -/
theorem place_of_mem_details (h : k.AreDetails (visits resources) details) {n : Note}
    (hn : n ∈ details.flatten) : n.target = k.target ∧ n.ns ∈ resources.map Resource.ns := by
  obtain ⟨⟨pair, hpair, hplace⟩, -⟩ := exists_pair_of_mem_details h hn
  obtain ⟨hr, hns⟩ := of_mem_visits hpair
  have hns' : n.ns = Resource.ns pair.2 := (congrArg Prod.snd hplace).trans hns
  exact ⟨congrArg Prod.fst hplace, hns' ▸ List.mem_map_of_mem hr⟩

/-- All notes about resources are addressed to the target of the kind. -/
theorem target_of_mem_notes (h : k.AreDetails (visits resources) details) {n : Note}
    (hn : n ∈ k.tally resources ++ details.flatten) : n.target = k.target := by
  rcases List.mem_append.1 hn with hn | hn
  · rw [tally_eq] at hn
    obtain ⟨ns, -, hn⟩ := List.mem_flatMap.1 hn
    exact congrArg Prod.fst (place_of_mem_countNotes n hn)
  · exact (place_of_mem_details h hn).1

/-- The entry of a namespace: the number of resources there, and then the details about them. -/
theorem isSurvey_of_details (h : k.AreDetails (visits resources) details) {ns : String}
    (hns : ns ∈ resources.map Resource.ns) :
    k.IsSurvey (resources.filter fun r => Resource.ns r = ns)
      (((k.tally resources ++ details.flatten).filter fun n => n.ns = ns).foldl
        (fun e n => e.apply n.change) Entry.empty) := by
  let group := resources.filter fun r => Resource.ns r = ns
  let own := details.flatten.filter fun n => n.ns = ns
  obtain ⟨blocks, hblocks, hown⟩ := exists_blocks_of_details ns h
  rw [map_snd_filter_visits] at hblocks
  have hpaired : ∀ ch ∈ (k.countNotes ns group.length ++ own).map Note.change, ch.isPaired := by
    refine List.forall_mem_map.2 fun n hn => Change.isPaired_of_isFinding ?_
    rcases List.mem_append.1 hn with hn | hn
    · exact isFinding_of_mem_countNotes n hn
    · exact (exists_pair_of_mem_details h (List.mem_filter.1 hn).1).2
  rw [List.filter_append, filter_tally hns, ← List.foldl_map (f := Note.change)]
  refine ⟨?_, blocks, hblocks, ?_⟩
  · exact Entry.head?_conditions_foldl_apply _
      (fun ch hch => hpaired ch (List.mem_cons_of_mem _ hch)) rfl
  · rw [Entry.evaluations_foldl_apply, List.flatMap_map, List.flatMap_append, hown,
      countEvaluation, ← statusOf_cardinality]
    rfl

/-- Counts of the resources in each namespace, followed by details about each resource, make a check
that covers the resources. -/
theorem covers_ofNotes (hne : resources ≠ []) (h : k.AreDetails (visits resources) details)
    (name description : String) :
    k.Covers resources (.ofNotes name description (k.tally resources ++ details.flatten)) := by
  have htargets : ∀ n ∈ k.tally resources ++ details.flatten, n.target = k.target :=
    fun n hn => target_of_mem_notes h hn
  -- The tally mentions every namespace, so the details bring in no further one.
  have hkeys : ((k.tally resources ++ details.flatten).map Note.ns).eraseDups =
      (resources.map Resource.ns).eraseDups := by
    have hrest :
        (details.flatten.map Note.ns).removeAll ((k.tally resources).map Note.ns) = [] := by
      refine List.filter_eq_nil_iff.2 fun ns hns => ?_
      obtain ⟨n, hn, rfl⟩ := List.mem_map.1 hns
      have hmem := List.mem_eraseDups.2 (place_of_mem_details h hn).2
      rw [← eraseDups_map_ns_tally k, List.mem_eraseDups] at hmem
      simpa using hmem
    rw [List.map_append, List.eraseDups_append, eraseDups_map_ns_tally, hrest]
    exact List.append_nil _
  have hcons : k.tally resources ++ details.flatten ≠ [] := by
    intro hnil
    obtain ⟨r, hr⟩ := List.exists_mem_of_ne_nil resources hne
    have hmem := List.mem_eraseDups.2 (List.mem_map_of_mem (f := Resource.ns) hr)
    rw [← hkeys, hnil] at hmem
    cases hmem
  refine ⟨?_, fun hnil => absurd hnil hne, fun _ => ?_⟩
  · rw [Table.keys, Check.targets_ofNotes_of_target_eq hcons htargets]
    rfl
  · rw [Check.entries_ofNotes_of_target_eq hcons htargets, hkeys, List.forall₂_map_right_iff,
      List.forall₂_same]
    exact fun ns hns => ⟨rfl, rfl, isSurvey_of_details h (List.mem_eraseDups.1 hns)⟩

/-- The notes about missing resources make a check of a single warning. -/
theorem covers_absenceNotes (k : Kind) (ns : Option String) (name description : String) :
    k.Covers [] (.ofNotes name description (k.absenceNotes ns)) := by
  have hcons : k.absenceNotes ns ≠ [] := List.cons_ne_nil _ _
  have htargets : ∀ n ∈ k.absenceNotes ns, n.target = k.target :=
    List.forall_mem_cons.2 ⟨rfl, List.forall_mem_singleton.2 rfl⟩
  refine ⟨?_, fun _ => ⟨(k.absenceNotes ns).foldl (fun e n => e.apply n.change) Entry.empty, _, ?_,
    rfl⟩, fun hne => absurd rfl hne⟩
  · rw [Table.keys, Check.targets_ofNotes_of_target_eq hcons htargets]
    rfl
  · rw [Check.entries_ofNotes_of_target_eq hcons htargets]
    rfl

/-- The notes about resources make a check that covers these. -/
theorem notes_ensures_covers (scope : Scope) (k : Kind) (resources : List Resource) :
    (k.notes scope resources).Ensures fun notes =>
      k.Covers resources (.ofNotes k.checkName k.description notes) := by
  cases resources with
  | nil => exact Attempt.ensures_pure (k.covers_absenceNotes scope.context.ns _ _)
  | cons r rest =>
    refine .bind (P := k.AreDetails (visits (r :: rest))) ?_ fun details hdetails =>
      Attempt.ensures_pure (covers_ofNotes (List.cons_ne_nil r rest) hdetails _ _)
    exact Attempt.Ensures.forEach_forall₂ _ fun pair _ =>
      k.resourceNotes_ensures_isDetail scope.level pair.1 pair.2

/-- **The check of a kind covers the resources that were fetched.** Whoever replies, and however
much time there is: where the check of a kind comes about, it has the target of the kind alone.
Without resources it is a single warning. With resources it has an entry for each of their
namespaces, in the order in which these come first. An entry observes the number of resources in its
namespace, and then each of them in order, under its name and with the kind; only about a broker
there may be nothing. The numbers add up to that of all resources. -/
theorem check_covers (scope : Scope) (k : Kind) {responder : Responder} {past : Trace}
    {limit : Option Nat} {now : Nat} {c : Check}
    (h : ((k.check scope).run responder past limit now).result = .ok (.ok c)) :
    ∃ resources, ((k.fetch scope).run responder past limit now).result = .ok (.ok resources) ∧
      k.Covers resources c ∧
      (resources ≠ [] →
        (c.entries.filterMap fun entry => entry.2.2.count?).sum = resources.length) := by
  obtain ⟨resources, hfetch, h⟩ := Attempt.exists_of_run_bind h
  obtain ⟨notes, hnotes, h⟩ := Attempt.exists_of_run_bind h
  have hcovers : k.Covers resources (.ofNotes k.checkName k.description notes) :=
    k.notes_ensures_covers scope resources hnotes notes rfl
  obtain rfl : Check.ofNotesFor scope.withDisplays k.checkName k.description notes = c :=
    Except.ok.inj (Except.ok.inj h)
  have hcovers' : k.Covers resources
      (.ofNotesFor scope.withDisplays k.checkName k.description notes) := by
    cases scope.withDisplays with
    | true => exact hcovers
    | false =>
      rw [k.notes_ensures_strippable scope resources hnotes notes rfl]
      exact hcovers.withoutDisplays
  exact ⟨resources, hfetch, hcovers', hcovers'.sum_counts⟩

private def listenerIn (ns name : String) : Resource :=
  .object [("metadata", .object [("name", .string name), ("namespace", .string ns)])]

private def threeListeners : List Resource :=
  [listenerIn "edge" "a", listenerIn "plant" "b", listenerIn "edge" "c"]

/-- A cluster that lists listeners of two namespaces in turn. -/
private def listenersApart : Cluster where
  reply
    | .listObjects _ _ => ⟨3, .ok threeListeners⟩
    | _ => ⟨3, .error (.api 503 "unavailable")⟩

/-- The scope of a run that looks at all namespaces and shows lines. -/
private def everywhere : Scope := ⟨⟨none, 5, none, false, 80⟩, .any, .summary, true⟩

/-- Three listeners, of which two share a namespace. -/
theorem check_covers_listeners :
    ∃ c, ((Kind.brokerListener.check everywhere).run listenersApart.responder [] none 0).result =
        .ok (.ok c) ∧
      Kind.brokerListener.Covers threeListeners c ∧
      (c.entries.filterMap fun entry => entry.2.2.count?).sum = 3 := by
  obtain ⟨c, hc⟩ : ∃ c, ((Kind.brokerListener.check everywhere).run listenersApart.responder []
      none 0).result = .ok (.ok c) := ⟨_, rfl⟩
  have hfetch : ((Kind.brokerListener.fetch everywhere).run listenersApart.responder []
      none 0).result = .ok (.ok threeListeners) := rfl
  obtain ⟨resources, hresources, hcovers, hsum⟩ := check_covers everywhere .brokerListener hc
  obtain ⟨⟩ := hfetch.symm.trans hresources
  exact ⟨c, hc, hcovers, hsum (List.cons_ne_nil _ _)⟩

end Kind

end EdgeHealth
