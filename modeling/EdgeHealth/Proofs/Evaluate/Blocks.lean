import EdgeHealth.Proofs.Check.Contents
import EdgeHealth.Proofs.Evaluate.Coverage
import EdgeHealth.Proofs.Evaluate.References

/-!
# What is recorded about a resource

The check of a kind applies the rules of the kind to each resource, one after another. What it
records about a resource, each condition with its observation, is what the rules came to, in their
order, and behind it the status that the resource reports. A rule about fields comes to one finding
that the resource decides; a rule about references comes to one about the names at its path.

## Main definitions

* `Finding.record` : the condition of a finding with its observation.
* `Rule.ComesTo` : what a rule comes to.
* `Kind.IsBlock` : what is recorded about a resource.
* `Kind.Records` : what is recorded about the resources of a namespace.

## Main results

* `Kind.check_records` : what the check of a kind records.
* `Kind.exists_check_yields` : a check comes about where its rules come to something.
-/

namespace EdgeHealth

/-- The condition of a finding with its observation. -/
def Finding.record (f : Finding) (name kind : String) : String × Evaluation :=
  (f.condition, ⟨f.status, f.value, some name, some kind⟩)

namespace Rule

/-- What a rule comes to on a resource. The cluster has a part in it only where there are
references. -/
def ComesTo (r : Resource) : Rule → Finding → Prop
  | .demands condition requirements, f => f = .ofRequirements condition requirements r
  | .alternatives base fields, f => f = .ofAlternatives base fields r
  | .reference path _, f | .references path _, f => f.Validates path

theorem apply_ensures_comesTo (ns : String) (r : Resource) (rule : Rule) :
    (rule.apply ns r).Ensures (rule.ComesTo r) := by
  cases rule with
  | demands condition requirements => exact Attempt.ensures_pure rfl
  | alternatives base fields => exact Attempt.ensures_pure rfl
  | reference path referent =>
    rw [apply, Finding.reference]
    cases (r.textAt? path).filter fun name => !name.isEmpty with
    | none => exact Attempt.ensures_pure (Finding.validates_unset path)
    | some name =>
      exact (Attempt.ensures_of_forall (fun _ => trivial) _).bind fun found _ =>
        Attempt.ensures_pure (Finding.validates_ofReference path referent name found)
  | references path referent =>
    rw [apply, Finding.references]
    cases Finding.namesAt path r with
    | nil => exact Attempt.ensures_pure (Finding.validates_unset path)
    | cons name rest =>
      exact (Attempt.ensures_of_forall (fun _ => trivial) _).bind fun missing _ =>
        Attempt.ensures_pure (Finding.validates_ofReferences path referent (name :: rest) missing)

end Rule

namespace Kind

variable {k : Kind}

/-- What is recorded about a resource: what the rules of its kind come to, in their order, and the
status that it reports. -/
def IsBlock (k : Kind) (level : DetailLevel) (r : Resource) (block : List (String × Evaluation)) :
    Prop :=
  ∃ findings, List.Forall₂ (Rule.ComesTo r) (k.rules r) findings ∧
    block = (findings ++ (Finding.ofStatus? level r).toList).map fun f =>
      f.record (Resource.name r) k.word

/-! ### The notes about a resource -/

/-- The notes of findings about a resource, with lines before and after them. -/
theorem observed_findings (target ns name kind : String) (first last : List Display)
    (findings : List Finding) :
    (Note.display target ns first :: findings.flatMap (fun f => f.notes target ns name kind) ++
        [Note.display target ns last]).flatMap (fun n => n.change.observed) =
      findings.map fun f => f.record name kind := by
  rw [List.flatMap_append, List.flatMap_cons, List.flatMap_assoc, ← List.flatMap_pure_eq_map]
  exact List.append_nil _

theorem resourceNotes_ensures_isBlock (level : DetailLevel) (k : Kind) (ns : String)
    (r : Resource) :
    (k.resourceNotes level ns r).Ensures fun notes =>
      k.IsBlock level r (notes.flatMap fun n => n.change.observed) := by
  have hrules : (Attempt.forEach (Rule.apply ns r) (k.rules r)).Ensures
      (List.Forall₂ (Rule.ComesTo r) (k.rules r)) :=
    Attempt.Ensures.forEach_forall₂ _ fun rule _ => rule.apply_ensures_comesTo ns r
  refine .bind hrules fun findings hfindings => Attempt.ensures_pure ?_
  rw [observed_findings]
  exact ⟨findings, hfindings, rfl⟩

/-! ### The check of a kind -/

/-- What is recorded about the resources of a namespace: their number, and then a block about each
of them. -/
def Records (k : Kind) (level : DetailLevel) (group : List Resource)
    (pairs : List (String × Evaluation)) : Prop :=
  ∃ blocks, List.Forall₂ (k.IsBlock level) group blocks ∧
    pairs = (k.countCondition, k.countEvaluation group.length) :: blocks.flatten

/-- The notes that a check of a kind is made of record each resource in its namespace. -/
theorem records_filter_notes {resources : List Resource} {details : List (List Note)}
    {level : DetailLevel}
    (h : List.Forall₂ (fun pair notes => k.IsDetail pair.1 pair.2 notes ∧
      k.IsBlock level pair.2 (notes.flatMap fun n => n.change.observed)) (visits resources) details)
    {ns : String} (hns : ns ∈ resources.map Resource.ns) :
    k.Records level (resources.filter fun r => Resource.ns r = ns)
      (((k.tally resources ++ details.flatten).filter fun n => n.place = (k.target, ns)).flatMap
        fun n => n.change.observed) := by
  have hdetails : k.AreDetails (visits resources) details := h.imp fun _ _ hdetail => hdetail.1
  obtain ⟨blocks, hblocks, hown⟩ := exists_blocks_of_forall₂ ns (h.imp fun _ _ hdetail =>
    ⟨fun n hn => congrArg Prod.snd (hdetail.1.place_eq n hn), hdetail.2⟩)
  rw [map_snd_filter_visits] at hblocks
  refine ⟨blocks, hblocks, ?_⟩
  have hplace : (k.tally resources ++ details.flatten).filter (fun n => n.place = (k.target, ns)) =
      (k.tally resources ++ details.flatten).filter fun n => n.ns = ns :=
    List.filter_congr fun n hn => by simp [Note.place, target_of_mem_notes hdetails hn]
  rw [hplace, List.filter_append, filter_tally hns, List.flatMap_append, hown, countEvaluation,
    ← statusOf_cardinality]
  rfl

/-- The notes about resources record each of them in its namespace. -/
theorem notes_ensures_records (scope : Scope) (k : Kind) (resources : List Resource) :
    (k.notes scope resources).Ensures fun notes => ∀ ns ∈ resources.map Resource.ns,
      k.Records scope.level (resources.filter fun r => Resource.ns r = ns)
        ((notes.filter fun n => n.place = (k.target, ns)).flatMap fun n => n.change.observed) := by
  cases resources with
  | nil => exact Attempt.ensures_of_forall (fun _ => List.forall_mem_nil _) _
  | cons r rest =>
    refine .bind (Attempt.Ensures.forEach_forall₂ (visits (r :: rest)) fun pair _ =>
      (k.resourceNotes_ensures_isDetail scope.level pair.1 pair.2).and
        (k.resourceNotes_ensures_isBlock scope.level pair.1 pair.2)) fun details hdetails =>
      Attempt.ensures_pure fun ns hns => records_filter_notes hdetails hns

/-- **What the check of a kind records.** Whoever replies, and however much time there is: where the
check of a kind comes about, it records for each namespace of the fetched resources their number
there, and then about each of them what the rules of the kind come to and the status that the
resource reports. -/
theorem check_records (scope : Scope) (k : Kind) {responder : Responder} {past : Trace}
    {limit : Option Nat} {now : Nat} {c : Check}
    (h : ((k.check scope).run responder past limit now).result = .ok (.ok c)) :
    ∃ resources, ((k.fetch scope).run responder past limit now).result = .ok (.ok resources) ∧
      ∀ ns ∈ resources.map Resource.ns,
        k.Records scope.level (resources.filter fun r => Resource.ns r = ns)
          ((c.entryAt? k.target ns).getD Entry.empty).pairs := by
  obtain ⟨resources, hfetch, h⟩ := Attempt.exists_of_run_bind h
  obtain ⟨notes, hnotes, h⟩ := Attempt.exists_of_run_bind h
  obtain rfl : Check.ofNotesFor scope.withDisplays k.checkName k.description notes = c :=
    Except.ok.inj (Except.ok.inj h)
  have hpaired : ∀ n ∈ notes, n.change.isPaired := fun n hn =>
    Change.isPaired_of_isFinding (k.notes_ensures_isFinding scope resources hnotes notes rfl n hn)
  refine ⟨resources, hfetch, fun ns hns => ?_⟩
  rw [Check.pairs_entryAt?_ofNotesFor k.checkName k.description scope.withDisplays hpaired]
  exact k.notes_ensures_records scope resources hnotes notes rfl ns hns

/-! ### Checks that come about -/

/-- The check of a kind comes about where its resources can be fetched and every rule comes to
something on each of them. -/
theorem exists_check_yields (scope : Scope) (k : Kind) {cluster : Cluster}
    {resources : List Resource} (hfetch : (k.fetch scope).run.Yields cluster (.ok (.ok resources)))
    (hrules : ∀ r ∈ resources, ∀ rule ∈ k.rules r, ∃ f,
      (rule.apply (Resource.ns r) r).run.Yields cluster (.ok (.ok f))) :
    ∃ c, (k.check scope).run.Yields cluster (.ok (.ok c)) := by
  have hnotes : ∃ notes, (k.notes scope resources).run.Yields cluster (.ok (.ok notes)) := by
    cases resources with
    | nil => exact ⟨_, Session.yields_pure _⟩
    | cons first rest =>
      have hvisit : ∀ visit ∈ visits (first :: rest), ∃ notes,
          (k.resourceNotes scope.level visit.1 visit.2).run.Yields cluster (.ok (.ok notes)) := by
        intro visit hvisit
        obtain ⟨hr, hns⟩ := of_mem_visits hvisit
        obtain ⟨findings, hfindings⟩ := Attempt.exists_yields_forEach _ (hrules visit.2 hr)
        rw [hns]
        exact ⟨_, Attempt.yields_bind hfindings (Session.yields_pure _)⟩
      obtain ⟨details, hdetails⟩ := Attempt.exists_yields_forEach _ hvisit
      exact ⟨_, Attempt.yields_bind hdetails (Session.yields_pure _)⟩
  obtain ⟨notes, hnotes⟩ := hnotes
  exact ⟨_, Attempt.yields_bind hfetch (Attempt.yields_bind hnotes (Session.yields_pure _))⟩

end Kind

end EdgeHealth
