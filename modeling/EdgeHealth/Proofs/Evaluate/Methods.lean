import Mathlib.Data.List.Forall2
import Mathlib.Data.List.Perm.Basic
import EdgeHealth.Proofs.Evaluate.Blocks
import EdgeHealth.Proofs.Json.Path

/-!
# The methods of an authentication

An authentication has a list of methods, and each item of it has to name exactly one method. An item
is looked at through a path into the resource, in which its place is written in digits. That path
leads to the item and to no other one, so what is recorded about an item depends on the item alone,
whatever it is and whatever stands beside it. Where there is no list, or an empty one, this is
recorded instead.

## Main definitions

* `Profile.JudgesMethod` : an observation about an item.
* `Profile.RecordsMethods` : what is recorded about the methods of an authentication.
* `Profile.IsAuthenticationBlock` : what is recorded about an authentication.

## Main results

* `Profile.judgesMethod_ofAlternatives` : the rule for an item is about this item.
* `Profile.recordsMethods_of_comesTo` : the rules for all items, one after another.
* `Kind.check_records_methods` : the check of authentications.
-/

namespace EdgeHealth

open Json

/-! ### Exactly one of several fields -/

namespace Finding

variable {set fields : List String}

theorem status_alternativesOutcome_iff :
    (alternativesOutcome set fields).1 = .success ↔ ∃ one, set = [one] := by
  match set with
  | [] => simp [alternativesOutcome]
  | [one] => simp [alternativesOutcome]
  | _ :: _ :: _ => simp [alternativesOutcome]

theorem status_alternativesOutcome_of_ne (h : (alternativesOutcome set fields).1 ≠ .success) :
    (alternativesOutcome set fields).1 = .error := by
  match set with
  | [] => rfl
  | [one] => exact absurd rfl h
  | _ :: _ :: _ => rfl

end Finding

/-- Of distinct members exactly one has a property if just one is left without the others. -/
theorem exists_filter_eq_singleton_iff {α : Type} {l : List α} {p : α → Bool} (h : l.Nodup) :
    (∃ a, l.filter p = [a]) ↔ ∃! a, a ∈ l ∧ p a := by
  constructor
  · rintro ⟨a, ha⟩
    have hmem (b : α) : b ∈ l ∧ p b ↔ b = a := by rw [← List.mem_filter, ha, List.mem_singleton]
    exact ⟨a, (hmem a).2 rfl, fun b hb => (hmem b).1 hb⟩
  · rintro ⟨a, ha, hunique⟩
    refine ⟨a, List.perm_singleton.1 ?_⟩
    refine (List.perm_ext_iff_of_nodup (h.filter p) (List.nodup_singleton a)).2 fun b => ?_
    rw [List.mem_filter, List.mem_singleton]
    exact ⟨hunique b, fun hb => hb ▸ ha⟩

namespace Profile

/-! ### The rule for an item -/

/-- The condition on the item at a place. -/
def methodCondition (i : Nat) : String :=
  let base := s!"{methodsPath}.{i}"
  s!"oneOf({Text.enumerated (methodNames.map (Finding.below base))})"

/-- An observation about an item: a good one exactly if the item names one method and no other, and
then it shows this method, and an error else. -/
structure JudgesMethod (item : Json) (x : Evaluation) : Prop where
  /-- When the observation is a good one. -/
  success_iff : x.status = .success ↔ ∃! m, m ∈ methodNames ∧ (item.given? m).isSome
  /-- A good observation shows the method. -/
  value_eq : x.status = .success →
    ∃ m, m ∈ methodNames ∧ (item.given? m).isSome ∧ x.value = .string m
  /-- Any other one is an error. -/
  error_of_ne : x.status ≠ .success → x.status = .error

/-- The names of methods are single steps and no numbers. -/
theorem isName_of_mem_methodNames {m : String} (h : m ∈ methodNames) :
    m ≠ "" ∧ '.' ∉ m.toList ∧ Number.natural? Number.maxUInt64 m.toList = none := by
  revert m
  decide +kernel

variable {r : Resource} {items : List Json}

/-- The rule for an item is about this item, and about no other one. -/
theorem judgesMethod_ofAlternatives (hitems : r.lookup? methodsPath = some (.array items))
    (hlength : items.length ≤ UInt64.size) {i : Nat} {item : Json} (hitem : items[i]? = some item)
    {name kind : Option String} :
    let f := Finding.ofAlternatives s!"{methodsPath}.{i}" methodNames r
    JudgesMethod item ⟨f.status, f.value, name, kind⟩ := by
  have hset : (methodNames.filter fun m => r.has (Finding.below s!"{methodsPath}.{i}" m)) =
      methodNames.filter fun m => (item.given? m).isSome := by
    refine List.filter_congr fun m hm => ?_
    obtain ⟨hne, hdot, hname⟩ := isName_of_mem_methodNames hm
    have hbase : methodsPath ≠ "" := by decide
    have hfield := present?_below_repr hbase hitems hlength hitem hne hdot hname
    exact congrArg Option.isSome hfield
  let set := methodNames.filter fun m => (item.given? m).isSome
  have hone : (∃ m, set = [m]) ↔ ∃! m, m ∈ methodNames ∧ (item.given? m).isSome :=
    exists_filter_eq_singleton_iff (by decide)
  intro f
  have hstatus : f.status = (Finding.alternativesOutcome set methodNames).1 := by
    simp only [f, Finding.ofAlternatives, hset, set]
  have hvalue : f.value = (Finding.alternativesOutcome set methodNames).2 := by
    simp only [f, Finding.ofAlternatives, hset, set]
  refine ⟨?_, fun hsuccess => ?_, fun hne => ?_⟩
  · rw [hstatus, Finding.status_alternativesOutcome_iff, hone]
  · rw [hstatus, Finding.status_alternativesOutcome_iff] at hsuccess
    obtain ⟨m, hm⟩ := hsuccess
    obtain ⟨hmem, hgiven⟩ := List.mem_filter.1 (hm ▸ List.mem_singleton_self m)
    exact ⟨m, hmem, hgiven, by rw [hvalue, hm]; rfl⟩
  · rw [hstatus] at hne ⊢
    exact Finding.status_alternativesOutcome_of_ne hne

/-! ### The rules for all items -/

/-- What is recorded about the methods of an authentication: for a list one observation about each
item, in order, and otherwise a single error. -/
structure RecordsMethods (r : Resource) (records : List (String × Evaluation)) : Prop where
  /-- There is one record for each item. No list is so long that its items could not be counted with
  64 bits. -/
  of_items : ∀ items, r.lookup? methodsPath = some (.array items) → items ≠ [] →
    items.length ≤ UInt64.size →
    records.map Prod.fst = (List.range items.length).map methodCondition ∧
      List.Forall₂ JudgesMethod items (records.map Prod.snd)
  /-- Where there is no item, there is one error. -/
  otherwise : (∀ items, r.lookup? methodsPath = some (.array items) → items = []) →
    ∃ x, records = [(methodsPath, x)] ∧ x.status = .error

theorem methodRules_of_items (hitems : r.lookup? methodsPath = some (.array items))
    (hne : items ≠ []) :
    methodRules r =
      (List.range items.length).map fun i => .alternatives s!"{methodsPath}.{i}" methodNames := by
  rw [methodRules, hitems]
  cases items with
  | nil => exact absurd rfl hne
  | cons => rfl

theorem methodRules_of_none
    (h : ∀ items, r.lookup? methodsPath = some (.array items) → items = []) :
    methodRules r = [.demands methodsPath [.items methodsPath]] := by
  rw [methodRules]
  cases hlookup : r.lookup? methodsPath with
  | none => rfl
  | some v =>
    cases v with
    | array items => rw [h items hlookup]; rfl
    | _ => rfl

/-- The rules for the methods do not ask the cluster. -/
theorem eq_of_mem_methodRules {rule : Rule} (h : rule ∈ methodRules r) :
    (∃ condition requirements, rule = .demands condition requirements) ∨
      ∃ base fields, rule = .alternatives base fields := by
  rw [methodRules] at h
  split at h
  · exact .inl ⟨_, _, List.mem_singleton.1 h⟩
  · obtain ⟨i, -, rfl⟩ := List.mem_map.1 h
    exact .inr ⟨_, _, rfl⟩

/-- Without an item there is a complaint. -/
theorem status_outcome_methods
    (h : ∀ items, r.lookup? methodsPath = some (.array items) → items = []) :
    (Requirement.outcome r [.items methodsPath]).1 = .error := by
  have hcomplaint : ∃ message, Requirement.allProblems r [.items methodsPath] = [message] := by
    rw [Requirement.allProblems, List.flatMap_singleton, Requirement.problems, Requirement.demand]
    cases hpresent : r.present? methodsPath with
    | none => exact ⟨_, rfl⟩
    | some v =>
      obtain ⟨hlookup, -⟩ := Option.filter_eq_some_iff.1 hpresent
      cases v with
      | array items =>
        rw [h items hlookup]
        exact ⟨_, rfl⟩
      | _ => exact ⟨_, rfl⟩
  obtain ⟨message, hmessage⟩ := hcomplaint
  rw [Requirement.outcome, hmessage]

/-- What the rules for the methods come to is recorded item by item. -/
theorem recordsMethods_of_comesTo {findings : List Finding}
    (h : List.Forall₂ (Rule.ComesTo r) (methodRules r) findings) (name kind : String) :
    RecordsMethods r (findings.map fun f => f.record name kind) where
  of_items items hitems hne hlength := by
    rw [methodRules_of_items hitems hne, List.forall₂_map_left_iff] at h
    have hfindings : findings = (List.range items.length).map fun i =>
        Finding.ofAlternatives s!"{methodsPath}.{i}" methodNames r := by
      rw [← List.forall₂_eq_eq_eq, List.forall₂_map_right_iff]
      exact h.flip
    subst hfindings
    refine ⟨?_, ?_⟩
    · rw [List.map_map, List.map_map]
      exact List.map_congr_left fun i _ => rfl
    · rw [List.map_map, List.map_map, List.forall₂_map_right_iff]
      refine List.forall₂_iff_get.2 ⟨List.length_range.symm, fun i hi _ => ?_⟩
      rw [List.get_eq_getElem, List.get_eq_getElem, List.getElem_range]
      exact judgesMethod_ofAlternatives hitems hlength (List.getElem?_eq_getElem hi)
  otherwise hnone := by
    rw [methodRules_of_none hnone] at h
    obtain ⟨f, rest, hf, hrest, rfl⟩ := List.forall₂_cons_left_iff.1 h
    obtain rfl := List.forall₂_nil_left_iff.1 hrest
    obtain rfl : f = .ofRequirements methodsPath [.items methodsPath] r := hf
    exact ⟨_, rfl, status_outcome_methods hnone⟩

/-! ### The check of authentications -/

/-- What is recorded about an authentication: one observation about its listeners, those about its
methods, and perhaps one about the status that it reports. -/
def IsAuthenticationBlock (r : Resource) (block : List (String × Evaluation)) : Prop :=
  ∃ listeners records status, block = listeners :: (records ++ status) ∧
    listeners.1 = "valid(spec.listenerRef)" ∧ RecordsMethods r records ∧
    status.length ≤ 1 ∧ ∀ record ∈ status, record.1 = "status"

theorem isAuthenticationBlock_of_isBlock {level : DetailLevel} {block : List (String × Evaluation)}
    (h : Kind.brokerAuthentication.IsBlock level r block) : IsAuthenticationBlock r block := by
  obtain ⟨findings, hfindings, rfl⟩ := h
  obtain ⟨f, rest, hf, hrest, rfl⟩ := List.forall₂_cons_left_iff.1 hfindings
  have hf : f.Validates "spec.listenerRef" := hf
  have hcondition : f.condition = "valid(spec.listenerRef)" := hf.condition_eq
  let record := fun f : Finding => f.record (Resource.name r) Kind.brokerAuthentication.word
  refine ⟨record f, rest.map record, (Finding.ofStatus? level r).toList.map record, ?_, hcondition,
    recordsMethods_of_comesTo hrest _ _, ?_, ?_⟩
  · rw [List.cons_append, List.map_cons, List.map_append]
  · rw [List.length_map]
    cases Finding.ofStatus? level r <;> simp
  · intro record hrecord
    obtain ⟨f, hf, rfl⟩ := List.mem_map.1 hrecord
    obtain ⟨status, -, rfl⟩ := Option.map_eq_some_iff.1 (Option.mem_toList.1 hf)
    rfl

end Profile

namespace Kind

open Profile

/-- **Each method of an authentication is judged on its own.** Whoever replies, where the check of
authentications comes about, it records for each authentication that was fetched one observation
about each item of its list of methods, in order, which is a good one exactly if this item names one
method, and an error otherwise; without an item it records a single error. The check does come about
where the authentications can be fetched and no lookup of a listener loses the cluster. -/
theorem check_records_methods (scope : Scope) :
    (∀ responder past limit now c,
      ((brokerAuthentication.check scope).run responder past limit now).result = .ok (.ok c) →
      ∃ resources,
        ((brokerAuthentication.fetch scope).run responder past limit now).result =
          .ok (.ok resources) ∧
        ∀ ns ∈ resources.map Resource.ns, ∃ count blocks,
          List.Forall₂ IsAuthenticationBlock (resources.filter fun r => Resource.ns r = ns) blocks ∧
          ((c.entryAt? brokerAuthentication.target ns).getD Entry.empty).pairs =
            (brokerAuthentication.countCondition, count) :: blocks.flatten) ∧
    ∀ cluster resources,
      (brokerAuthentication.fetch scope).run.Yields cluster (.ok (.ok resources)) →
      (∀ r ∈ resources, ∀ name ∈ Finding.namesAt "spec.listenerRef" r,
        cluster.loss? (Resource.ns r) brokerListener name = none) →
      ∃ c, (brokerAuthentication.check scope).run.Yields cluster (.ok (.ok c)) := by
  constructor
  · intro responder past limit now c h
    obtain ⟨resources, hfetch, hrecords⟩ := check_records scope brokerAuthentication h
    refine ⟨resources, hfetch, fun ns hns => ?_⟩
    obtain ⟨blocks, hblocks, hpairs⟩ := hrecords ns hns
    exact ⟨_, blocks, hblocks.imp fun _ _ => isAuthenticationBlock_of_isBlock, hpairs⟩
  · intro cluster resources hfetch hreached
    refine exists_check_yields scope brokerAuthentication hfetch fun r hr => ?_
    have hlisteners := (Finding.looksUp_references cluster (Resource.ns r) brokerListener
      "spec.listenerRef" r).settled (hreached r hr)
    refine List.forall_mem_cons.2 ⟨⟨_, hlisteners.yields⟩, fun rule hrule => ?_⟩
    rcases eq_of_mem_methodRules hrule with ⟨_, _, rfl⟩ | ⟨_, _, rfl⟩
    · exact ⟨_, Session.yields_pure _⟩
    · exact ⟨_, Session.yields_pure _⟩

/-- An authentication without listeners whose methods are a good one, a number, and two at once. -/
private def threeMethods : Resource :=
  .object [("metadata", .object [("name", .string "auth"), ("namespace", .string "edge")]),
    ("spec", .object [("authenticationMethods", .array [.object [("sat", .object [])], .int 5,
      .object [("sat", .bool true), ("custom", .null), ("x509", .object [])]])])]

/-- A cluster that lists this authentication. -/
private def authenticationListed : Cluster where
  reply
    | .listObjects _ _ => ⟨3, .ok [threeMethods]⟩
    | _ => ⟨3, .error (.api 503 "unavailable")⟩

/-- The scope of a run that looks at all namespaces. -/
private def allAuthentications : Scope := ⟨⟨none, 5, none, false, 80⟩, .any, .summary, false⟩

/-- Three items, each judged on its own. -/
theorem check_records_methods_three :
    ∃ c, ((brokerAuthentication.check allAuthentications).run.run authenticationListed).result =
        .ok (.ok c) ∧
      IsAuthenticationBlock threeMethods
        ((c.entryAt? brokerAuthentication.target "edge").getD Entry.empty).pairs.tail := by
  obtain ⟨hrecords, hyields⟩ := check_records_methods allAuthentications
  have hfetch : (brokerAuthentication.fetch allAuthentications).run.Yields authenticationListed
      (.ok (.ok [threeMethods])) := fun _ _ => rfl
  have hnames : Finding.namesAt "spec.listenerRef" threeMethods = [] := by decide +kernel
  obtain ⟨c, hc⟩ := hyields authenticationListed [threeMethods] hfetch
    (List.forall_mem_singleton.2 (by rw [hnames]; exact List.forall_mem_nil _))
  obtain ⟨resources, hresources, hentries⟩ := hrecords _ [] none 0 c (hc [] 0)
  obtain rfl : [threeMethods] = resources :=
    Except.ok.inj (Except.ok.inj ((hfetch [] 0).symm.trans hresources))
  have hns : Resource.ns threeMethods = "edge" := by decide +kernel
  obtain ⟨count, blocks, hblocks, hpairs⟩ := hentries "edge" (by simp [hns])
  rw [List.filter_cons_of_pos (by simp [hns]), List.filter_nil] at hblocks
  obtain ⟨block, rest, hblock, hrest, rfl⟩ := List.forall₂_cons_left_iff.1 hblocks
  obtain rfl := List.forall₂_nil_left_iff.1 hrest
  refine ⟨c, hc [] 0, ?_⟩
  rw [hpairs, List.tail_cons, List.flatten_cons, List.flatten_nil, List.append_nil]
  exact hblock

end Kind

end EdgeHealth
