import EdgeHealth.Bundle.Task
import EdgeHealth.Proofs.Data.Distinct

/-!
# The plan that follows from the pods

A pod that has a namespace and a name has them as its *address*. Of pods with one address only the
first counts. The plan that follows from a list of pods visits the addresses in the order in which
they come first: the logs of the containers, if logs are wanted, and then the measurement. After all
pods it visits their namespaces in the order in which they come first: the workloads of each kind.
So no task stands in it twice, as long as no pod has two containers with one name, and pods whose
addresses have come before change nothing.

## Main definitions

* `Task.addresses`, `Task.namespaces` : the addresses and namespaces of pods, each once.
* `Task.containersAt` : the containers of the first pod with an address.
* `Task.tasksAt` : the tasks for an address.

## Main results

* `Task.followUp_eq` : the plan, address by address and namespace by namespace.
* `Task.followUp_append` : pods whose addresses have come before.
* `Task.nodup_followUp` : no task stands in the plan twice.
* `Task.not_isLog_of_mem_followUp` : where no logs are wanted, no task asks for one.
-/

namespace EdgeHealth

namespace Task

/-! ### Addresses -/

/-- The addresses of pods that have one, each once, in the order in which they come first. -/
def addresses (pods : List Pod) : List (String × String) := (pods.filterMap address?).eraseDups

/-- The namespaces of pods that have an address, each once, in the order in which they come
first. -/
def namespaces (pods : List Pod) : List String :=
  ((pods.filterMap address?).map Prod.fst).eraseDups

/-- The containers of the first pod with an address, those that run first in front. -/
def containersAt (pods : List Pod) (address : String × String) : List String :=
  match pods.find? fun p => address? p = some address with
  | none => []
  | some p => containersOf p

/-- The tasks for an address: one for the log of each container, if logs of a positive age are
wanted, and one for the measurement. -/
def tasksAt (logAge : Int) (pods : List Pod) (address : String × String) : List Task :=
  (if 0 < logAge then (containersAt pods address).map (podLog address.1 address.2) else []) ++
    [podMetric address.1 address.2]

variable {logAge : Int} {pods : List Pod}

theorem mem_addresses {address : String × String} :
    address ∈ addresses pods ↔ ∃ p ∈ pods, address? p = some address := by
  rw [addresses, List.mem_eraseDups, List.mem_filterMap]

theorem mem_namespaces {ns : String} :
    ns ∈ namespaces pods ↔ ∃ p ∈ pods, ∃ name, address? p = some (ns, name) := by
  rw [namespaces, List.mem_eraseDups, List.mem_map]
  constructor
  · rintro ⟨⟨ns, name⟩, hmem, rfl⟩
    obtain ⟨p, hp, haddress⟩ := List.mem_filterMap.1 hmem
    exact ⟨p, hp, name, haddress⟩
  · rintro ⟨p, hp, name, haddress⟩
    exact ⟨(ns, name), List.mem_filterMap.2 ⟨p, hp, haddress⟩, rfl⟩

/-- There is a first pod with an address that has come. -/
theorem exists_first {address : String × String} (h : address ∈ addresses pods) :
    ∃ p ∈ pods, address? p = some address ∧
      pods.find? (fun p => address? p = some address) = some p := by
  obtain ⟨p, hp, haddress⟩ := mem_addresses.1 h
  have hsome : (pods.find? fun p => address? p = some address).isSome :=
    List.find?_isSome.2 ⟨p, hp, decide_eq_true haddress⟩
  obtain ⟨first, hfirst⟩ := Option.isSome_iff_exists.1 hsome
  have hat := List.find?_some hfirst
  exact ⟨first, List.mem_of_find?_eq_some hfirst, of_decide_eq_true hat, hfirst⟩

/-- The containers at an address are those of a pod with this address. -/
theorem exists_containersAt_eq {address : String × String} (h : address ∈ addresses pods) :
    ∃ p ∈ pods, address? p = some address ∧ containersAt pods address = containersOf p := by
  obtain ⟨p, hp, haddress, hfirst⟩ := exists_first h
  exact ⟨p, hp, haddress, by rw [containersAt, hfirst]⟩

/-- Where an address has come, pods that come later do not change its containers. -/
theorem containersAt_append {address : String × String} (h : address ∈ addresses pods)
    (more : List Pod) : containersAt (pods ++ more) address = containersAt pods address := by
  obtain ⟨p, -, -, hfirst⟩ := exists_first h
  rw [containersAt, containersAt, List.find?_append, hfirst, Option.some_or]

/-- Where an address has not come, they are those of the pod that comes with it. -/
theorem containersAt_concat {address : String × String} {p : Pod} (h : address ∉ addresses pods)
    (haddress : address? p = some address) :
    containersAt (pods ++ [p]) address = containersOf p := by
  have hnone : pods.find? (fun p => address? p = some address) = none :=
    List.find?_eq_none.2 fun q hq heq => h (mem_addresses.2 ⟨q, hq, of_decide_eq_true heq⟩)
  rw [containersAt, List.find?_append, hnone, Option.none_or,
    List.find?_singleton, if_pos (decide_eq_true haddress)]

theorem tasksAt_append {address : String × String} (h : address ∈ addresses pods)
    (more : List Pod) : tasksAt logAge (pods ++ more) address = tasksAt logAge pods address := by
  rw [tasksAt, tasksAt, containersAt_append h]

/-! ### The plan -/

/-- One more pod counts if it has an address that has not come before. -/
theorem distinctPods_concat (pods : List Pod) (p : Pod) :
    distinctPods (pods ++ [p]) =
      match address? p with
      | none => distinctPods pods
      | some address =>
        if (distinctPods pods).any (·.1 == address) then distinctPods pods
        else distinctPods pods ++ [(address, p)] := by
  rw [distinctPods, List.foldl_append]
  rfl

/-- The pods that count have the addresses of all, and each of them is the first one with its
address. -/
theorem distinctPods_spec (pods : List Pod) :
    (distinctPods pods).map Prod.fst = addresses pods ∧
      ∀ pair ∈ distinctPods pods, containersOf pair.2 = containersAt pods pair.1 := by
  -- The pods are looked at from the first to the last, so the last one is taken off.
  induction pods using List.reverseRecOn with
  | nil => exact ⟨rfl, fun _ h => absurd h List.not_mem_nil⟩
  | append_singleton pods p ih =>
    obtain ⟨hfst, hcontainers⟩ := ih
    have hkept : ∀ pair ∈ distinctPods pods,
        containersOf pair.2 = containersAt (pods ++ [p]) pair.1 := fun pair hpair => by
      rw [containersAt_append (hfst ▸ List.mem_map_of_mem hpair), hcontainers pair hpair]
    have hconcat := distinctPods_concat pods p
    cases haddress : address? p with
    | none =>
      rw [haddress] at hconcat
      rw [hconcat, hfst, addresses, addresses, List.filterMap_append]
      exact ⟨by simp [haddress], hkept⟩
    | some address =>
      simp only [haddress] at hconcat
      have hany : (distinctPods pods).any (·.1 == address) = true ↔ address ∈ addresses pods := by
        rw [← hfst, List.any_eq_true, List.mem_map]
        simp only [beq_iff_eq]
      have haddresses : addresses (pods ++ [p]) =
          (pods.filterMap address? ++ [address]).eraseDups := by
        rw [addresses, List.filterMap_append]
        simp [haddress]
      by_cases hmem : address ∈ addresses pods
      · rw [if_pos (hany.2 hmem)] at hconcat
        rw [hconcat, hfst, haddresses, eraseDups_concat_of_mem (List.mem_eraseDups.1 hmem)]
        exact ⟨rfl, hkept⟩
      · rw [if_neg (mt hany.1 hmem)] at hconcat
        rw [hconcat, haddresses, eraseDups_concat_of_notMem (mt List.mem_eraseDups.2 hmem),
          List.map_append, hfst]
        refine ⟨rfl, fun pair hpair => ?_⟩
        rcases List.mem_append.1 hpair with hpair | hpair
        · exact hkept pair hpair
        · cases List.mem_singleton.1 hpair
          exact (containersAt_concat hmem haddress).symm

/-- The namespaces of addresses, each once. -/
theorem distinctNamespaces_eq (l : List (String × String)) :
    distinctNamespaces l = (l.map Prod.fst).eraseDups := by
  induction l using List.reverseRecOn with
  | nil => rfl
  | append_singleton l address ih =>
    have hconcat : distinctNamespaces (l ++ [address]) =
        if (distinctNamespaces l).contains address.1 then distinctNamespaces l
        else distinctNamespaces l ++ [address.1] := by
      rw [distinctNamespaces, List.foldl_append]
      rfl
    rw [hconcat, ih, List.map_append, List.map_singleton]
    by_cases h : address.1 ∈ l.map Prod.fst
    · rw [if_pos (List.contains_iff_mem.2 (List.mem_eraseDups.2 h)),
        eraseDups_concat_of_mem h]
    · rw [if_neg (mt (fun hc => List.mem_eraseDups.1 (List.contains_iff_mem.1 hc)) h),
        eraseDups_concat_of_notMem h]

/-- The plan, address by address and then namespace by namespace. -/
theorem followUp_eq (logAge : Int) (pods : List Pod) :
    followUp logAge pods =
      (addresses pods).flatMap (tasksAt logAge pods) ++
        (namespaces pods).flatMap fun ns => Workload.all.map (workloads ns) := by
  obtain ⟨hfst, hcontainers⟩ := distinctPods_spec pods
  have hpods : (distinctPods pods).flatMap
      (fun pair => forPod logAge pair.1.1 pair.1.2 pair.2) =
        (addresses pods).flatMap (tasksAt logAge pods) := by
    rw [← hfst, List.flatMap_map]
    refine List.flatMap_congr fun pair hpair => ?_
    rw [tasksAt, ← hcontainers pair hpair]
    rfl
  have hnamespaces : distinctNamespaces ((distinctPods pods).map Prod.fst) = namespaces pods := by
    rw [hfst, distinctNamespaces_eq, addresses, eraseDups_map_eraseDups, namespaces]
  rw [← hpods, ← hnamespaces]
  rfl

/-- Pods whose addresses have come before change nothing. -/
theorem followUp_append {more : List Pod}
    (h : ∀ p ∈ more, ∀ address, address? p = some address → address ∈ addresses pods) :
    followUp logAge (pods ++ more) = followUp logAge pods := by
  have hsubset : more.filterMap address? ⊆ pods.filterMap address? := fun address hmem => by
    obtain ⟨p, hp, haddress⟩ := List.mem_filterMap.1 hmem
    exact List.mem_eraseDups.1 (h p hp address haddress)
  have haddresses : addresses (pods ++ more) = addresses pods := by
    rw [addresses, List.filterMap_append, eraseDups_append_of_subset hsubset, addresses]
  have hnamespaces : namespaces (pods ++ more) = namespaces pods := by
    rw [namespaces, List.filterMap_append, List.map_append,
      eraseDups_append_of_subset (List.map_subset _ hsubset), namespaces]
  rw [followUp_eq, followUp_eq, haddresses, hnamespaces]
  congr 1
  exact List.flatMap_congr fun address hmem => tasksAt_append hmem more

/-! ### No task twice -/

/-- The address of the pod that a task is about. -/
def podOf? : Task → Option (String × String)
  | .podLog ns pod _ => some (ns, pod)
  | .podMetric ns pod => some (ns, pod)
  | _ => none

/-- The namespace whose workloads a task collects. -/
def namespaceOf? : Task → Option String
  | .workloads ns _ => some ns
  | _ => none

theorem podOf?_of_mem_tasksAt {address : String × String} {t : Task}
    (h : t ∈ tasksAt logAge pods address) : t.podOf? = some address := by
  rcases List.mem_append.1 h with h | h
  · split at h
    · obtain ⟨container, -, rfl⟩ := List.mem_map.1 h
      rfl
    · cases h
  · cases List.mem_singleton.1 h
    rfl

theorem nodup_tasksAt {address : String × String} (h : (containersAt pods address).Nodup) :
    (tasksAt logAge pods address).Nodup := by
  refine List.nodup_append.2 ⟨?_, List.nodup_singleton _, ?_⟩
  · split
    · exact h.map fun container container' heq => (podLog.inj heq).2.2
    · exact List.nodup_nil
  · intro t ht t' ht'
    cases List.mem_singleton.1 ht'
    split at ht
    · obtain ⟨container, -, rfl⟩ := List.mem_map.1 ht
      exact nofun
    · cases ht

/-- No task stands in the plan twice, as long as no pod has two containers with one name. -/
theorem nodup_followUp (h : ∀ p ∈ pods, (containersOf p).Nodup) : (followUp logAge pods).Nodup := by
  have hcontainers : ∀ address ∈ addresses pods, (containersAt pods address).Nodup := by
    intro address hmem
    obtain ⟨p, hp, -, heq⟩ := exists_containersAt_eq hmem
    exact heq ▸ h p hp
  rw [followUp_eq]
  refine List.nodup_append.2 ⟨?_, ?_, ?_⟩
  · exact nodup_flatMap_of_tag podOf? (nodup_eraseDups _)
      (fun address _ t => podOf?_of_mem_tasksAt) fun address hmem =>
        nodup_tasksAt (hcontainers address hmem)
  · refine nodup_flatMap_of_tag namespaceOf? (nodup_eraseDups _) (fun ns _ t ht => ?_)
      fun ns _ => ?_
    · obtain ⟨kind, -, rfl⟩ := List.mem_map.1 ht
      rfl
    · exact (by decide : Workload.all.Nodup).map fun kind kind' heq => (workloads.inj heq).2
  · rintro t ht _ ht' rfl
    -- Only the tasks of the first part are about a pod.
    obtain ⟨address, -, ht⟩ := List.mem_flatMap.1 ht
    obtain ⟨ns, -, ht'⟩ := List.mem_flatMap.1 ht'
    obtain ⟨kind, -, rfl⟩ := List.mem_map.1 ht'
    cases podOf?_of_mem_tasksAt ht

/-! ### Tasks for logs -/

/-- A task asks for the log of a container. -/
def IsLog (t : Task) : Prop := ∃ ns pod container, t = .podLog ns pod container

theorem not_isLog_of_mem_initial {services : List Service} {kinds : List Kind} {t : Task}
    (h : t ∈ initial services kinds) : ¬ t.IsLog := by
  rintro ⟨ns, pod, container, rfl⟩
  simp [initial] at h

theorem not_isLog_of_mem_followUp {t : Task} (h : t ∈ followUp logAge pods) (hage : logAge ≤ 0) :
    ¬ t.IsLog := by
  rintro ⟨ns, pod, container, rfl⟩
  rw [followUp_eq, List.mem_append, List.mem_flatMap, List.mem_flatMap] at h
  rcases h with ⟨address, -, h⟩ | ⟨ns', -, h⟩
  · rw [tasksAt, if_neg (Int.not_lt.2 hage), List.nil_append, List.mem_singleton] at h
    cases h
  · obtain ⟨kind, -, h⟩ := List.mem_map.1 h
    cases h

end Task

end EdgeHealth
