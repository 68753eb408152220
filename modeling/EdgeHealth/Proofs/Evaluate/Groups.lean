import EdgeHealth.Proofs.Data.Distinct
import EdgeHealth.Proofs.Data.Grown
import EdgeHealth.Resource

/-!
# Resources put together by namespace

A grouping puts the resources of each namespace together. The namespaces stand in the order in which
they come first, and the group of a namespace is the part of the list that belongs to it. So the
groups together are the list in another order, and grouping this list changes nothing any more.

The facts about lists that this rests on hold for members with any keys.

## Main definitions

* `IsGrouping` : a table that puts the resources of a list together by namespace.

## Main results

* `toList_groupByNamespace` : the groups.
* `perm_flatMap_eraseDups` : the members of a list, put together by their keys.
* `grouping_loses_nothing` : what a grouping keeps of the list.
-/

namespace EdgeHealth

/-! ### Lists put together by keys -/

section Keys

variable {β : Type} (key : β → String) (l : List β)

/-- Of the members of a list, put together by their keys, those with one key are as before. -/
theorem filter_flatMap_eraseDups (k : String) :
    ((l.map key).eraseDups.flatMap fun k' => l.filter fun b => key b = k').filter
        (fun b => key b = k) = l.filter fun b => key b = k := by
  rw [List.filter_flatMap]
  have hother : ∀ k' ≠ k, (l.filter fun b => key b = k').filter (fun b => key b = k) = [] := by
    intro k' hne
    refine List.filter_eq_nil_iff.2 fun b hb hk => hne ?_
    have hk' : key b = k' := by simpa using (List.mem_filter.1 hb).2
    exact hk'.symm.trans (by simpa using hk)
  by_cases hk : k ∈ l.map key
  · rw [flatMap_eq_of_nodup (nodup_eraseDups _) (List.mem_eraseDups.2 hk)
      fun k' _ => hother k', List.filter_filter]
    simp only [Bool.and_self]
  · have hnone : l.filter (fun b => key b = k) = [] :=
      List.filter_eq_nil_iff.2 fun b hb heq =>
        hk (of_decide_eq_true heq ▸ List.mem_map_of_mem hb)
    rw [hnone]
    refine List.flatMap_eq_nil_iff.2 fun k' hk' => hother k' fun heq => hk ?_
    exact List.mem_eraseDups.1 (heq ▸ hk')

/-- The members of a list, put together by their keys, are the same members in another order. -/
theorem perm_flatMap_eraseDups [DecidableEq β] :
    ((l.map key).eraseDups.flatMap fun k => l.filter fun b => key b = k).Perm l := by
  refine List.perm_iff_count.2 fun a => ?_
  have ha : decide (key a = key a) = true := decide_eq_true rfl
  rw [← List.count_filter (p := fun b => key b = key a) ha, filter_flatMap_eraseDups,
    List.count_filter (p := fun b => key b = key a) ha]

end Keys

/-! ### Groups of resources -/

/-- The groups of a list of resources: each namespace, in the order in which they come first, with
the part of the list that belongs to it. -/
theorem toList_groupByNamespace (resources : List Resource) :
    (groupByNamespace resources).toList = (resources.map Resource.ns).eraseDups.map fun ns =>
      (ns, resources.filter fun r => Resource.ns r = ns) := by
  have hgrow : groupByNamespace resources =
      Table.grow Resource.ns (fun group r => group ++ [r]) [] resources := rfl
  rw [hgrow, Table.toList_grow]
  refine List.map_congr_left fun ns _ => congrArg (Prod.mk ns) ?_
  rw [List.foldl_append_eq_append, List.nil_append, ← List.flatMap_def, List.flatMap_singleton']

/-- A table that puts the resources of a list together by namespace. -/
structure IsGrouping (resources : List Resource) (groups : Table (List Resource)) : Prop where
  /-- No namespace stands there twice. -/
  nodup : groups.keys.Nodup
  /-- The namespaces stand in the order in which they come first. -/
  inOrder : groups.keys.Pairwise fun ns ns' =>
    (resources.map Resource.ns).idxOf ns < (resources.map Resource.ns).idxOf ns'
  /-- The namespaces are those of the resources. -/
  mem_keys_iff : ∀ ns, ns ∈ groups.keys ↔ ∃ r ∈ resources, Resource.ns r = ns
  /-- No group is empty. -/
  group_ne_nil : ∀ pair ∈ groups.toList, pair.2 ≠ []
  /-- A group is the part of the list that belongs to its namespace, in the order of the list. -/
  group_eq : ∀ pair ∈ groups.toList, pair.2 = resources.filter fun r => Resource.ns r = pair.1
  /-- The groups together are the list in another order. -/
  perm : groups.values.flatten.Perm resources

section

variable (resources : List Resource)

theorem keys_groupByNamespace :
    (groupByNamespace resources).keys = (resources.map Resource.ns).eraseDups := by
  rw [Table.keys, toList_groupByNamespace, List.map_map]
  exact List.map_id _

/-- The groups, one after another. -/
theorem flatten_values_groupByNamespace :
    (groupByNamespace resources).values.flatten =
      (resources.map Resource.ns).eraseDups.flatMap fun ns =>
        resources.filter fun r => Resource.ns r = ns := by
  rw [Table.values, toList_groupByNamespace, List.map_map, List.flatMap_def]
  rfl

/-- A namespace of one of the resources has a resource. -/
theorem filter_ns_ne_nil {ns : String} (h : ns ∈ (resources.map Resource.ns).eraseDups) :
    resources.filter (fun r => Resource.ns r = ns) ≠ [] := by
  obtain ⟨r, hr, hns⟩ := List.mem_map.1 (List.mem_eraseDups.1 h)
  exact List.ne_nil_of_mem (List.mem_filter.2 ⟨hr, decide_eq_true hns⟩)

theorem isGrouping_groupByNamespace : IsGrouping resources (groupByNamespace resources) where
  nodup := by
    rw [keys_groupByNamespace]
    exact nodup_eraseDups _
  inOrder := by
    rw [keys_groupByNamespace]
    exact pairwise_idxOf_eraseDups _
  mem_keys_iff ns := by
    rw [keys_groupByNamespace, List.mem_eraseDups, List.mem_map]
  group_ne_nil pair hpair := by
    rw [toList_groupByNamespace] at hpair
    obtain ⟨ns, hns, rfl⟩ := List.mem_map.1 hpair
    exact filter_ns_ne_nil resources hns
  group_eq pair hpair := by
    rw [toList_groupByNamespace] at hpair
    obtain ⟨ns, -, rfl⟩ := List.mem_map.1 hpair
    rfl
  perm := by
    rw [flatten_values_groupByNamespace]
    exact perm_flatMap_eraseDups Resource.ns resources

/-- The groups, one after another, have the same groups again. -/
theorem groupByNamespace_flatten_values :
    groupByNamespace (groupByNamespace resources).values.flatten = groupByNamespace resources := by
  have hkeys : ((groupByNamespace resources).values.flatten.map Resource.ns).eraseDups =
      (resources.map Resource.ns).eraseDups := by
    rw [flatten_values_groupByNamespace, List.map_flatMap]
    refine eraseDups_flatMap_of_nodup (nodup_eraseDups _) fun ns hns => ⟨?_, fun ns' hns' => ?_⟩
    · rw [ne_eq, List.map_eq_nil_iff]
      exact filter_ns_ne_nil resources hns
    · obtain ⟨r, hr, rfl⟩ := List.mem_map.1 hns'
      exact of_decide_eq_true (List.mem_filter.1 hr).2
  have hlist : (groupByNamespace (groupByNamespace resources).values.flatten).toList =
      (groupByNamespace resources).toList := by
    rw [toList_groupByNamespace, hkeys, toList_groupByNamespace resources]
    refine List.map_congr_left fun ns _ => congrArg (Prod.mk ns) ?_
    rw [flatten_values_groupByNamespace, filter_flatMap_eraseDups]
  calc groupByNamespace (groupByNamespace resources).values.flatten
      = .ofList (groupByNamespace (groupByNamespace resources).values.flatten).toList :=
        (Table.ofList_toList _).symm
    _ = .ofList (groupByNamespace resources).toList := congrArg Table.ofList hlist
    _ = groupByNamespace resources := Table.ofList_toList _

/-- **A grouping loses nothing and adds nothing.** Its namespaces are those of the resources, each
once and in the order in which they come first. The group of a namespace is never empty: it is the
part of the list that belongs to the namespace, in the order of the list, where a resource without a
namespace belongs to that of all namespaces. So the groups together are the list in another order;
and where this list is grouped, the groups are the same. -/
theorem grouping_loses_nothing :
    IsGrouping resources (groupByNamespace resources) ∧
      groupByNamespace (groupByNamespace resources).values.flatten = groupByNamespace resources :=
  ⟨isGrouping_groupByNamespace resources, groupByNamespace_flatten_values resources⟩

end

end EdgeHealth
