import EdgeHealth.Proofs.Data.Lookup

/-!
# Tables that grow out of lists

A table grows out of a list whose members have keys: one after another, each member changes the
value of its key, and a key that comes for the first time is added at the end. The keys of such a
table stand in the order in which they come first in the list. The value of a key is made by the
members with this key, in order, and by no other member.

## Main definitions

* `Table.grow` : the table that grows out of a list.

## Main results

* `Table.keys_foldl_alter`, `Table.get?_foldl_alter` : tables after one change for each member.
* `Table.keys_grow` : the keys of such a table.
* `Table.get?_grow` : the values of such a table.
* `Table.toList_grow` : both together.
* `Table.ofList_toList` : a table is the one that is made of its pairs.
-/

namespace EdgeHealth.Table

variable {α β : Type}

/-- The table that grows out of a list. Each member changes the value of its key; the first one with
a key changes `start`. -/
def grow (key : β → String) (change : α → β → α) (start : α) (l : List β) : Table α :=
  l.foldl (fun t b => t.alter (key b) fun old => change (old.getD start) b) empty

/-- A table is the list of its keys with their values. -/
theorem toList_eq_map_keys {t : Table α} {f : String → α}
    (h : ∀ key ∈ t.keys, t.get? key = some (f key)) :
    t.toList = t.keys.map fun key => (key, f key) := by
  rw [keys, List.map_map]
  refine (List.map_id t.toList).symm.trans (List.map_congr_left fun pair hpair => ?_)
  obtain ⟨key, a⟩ := pair
  have hvalue : t.get? key = some (f key) := h key (List.mem_map_of_mem hpair)
  rw [mem_toList_iff.1 hpair, Option.some.injEq] at hvalue
  exact congrArg (Prod.mk key) hvalue

/-! ### One change after another -/

section

variable (key : β → String) (f : β → Option α → α)

/-- New keys come after those that are there, each once, in the order in which they come first. -/
theorem keys_foldl_alter : (l : List β) → (t : Table α) →
    (l.foldl (fun t b => t.alter (key b) (f b)) t).keys =
      t.keys ++ ((l.map key).filter fun k => k ∉ t.keys).eraseDups
  | [], t => by simp
  | b :: l, t => by
    rw [List.foldl_cons, keys_foldl_alter l, List.map_cons]
    by_cases h : key b ∈ t.keys
    · have hkeys : (t.alter (key b) (f b)).keys = t.keys := by
        rw [keys, alter, map_fst_alterList]
        exact if_pos h
      rw [hkeys, List.filter_cons_of_neg (by simpa using h)]
    · have hkeys : (t.alter (key b) (f b)).keys = t.keys ++ [key b] := by
        rw [keys, alter, map_fst_alterList]
        exact if_neg h
      have hnew : (l.map key).filter (fun k => k ∉ t.keys ++ [key b]) =
          ((l.map key).filter fun k => k ∉ t.keys).filter fun k => !k == key b := by
        rw [List.filter_filter]
        refine List.filter_congr fun k _ => ?_
        by_cases hk : k = key b <;> simp [hk]
      rw [hkeys, List.filter_cons_of_pos (by simpa using h), List.eraseDups_cons, hnew,
        List.append_assoc]
      rfl

/-- The keys of a table that is changed from nothing stand in the order in which they come first. -/
theorem keys_foldl_alter_empty (l : List β) :
    (l.foldl (fun t b => t.alter (key b) (f b)) empty).keys = (l.map key).eraseDups := by
  have hall : (l.map key).filter (fun k => k ∉ (empty : Table α).keys) = l.map key :=
    List.filter_eq_self.2 fun k _ => decide_eq_true List.not_mem_nil
  rw [keys_foldl_alter, hall]
  rfl

/-- The value of a key is changed by the members with this key, in order, and by no other member. -/
theorem get?_foldl_alter (k : String) : (l : List β) → (t : Table α) →
    (l.foldl (fun t b => t.alter (key b) (f b)) t).get? k =
      (l.filter fun b => key b = k).foldl (fun old b => some (f b old)) (t.get? k)
  | [], t => rfl
  | b :: l, t => by
    rw [List.foldl_cons, get?_foldl_alter k l, get?_alter]
    by_cases h : key b = k
    · rw [if_pos h.symm, List.filter_cons_of_pos (by simpa using h), List.foldl_cons, h]
    · rw [if_neg fun e => h e.symm, List.filter_cons_of_neg (by simpa using h)]

end

/-! ### Tables that grow -/

section

variable (key : β → String) (change : α → β → α) (start : α)

/-- Changes of a value that is there, or else of the one that comes first. -/
private theorem foldl_getD : (l : List β) → (old : Option α) →
    l.foldl (fun old b => some (change (old.getD start) b)) old =
      if l = [] then old else some (l.foldl change (old.getD start))
  | [], _ => rfl
  | b :: l, old => by
    rw [List.foldl_cons, foldl_getD l, if_neg (List.cons_ne_nil b l)]
    cases l <;> rfl

variable (l : List β)

/-- The keys of a table that grows out of a list stand in the order in which they come first. -/
theorem keys_grow : (grow key change start l).keys = (l.map key).eraseDups :=
  keys_foldl_alter_empty key (fun b old => change (old.getD start) b) l

/-- The value of a key is made by the members with this key. -/
theorem get?_grow (k : String) :
    (grow key change start l).get? k =
      if k ∈ l.map key then some ((l.filter fun b => key b = k).foldl change start) else none := by
  have hnil : l.filter (fun b => key b = k) = [] ↔ k ∉ l.map key := by
    simp [List.filter_eq_nil_iff]
  rw [grow, get?_foldl_alter key (fun b old => change (old.getD start) b), foldl_getD]
  by_cases h : k ∈ l.map key
  · rw [if_pos h, if_neg fun e => hnil.1 e h]
    rfl
  · rw [if_neg h, if_pos (hnil.2 h)]
    rfl

/-- A table that grows out of a list, with its keys and their values. -/
theorem toList_grow :
    (grow key change start l).toList =
      (l.map key).eraseDups.map fun k => (k, (l.filter fun b => key b = k).foldl change start) := by
  rw [← keys_grow key change start l]
  refine toList_eq_map_keys fun k hk => ?_
  rw [keys_grow, List.mem_eraseDups] at hk
  rw [get?_grow, if_pos hk]

end

/-! ### Tables made of pairs -/

/-- Pairs with new and distinct keys come after those that are there. -/
private theorem toList_foldl_insert : (pairs : List (String × α)) → (t : Table α) →
    (t.keys ++ pairs.map Prod.fst).Nodup →
    (pairs.foldl (fun t pair => t.insert pair.1 pair.2) t).toList = t.toList ++ pairs
  | [], t, _ => (List.append_nil t.toList).symm
  | (key, a) :: pairs, t, h => by
    have hkey : key ∉ t.keys := fun hmem =>
      (List.nodup_append.1 h).2.2 key hmem key List.mem_cons_self rfl
    have hinsert : (t.insert key a).toList = t.toList ++ [(key, a)] :=
      toList_alter_of_notMem hkey _
    have hkeys : (t.insert key a).keys = t.keys ++ [key] := by
      rw [keys, hinsert, List.map_append]
      rfl
    rw [List.foldl_cons, toList_foldl_insert pairs (t.insert key a), hinsert, List.append_assoc]
    · rfl
    · rwa [hkeys, List.append_assoc]

/-- A table is the one that is made of its pairs. -/
theorem ofList_toList (t : Table α) : ofList t.toList = t := by
  have htoList : (ofList t.toList).toList = t.toList :=
    toList_foldl_insert t.toList empty t.distinct
  cases t
  rw [mk.injEq]
  exact htoList

/-- A table that is made of pairs holds no other pair. -/
theorem mem_of_mem_ofList {pairs : List (String × α)} {pair : String × α}
    (h : pair ∈ (ofList pairs).toList) : pair ∈ pairs := by
  have hfold : ∀ (l : List (String × α)) (t : Table α),
      pair ∈ (l.foldl (fun t pair => t.insert pair.1 pair.2) t).toList →
        pair ∈ t.toList ∨ pair ∈ l := by
    intro l
    induction l with
    | nil => exact fun t ht => .inl ht
    | cons new l ih =>
      intro t ht
      rcases ih _ ht with hmem | hmem
      · have hinsert : (t.insert new.1 new.2).get? pair.1 = some pair.2 := mem_toList_iff.1 hmem
        rw [insert, get?_alter] at hinsert
        split at hinsert
        · next hkey =>
          right
          rw [List.mem_cons]
          exact .inl (Prod.ext hkey (Option.some.inj hinsert).symm)
        · exact .inl (mem_toList_iff.2 hinsert)
      · exact .inr (List.mem_cons_of_mem _ hmem)
  exact (hfold pairs empty h).resolve_left List.not_mem_nil

end EdgeHealth.Table
