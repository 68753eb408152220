import EdgeHealth.Data.Table

/-!
# Looking up and changing what a table holds

What a table holds is determined by the value of each key. Changing the value of one key leaves
those of all others alone. A key keeps its place, and a new one comes last.

## Main results

* `Table.mem_toList_iff` : the pairs of a table are its keys with their values.
* `Table.get?_alter` : the values after one of them was changed.
* `Table.toList_alter_of_notMem` : a new key comes last.
* `Table.alter_alter`, `Table.alter_eq_self`, `Table.mapValues_alter` : changes put together.
* `Table.find?_append` : the first pair with a key in two lists, one after the other.
-/

namespace EdgeHealth.Table

variable {α β : Type}

/-- A table that may be missing holds what the table holds that is there. -/
theorem get?_getD_empty (t : Option (Table α)) (key : String) :
    (t.getD empty).get? key = t.bind fun t => t.get? key := by
  cases t <;> rfl

private theorem mem_iff_find? {key : String} {a : α} : {l : List (String × α)} →
    (l.map Prod.fst).Nodup → ((key, a) ∈ l ↔ find? key l = some a)
  | [], _ => by simp [find?]
  | (k, b) :: l, h => by
    rw [List.map_cons, List.nodup_cons] at h
    by_cases hk : k = key
    · subst hk
      have hnot : (k, a) ∉ l := fun hmem => h.1 (List.mem_map.2 ⟨_, hmem, rfl⟩)
      simp [find?, hnot, eq_comm]
    · have hne : key ≠ k := fun e => hk e.symm
      simp [find?, hk, hne, mem_iff_find? h.2]

/-- A pair stands in a table if its value is that of its key. -/
theorem mem_toList_iff {t : Table α} {key : String} {a : α} :
    (key, a) ∈ t.toList ↔ t.get? key = some a :=
  mem_iff_find? t.distinct

private theorem find?_alterList (key k : String) (f : Option α → α) : (l : List (String × α)) →
    find? k (alterList key f l) = if k = key then some (f (find? key l)) else find? k l
  | [] => by
    by_cases hk : k = key
    · simp [alterList, find?, hk]
    · have hne : key ≠ k := fun e => hk e.symm
      simp [alterList, find?, hk, hne]
  | (k', a) :: l => by
    have ih := find?_alterList key k f l
    by_cases h : k' = key
    · subst h
      by_cases hk : k = k'
      · simp [alterList, find?, hk]
      · have hne : k' ≠ k := fun e => hk e.symm
        simp [alterList, find?, hk, hne]
    · by_cases hk : k = key
      · subst hk
        simpa [alterList, find?, h] using ih
      · simp [alterList, find?, h, hk, ih]

/-- Changing the value of one key leaves those of all others alone. -/
theorem get?_alter (t : Table α) (key k : String) (f : Option α → α) :
    (t.alter key f).get? k = if k = key then some (f (t.get? key)) else t.get? k :=
  find?_alterList key k f t.toList

/-- The value of a key that was given one. -/
theorem get?_insert_self (t : Table α) (key : String) (a : α) :
    (t.insert key a).get? key = some a := by
  rw [insert, get?_alter, if_pos rfl]

/-! ### Keys -/

theorem find?_eq_none_iff {key : String} : {l : List (String × α)} →
    (find? key l = none ↔ key ∉ l.map Prod.fst)
  | [] => by simp [find?]
  | (k, a) :: l => by
    by_cases h : k = key
    · simp [find?, h]
    · have hne : key ≠ k := fun e => h e.symm
      simp only [find?, if_neg h, find?_eq_none_iff (l := l), List.map_cons, List.mem_cons,
        hne, false_or]

/-- A key without a value stands in no pair. -/
theorem get?_eq_none_iff {t : Table α} {key : String} : t.get? key = none ↔ key ∉ t.keys :=
  find?_eq_none_iff

/-- Changing the value of a new key adds that key at the end. -/
theorem toList_alter_of_notMem {t : Table α} {key : String} (h : key ∉ t.keys)
    (f : Option α → α) : (t.alter key f).toList = t.toList ++ [(key, f none)] := by
  have hlist : (l : List (String × α)) → key ∉ l.map Prod.fst →
      alterList key f l = l ++ [(key, f none)] := by
    intro l hl
    induction l with
    | nil => rfl
    | cons pair l ih =>
      rw [List.map_cons, List.mem_cons, not_or] at hl
      rw [alterList, if_neg fun e => hl.1 e.symm, ih hl.2]
      rfl
  exact hlist t.toList h

/-! ### Changes -/

private theorem alterList_alterList (key : String) (f g : Option α → α) :
    (l : List (String × α)) →
    alterList key g (alterList key f l) = alterList key (fun old => g (some (f old))) l
  | [] => by simp [alterList]
  | (k, a) :: l => by
    have ih := alterList_alterList key f g l
    by_cases hk : k = key <;> simp [alterList, hk, ih]

/-- Two changes of one key are one change. -/
theorem alter_alter (t : Table α) (key : String) (f g : Option α → α) :
    (t.alter key f).alter key g = t.alter key fun old => g (some (f old)) := by
  rw [alter.eq_def, alter.eq_def, alter.eq_def, Table.mk.injEq]
  exact alterList_alterList key f g t.toList

private theorem alterList_eq_self {key : String} {f : Option α → α} {a : α} :
    {l : List (String × α)} → find? key l = some a → f (some a) = a → alterList key f l = l
  | (k, b) :: l, h, hf => by
    by_cases hk : k = key
    · rw [find?, if_pos hk, Option.some.injEq] at h
      rw [alterList, if_pos hk, h, hf]
    · rw [find?, if_neg hk] at h
      rw [alterList, if_neg hk, alterList_eq_self h hf]

/-- A change that leaves a value as it is leaves the table as it is. -/
theorem alter_eq_self {t : Table α} {key : String} {f : Option α → α} {a : α}
    (h : t.get? key = some a) (hf : f (some a) = a) : t.alter key f = t := by
  rw [alter.eq_def]
  cases t
  rw [Table.mk.injEq]
  exact alterList_eq_self h hf

private theorem map_alterList {key : String} {f : Option α → α} {f' : Option β → β} {g : α → β}
    (h : ∀ old, g (f old) = f' (old.map g)) : (l : List (String × α)) →
    (alterList key f l).map (fun pair => (pair.1, g pair.2)) =
      alterList key f' (l.map fun pair => (pair.1, g pair.2))
  | [] => by simp [alterList, h]
  | (k, a) :: l => by
    have ih : (alterList key f l).map (fun pair => (pair.1, g pair.2)) =
        alterList key f' (l.map fun pair => (pair.1, g pair.2)) := map_alterList h l
    by_cases hk : k = key <;> simp [alterList, hk, h, ih]

/-- Changing all values after one, and one after all. -/
theorem mapValues_alter {t : Table α} {key : String} {f : Option α → α} {f' : Option β → β}
    {g : α → β} (h : ∀ old, g (f old) = f' (old.map g)) :
    (t.alter key f).mapValues g = (t.mapValues g).alter key f' := by
  rw [mapValues, alter.eq_def, Table.mk.injEq]
  exact map_alterList h t.toList

/-! ### Lists of pairs -/

theorem mem_of_find?_eq_some {key : String} {a : α} : {l : List (String × α)} →
    find? key l = some a → (key, a) ∈ l
  | (k, b) :: l, h => by
    by_cases hk : k = key
    · rw [find?, if_pos hk, Option.some.injEq] at h
      rw [hk, h]
      exact List.mem_cons_self
    · rw [find?, if_neg hk] at h
      exact List.mem_cons_of_mem _ (mem_of_find?_eq_some h)

/-- A key that stands in a pair has a value. -/
theorem exists_find?_of_mem {key : String} {a : α} {l : List (String × α)} (h : (key, a) ∈ l) :
    ∃ b, find? key l = some b ∧ (key, b) ∈ l := by
  cases hfind : find? key l with
  | none => exact absurd (List.mem_map_of_mem h) (find?_eq_none_iff.1 hfind)
  | some b => exact ⟨b, rfl, mem_of_find?_eq_some hfind⟩

/-- In two lists, one after the other, the first pair with a key is that of the first list, if it
has one. -/
theorem find?_append (key : String) : (l l' : List (String × α)) →
    find? key (l ++ l') = (find? key l).or (find? key l')
  | [], l' => rfl
  | (k, a) :: l, l' => by
    rw [List.cons_append, find?, find?]
    split
    · rfl
    · exact find?_append key l l'

end EdgeHealth.Table
