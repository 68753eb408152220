/-!
# Tables in order of insertion

A table from keys to values that remembers in which order its keys came. A key stands in it at most
once: writing to a key that is there changes its value and leaves its place.

## Main definitions

* `Table` : pairs of keys and values with distinct keys.
* `Table.get?`, `Table.keys`, `Table.toList` : what a table holds.
* `Table.alter` : one key's value changed, or added at the end.
* `Table.insert`, `Table.ofList` : tables from single pairs.
* `Table.erase` : a table without a key.
* `Table.mapValues` : all values changed, in place.
-/

namespace EdgeHealth

/-- Pairs of keys and values, in the order in which the keys came, with distinct keys. -/
structure Table (α : Type) where
  /-- The pairs, in order. -/
  toList : List (String × α)
  /-- No key stands in two pairs. -/
  distinct : (toList.map Prod.fst).Nodup
  deriving DecidableEq, Repr

namespace Table

variable {α β : Type}

/-- The table without a pair. -/
def empty : Table α := ⟨[], by simp⟩

instance : Inhabited (Table α) := ⟨empty⟩

/-- Whether a table has no pair. -/
def isEmpty (t : Table α) : Bool := t.toList.isEmpty

/-- The keys, in order. -/
def keys (t : Table α) : List String := t.toList.map Prod.fst

/-- The values, in order. -/
def values (t : Table α) : List α := t.toList.map Prod.snd

/-- The value of a key in a list of pairs. -/
def find? (key : String) : List (String × α) → Option α
  | [] => none
  | (k, a) :: rest => if k = key then some a else find? key rest

/-- The value of a key. -/
def get? (t : Table α) (key : String) : Option α := find? key t.toList

/-- A list of pairs with the value of one key changed, or with that key added at the end. -/
def alterList (key : String) (f : Option α → α) : List (String × α) → List (String × α)
  | [] => [(key, f none)]
  | (k, a) :: rest => if k = key then (k, f (some a)) :: rest else (k, a) :: alterList key f rest

/-- Changing the value of a key adds that key at the end unless it is there already. -/
theorem map_fst_alterList (key : String) (f : Option α → α) : (l : List (String × α)) →
    (alterList key f l).map Prod.fst =
      if key ∈ l.map Prod.fst then l.map Prod.fst else l.map Prod.fst ++ [key]
  | [] => rfl
  | (k, a) :: rest => by
    by_cases h : k = key
    · simp [alterList, h]
    · have h' : ¬ key = k := fun e => h e.symm
      have ih := map_fst_alterList key f rest
      by_cases hmem : key ∈ rest.map Prod.fst
      · simp only [alterList, h, if_false, List.map_cons, ih, if_pos hmem]
        rw [if_pos (List.mem_cons_of_mem _ hmem)]
      · simp only [alterList, h, if_false, List.map_cons, ih, if_neg hmem]
        rw [if_neg (by simpa [h'] using hmem)]
        rfl

/-- A list of pairs keeps its keys distinct when one key's value is changed. -/
theorem nodup_alterList (key : String) (f : Option α → α) {l : List (String × α)}
    (h : (l.map Prod.fst).Nodup) : ((alterList key f l).map Prod.fst).Nodup := by
  rw [map_fst_alterList]
  split
  · exact h
  · next hmem =>
    rw [List.nodup_append]
    exact ⟨h, by simp, fun a ha b hb => by simp at hb; rintro rfl; exact hmem (hb ▸ ha)⟩

/-- The table with the value of one key changed. The change sees the former value, or `none` for a
key that is not there; such a key is added at the end. -/
def alter (t : Table α) (key : String) (f : Option α → α) : Table α :=
  ⟨alterList key f t.toList, nodup_alterList key f t.distinct⟩

/-- The table with a value for a key. -/
def insert (t : Table α) (key : String) (a : α) : Table α := t.alter key fun _ => a

/-- The table with a value for a key that has none yet. -/
def insertNew (t : Table α) (key : String) (a : α) : Table α := t.alter key fun old => old.getD a

/-- The table of a list of pairs; of two with one key the first gives the place and the last the
value. -/
def ofList (pairs : List (String × α)) : Table α :=
  pairs.foldl (fun t pair => t.insert pair.1 pair.2) empty

/-- The table without a key. -/
def erase (t : Table α) (key : String) : Table α :=
  ⟨t.toList.filter fun pair => pair.1 != key,
    t.distinct.sublist (List.filter_sublist.map Prod.fst)⟩

/-- The table with every value changed. -/
def mapValues (f : α → β) (t : Table α) : Table β :=
  ⟨t.toList.map fun pair => (pair.1, f pair.2), by
    rw [List.map_map]; exact t.distinct⟩

end Table

end EdgeHealth
