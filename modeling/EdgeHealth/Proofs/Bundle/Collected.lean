import EdgeHealth.Bundle.Build
import EdgeHealth.Proofs.Bundle.Rest
import EdgeHealth.Proofs.Data.Grown

/-!
# What a collection holds

The outcomes of tasks are put into a collection one after another: the artifacts and pods of the
tasks that succeeded, and one warning for each of those that failed. Of artifacts with one path the
first is kept.

## Main definitions

* `Table.firsts` : pairs of which the first one with each key is kept.
* `TaskOutcome` : a task with what it came to, and what a collection takes from it.

## Main results

* `Table.toList_foldl_insertNew`, `Table.find?_firsts` : the first pair with each key is kept.
* `Collection.foldl_add` : a collection after a list of outcomes.
* `Collection.phase_eq` : a collection after a phase whose pool came to rest.
-/

namespace EdgeHealth

/-! ### The first pair with each key -/

namespace Table

variable {α : Type}

/-- The pairs of a list whose key stands in no pair before, in order. -/
def firsts : List (String × α) → List (String × α)
  | [] => []
  | (key, a) :: rest => (key, a) :: (firsts rest).filter fun pair => pair.1 ≠ key

private theorem alterList_getD (key : String) (a : α) : (l : List (String × α)) →
    alterList key (fun old => old.getD a) l =
      if key ∈ l.map Prod.fst then l else l ++ [(key, a)]
  | [] => rfl
  | (k, b) :: l => by
    by_cases h : k = key
    · simp [alterList, h]
    · have hne : ¬ key = k := fun e => h e.symm
      have hmem : key ∈ ((k, b) :: l).map Prod.fst ↔ key ∈ l.map Prod.fst := by simp [hne]
      rw [alterList, if_neg h, alterList_getD key a l]
      simp only [hmem]
      split <;> rfl

/-- A value for a key that has one already is not kept. -/
theorem toList_insertNew (t : Table α) (key : String) (a : α) :
    (t.insertNew key a).toList = if key ∈ t.keys then t.toList else t.toList ++ [(key, a)] :=
  alterList_getD key a t.toList

/-- Pairs that are added to a table are kept if their key is new, each key with its first value. -/
theorem toList_foldl_insertNew : (pairs : List (String × α)) → (t : Table α) →
    (pairs.foldl (fun t pair => t.insertNew pair.1 pair.2) t).toList =
      t.toList ++ (firsts pairs).filter fun pair => pair.1 ∉ t.keys
  | [], t => by simp [firsts]
  | (key, a) :: rest, t => by
    rw [List.foldl_cons, toList_foldl_insertNew rest, toList_insertNew]
    have hkeys : (t.insertNew key a).keys = if key ∈ t.keys then t.keys else t.keys ++ [key] := by
      rw [keys, toList_insertNew]
      split <;> simp [keys]
    rw [hkeys]
    by_cases h : key ∈ t.keys
    · rw [if_pos h, if_pos h, firsts, List.filter_cons_of_neg (by simpa using h),
        List.filter_filter]
      congr 1
      refine List.filter_congr fun pair _ => ?_
      by_cases hpair : pair.1 = key <;> simp [hpair, h]
    · rw [if_neg h, if_neg h, firsts, List.filter_cons_of_pos (by simpa using h),
        List.filter_filter, List.append_assoc, List.singleton_append]
      congr 2
      refine List.filter_congr fun pair _ => ?_
      by_cases hpair : pair.1 = key <;> simp [hpair]

/-- Pairs that are added to a table bring no keys but their own. -/
theorem mem_keys_foldl_insertNew {pairs : List (String × α)} {t : Table α}
    {key : String} (h : key ∈ (pairs.foldl (fun t pair => t.insertNew pair.1 pair.2) t).keys) :
    key ∈ t.keys ∨ key ∈ pairs.map Prod.fst := by
  have hkeys := keys_foldl_alter Prod.fst (fun pair old => old.getD pair.2) pairs t
  simp only [insertNew] at h
  rw [hkeys, List.mem_append, List.mem_eraseDups] at h
  exact h.imp_right fun hnew => (List.mem_filter.1 hnew).1

theorem find?_filter_ne {key k : String} (h : key ≠ k) : (l : List (String × α)) →
    find? key (l.filter fun pair => pair.1 ≠ k) = find? key l
  | [] => rfl
  | (k', a) :: l => by
    have ih := find?_filter_ne h l
    by_cases hk : k' = k
    · have hne : k' ≠ key := fun e => h (e.symm.trans hk)
      rw [List.filter_cons_of_neg (by simpa using hk), ih, find?, if_neg hne]
    · rw [List.filter_cons_of_pos (by simpa using hk), find?, find?, ih]

/-- The value of a key is that of its first pair. -/
theorem find?_firsts (key : String) : (l : List (String × α)) → find? key (firsts l) = find? key l
  | [] => rfl
  | (k, a) :: l => by
    rw [firsts, find?, find?]
    split
    · rfl
    · next h => rw [find?_filter_ne fun e => h e.symm, find?_firsts key l]

end Table

/-! ### Outcomes of tasks -/

/-- A task with what it came to. -/
abbrev TaskOutcome : Type := Task × Except ClusterError Harvest

namespace TaskOutcome

/-- The artifacts of a task that succeeded, by their paths. -/
def artifacts : TaskOutcome → List (String × Payload)
  | (_, .ok h) => h.artifacts.map fun a => (a.path, a.payload)
  | (_, .error _) => []

/-- The pods of a task that succeeded. -/
def pods : TaskOutcome → List Pod
  | (_, .ok h) => h.pods
  | (_, .error _) => []

/-- The warning about a task that failed. -/
def warning? : TaskOutcome → Option String
  | (_, .ok _) => none
  | (t, .error e) => some s!"Failed to collect {t.title}: {e.message}"

end TaskOutcome

namespace Collection

/-- Every outcome is put into a collection once: its artifacts and pods, or one warning. -/
theorem foldl_add : (outcomes : List TaskOutcome) → (c : Collection) →
    outcomes.foldl add c =
      { c with
        artifacts := (outcomes.flatMap TaskOutcome.artifacts).foldl
          (fun t pair => t.insertNew pair.1 pair.2) c.artifacts
        warnings := c.warnings ++ outcomes.filterMap TaskOutcome.warning?
        pods := c.pods ++ outcomes.flatMap TaskOutcome.pods }
  | [], c => by simp
  | (t, .ok h) :: rest, c => by
    rw [List.foldl_cons, foldl_add rest]
    have hwarning : TaskOutcome.warning? (t, .ok h) = none := rfl
    simp [add, TaskOutcome.artifacts, TaskOutcome.pods, hwarning, List.foldl_map]
  | (t, .error e) :: rest, c => by
    rw [List.foldl_cons, foldl_add rest]
    simp [add, TaskOutcome.artifacts, TaskOutcome.pods, TaskOutcome.warning?]

/-- A collection after a phase whose pool came to rest: it holds what the tasks that were taken came
to, in order. -/
theorem phase_eq {labour : Labour Task (Except ClusterError Harvest)} {workers : Nat}
    {conduct : Conductor} {c : Collection} {tasks : List Task} {moves : List Pool.Move}
    (h : Pool.Course labour (Pool.start workers c.cancelled tasks)
      (conduct c.calls.length (Pool.start workers c.cancelled tasks)) moves) (logAge : Int) :
    let pool := conduct c.calls.length (Pool.start workers c.cancelled tasks)
    c.phase workers conduct logAge tasks =
      { (labour.outcomes pool.started).foldl add c with
        skipped := c.skipped + (tasks.length - pool.started.length)
        calls := c.calls ++ pool.started.map (Task.call logAge)
        cancelled := pool.cancelled } := by
  intro pool
  rw [phase, h.inOrder_eq, h.skipped_eq]

end Collection

end EdgeHealth
