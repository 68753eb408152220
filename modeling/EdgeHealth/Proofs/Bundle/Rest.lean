import EdgeHealth.Proofs.Bundle.Steps

/-!
# Pools at rest

When all workers have stopped, every task that was taken has exactly one result, and the results in
the order of their numbers are those of the first tasks. Without a cancellation these are all tasks.
So the outcome of a pool does not depend on the order in which the workers acted.

## Main definitions

* `Labour.outcomes` : what tasks come to, one after another.
* `Pool.Course` : the steps that lead a pool to rest.

## Main results

* `Pool.IsOrderly.inOrder_eq` : the results in order are those of the tasks that were taken.
* `Pool.IsOrderly.skipped_eq` : the tasks without a result were never taken.
* `Pool.Course.started_eq` : without a cancellation all tasks are taken.
-/

namespace EdgeHealth

variable {α β : Type}

/-- What tasks come to, one after another. -/
def Labour.outcomes (labour : Labour α β) (tasks : List α) : List (α × β) :=
  (Pool.numbered tasks).map fun (number, task) => (task, labour.result number task)

namespace Pool

variable {labour : Labour α β} {tasks : List α} {p q : Pool α β}

/-- What stands at the first places of a list, as far as it reaches. -/
private theorem filterMap_range_getElem? {γ : Type} (f : Nat → α → γ) (l : List α) (n : Nat) :
    (List.range n).filterMap (fun i => l[i]?.map (f i)) =
      ((numbered l).take n).map fun (i, a) => f i a := by
  induction n with
  | zero => rfl
  | succ n ih =>
    rw [List.range_succ, List.filterMap_append, ih, List.take_add_one, List.map_append,
      getElem?_numbered]
    cases h : l[n]? <;> simp [h]

/-! ### The results of a pool at rest -/

namespace IsOrderly

/-- A pool at rest has one result for every task that was taken. -/
theorem results_perm (hp : p.IsOrderly labour tasks) (hrest : p.isAtRest) :
    (p.results.map Prod.fst).Perm (List.range p.started.length) := by
  have hnone : p.workers.filterMap Worker.number? = [] := by
    rw [List.filterMap_eq_nil_iff]
    intro w hw
    have hstopped := List.all_eq_true.1 hrest w hw
    cases w with
    | stopped => rfl
    | _ => cases hstopped
  have hperm := hp.numbers_perm
  rwa [hnone, List.append_nil] at hperm

theorem length_results (hp : p.IsOrderly labour tasks) (hrest : p.isAtRest) :
    p.results.length = p.started.length := by
  simpa using (hp.results_perm hrest).length_eq

/-- The result of a task that was taken is found by the number of the task. -/
theorem lookup_results (hp : p.IsOrderly labour tasks) (hrest : p.isAtRest) (number : Nat) :
    p.results.lookup number =
      p.started[number]?.map fun task => (task, labour.result number task) := by
  have hmem : number ∈ p.results.map Prod.fst ↔ number < p.started.length := by
    rw [(hp.results_perm hrest).mem_iff, List.mem_range]
  cases hlookup : p.results.lookup number with
  | none =>
    have hlt : ¬ number < p.started.length := by
      rw [← hmem, List.mem_map]
      rintro ⟨x, hx, rfl⟩
      simpa using List.lookup_eq_none_iff.1 hlookup x hx
    rw [List.getElem?_eq_none (Nat.le_of_not_lt hlt)]
    rfl
  | some found =>
    obtain ⟨before, after, hresults, _⟩ := List.lookup_eq_some_iff.1 hlookup
    have hfound : (number, found) ∈ p.results := by simp [hresults]
    obtain ⟨htask, hresult⟩ := hp.result_eq hfound
    obtain ⟨rest, hrest⟩ := hp.started_prefix
    have hlt := hmem.1 (List.mem_map_of_mem hfound)
    rw [← hrest, List.getElem?_append_left hlt] at htask
    rw [htask, Option.map_some, ← hresult]

/-- The results of a pool at rest, in order, are those of the tasks that were taken. -/
theorem inOrder_eq (hp : p.IsOrderly labour tasks) (hrest : p.isAtRest) :
    p.inOrder tasks.length = labour.outcomes p.started := by
  have hle : (numbered p.started).length ≤ tasks.length := by
    rw [length_numbered]
    exact hp.started_prefix.length_le
  simp only [inOrder, hp.lookup_results hrest]
  rw [filterMap_range_getElem? fun number task => (task, labour.result number task),
    List.take_of_length_le hle]
  rfl

/-- The tasks that have no result in a pool at rest were never taken. -/
theorem skipped_eq (hp : p.IsOrderly labour tasks) (hrest : p.isAtRest) :
    p.skipped tasks.length = tasks.length - p.started.length := by
  rw [skipped, hp.length_results hrest]

/-- A pool at rest that was not cancelled has taken all tasks, if there was a worker for them. -/
theorem started_eq (hp : p.IsOrderly labour tasks) (hrest : p.isAtRest)
    (hworkers : tasks ≠ [] → p.workers ≠ []) (hcancelled : p.cancelled = false) :
    p.started = tasks := by
  obtain ⟨rest, htasks⟩ := hp.started_prefix
  by_cases hnil : tasks = []
  · rw [hnil] at htasks ⊢
    exact (List.append_eq_nil_iff.1 htasks).1
  · obtain ⟨w, hw⟩ := List.exists_mem_of_ne_nil _ (hworkers hnil)
    have hstopped : w = .stopped := by
      have hall := List.all_eq_true.1 hrest w hw
      cases w with
      | stopped => rfl
      | _ => cases hall
    subst hstopped
    have hqueue : p.queue = [] := (hp.stopped hw).resolve_left (by simp [hcancelled])
    rw [hp.queue_eq, List.drop_eq_nil_iff, length_numbered] at hqueue
    exact hp.started_prefix.eq_of_length_le hqueue

end IsOrderly

/-! ### Courses -/

/-- Steps that lead a pool to rest. -/
structure Course (labour : Labour α β) (p q : Pool α β) (moves : List Move) : Prop where
  /-- The steps are possible. -/
  follow : p.follow? labour moves = some q
  /-- All workers have stopped. -/
  isAtRest : q.isAtRest

namespace Course

variable {workers : Nat} {cancelled : Bool} {moves : List Move}
  (h : Course labour (start workers cancelled tasks) q moves)

include h

theorem isOrderly : q.IsOrderly labour tasks :=
  (isOrderly_start labour workers cancelled tasks).follow h.follow

theorem started_prefix : q.started <+: tasks := h.isOrderly.started_prefix

/-- The work is cancelled at the end if it was at the start or in between. -/
theorem cancelled_iff : q.cancelled ↔ cancelled ∨ .cancel ∈ moves :=
  cancelled_iff_of_follow? moves h.follow

theorem inOrder_eq : q.inOrder tasks.length = labour.outcomes q.started :=
  h.isOrderly.inOrder_eq h.isAtRest

theorem skipped_eq : q.skipped tasks.length = tasks.length - q.started.length :=
  h.isOrderly.skipped_eq h.isAtRest

/-- Without a cancellation all tasks are taken. -/
theorem started_eq (hcancelled : q.cancelled = false) : q.started = tasks := by
  refine h.isOrderly.started_eq h.isAtRest (fun hnil hworkers => ?_) hcancelled
  have hlength := length_workers_of_follow? h.follow
  have hpos := List.length_pos_iff.2 hnil
  rw [hworkers, start, List.length_replicate, List.length_nil] at hlength
  omega

end Course

end Pool

end EdgeHealth
