import EdgeHealth.Bundle.Pool

/-!
# What the steps of a pool preserve

Whatever order the workers act in, and whenever the work is cancelled, a pool keeps its books: the
tasks are taken in order from the queue, each task that was taken is either being worked on by one
worker or has one result, and a worker stops only because the work was cancelled or because the
queue was empty.

## Main definitions

* `Pool.Step` : the steps of a pool, one rule for each thing that can happen.
* `Pool.IsOrderly` : the invariant.

## Main results

* `Pool.move?_eq_some_iff` : the steps are those of the relation.
* `Pool.IsOrderly.step`, `Pool.IsOrderly.follow` : one step, and any number of them, preserve it.
* `Pool.take_not_mem_of_look` : a worker that saw the cancellation takes no further task.
-/

namespace EdgeHealth

open scoped List

variable {α β : Type}

/-- The number of the task that a worker is busy with. -/
def Worker.number? : Worker α → Option Nat
  | .busy number _ _ => some number
  | _ => none

namespace Pool

variable {labour : Labour α β} {tasks : List α} {p q : Pool α β} {m : Move}

/-! ### Steps as a relation -/

/-- What can happen in a pool. -/
inductive Step (labour : Labour α β) (p : Pool α β) : Move → Pool α β → Prop
  /-- The work is cancelled. -/
  | cancel (h : p.cancelled = false) : Step labour p .cancel { p with cancelled := true }
  /-- A worker sees that the work is cancelled, and stops. -/
  | stop {i : Nat} (hi : p.workers[i]? = some .idle) (h : p.cancelled = true) :
    Step labour p (.look i) (p.setWorker i .stopped)
  /-- A worker sees that the work is not cancelled. -/
  | look {i : Nat} (hi : p.workers[i]? = some .idle) (h : p.cancelled = false) :
    Step labour p (.look i) (p.setWorker i .ready)
  /-- A worker finds no task, and stops. -/
  | leave {i : Nat} (hi : p.workers[i]? = some .ready) (h : p.queue = []) :
    Step labour p (.take i) (p.setWorker i .stopped)
  /-- A worker takes the task at the head of the queue. -/
  | take {i number : Nat} {task : α} {rest : List (Nat × α)} (hi : p.workers[i]? = some .ready)
    (h : p.queue = (number, task) :: rest) :
    Step labour p (.take i)
      { p.setWorker i (.busy number task (p.now + labour.duration number task)) with
        queue := rest
        started := p.started ++ [task] }
  /-- A worker leaves the result of its task. -/
  | finish {i number : Nat} {task : α} {due : Nat}
    (hi : p.workers[i]? = some (.busy number task due)) :
    Step labour p (.finish i)
      { p.setWorker i .idle with
        now := max p.now due
        results := p.results ++ [(number, task, labour.result number task)] }

/-- The possible steps are those of the relation. -/
theorem move?_eq_some_iff : p.move? labour m = some q ↔ Step labour p m q := by
  constructor
  · intro h
    cases m with
    | cancel =>
      simp only [move?, Option.ite_none_left_eq_some, Bool.not_eq_true, Option.some.injEq] at h
      obtain ⟨h, rfl⟩ := h
      exact .cancel h
    | look i =>
      simp only [move?] at h
      split at h
      · next hi =>
        cases h
        cases hc : p.cancelled with
        | true => exact .stop hi hc
        | false => exact .look hi hc
      · cases h
    | take i =>
      simp only [move?] at h
      split at h
      · next hi hq =>
        cases h
        exact .leave hi hq
      · next hi hq =>
        cases h
        exact .take hi hq
      · cases h
    | finish i =>
      simp only [move?] at h
      split at h
      · next hi =>
        cases h
        exact .finish hi
      · cases h
  · intro h
    cases h with
    | cancel h => simp [move?, h]
    | stop hi h => simp [move?, hi, h]
    | look hi h => simp [move?, hi, h]
    | leave hi h => simp [move?, hi, h]
    | take hi h => simp [move?, hi, h]
    | finish hi => simp [move?, hi]

/-! ### Tasks with their numbers -/

theorem map_snd_numbered (tasks : List α) : (numbered tasks).map Prod.snd = tasks :=
  List.map_snd_zip (by simp)

@[simp] theorem length_numbered (tasks : List α) : (numbered tasks).length = tasks.length := by
  simp [numbered]

/-- The number of a task is its place. -/
theorem getElem?_numbered (tasks : List α) (i : Nat) :
    (numbered tasks)[i]? = tasks[i]?.map fun task => (i, task) := by
  by_cases h : i < tasks.length
  · simp [numbered, h]
  · simp [numbered, Nat.le_of_not_lt h]

/-- The head of a queue from which some tasks were taken is the next one. -/
theorem getElem?_of_drop_numbered_eq_cons {n number : Nat} {task : α} {rest : List (Nat × α)}
    (h : (numbered tasks).drop n = (number, task) :: rest) :
    number = n ∧ tasks[n]? = some task := by
  have hhead : (numbered tasks)[n]? = some (number, task) := by
    rw [← List.head?_drop, h]
    rfl
  rw [getElem?_numbered, Option.map_eq_some_iff] at hhead
  obtain ⟨_, htask, heq⟩ := hhead
  cases heq
  exact ⟨rfl, htask⟩

/-! ### The invariant -/

/-- A pool that has taken the tasks in order, and in which each task that was taken has one worker
or one result. -/
structure IsOrderly (labour : Labour α β) (tasks : List α) (p : Pool α β) : Prop where
  /-- The tasks that were taken are the first ones. -/
  started_prefix : p.started <+: tasks
  /-- The others are in the queue, in order. -/
  queue_eq : p.queue = (numbered tasks).drop p.started.length
  /-- Every task that was taken has either one result or one worker. -/
  numbers_perm : (p.results.map Prod.fst ++ p.workers.filterMap Worker.number?).Perm
    (List.range p.started.length)
  /-- A result is that of its task. -/
  result_eq : ∀ {number task result}, (number, task, result) ∈ p.results →
    tasks[number]? = some task ∧ result = labour.result number task
  /-- A worker is busy with a task of its number. -/
  busy_eq : ∀ {number task due}, .busy number task due ∈ p.workers → tasks[number]? = some task
  /-- A worker stops only after a cancellation, or when there are no more tasks. -/
  stopped : .stopped ∈ p.workers → p.cancelled ∨ p.queue = []

theorem isOrderly_start (labour : Labour α β) (workers : Nat) (cancelled : Bool)
    (tasks : List α) : (start workers cancelled tasks : Pool α β).IsOrderly labour tasks where
  started_prefix := List.nil_prefix
  queue_eq := rfl
  numbers_perm := by simp [start, Worker.number?]
  result_eq h := nomatch h
  busy_eq h := nomatch List.eq_of_mem_replicate h
  stopped h := nomatch List.eq_of_mem_replicate h

/-- A worker that does something else gives its number away and takes another one. -/
private theorem perm_filterMap_set {γ : Type} {l : List γ} {i : Nat} {w : γ} (w' : γ)
    (f : γ → Option Nat) (h : l[i]? = some w) :
    ((f w).toList ++ (l.set i w').filterMap f).Perm ((f w').toList ++ l.filterMap f) := by
  have hcons (a : γ) (l : List γ) : (a :: l).filterMap f = (f a).toList ++ l.filterMap f := by
    cases ha : f a <;> simp [ha]
  have hswap (k l r : List Nat) : (k ++ (l ++ r)).Perm (l ++ (k ++ r)) := by
    rw [← List.append_assoc, ← List.append_assoc]
    exact List.perm_append_comm.append_right r
  induction l generalizing i with
  | nil => cases h
  | cons a l ih =>
    cases i with
    | zero =>
      cases h
      rw [List.set_cons_zero, hcons, hcons]
      exact hswap _ _ _
    | succ i =>
      rw [List.set_cons_succ, hcons, hcons]
      calc (f w).toList ++ ((f a).toList ++ (l.set i w').filterMap f)
          ~ (f a).toList ++ ((f w).toList ++ (l.set i w').filterMap f) := hswap _ _ _
        _ ~ (f a).toList ++ ((f w').toList ++ l.filterMap f) := (ih h).append_left _
        _ ~ (f w').toList ++ ((f a).toList ++ l.filterMap f) := hswap _ _ _

namespace IsOrderly

/-- A worker that is not busy may turn to anything but a task. -/
theorem setWorker (hp : p.IsOrderly labour tasks) {i : Nat} {w w' : Worker α}
    (hi : p.workers[i]? = some w) (hw : w.number? = none) (hw' : w'.number? = none)
    (hstopped : w' = .stopped → p.cancelled ∨ p.queue = []) :
    (p.setWorker i w').IsOrderly labour tasks where
  started_prefix := hp.started_prefix
  queue_eq := hp.queue_eq
  numbers_perm := by
    have hset := perm_filterMap_set w' Worker.number? hi
    rw [hw, hw'] at hset
    exact (hset.append_left _).trans hp.numbers_perm
  result_eq := hp.result_eq
  busy_eq h := by
    rcases List.mem_or_eq_of_mem_set h with h | rfl
    · exact hp.busy_eq h
    · cases hw'
  stopped h := by
    rcases List.mem_or_eq_of_mem_set h with h | rfl
    · exact hp.stopped h
    · exact hstopped rfl

/-- Every step preserves the invariant. -/
theorem step (hp : p.IsOrderly labour tasks) (h : p.Step labour m q) :
    q.IsOrderly labour tasks := by
  cases h with
  | cancel h => exact { hp with stopped := fun _ => .inl rfl }
  | stop hi h => exact hp.setWorker hi rfl rfl fun _ => .inl h
  | look hi h => exact hp.setWorker hi rfl rfl nofun
  | leave hi h => exact hp.setWorker hi rfl rfl fun _ => .inr h
  | @take i number task rest hi h =>
    have hdrop := hp.queue_eq.symm.trans h
    obtain ⟨rfl, htask⟩ := getElem?_of_drop_numbered_eq_cons hdrop
    have hlength : (p.started ++ [task]).length = p.started.length + 1 := by simp
    exact {
      started_prefix := by
        rw [List.prefix_iff_eq_take, hlength, List.take_add_one, htask,
          ← List.prefix_iff_eq_take.1 hp.started_prefix]
        rfl
      queue_eq := by
        rw [hlength, ← List.tail_drop, hdrop]
        rfl
      numbers_perm := by
        have hset := perm_filterMap_set (.busy p.started.length task
          (p.now + labour.duration p.started.length task)) Worker.number? hi
        rw [hlength, List.range_succ]
        calc p.results.map Prod.fst ++ (p.workers.set i _).filterMap Worker.number?
            ~ p.results.map Prod.fst ++ p.started.length :: p.workers.filterMap Worker.number? :=
              hset.append_left _
          _ ~ p.started.length :: (p.results.map Prod.fst ++ p.workers.filterMap Worker.number?) :=
              List.perm_middle
          _ ~ p.started.length :: List.range p.started.length := hp.numbers_perm.cons _
          _ ~ List.range p.started.length ++ [p.started.length] :=
              (List.perm_append_singleton _ _).symm
      result_eq := hp.result_eq
      busy_eq := fun h => by
        rcases List.mem_or_eq_of_mem_set h with h | heq
        · exact hp.busy_eq h
        · cases heq
          exact htask
      stopped := fun h' => by
        rcases List.mem_or_eq_of_mem_set h' with h' | heq
        · exact .inl ((hp.stopped h').resolve_right (by simp [h]))
        · cases heq }
  | @finish i number task due hi =>
    exact {
      started_prefix := hp.started_prefix
      queue_eq := hp.queue_eq
      numbers_perm := by
        have hset := perm_filterMap_set .idle Worker.number? hi
        rw [List.map_append, List.append_assoc]
        exact (hset.append_left _).trans hp.numbers_perm
      result_eq := fun h => by
        rcases List.mem_append.1 h with h | h
        · exact hp.result_eq h
        · cases List.mem_singleton.1 h
          exact ⟨hp.busy_eq (List.mem_of_getElem? hi), rfl⟩
      busy_eq := fun h => by
        rcases List.mem_or_eq_of_mem_set h with h | heq
        · exact hp.busy_eq h
        · cases heq
      stopped := fun h => by
        rcases List.mem_or_eq_of_mem_set h with h | heq
        · exact hp.stopped h
        · cases heq }

end IsOrderly

/-! ### Steps one after another -/

theorem follow?_cons_eq_some {moves : List Move} :
    p.follow? labour (m :: moves) = some q ↔
      ∃ next, p.Step labour m next ∧ next.follow? labour moves = some q := by
  rw [follow?, Option.bind_eq_some_iff]
  simp only [move?_eq_some_iff]

theorem follow?_append_eq_some {moves moves' : List Move} :
    p.follow? labour (moves ++ moves') = some q ↔
      ∃ next, p.follow? labour moves = some next ∧ next.follow? labour moves' = some q := by
  induction moves generalizing p with
  | nil => simp [follow?]
  | cons m moves ih =>
    simp only [List.cons_append, follow?_cons_eq_some, ih]
    constructor
    · rintro ⟨r, hr, next, hnext, hq⟩
      exact ⟨next, ⟨r, hr, hnext⟩, hq⟩
    · rintro ⟨next, ⟨r, hr, hnext⟩, hq⟩
      exact ⟨r, hr, next, hnext, hq⟩

/-- What every step preserves holds after any number of steps. -/
theorem follow?_induction {P : Pool α β → Prop}
    (hstep : ∀ {p q : Pool α β} {m : Move}, p.Step labour m q → P p → P q) :
    (moves : List Move) → {p : Pool α β} → p.follow? labour moves = some q → P p → P q
  | [], _, h, hp => by
    cases h
    exact hp
  | _ :: moves, _, h, hp => by
    obtain ⟨next, hnext, h⟩ := follow?_cons_eq_some.1 h
    exact follow?_induction hstep moves h (hstep hnext hp)

/-- Any number of steps preserve the invariant. -/
theorem IsOrderly.follow (hp : p.IsOrderly labour tasks) {moves : List Move}
    (h : p.follow? labour moves = some q) : q.IsOrderly labour tasks :=
  follow?_induction (fun hstep hp => hp.step hstep) moves h hp

/-- The number of workers stays the same. -/
theorem Step.length_workers (h : p.Step labour m q) : q.workers.length = p.workers.length := by
  cases h <;> simp [Pool.setWorker]

theorem length_workers_of_follow? {moves : List Move} (h : p.follow? labour moves = some q) :
    q.workers.length = p.workers.length :=
  follow?_induction (fun hstep hp => hstep.length_workers.trans hp) moves h rfl

/-! ### The cancellation -/

theorem Step.cancelled_iff (h : p.Step labour m q) :
    q.cancelled ↔ p.cancelled ∨ m = .cancel := by
  cases h <;> simp [Pool.setWorker]

/-- The work is cancelled if it was at the start, or by one of the steps. -/
theorem cancelled_iff_of_follow? : (moves : List Move) → {p : Pool α β} →
    p.follow? labour moves = some q → (q.cancelled ↔ p.cancelled ∨ .cancel ∈ moves)
  | [], _, h => by
    cases h
    simp
  | m :: moves, p, h => by
    obtain ⟨next, hnext, h⟩ := follow?_cons_eq_some.1 h
    rw [cancelled_iff_of_follow? moves h, hnext.cancelled_iff, List.mem_cons, or_assoc,
      eq_comm (a := m)]

/-- A worker that has stopped takes no step. -/
theorem Step.stopped {i : Nat} (h : p.Step labour m q) (hi : p.workers[i]? = some .stopped) :
    q.workers[i]? = some .stopped ∧ m ≠ .take i := by
  have hne {j : Nat} {w : Worker α} (hj : p.workers[j]? = some w) (hw : w ≠ .stopped) : j ≠ i := by
    rintro rfl
    exact hw (Option.some.inj (hj.symm.trans hi))
  have hset {j : Nat} {w : Worker α} (w' : Worker α) (hj : p.workers[j]? = some w)
      (hw : w ≠ .stopped) : (p.workers.set j w')[i]? = some .stopped := by
    rw [List.getElem?_set_ne (hne hj hw), hi]
  cases h with
  | cancel h => exact ⟨hi, nofun⟩
  | stop hj h => exact ⟨hset _ hj nofun, nofun⟩
  | look hj h => exact ⟨hset _ hj nofun, nofun⟩
  | leave hj h => exact ⟨hset _ hj nofun, fun e => hne hj nofun (Move.take.inj e)⟩
  | take hj h => exact ⟨hset _ hj nofun, fun e => hne hj nofun (Move.take.inj e)⟩
  | finish hj => exact ⟨hset _ hj nofun, nofun⟩

theorem take_not_mem_of_stopped {i : Nat} : (moves : List Move) → {p : Pool α β} →
    p.workers[i]? = some .stopped → p.follow? labour moves = some q → .take i ∉ moves
  | [], _, _, _ => List.not_mem_nil
  | m :: moves, p, hi, h => by
    obtain ⟨next, hnext, h⟩ := follow?_cons_eq_some.1 h
    obtain ⟨hi', hm⟩ := hnext.stopped hi
    intro hmem
    rcases List.mem_cons.1 hmem with heq | hmem
    · exact hm heq.symm
    · exact take_not_mem_of_stopped moves hi' h hmem

/-- A worker that looks after the work was cancelled takes no further task. -/
theorem take_not_mem_of_look {i : Nat} {moves : List Move} (hp : p.cancelled)
    (h : p.follow? labour (.look i :: moves) = some q) : .take i ∉ moves := by
  obtain ⟨next, hnext, h⟩ := follow?_cons_eq_some.1 h
  cases hnext with
  | stop hi _ =>
    refine take_not_mem_of_stopped moves ?_ h
    have hlt := (List.getElem?_eq_some_iff.1 hi).1
    simp [Pool.setWorker, hlt]
  | look _ hnot => simp [hp] at hnot

end Pool

end EdgeHealth
