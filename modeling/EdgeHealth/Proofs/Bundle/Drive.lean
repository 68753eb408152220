import EdgeHealth.Proofs.Bundle.Rest

/-!
# Every pool comes to rest

A worker that has not stopped can always act, and every step makes the bound for the remaining steps
smaller. So no order of the steps goes on for ever, and the steps in the order of time lead to rest.

## Main definitions

* `Pool.ComesToRest` : no order of the steps goes on for ever.

## Main results

* `Pool.Step.remaining_lt` : every step leaves fewer steps to be taken.
* `Pool.length_le_remaining` : how many steps a pool takes at most.
* `Pool.exists_step` : a pool that is not at rest can take a step.
* `Pool.comesToRest` : every pool comes to rest.
* `Pool.exists_course_drive` : the steps in the order of time lead to rest.
-/

namespace EdgeHealth.Pool

variable {α β : Type} {labour : Labour α β} {p q : Pool α β} {m : Move}

/-! ### The number of steps -/

/-- A worker that does something else changes the total weight by its own one. -/
private theorem totalWeight_set {i : Nat} {w : Worker α} (w' : Worker α) : {l : List (Worker α)} →
    l[i]? = some w →
    Worker.totalWeight (l.set i w') + w.weight = Worker.totalWeight l + w'.weight
  | [], h => nomatch h
  | v :: l, h => by
    cases i with
    | zero =>
      cases h
      simp only [List.set_cons_zero, Worker.totalWeight]
      omega
    | succ i =>
      have ih := totalWeight_set w' (l := l) h
      simp only [List.set_cons_succ, Worker.totalWeight]
      omega

/-- A worker that does something else changes the bound for the steps by its own one. -/
private theorem remaining_setWorker {i : Nat} {w : Worker α} (w' : Worker α)
    (hi : p.workers[i]? = some w) :
    (p.setWorker i w').remaining + w.weight = p.remaining + w'.weight := by
  have hset := totalWeight_set w' hi
  change (if p.cancelled then 0 else 1) + 4 * p.queue.length +
      Worker.totalWeight (p.workers.set i w') + w.weight =
    (if p.cancelled then 0 else 1) + 4 * p.queue.length + Worker.totalWeight p.workers + w'.weight
  omega

/-- Every step leaves fewer steps to be taken. -/
theorem Step.remaining_lt (h : p.Step labour m q) : q.remaining < p.remaining := by
  cases h with
  | cancel h => simp [remaining, h]
  | stop hi _ =>
    have hsum := remaining_setWorker .stopped hi
    simp only [Worker.weight] at hsum
    omega
  | look hi _ =>
    have hsum := remaining_setWorker .ready hi
    simp only [Worker.weight] at hsum
    omega
  | leave hi _ =>
    have hsum := remaining_setWorker .stopped hi
    simp only [Worker.weight] at hsum
    omega
  | @take i number task rest hi h =>
    have hsum := totalWeight_set (.busy number task (p.now + labour.duration number task)) hi
    simp only [Worker.weight] at hsum
    change (if p.cancelled then 0 else 1) + 4 * rest.length +
        Worker.totalWeight (p.workers.set i _) <
      (if p.cancelled then 0 else 1) + 4 * p.queue.length + Worker.totalWeight p.workers
    rw [h, List.length_cons]
    omega
  | finish hi =>
    have hsum := remaining_setWorker .idle hi
    simp only [Worker.weight] at hsum
    change (p.setWorker _ .idle).remaining < p.remaining
    omega

/-- A pool takes no more steps than its bound says. -/
theorem length_le_remaining : (moves : List Move) → {p : Pool α β} →
    p.follow? labour moves = some q → moves.length ≤ p.remaining
  | [], _, _ => Nat.zero_le _
  | m :: moves, p, h => by
    obtain ⟨next, hnext, h⟩ := follow?_cons_eq_some.1 h
    have hle := length_le_remaining moves h
    have hlt := hnext.remaining_lt
    rw [List.length_cons]
    omega

/-! ### The next step -/

/-- A worker that acts at a moment takes a step that is possible, and no cancellation. -/
theorem exists_step_of_worker_move? (labour : Labour α β) {i now : Nat} {w : Worker α}
    (hi : p.workers[i]? = some w) (hm : w.move? now i = some m) :
    m ≠ .cancel ∧ ∃ q, p.Step labour m q := by
  cases w with
  | idle =>
    cases hm
    refine ⟨nofun, ?_⟩
    cases hc : p.cancelled with
    | true => exact ⟨_, .stop hi hc⟩
    | false => exact ⟨_, .look hi hc⟩
  | ready =>
    cases hm
    refine ⟨nofun, ?_⟩
    cases hq : p.queue with
    | nil => exact ⟨_, .leave hi hq⟩
    | cons x rest => exact ⟨_, .take hi hq⟩
  | busy number task due =>
    simp only [Worker.move?, Option.ite_none_right_eq_some, Option.some.injEq] at hm
    obtain ⟨_, rfl⟩ := hm
    exact ⟨nofun, _, .finish hi⟩
  | stopped => cases hm

/-- A pool that is not at rest can take a step other than the cancellation. -/
theorem exists_step (labour : Labour α β) (h : p.isAtRest = false) :
    ∃ m q, m ≠ .cancel ∧ p.Step labour m q := by
  obtain ⟨w, hw, hrest⟩ := List.all_eq_false.1 h
  obtain ⟨i, hi⟩ := List.mem_iff_getElem?.1 hw
  have hact : ∃ now m, w.move? now i = some m := by
    cases w with
    | idle => exact ⟨0, _, rfl⟩
    | ready => exact ⟨0, _, rfl⟩
    | busy number task due => exact ⟨due, _, if_pos Nat.le.refl⟩
    | stopped => simp at hrest
  obtain ⟨now, m, hm⟩ := hact
  obtain ⟨hne, q, hq⟩ := exists_step_of_worker_move? labour hi hm
  exact ⟨m, q, hne, hq⟩

/-- In whatever order its steps are taken, a pool takes only so many of them, and unless it is at
rest, it can take one more, even if nobody cancels the work. -/
def ComesToRest (labour : Labour α β) (p : Pool α β) : Prop :=
  ∀ moves q, p.follow? labour moves = some q → moves.length ≤ p.remaining ∧
    (q.isAtRest = false → ∃ m next, m ≠ .cancel ∧ q.move? labour m = some next)

theorem comesToRest (labour : Labour α β) (p : Pool α β) : p.ComesToRest labour := by
  intro moves q hfollow
  refine ⟨length_le_remaining moves hfollow, fun hrest => ?_⟩
  obtain ⟨m, next, hm, hstep⟩ := exists_step labour hrest
  exact ⟨m, next, hm, move?_eq_some_iff.2 hstep⟩

/-! ### Steps in the order of time -/

theorem exists_of_firstMove? {now : Nat} : (i : Nat) → (l : List (Worker α)) →
    firstMove? now i l = some m →
      ∃ (k : Nat) (w : Worker α), l[k]? = some w ∧ w.move? now (i + k) = some m
  | _, [], h => nomatch h
  | i, w :: l, h => by
    rcases Option.or_eq_some_iff.1 h with h | ⟨_, h⟩
    · exact ⟨0, w, rfl, h⟩
    · obtain ⟨k, v, hk, hv⟩ := exists_of_firstMove? (i + 1) l h
      exact ⟨k + 1, v, hk, by rwa [show i + (k + 1) = i + 1 + k by omega]⟩

/-- Where no worker acts, all of them are busy or have stopped. -/
theorem move?_eq_none_of_firstMove? {now : Nat} : (i : Nat) → (l : List (Worker α)) →
    firstMove? now i l = none → ∀ w ∈ l, ∃ j, w.move? now j = none
  | _, [], _ => List.forall_mem_nil _
  | i, w :: l, h => by
    obtain ⟨hw, hl⟩ := Option.or_eq_none_iff.1 h
    exact List.forall_mem_cons.2 ⟨⟨i, hw⟩, move?_eq_none_of_firstMove? (i + 1) l hl⟩

theorem exists_of_earliest? {j due : Nat} : (i : Nat) → (l : List (Worker α)) →
    earliest? i l = some (j, due) →
      ∃ k number task, j = i + k ∧ l[k]? = some (.busy number task due)
  | _, [], h => nomatch h
  | i, w :: l, h => by
    have hrest (h : earliest? (i + 1) l = some (j, due)) :
        ∃ k number task, j = i + k ∧ (w :: l)[k]? = some (.busy number task due) := by
      obtain ⟨k, number, task, rfl, hk⟩ := exists_of_earliest? (i + 1) l h
      exact ⟨k + 1, number, task, by omega, hk⟩
    cases w with
    | busy number task d =>
      simp only [earliest?, Worker.due?] at h
      split at h
      · next hd _ =>
        cases hd
        split at h
        · cases h
          exact ⟨0, number, task, rfl, rfl⟩
        · next hfound _ =>
          cases h
          exact hrest hfound
      · next hd _ =>
        cases hd
        cases h
        exact ⟨0, number, task, rfl, rfl⟩
      · next hd => cases hd
    | _ => exact hrest h

/-- Where no worker is the next to finish, none is busy. -/
theorem due?_eq_none_of_earliest? : (i : Nat) → (l : List (Worker α)) →
    earliest? i l = none → ∀ w ∈ l, w.due? = none
  | _, [], _ => List.forall_mem_nil _
  | i, w :: l, h => by
    simp only [earliest?] at h
    split at h
    · split at h <;> cases h
    · cases h
    · next hw => exact List.forall_mem_cons.2 ⟨hw, due?_eq_none_of_earliest? (i + 1) l h⟩

/-- The next step in the order of time is possible. -/
theorem exists_step_of_next? (labour : Labour α β) {cancelAt : Option Nat}
    (h : p.next? cancelAt = some m) :
    (cancelAt = none → m ≠ .cancel) ∧ ∃ q, p.Step labour m q := by
  unfold next? at h
  split at h
  · next hcancel =>
    cases h
    rw [Bool.and_eq_true, Bool.not_eq_true'] at hcancel
    refine ⟨?_, _, .cancel hcancel.1⟩
    rintro rfl
    simp at hcancel
  · rcases Option.or_eq_some_iff.1 h with h | ⟨_, h⟩
    · obtain ⟨k, w, hk, hw⟩ := exists_of_firstMove? 0 _ h
      rw [Nat.zero_add] at hw
      obtain ⟨hne, hstep⟩ := exists_step_of_worker_move? labour hk hw
      exact ⟨fun _ => hne, hstep⟩
    · obtain ⟨⟨j, due⟩, hearliest, rfl⟩ := Option.map_eq_some_iff.1 h
      obtain ⟨k, number, task, rfl, hk⟩ := exists_of_earliest? 0 _ hearliest
      rw [Nat.zero_add]
      exact ⟨fun _ => nofun, _, .finish hk⟩

/-- A pool without a next step is at rest. -/
theorem isAtRest_of_next? {cancelAt : Option Nat} (h : p.next? cancelAt = none) : p.isAtRest := by
  unfold next? at h
  split at h
  · cases h
  · obtain ⟨hfirst, hearliest⟩ := Option.or_eq_none_iff.1 h
    rw [Option.map_eq_none_iff] at hearliest
    refine List.all_eq_true.2 fun w hw => ?_
    obtain ⟨j, hmove⟩ := move?_eq_none_of_firstMove? 0 _ hfirst w hw
    have hdue := due?_eq_none_of_earliest? 0 _ hearliest w hw
    cases w with
    | stopped => rfl
    | idle => cases hmove
    | ready => cases hmove
    | busy number task due => cases hdue

theorem exists_course_driveFor (cancelAt : Option Nat) : (fuel : Nat) → {p : Pool α β} →
    p.remaining ≤ fuel → ∃ moves, (cancelAt = none → .cancel ∉ moves) ∧
      Course labour p (driveFor labour cancelAt fuel p) moves
  | 0, p, h => by
    refine ⟨[], fun _ => List.not_mem_nil, rfl, ?_⟩
    cases hrest : p.isAtRest with
    | true => exact hrest
    | false =>
      obtain ⟨m, q, _, hstep⟩ := exists_step labour hrest
      have hlt := hstep.remaining_lt
      omega
  | fuel + 1, p, h => by
    cases hnext : p.next? cancelAt with
    | none =>
      exact ⟨[], fun _ => List.not_mem_nil, by simp [driveFor, hnext, follow?],
        by simpa [driveFor, hnext] using isAtRest_of_next? hnext⟩
    | some m =>
      obtain ⟨hm, q, hstep⟩ := exists_step_of_next? labour hnext
      have hlt := hstep.remaining_lt
      obtain ⟨moves, hmoves, hcourse⟩ := exists_course_driveFor cancelAt fuel
        (p := q) (by omega)
      have hdrive : driveFor labour cancelAt (fuel + 1) p = driveFor labour cancelAt fuel q := by
        simp [driveFor, hnext, move?_eq_some_iff.2 hstep]
      rw [hdrive]
      refine ⟨m :: moves, fun hnone hmem => ?_, follow?_cons_eq_some.2 ⟨q, hstep, hcourse.follow⟩,
        hcourse.isAtRest⟩
      rcases List.mem_cons.1 hmem with heq | hmem
      · exact hm hnone heq.symm
      · exact hmoves hnone hmem

/-- The steps in the order of time lead a pool to rest. -/
theorem exists_course_drive (labour : Labour α β) (cancelAt : Option Nat) (p : Pool α β) :
    ∃ moves, (cancelAt = none → .cancel ∉ moves) ∧
      Course labour p (p.drive labour cancelAt) moves :=
  exists_course_driveFor cancelAt p.remaining Nat.le.refl

end EdgeHealth.Pool
