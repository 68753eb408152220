import EdgeHealth.Version

/-!
# The order of versions

Two versions are compared number by number, and numbers that are missing at the end count as zero.
So two versions of any lengths are compared like lists of one length, filled up with zeros: in
lexicographic order. How far they are filled up does not matter, as long as no number is cut off;
hence several versions can be filled up to one length, and what holds of lists holds of versions.

The order does not tell apart versions that differ in zeros at their ends. It is a total order up to
this difference.

## Main definitions

* `IsTotalComparison` : a comparison that is a total order up to an equality.

## Main results

* `Version.compare_eq_compare_rightpad` : versions are compared like lists of one length.
* `Version.isTotalComparison` : versions are totally ordered.
* `Version.same_append_zeros` : zeros at the end do not count.
-/

namespace EdgeHealth

/-- A comparison that is a total order, up to an equality that may be coarser than that of the
data. -/
structure IsTotalComparison {α : Type} (compare : α → α → Ordering) (same : α → α → Bool) :
    Prop where
  /-- All are equal to themselves. -/
  refl (a : α) : compare a a = .eq
  /-- Of two, one is at most the other. -/
  total (a b : α) : (compare a b).isLE ∨ (compare b a).isLE
  /-- What is at most something that is at most a third is at most the third. -/
  trans {a b c : α} : (compare a b).isLE → (compare b c).isLE → (compare a c).isLE
  /-- Two that are at most each other are equal. -/
  antisymm {a b : α} : (compare a b).isLE → (compare b a).isLE → same a b
  /-- The comparison of two, seen from the other one. -/
  swap (a b : α) : (compare a b).swap = compare b a
  /-- The equality is that of the comparison. -/
  same_iff {a b : α} : same a b ↔ compare a b = .eq
  /-- Equals compare alike with everything. -/
  congr {a b : α} (c : α) : same a b → compare a c = compare b c

namespace Version

/-! ### Versions as lists of one length -/

section

variable {n : Nat}

@[simp] theorem rightpad_cons_succ (a : Nat) (as : List Nat) :
    (a :: as).rightpad (n + 1) 0 = a :: as.rightpad n 0 := by
  simp [List.rightpad]

@[simp] theorem rightpad_nil_succ :
    ([] : List Nat).rightpad (n + 1) 0 = 0 :: ([] : List Nat).rightpad n 0 := by
  simp [List.rightpad, List.replicate_succ]

/-- Filling up goes over zeros that are there already. -/
theorem rightpad_append_replicate {as : List Nat} {k : Nat} (h : as.length + k ≤ n) :
    (as ++ List.replicate k 0).rightpad n 0 = as.rightpad n 0 := by
  rw [List.rightpad, List.rightpad, List.append_assoc, List.replicate_append_replicate]
  congr 2
  rw [List.length_append, List.length_replicate]
  omega

/-- Lists of numbers are compared like lists of one length. -/
theorem compareParts_eq_compare_rightpad {as bs : List Nat} (ha : as.length ≤ n)
    (hb : bs.length ≤ n) :
    compareParts as bs = Ord.compare (as.rightpad n 0) (bs.rightpad n 0) := by
  induction n generalizing as bs with
  | zero =>
    obtain rfl := List.length_eq_zero_iff.1 (Nat.le_zero.1 ha)
    obtain rfl := List.length_eq_zero_iff.1 (Nat.le_zero.1 hb)
    rw [compareParts, Std.ReflOrd.compare_self]
  | succ n ih =>
    have hnil : ([] : List Nat).length ≤ n := Nat.zero_le n
    cases as with
    | nil =>
      cases bs with
      | nil => rw [compareParts, Std.ReflOrd.compare_self]
      | cons b bs =>
        rw [compareParts, rightpad_nil_succ, rightpad_cons_succ, List.compare_cons_cons,
          ih hnil (Nat.le_of_succ_le_succ hb)]
    | cons a as =>
      have ha' : as.length ≤ n := Nat.le_of_succ_le_succ ha
      cases bs with
      | nil =>
        rw [compareParts, rightpad_cons_succ, rightpad_nil_succ, List.compare_cons_cons,
          ih ha' hnil]
      | cons b bs =>
        rw [compareParts, rightpad_cons_succ, rightpad_cons_succ, List.compare_cons_cons,
          ih ha' (Nat.le_of_succ_le_succ hb)]

end

/-- Versions are compared like lists of one length, in lexicographic order. -/
theorem compare_eq_compare_rightpad {v w : Version} {n : Nat} (hv : v.parts.length ≤ n)
    (hw : w.parts.length ≤ n) :
    v.compare w = Ord.compare (v.parts.rightpad n 0) (w.parts.rightpad n 0) :=
  compareParts_eq_compare_rightpad hv hw

/-! ### The order -/

instance : Std.TransCmp compare where
  eq_swap {v w} := by
    have hv := Nat.le_max_left v.parts.length w.parts.length
    have hw := Nat.le_max_right v.parts.length w.parts.length
    rw [compare_eq_compare_rightpad hv hw, compare_eq_compare_rightpad hw hv]
    exact Std.OrientedOrd.eq_swap
  isLE_trans {u v w} huv hvw := by
    let n := max u.parts.length (max v.parts.length w.parts.length)
    have hu : u.parts.length ≤ n := by omega
    have hv : v.parts.length ≤ n := by omega
    have hw : w.parts.length ≤ n := by omega
    rw [compare_eq_compare_rightpad hu hv] at huv
    rw [compare_eq_compare_rightpad hv hw] at hvw
    rw [compare_eq_compare_rightpad hu hw]
    exact Std.TransOrd.isLE_trans huv hvw

theorem same_iff_compare_eq {v w : Version} : v.same w ↔ v.compare w = .eq := by
  rw [same, beq_iff_eq]

/-- **Versions are totally ordered**, up to the equality that does not see zeros at the end. -/
theorem isTotalComparison : IsTotalComparison compare same where
  refl _ := Std.ReflCmp.compare_self
  total v w := by
    have hswap : w.compare v = (v.compare w).swap := Std.OrientedCmp.eq_swap
    rw [hswap, Ordering.isLE_swap]
    cases v.compare w <;> decide
  trans := Std.TransCmp.isLE_trans
  antisymm hvw hwv := same_iff_compare_eq.2 (Std.OrientedCmp.isLE_antisymm hvw hwv)
  swap _ _ := Std.OrientedCmp.eq_swap.symm
  same_iff := same_iff_compare_eq
  congr _ h := Std.TransCmp.congr_left (same_iff_compare_eq.1 h)

/-- Versions are the same if they are the same list when they are filled up with zeros. -/
theorem same_iff_rightpad_eq {v w : Version} {n : Nat} (hv : v.parts.length ≤ n)
    (hw : w.parts.length ≤ n) : v.same w ↔ v.parts.rightpad n 0 = w.parts.rightpad n 0 := by
  rw [same_iff_compare_eq, compare_eq_compare_rightpad hv hw, Std.compare_eq_iff_eq]

/-- Zeros at the end do not count. -/
theorem same_append_zeros (v : Version) (k : Nat) :
    same ⟨v.parts ++ List.replicate k 0⟩ v := by
  have hlength : (v.parts ++ List.replicate k 0).length = v.parts.length + k := by simp
  rw [same_iff_rightpad_eq (Nat.le_of_eq hlength) (Nat.le_add_right _ k),
    rightpad_append_replicate (Nat.le_refl _)]

end Version

end EdgeHealth
