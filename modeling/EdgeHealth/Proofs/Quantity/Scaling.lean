import Mathlib.Tactic.NormNum
import EdgeHealth.Proofs.Number.Rounding
import EdgeHealth.Quantity

/-!
# Dividing by a factor and multiplying by it

An amount with a suffix is a quotient that was rounded when it was read, and it is multiplied by the
factor of the suffix, which rounds again; then it is cut to a whole number. Where the quotient is a
number of the format, the amount comes back. Else it may miss by one: the first rounding may go
down, and the cut takes the rest. It comes back nevertheless if, written in base two, the amount
begins lower than the factor does, for then the first rounding is fine enough for the second one to
undo it.

## Main definitions

* `Quantity.KeepsPowers` : a factor for which powers of two come back.
* `Quantity.ComesBack` : a condition under which an amount comes back.
* `Quantity.IsClose` : how an amount comes back.

## Main results

* `Quantity.isClose_floor` : an amount that is divided and multiplied comes back closely.
-/

namespace EdgeHealth.Quantity

open Binary64

/-- A factor for which powers of two come back: the quotient of a power of two goes up when it is
rounded, or it goes down by little. -/
def KeepsPowers (factor : Nat) : Prop :=
  let rest := 2 ^ (factor.log2 + 53) % factor
  factor < 2 * rest ∨ 2 * rest < 2 ^ factor.log2

instance (factor : Nat) : Decidable (KeepsPowers factor) :=
  inferInstanceAs (Decidable (_ ∨ _))

/-- A condition under which an amount comes back: the quotient is a number of the format, or the
amount begins lower than the factor when both are written in base two. -/
def ComesBack (factor n : Nat) : Prop :=
  Holds ((n : ℚ) / factor) ∨ n * 2 ^ factor.log2 < factor * 2 ^ n.log2

/-- An amount that comes back up to one: never greater if it is below `2 ^ 52`, and the same under
the condition above. -/
structure IsClose (factor n back : Nat) : Prop where
  /-- The amount is at most one greater. -/
  le_succ : n ≤ back + 1
  /-- The amount is at most one less. -/
  le : back ≤ n + 1
  /-- An amount below `2 ^ 52` is not less. -/
  le_of_lt : n < 2 ^ 52 → back ≤ n
  /-- The amount is the same. -/
  eq : ComesBack factor n → back = n

/-! ### Two roundings -/

section

variable {factor n : Nat} {v back : ℚ}

/-- The first rounding moves the product by less than one. -/
theorem abs_mul_sub_le (hfactor : 0 < factor) (hbound : factor < 2 ^ 64) (hn : 0 < n)
    (hv : IsNearest (n / factor) v) : |v * factor - n| ≤ n / 2 ^ 53 := by
  have hfactor' : (0 : ℚ) < factor := by exact_mod_cast hfactor
  have hn' : (1 : ℚ) ≤ n := by exact_mod_cast hn
  have hbound' : (factor : ℚ) < 2 ^ 64 := by exact_mod_cast hbound
  have hleast : (2 : ℚ) ^ (-1000 : ℤ) ≤ n / factor := by
    rw [le_div_iff₀ hfactor']
    calc (2 : ℚ) ^ (-1000 : ℤ) * factor ≤ 2 ^ (-64 : ℤ) * 2 ^ 64 := by
          gcongr <;> norm_num
      _ = 1 := by norm_num
      _ ≤ n := hn'
  calc |v * factor - n| = |v - n / factor| * factor := by
        rw [← abs_of_pos hfactor', ← abs_mul, abs_of_pos hfactor', sub_mul,
          div_mul_cancel₀ _ hfactor'.ne']
    _ ≤ n / factor / 2 ^ 53 * factor := by
        gcongr
        exact hv.abs_sub_le_div hleast
    _ = n / 2 ^ 53 := by field_simp

/-- An amount comes back up to one. -/
theorem floor_bounds (hn : 0 < n) (hlt : n < 2 ^ 53) (hmoved : |v * factor - n| ≤ n / 2 ^ 53)
    (hback : IsNearest (v * factor) back) : n ≤ ⌊back⌋₊ + 1 ∧ ⌊back⌋₊ ≤ n + 1 := by
  have hlt' : (n : ℚ) < 2 ^ 53 := by exact_mod_cast hlt
  have hsmall : (n : ℚ) / 2 ^ 53 < 1 := (div_lt_one (by positivity)).2 hlt'
  obtain ⟨hlo, hhi⟩ := abs_le.1 hmoved
  constructor
  · have hpred : ((n - 1 : ℕ) : ℚ) ≤ back := by
      refine hback.ge_of_holds (holds_natCast (by omega)) ?_
      rw [Nat.cast_sub hn, Nat.cast_one]
      linarith
    have := Nat.le_floor hpred
    omega
  · have hsucc : back ≤ ((n + 1 : ℕ) : ℚ) := by
      refine hback.le_of_holds (holds_natCast (by omega)) ?_
      push_cast
      linarith
    exact Nat.floor_le_of_le hsucc

/-- An amount below `2 ^ 52` does not become greater. -/
theorem floor_le_of_lt (hlt : n < 2 ^ 52) (hmoved : |v * factor - n| ≤ n / 2 ^ 53)
    (hback : IsNearest (v * factor) back) : ⌊back⌋₊ ≤ n := by
  have hlt' : (n : ℚ) < 2 ^ 52 := by exact_mod_cast hlt
  have hhalf : Holds (((2 * n + 1 : ℕ) : ℚ) / 2 ^ 1) := holds_div_two_pow (by omega) (by decide)
  have hle : back ≤ ((2 * n + 1 : ℕ) : ℚ) / 2 ^ 1 := by
    refine hback.le_of_holds hhalf ?_
    have hhi := (abs_le.1 hmoved).2
    push_cast
    linarith
  rw [← Nat.lt_add_one_iff, Nat.floor_lt' (by omega)]
  refine hle.trans_lt ?_
  push_cast
  linarith

/-- Where the quotient is a number of the format, the amount is the same. -/
theorem eq_of_holds_div (hfactor : 0 < factor) (hlt : n < 2 ^ 53) (hv : IsNearest (n / factor) v)
    (hback : IsNearest (v * factor) back) (h : Holds ((n : ℚ) / factor)) : back = n := by
  have hfactor' : (factor : ℚ) ≠ 0 := by exact_mod_cast hfactor.ne'
  rw [hv.eq_of_holds h, div_mul_cancel₀ _ hfactor'] at hback
  exact hback.eq_of_holds (holds_natCast hlt.le)

/-! ### Amounts that begin lower than the factor -/

/-- The quotient of an amount that begins lower than the factor lies between two powers of two. -/
theorem div_between (hfactor : 0 < factor) (hn : 0 < n)
    (hlow : n * 2 ^ factor.log2 < factor * 2 ^ n.log2) :
    (2 : ℚ) ^ ((n.log2 : ℤ) - factor.log2 - 1) < n / factor ∧
      (n : ℚ) / factor < 2 ^ ((n.log2 : ℤ) - factor.log2 - 1 + 1) := by
  have hfactor' : (0 : ℚ) < factor := by exact_mod_cast hfactor
  have hlow' : (n : ℚ) * 2 ^ (factor.log2 : ℤ) < factor * 2 ^ (n.log2 : ℤ) := by
    rw [zpow_natCast, zpow_natCast]
    exact_mod_cast hlow
  refine ⟨(div_between_zpow hn hfactor).1, ?_⟩
  rw [sub_add_cancel, zpow_sub₀ two_ne_zero, div_lt_div_iff₀ hfactor' (by positivity),
    mul_comm _ (factor : ℚ)]
  exact hlow'

/-- The first rounding of such a quotient moves the product by less than half of a step. -/
theorem abs_mul_sub_lt (hfactor : 0 < factor) (hbound : factor < 2 ^ 64) (hn : 0 < n)
    (hlow : n * 2 ^ factor.log2 < factor * 2 ^ n.log2) (hv : IsNearest (n / factor) v) :
    |v * factor - n| < 2 ^ ((n.log2 : ℤ) - 53) := by
  have hfactor' : (0 : ℚ) < factor := by exact_mod_cast hfactor
  have hlog : factor.log2 < 64 := (Nat.log2_lt hfactor.ne').2 hbound
  obtain ⟨hlo, hhi⟩ := div_between hfactor hn hlow
  have hmoved := hv.abs_sub_le (by rw [minExponent]; omega) (lt_trans (by positivity) hlo) hhi
  calc |v * factor - n| = |v - n / factor| * factor := by
        rw [← abs_of_pos hfactor', ← abs_mul, abs_of_pos hfactor', sub_mul,
          div_mul_cancel₀ _ hfactor'.ne']
    _ ≤ 2 ^ ((n.log2 : ℤ) - factor.log2 - 1 - 53) * factor := by gcongr
    _ < 2 ^ ((n.log2 : ℤ) - factor.log2 - 1 - 53) * 2 ^ ((factor.log2 : ℤ) + 1) := by
      gcongr
      exact (zpow_log2_le hfactor).2
    _ = 2 ^ ((n.log2 : ℤ) - 53) := by
      rw [← zpow_add₀ two_ne_zero]
      congr 1
      ring

/-- What a multiple of the factor leaves of the power of two, if it is at most half of the
factor. -/
theorem KeepsPowers.two_mul_sub_lt (h : KeepsPowers factor) {steps r : ℕ}
    (hsteps : steps = 2 ^ (factor.log2 + 53)) (hbelow : r * factor < steps)
    (hnear : 2 * (steps - r * factor) ≤ factor) :
    2 * (steps - r * factor) < 2 ^ factor.log2 := by
  have hrest : steps % factor = steps - r * factor := by
    obtain ⟨rest, hrest⟩ := Nat.le.dest hbelow.le
    rw [← hrest, Nat.add_sub_cancel_left] at hnear ⊢
    rw [Nat.mul_add_mod_self_right, Nat.mod_eq_of_lt]
    omega
  rw [KeepsPowers, ← hsteps, hrest] at h
  exact h.resolve_left (by omega)

/-- The steps of the quotient of a power of two. -/
theorem spacing_two_pow_div (hfactor : 0 < factor) (hbound : factor < 2 ^ 64) (k : ℕ)
    (hlow : 2 ^ factor.log2 < factor) :
    spacing (2 ^ k / factor) = (k : ℤ) - (factor.log2 + 53) := by
  have hlog : factor.log2 < 64 := (Nat.log2_lt hfactor.ne').2 hbound
  have hlow' : 2 ^ k * 2 ^ factor.log2 < factor * 2 ^ (2 ^ k).log2 := by
    rw [Nat.log2_two_pow, mul_comm factor]
    gcongr
  obtain ⟨hlo, hhi⟩ := div_between hfactor (n := 2 ^ k) (by positivity) hlow'
  rw [Nat.log2_two_pow] at hlo hhi
  push_cast at hlo hhi
  rw [spacing_eq (by rw [minExponent]; omega) hlo.le hhi]
  ring

/-- A quotient that is rounded down to `r` steps leaves at most half of the factor. -/
theorem two_mul_sub_le (hfactor : 0 < factor) {steps r : ℕ} {unit : ℚ} (hunit : 0 < unit)
    (hr : |r * unit - steps * unit / factor| ≤ unit / 2) (hbelow : r * factor < steps) :
    2 * (steps - r * factor) ≤ factor := by
  have hfactor' : (0 : ℚ) < factor := by exact_mod_cast hfactor
  have hgap : ((steps : ℚ) - r * factor) / factor * unit ≤ unit / 2 := by
    calc ((steps : ℚ) - r * factor) / factor * unit = -(r * unit - steps * unit / factor) := by
          field_simp
          ring
      _ ≤ |r * unit - steps * unit / factor| := neg_le_abs _
      _ ≤ unit / 2 := hr
  have hhalf : ((steps : ℚ) - r * factor) / factor ≤ 1 / 2 :=
    le_of_mul_le_mul_right (by linarith) hunit
  rw [div_le_iff₀ hfactor'] at hhalf
  have hcast : 2 * ((steps - r * factor : ℕ) : ℚ) ≤ factor := by
    rw [Nat.cast_sub hbelow.le]
    push_cast
    linarith
  exact_mod_cast hcast

/-- The product for a power of two, if it goes down, goes down by less than half of the finer step
that is below this power. -/
theorem two_pow_sub_mul_lt (hfactor : 0 < factor) (hbound : factor < 2 ^ 64)
    (hkeeps : KeepsPowers factor) {k : ℕ} (hlow : 2 ^ factor.log2 < factor)
    (hv : IsNearest (2 ^ k / factor) v) (hdown : v * factor < 2 ^ k) :
    2 ^ k - v * factor < (2 : ℚ) ^ ((k : ℤ) - 54) := by
  obtain ⟨r, rfl, hr⟩ := hv
  rw [spacing_two_pow_div hfactor hbound k hlow] at hr hdown ⊢
  -- in steps of the quotient, the power is `2 ^ (log2 factor + 53)` and the product `r * factor`
  have hunit : (0 : ℚ) < 2 ^ ((k : ℤ) - (factor.log2 + 53)) := by positivity
  generalize hunitEq : (2 : ℚ) ^ ((k : ℤ) - (factor.log2 + 53)) = unit at hr hdown hunit ⊢
  have hpower : (2 : ℚ) ^ k = (2 ^ (factor.log2 + 53) : ℕ) * unit := by
    rw [← hunitEq, Nat.cast_pow, Nat.cast_ofNat, ← zpow_natCast, ← zpow_natCast,
      ← zpow_add₀ two_ne_zero]
    congr 1
    push_cast
    ring
  generalize hsteps : 2 ^ (factor.log2 + 53) = steps at hpower
  have hbelow : r * factor < steps := by
    rw [hpower, mul_right_comm] at hdown
    exact_mod_cast lt_of_mul_lt_mul_right hdown hunit.le
  have hnear : 2 * (steps - r * factor) ≤ factor :=
    two_mul_sub_le hfactor hunit (hpower ▸ hr) hbelow
  have hsmall : (2 : ℚ) * (steps - r * factor) < 2 ^ factor.log2 := by
    have h : ((2 * (steps - r * factor) : ℕ) : ℚ) < (2 ^ factor.log2 : ℕ) := by
      exact_mod_cast hkeeps.two_mul_sub_lt hsteps.symm hbelow hnear
    rw [Nat.cast_mul, Nat.cast_sub hbelow.le] at h
    push_cast at h
    exact h
  have hexponent : (factor.log2 : ℤ) + (k - (factor.log2 + 53)) - 1 = k - 54 := by ring
  calc (2 : ℚ) ^ k - r * unit * factor = (steps - r * factor) * unit := by rw [hpower]; ring
    _ < 2 ^ factor.log2 / 2 * unit := by
      gcongr
      linarith
    _ = 2 ^ ((k : ℤ) - 54) := by
      rw [← hunitEq, div_mul_eq_mul_div, ← zpow_natCast, ← zpow_add₀ two_ne_zero,
        div_eq_mul_inv, ← zpow_sub_one₀ two_ne_zero, hexponent]

/-- A product that is below a power of two by so little is rounded to it. -/
theorem eq_two_pow_of_below {k : ℕ} {p : ℚ} (hback : IsNearest p back) (hdown : p < 2 ^ k)
    (hnear : 2 ^ k - p < (2 : ℚ) ^ ((k : ℤ) - 54)) : back = 2 ^ k := by
  have hsplit : (2 : ℚ) ^ k = 2 * 2 ^ ((k : ℤ) - 1) := by
    rw [← zpow_one_add₀ two_ne_zero, ← zpow_natCast]
    congr 1
    ring
  have hfine : (2 : ℚ) ^ ((k : ℤ) - 54) ≤ 2 ^ ((k : ℤ) - 1) := by
    gcongr
    · exact one_le_two
    · omega
  have hexponent : (k : ℤ) - 1 - 53 = k - 54 := by ring
  refine hback.eq_of_near (k := (k : ℤ) - 1) (z := 2 ^ 53) ?_ ?_ ?_ ?_ ?_
  · rw [minExponent]
    omega
  · linarith
  · rwa [sub_add_cancel, zpow_natCast]
  · rw [Nat.cast_pow, Nat.cast_ofNat, ← zpow_natCast, ← zpow_natCast, ← zpow_add₀ two_ne_zero]
    congr 1
    push_cast
    ring
  · rw [hexponent, abs_sub_comm, abs_of_pos (by linarith)]
    exact hnear

/-- **An amount that begins lower than the factor comes back.** -/
theorem eq_of_lower (hfactor : 0 < factor) (hbound : factor < 2 ^ 64) (hkeeps : KeepsPowers factor)
    (hn : 0 < n) (hlt : n < 2 ^ 53) (hlow : n * 2 ^ factor.log2 < factor * 2 ^ n.log2)
    (hv : IsNearest (n / factor) v) (hback : IsNearest (v * factor) back) : back = n := by
  have hlog : n.log2 < 53 := (Nat.log2_lt hn.ne').2 hlt
  have hmoved := abs_mul_sub_lt hfactor hbound hn hlow hv
  have hpoint : (n : ℚ) = (n * 2 ^ (52 - n.log2) : ℕ) * 2 ^ ((n.log2 : ℤ) - 52) := by
    push_cast
    rw [mul_assoc, ← zpow_natCast, ← zpow_add₀ two_ne_zero, Nat.cast_sub (by omega)]
    simp
  have hhalf : (2 : ℚ) ^ ((n.log2 : ℤ) - 53) < 1 := by
    rw [← zpow_zero 2]
    gcongr
    · exact one_lt_two
    · omega
  rcases le_or_gt ((2 : ℚ) ^ n.log2) (v * factor) with hup | hdown
  · have hhi : v * factor < 2 ^ ((n.log2 : ℤ) + 1) := by
      have hsucc : (n : ℚ) + 1 ≤ 2 ^ (n.log2 + 1) := by exact_mod_cast n.lt_log2_self
      calc v * factor < n + 1 := by linarith [(abs_lt.1 hmoved).2]
        _ ≤ 2 ^ ((n.log2 : ℤ) + 1) := by exact_mod_cast hsucc
    exact hback.eq_of_near (by rw [minExponent]; omega) (by rwa [zpow_natCast]) hhi hpoint hmoved
  · -- only the power itself can fall below it
    have hpower : n = 2 ^ n.log2 := by
      refine le_antisymm (Nat.lt_add_one_iff.1 ?_) (Nat.log2_self_le hn.ne')
      have hnext : (n : ℚ) < 2 ^ n.log2 + 1 := by linarith [(abs_lt.1 hmoved).1]
      exact_mod_cast hnext
    have hcast : (n : ℚ) = 2 ^ n.log2 := by exact_mod_cast hpower
    have hlow' : 2 ^ factor.log2 < factor := by
      rw [← hpower, mul_comm] at hlow
      exact lt_of_mul_lt_mul_right hlow n.zero_le
    rw [hcast] at hv ⊢
    exact eq_two_pow_of_below hback hdown
      (two_pow_sub_mul_lt hfactor hbound hkeeps hlow' hv hdown)

/-- **An amount that is divided and multiplied comes back closely.** -/
theorem isClose_floor (hfactor : 0 < factor) (hbound : factor < 2 ^ 64)
    (hkeeps : KeepsPowers factor) (hlt : n < 2 ^ 53) (hv : IsNearest (n / factor) v)
    (hback : IsNearest (v * factor) back) :
    IsClose factor n ⌊back⌋₊ := by
  rcases Nat.eq_zero_or_pos n with rfl | hn
  · have hholds : Holds (((0 : ℕ) : ℚ) / factor) := by
      rw [Nat.cast_zero, zero_div]
      exact_mod_cast holds_natCast (Nat.zero_le _)
    rw [eq_of_holds_div hfactor hlt hv hback hholds, Nat.floor_natCast]
    exact ⟨by omega, by omega, fun _ => le_rfl, fun _ => rfl⟩
  have hmoved := abs_mul_sub_le hfactor hbound hn hv
  obtain ⟨hlo, hhi⟩ := floor_bounds hn hlt hmoved hback
  refine ⟨hlo, hhi, fun h => floor_le_of_lt h hmoved hback, fun h => ?_⟩
  have heq : back = n := by
    rcases h with hholds | hlow
    · exact eq_of_holds_div hfactor hlt hv hback hholds
    · exact eq_of_lower hfactor hbound hkeeps hn hlt hlow hv hback
  rw [heq, Nat.floor_natCast]

end

end EdgeHealth.Quantity
