import Mathlib.Algebra.Order.Field.Power
import Mathlib.Algebra.Order.Floor.Semifield
import Mathlib.Data.Int.Log
import Mathlib.Data.Rat.Floor
import Mathlib.Tactic.FieldSimp
import Mathlib.Tactic.Linarith
import Mathlib.Tactic.Positivity
import Mathlib.Tactic.Ring
import EdgeHealth.Number.Binary64

/-!
# How numbers are rounded

Every operation on floating-point numbers rounds an exact quotient once. The numbers of the format
that are near a positive quotient lie on a grid whose spacing is a power of two; the rounded number
is a point of this grid, and no farther from the quotient than half of the spacing. All else follows
from that. A quotient that the format holds is kept. Rounding does not go past a number that the
format holds, and of two neighbours it takes the one that is clearly nearer.

Quotients that are too great for the format are left out, and so are negative ones.

## Main definitions

* `Binary64.HasValue` : a finite number that is not negative, with its value.
* `Binary64.spacing` : the exponent of the grid near a quotient.
* `Binary64.IsNearest` : a point of this grid that is nearest to the quotient.
* `Binary64.Holds` : a value that the format holds.

## Main results

* `Binary64.exists_round` : rounding gives a nearest point.
* `Binary64.IsNearest.eq_of_holds` : a value that the format holds is kept.
* `Binary64.IsNearest.le_of_holds`, `Binary64.IsNearest.ge_of_holds` : rounding does not go past it.
* `Binary64.IsNearest.abs_sub_le_div`, `Binary64.IsNearest.eq_of_near` : how far rounding goes.
* `Binary64.exists_mul`, `Binary64.hasValue_ofNat`, `Binary64.clamp_of_hasValue` : products, natural
  numbers and whole parts.
-/

namespace EdgeHealth

/-! ### Quotients -/

theorem scaleBinary_snd_pos {den : Nat} (hden : 0 < den) (num : Nat) (e : Int) :
    0 < (scaleBinary num den e).2 := by
  cases e with
  | ofNat k => exact hden
  | negSucc k =>
    rw [scaleBinary, Nat.shiftLeft_eq]
    positivity

/-- Scaling multiplies a quotient by a power of two. -/
theorem scaleBinary_div (num den : Nat) (e : Int) :
    ((scaleBinary num den e).1 : ℚ) / (scaleBinary num den e).2 = num / den * 2 ^ e := by
  cases e with
  | ofNat k =>
    rw [scaleBinary, Nat.shiftLeft_eq]
    push_cast
    rw [Int.ofNat_eq_natCast, zpow_natCast]
    ring
  | negSucc k =>
    rw [scaleBinary, Nat.shiftLeft_eq, zpow_negSucc]
    push_cast
    rw [div_mul_eq_div_div, div_eq_mul_inv _ ((2 : ℚ) ^ (k + 1))]

/-- The rounded quotient is no farther from the quotient than one half. -/
theorem abs_roundQuotient_sub_le (num : Nat) {den : Nat} (hden : 0 < den) :
    |(roundQuotient num den : ℚ) - num / den| ≤ 1 / 2 := by
  have hdiv : (num : ℚ) / den = (num / den : Nat) + (num % den : Nat) / den := by
    have hnum : (num : ℚ) = den * (num / den : Nat) + (num % den : Nat) := by
      exact_mod_cast (Nat.div_add_mod num den).symm
    have hne : (den : ℚ) ≠ 0 := by positivity
    rw [eq_comm, ← sub_eq_zero]
    field_simp
    rw [hnum]
    ring
  have hrest : ((num % den : Nat) : ℚ) / den < 1 := by
    rw [div_lt_one (by positivity)]
    exact_mod_cast Nat.mod_lt num hden
  have hrest' : 0 ≤ ((num % den : Nat) : ℚ) / den := by positivity
  rw [hdiv, roundQuotient]
  split
  · next hup =>
    have hhalf : 1 / 2 ≤ ((num % den : Nat) : ℚ) / den := by
      rw [le_div_iff₀ (by positivity)]
      have hle : den ≤ 2 * (num % den) := by
        simp only [Bool.or_eq_true, Bool.and_eq_true, decide_eq_true_eq, beq_iff_eq] at hup
        omega
      have hle' : (den : ℚ) ≤ 2 * (num % den : Nat) := by exact_mod_cast hle
      linarith
    push_cast
    rw [abs_le]
    constructor <;> linarith
  · next hdown =>
    have hhalf : ((num % den : Nat) : ℚ) / den ≤ 1 / 2 := by
      rw [div_le_iff₀ (by positivity)]
      have hle : 2 * (num % den) ≤ den := by
        simp only [Bool.or_eq_true, Bool.and_eq_true, decide_eq_true_eq, beq_iff_eq] at hdown
        omega
      have hle' : 2 * ((num % den : Nat) : ℚ) ≤ den := by exact_mod_cast hle
      linarith
    rw [abs_le]
    constructor <;> linarith

/-- A natural number lies between two neighbouring powers of two. -/
theorem zpow_log2_le {n : Nat} (h : 0 < n) :
    (2 : ℚ) ^ (n.log2 : ℤ) ≤ n ∧ (n : ℚ) < 2 ^ ((n.log2 : ℤ) + 1) := by
  rw [← Nat.cast_succ, zpow_natCast, zpow_natCast]
  exact ⟨by exact_mod_cast Nat.log2_self_le h.ne', by exact_mod_cast Nat.lt_log2_self⟩

/-- The logarithms of its parts tell the one of a quotient up to one. -/
theorem div_between_zpow {num den : Nat} (hnum : 0 < num) (hden : 0 < den) :
    (2 : ℚ) ^ ((num.log2 : ℤ) - den.log2 - 1) < num / den ∧
      (num : ℚ) / den < 2 ^ ((num.log2 : ℤ) - den.log2 + 1) := by
  have hden' : (0 : ℚ) < den := by exact_mod_cast hden
  obtain ⟨hnumLo, hnumHi⟩ := zpow_log2_le hnum
  obtain ⟨hdenLo, hdenHi⟩ := zpow_log2_le hden
  constructor
  · rw [lt_div_iff₀ hden']
    calc (2 : ℚ) ^ ((num.log2 : ℤ) - den.log2 - 1) * den
        < 2 ^ ((num.log2 : ℤ) - den.log2 - 1) * 2 ^ ((den.log2 : ℤ) + 1) := by gcongr
      _ = 2 ^ (num.log2 : ℤ) := by
        rw [← zpow_add₀ two_ne_zero]
        congr 1
        ring
      _ ≤ num := hnumLo
  · rw [div_lt_iff₀ hden']
    calc (num : ℚ) < 2 ^ ((num.log2 : ℤ) + 1) := hnumHi
      _ = 2 ^ ((num.log2 : ℤ) - den.log2 + 1) * 2 ^ (den.log2 : ℤ) := by
        rw [← zpow_add₀ two_ne_zero]
        congr 1
        ring
      _ ≤ 2 ^ ((num.log2 : ℤ) - den.log2 + 1) * den := by gcongr

/-- The greatest power of two that is not above a positive quotient. -/
theorem floorLog2_eq {num den : Nat} (hnum : 0 < num) (hden : 0 < den) :
    floorLog2 num den = Int.log 2 ((num : ℚ) / den) := by
  have hden' : (0 : ℚ) < den := by exact_mod_cast hden
  have hpos : (0 : ℚ) < num / den := div_pos (by exact_mod_cast hnum) hden'
  obtain ⟨hlo, hhi⟩ := div_between_zpow hnum hden
  rw [floorLog2]
  generalize hguess : (num.log2 : ℤ) - den.log2 = guess at hlo hhi
  -- the logarithms of the parts leave two candidates, and the comparison decides between them
  have hcompare : (scaleBinary num den (-guess)).2 ≤ (scaleBinary num den (-guess)).1 ↔
      (2 : ℚ) ^ guess ≤ num / den := by
    have hpos' : (0 : ℚ) < (scaleBinary num den (-guess)).2 := by
      exact_mod_cast scaleBinary_snd_pos hden num _
    rw [← Nat.cast_le (α := ℚ), ← one_le_div hpos', scaleBinary_div, zpow_neg, ← div_eq_mul_inv,
      one_le_div (by positivity)]
  have hbelow : guess - 1 ≤ Int.log 2 ((num : ℚ) / den) :=
    (Int.zpow_le_iff_le_log one_lt_two hpos).1 (by exact_mod_cast hlo.le)
  have habove : Int.log 2 ((num : ℚ) / den) < guess + 1 :=
    (Int.lt_zpow_iff_log_lt one_lt_two hpos).1 (by exact_mod_cast hhi)
  split
  · next h =>
    have hguessed : guess ≤ Int.log 2 ((num : ℚ) / den) :=
      (Int.zpow_le_iff_le_log one_lt_two hpos).1 (by exact_mod_cast hcompare.1 h)
    omega
  · next h =>
    have hless : Int.log 2 ((num : ℚ) / den) < guess :=
      (Int.lt_zpow_iff_log_lt one_lt_two hpos).1
        (by exact_mod_cast lt_of_not_ge fun hge => h (hcompare.2 hge))
    omega

namespace Binary64

/-! ### Values -/

/-- A finite number that is not negative, with its value. -/
def HasValue (x : Binary64) (q : ℚ) : Prop :=
  ∃ m e, x = .finite false m e ∧ (m : ℚ) * 2 ^ e = q

/-- A value that the format holds. -/
def Holds (q : ℚ) : Prop := ∃ (w : ℕ) (i : ℤ), w < 2 ^ 53 ∧ minExponent ≤ i ∧ (w : ℚ) * 2 ^ i = q

theorem hasValue_zero : (zero false).HasValue 0 := ⟨0, minExponent, rfl, by simp⟩

/-- Natural numbers up to the bound of the significand are held. -/
theorem holds_natCast {n : Nat} (h : n ≤ 2 ^ 53) : Holds n := by
  rcases h.lt_or_eq with hlt | rfl
  · exact ⟨n, 0, hlt, by decide, by simp⟩
  · exact ⟨2 ^ 52, 1, by decide, by decide, by norm_num⟩

/-- A natural number that is held is held after division by a power of two. -/
theorem holds_div_two_pow {n k : Nat} (h : n < 2 ^ 53) (hk : k ≤ 1074) :
    Holds ((n : ℚ) / 2 ^ k) := by
  refine ⟨n, -k, h, ?_, ?_⟩
  · rw [minExponent]
    omega
  · rw [zpow_neg, zpow_natCast, div_eq_mul_inv]

/-- The whole part of a number that is not negative. -/
theorem clamp_of_hasValue {x : Binary64} {q : ℚ} (h : x.HasValue q) (bound : Nat) :
    x.clamp bound = min bound ⌊q⌋₊ := by
  obtain ⟨m, e, rfl, rfl⟩ := h
  have hwhole : wholePart m e = ⌊(m : ℚ) * 2 ^ e⌋₊ := by
    have hscaled := scaleBinary_div m 1 e
    rw [Nat.cast_one, div_one] at hscaled
    rw [wholePart, ← hscaled, Nat.floor_div_eq_div]
  rw [clamp, if_neg Bool.false_ne_true, hwhole]

/-! ### Nearest points -/

/-- The exponent of the spacing of the numbers near a quotient. -/
def spacing (q : ℚ) : ℤ := Max.max minExponent (Int.log 2 q - 52)

/-- A point of the grid near a quotient that is no farther from it than half of the spacing. -/
def IsNearest (q v : ℚ) : Prop :=
  ∃ r : ℕ, v = r * 2 ^ spacing q ∧ |v - q| ≤ 2 ^ spacing q / 2

/-- The spacing between two neighbouring powers of two. -/
theorem spacing_eq {q : ℚ} {k : ℤ} (hk : minExponent + 52 ≤ k) (hlo : 2 ^ k ≤ q)
    (hhi : q < 2 ^ (k + 1)) : spacing q = k - 52 := by
  have hpos : 0 < q := lt_of_lt_of_le (by positivity) hlo
  have hge : k ≤ Int.log 2 q := (Int.zpow_le_iff_le_log one_lt_two hpos).1 (by exact_mod_cast hlo)
  have hlt : Int.log 2 q < k + 1 :=
    (Int.lt_zpow_iff_log_lt one_lt_two hpos).1 (by exact_mod_cast hhi)
  rw [spacing]
  omega

/-- A quotient is at least `2 ^ 52` spacings, unless the spacing is the least one. -/
theorem mul_spacing_le {q : ℚ} (hq : 0 < q) (h : minExponent < spacing q) :
    2 ^ 52 * 2 ^ spacing q ≤ q := by
  have hlog : (2 : ℚ) ^ Int.log 2 q ≤ q := by exact_mod_cast Int.zpow_log_le_self one_lt_two hq
  refine le_trans ?_ hlog
  rw [← zpow_natCast, ← zpow_add₀ two_ne_zero]
  refine zpow_le_zpow_right₀ one_le_two ?_
  rw [spacing] at h ⊢
  omega

/-- A significand makes a number of its value, unless the exponent is too great. -/
theorem hasValue_ofSignificand (m : Nat) {e : ℤ} (he : e < maxExponent) :
    (ofSignificand false m e).HasValue (m * 2 ^ e) := by
  rw [ofSignificand]
  by_cases hcarry : m = 1 <<< 53
  · rw [if_pos hcarry, if_neg (by omega)]
    refine ⟨_, _, rfl, ?_⟩
    rw [hcarry, zpow_add₀ two_ne_zero, Nat.one_shiftLeft, Nat.one_shiftLeft]
    push_cast
    ring
  · rw [if_neg hcarry, if_neg (by omega)]
    exact ⟨m, e, rfl, rfl⟩

/-- **Rounding gives a nearest point.** -/
theorem exists_round {num den : Nat} (hden : 0 < den) (hlt : (num : ℚ) / den < 2 ^ 200) :
    ∃ v, (round false num den).HasValue v ∧ IsNearest (num / den) v := by
  rcases Nat.eq_zero_or_pos num with rfl | hnum
  · refine ⟨0, hasValue_zero, 0, by simp, ?_⟩
    simp only [Nat.cast_zero, zero_div, sub_self, abs_zero]
    positivity
  have hq : (0 : ℚ) < num / den := div_pos (by exact_mod_cast hnum) (by exact_mod_cast hden)
  have hspacing : Max.max minExponent (floorLog2 num den - 52) = spacing (num / den) := by
    rw [floorLog2_eq hnum hden, spacing]
  have hnear := abs_roundQuotient_sub_le (scaleBinary num den (-spacing (num / den))).1
    (scaleBinary_snd_pos hden num (-spacing (num / den)))
  rw [scaleBinary_div, zpow_neg, ← div_eq_mul_inv] at hnear
  have hunit : (0 : ℚ) < 2 ^ spacing ((num : ℚ) / den) := by positivity
  rw [round, if_neg hnum.ne', hspacing]
  refine ⟨_, hasValue_ofSignificand _ ?_, _, rfl, ?_⟩
  · have hlog : Int.log 2 ((num : ℚ) / den) < 200 :=
      (Int.lt_zpow_iff_log_lt one_lt_two hq).1 (by exact_mod_cast hlt)
    rw [spacing, minExponent, maxExponent]
    omega
  · generalize roundQuotient _ _ = r at hnear ⊢
    have hscale : (r : ℚ) * 2 ^ spacing ((num : ℚ) / den) - num / den =
        (r - num / den / 2 ^ spacing ((num : ℚ) / den)) * 2 ^ spacing ((num : ℚ) / den) := by
      rw [sub_mul, div_mul_cancel₀ _ hunit.ne']
    rw [hscale, abs_mul, abs_of_pos hunit]
    linarith [mul_le_mul_of_nonneg_right hnear hunit.le]

namespace IsNearest

variable {q v a : ℚ}

theorem nonneg (h : IsNearest q v) : 0 ≤ v := by
  obtain ⟨r, rfl, -⟩ := h
  positivity

/-- A number that is held and has an exponent above the spacing is a point of the grid. -/
private theorem exists_point {w : ℕ} {i : ℤ} (h : spacing q ≤ i) :
    ∃ z : ℕ, (w : ℚ) * 2 ^ i = z * 2 ^ spacing q := by
  obtain ⟨k, rfl⟩ := Int.le.dest h
  refine ⟨w * 2 ^ k, ?_⟩
  push_cast
  rw [zpow_add₀ two_ne_zero, zpow_natCast, mul_assoc, mul_comm ((2 : ℚ) ^ k)]

/-- A number that is held and has an exponent below the spacing is below the quotient and all points
that are near to it. -/
private theorem lt_mul_of_exponent_lt {w : ℕ} {i : ℤ} (hw : w < 2 ^ 53) (h : i < spacing q) :
    (w : ℚ) * 2 ^ i < 2 ^ 52 * 2 ^ spacing q := by
  have hw' : (w : ℚ) < 2 ^ 53 := by exact_mod_cast hw
  calc (w : ℚ) * 2 ^ i < 2 ^ 53 * 2 ^ i := by gcongr
    _ ≤ 2 ^ 53 * 2 ^ (spacing q - 1) := by
      have hle : i ≤ spacing q - 1 := by omega
      gcongr
      exact one_le_two
    _ = 2 ^ 52 * 2 ^ spacing q := by rw [zpow_sub₀ two_ne_zero]; ring

/-- Points of one grid that are less than a step apart are ordered like the numbers between. -/
private theorem le_of_lt_add_one {z r : ℕ} {unit : ℚ} (hunit : 0 < unit)
    (h : z * unit < r * unit + unit) : (z : ℚ) * unit ≤ r * unit := by
  have hstep : (z : ℚ) * unit < (r + 1 : ℕ) * unit := by
    push_cast
    linarith
  have hle : z < r + 1 := by exact_mod_cast lt_of_mul_lt_mul_right hstep hunit.le
  have hle' : (z : ℚ) ≤ r := by exact_mod_cast Nat.lt_add_one_iff.1 hle
  exact mul_le_mul_of_nonneg_right hle' hunit.le

/-- Rounding does not go below a number that the format holds. -/
theorem ge_of_holds (h : IsNearest q v) (ha : Holds a) (haq : a ≤ q) : a ≤ v := by
  rcases le_or_gt q 0 with hneg | hpos
  · exact haq.trans (hneg.trans h.nonneg)
  obtain ⟨r, rfl, hr⟩ := h
  obtain ⟨w, i, hw, hi, rfl⟩ := ha
  have hunit : (0 : ℚ) < 2 ^ spacing q := by positivity
  have hhalf := (abs_le.1 hr).1
  rcases le_or_gt (spacing q) i with hgrid | hgrid
  · obtain ⟨z, hz⟩ := exists_point (w := w) hgrid
    rw [hz] at haq ⊢
    exact le_of_lt_add_one hunit (by linarith)
  · have hlow := mul_spacing_le hpos (hi.trans_lt hgrid)
    have hpoint : ((2 ^ 52 : ℕ) : ℚ) * 2 ^ spacing q ≤ r * 2 ^ spacing q := by
      refine le_of_lt_add_one hunit ?_
      push_cast
      linarith
    push_cast at hpoint
    exact (lt_mul_of_exponent_lt hw hgrid).le.trans hpoint

/-- Rounding does not go above a number that the format holds. -/
theorem le_of_holds (h : IsNearest q v) (ha : Holds a) (hqa : q ≤ a) : v ≤ a := by
  obtain ⟨r, rfl, hr⟩ := h
  obtain ⟨w, i, hw, hi, rfl⟩ := ha
  have hunit : (0 : ℚ) < 2 ^ spacing q := by positivity
  have hhalf := (abs_le.1 hr).2
  rcases le_or_gt (spacing q) i with hgrid | hgrid
  · obtain ⟨z, hz⟩ := exists_point (w := w) hgrid
    rw [hz] at hqa ⊢
    exact le_of_lt_add_one hunit (by linarith)
  · rcases le_or_gt q 0 with hneg | hpos
    · have hpoint : (r : ℚ) * 2 ^ spacing q ≤ (0 : ℕ) * 2 ^ spacing q := by
        refine le_of_lt_add_one hunit ?_
        push_cast
        linarith
      rw [Nat.cast_zero, zero_mul] at hpoint
      exact hpoint.trans (by positivity)
    · have hlow := mul_spacing_le hpos (hi.trans_lt hgrid)
      have hhigh := lt_mul_of_exponent_lt hw hgrid
      linarith

/-- A value that the format holds is kept. -/
theorem eq_of_holds (h : IsNearest q v) (hq : Holds q) : v = q :=
  le_antisymm (h.le_of_holds hq le_rfl) (h.ge_of_holds hq le_rfl)

/-- Rounding moves a quotient by no more than half of the spacing of its power of two. -/
theorem abs_sub_le (h : IsNearest q v) {k : ℤ} (hk : minExponent + 52 ≤ k) (hq : 0 < q)
    (hlt : q < 2 ^ (k + 1)) : |v - q| ≤ 2 ^ (k - 53) := by
  obtain ⟨r, rfl, hr⟩ := h
  have hlog : Int.log 2 q < k + 1 :=
    (Int.lt_zpow_iff_log_lt one_lt_two hq).1 (by exact_mod_cast hlt)
  have hle : spacing q - 1 ≤ k - 53 := by
    rw [spacing, minExponent] at *
    omega
  calc |(r : ℚ) * 2 ^ spacing q - q| ≤ 2 ^ spacing q / 2 := hr
    _ = 2 ^ (spacing q - 1) := by rw [zpow_sub_one₀ two_ne_zero, div_eq_mul_inv]
    _ ≤ 2 ^ (k - 53) := zpow_le_zpow_right₀ one_le_two hle

/-- Rounding moves a quotient by no more than a small part of it, unless the quotient is among the
least. -/
theorem abs_sub_le_div (h : IsNearest q v) (hq : 2 ^ (-1000 : ℤ) ≤ q) : |v - q| ≤ q / 2 ^ 53 := by
  have hpos : 0 < q := lt_of_lt_of_le (by positivity) hq
  have hlog : -1000 ≤ Int.log 2 q :=
    (Int.zpow_le_iff_le_log one_lt_two hpos).1 (by exact_mod_cast hq)
  have hlo : (2 : ℚ) ^ Int.log 2 q ≤ q := by exact_mod_cast Int.zpow_log_le_self one_lt_two hpos
  have hhi : q < 2 ^ (Int.log 2 q + 1) := by exact_mod_cast Int.lt_zpow_succ_log_self one_lt_two q
  refine (h.abs_sub_le ?_ hpos hhi).trans ?_
  · rw [minExponent]
    omega
  · rw [zpow_sub₀ two_ne_zero]
    exact div_le_div_of_nonneg_right hlo (by positivity)

/-- A quotient that is nearer than half of the spacing to a number of the grid is rounded to it. -/
theorem eq_of_near (h : IsNearest q v) {k : ℤ} (hk : minExponent + 52 ≤ k) (hq : 2 ^ k ≤ q)
    (hlt : q < 2 ^ (k + 1)) {z : ℕ} (ha : a = z * 2 ^ (k - 52)) (hnear : |q - a| < 2 ^ (k - 53)) :
    v = a := by
  have hpos : 0 < q := lt_of_lt_of_le (by positivity) hq
  have hmoved := h.abs_sub_le hk hpos hlt
  have hspacing := spacing_eq hk hq hlt
  obtain ⟨r, rfl, hr⟩ := h
  rw [hspacing] at hmoved ⊢
  have hunit : (0 : ℚ) < 2 ^ (k - 52) := by positivity
  have hhalf : (2 : ℚ) ^ (k - 52) = 2 * 2 ^ (k - 53) := by
    rw [← zpow_one_add₀ two_ne_zero]
    congr 1
    ring
  obtain ⟨hlo, hhi⟩ := abs_le.1 hmoved
  obtain ⟨hlo', hhi'⟩ := abs_lt.1 hnear
  subst ha
  exact le_antisymm (le_of_lt_add_one hunit (by linarith)) (le_of_lt_add_one hunit (by linarith))

end IsNearest

/-! ### Natural numbers and products -/

/-- A natural number below the bound of the significand is kept. -/
theorem hasValue_ofNat {n : Nat} (h : Holds (n : ℚ)) (hlt : n < 2 ^ 200) :
    (ofNat n).HasValue n := by
  have hlt' : (n : ℚ) / (1 : ℕ) < 2 ^ 200 := by
    rw [Nat.cast_one, div_one]
    exact_mod_cast hlt
  obtain ⟨v, hv, hnear⟩ := exists_round one_pos hlt'
  rw [Nat.cast_one, div_one] at hnear
  rwa [hnear.eq_of_holds h] at hv

/-- A product is rounded once. -/
theorem exists_mul {x y : Binary64} {a b : ℚ} (hx : x.HasValue a) (hy : y.HasValue b)
    (hlt : a * b < 2 ^ 200) : ∃ v, (x.mul y).HasValue v ∧ IsNearest (a * b) v := by
  obtain ⟨m, e, rfl, rfl⟩ := hx
  obtain ⟨n, f, rfl, rfl⟩ := hy
  have hquotient : ((scaleBinary (m * n) 1 (e + f)).1 : ℚ) / (scaleBinary (m * n) 1 (e + f)).2 =
      m * 2 ^ e * (n * 2 ^ f) := by
    rw [scaleBinary_div, zpow_add₀ two_ne_zero]
    push_cast
    ring
  rw [← hquotient] at hlt ⊢
  exact exists_round (scaleBinary_snd_pos one_pos _ _) hlt

end Binary64

end EdgeHealth
