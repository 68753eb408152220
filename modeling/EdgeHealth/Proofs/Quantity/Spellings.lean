import EdgeHealth.Proofs.Number.Decimals
import EdgeHealth.Proofs.Quantity.Scaling
import EdgeHealth.Proofs.Text.Pieces

/-!
# The spellings of an amount

An amount can be written as a plain number, in thousandths, and as a quotient with the suffix of a
power of 1000 or of 1024. It comes back exactly from a plain number, from thousandths of a core and
from a quotient of a power of 1024. A quotient of a power of 1000 is rounded and then cut, so that
the amount that comes back may be one less: `1.005` cores are 1004 thousandths, while `1005m` are
1005. Only amounts from `2 ^ 52` on can come back greater.

## Main definitions

* `Quantity.IsFactor` : a factor that is kept as it is when a number is multiplied by it.

## Main results

* `Quantity.splitSuffix?_append` : a suffix of the table is found.
* `Quantity.exists_scaled` : a quotient is rounded when it is read and when it is multiplied.
* `Quantity.amounts_come_back` : how an amount comes back from each of its spellings.
-/

namespace EdgeHealth

namespace Quantity

open Binary64 Number Text

/-! ### Suffixes -/

/-- A suffix of the table is found behind any number. -/
theorem splitSuffix?_append {suffix : String} {factor : Nat}
    (h : (suffix, factor) ∈ binarySuffixes ++ decimalSuffixes) (number : List Char) :
    splitSuffix? (number ++ suffix.toList) (binarySuffixes ++ decimalSuffixes) =
      some (number, factor) := by
  simp only [binarySuffixes, decimalSuffixes, List.cons_append, List.nil_append, List.mem_cons,
    Prod.mk.injEq, List.not_mem_nil, or_false] at h
  -- the last two characters decide, whatever is before them
  rcases h with ⟨rfl, rfl⟩ | ⟨rfl, rfl⟩ | ⟨rfl, rfl⟩ | ⟨rfl, rfl⟩ | ⟨rfl, rfl⟩ | ⟨rfl, rfl⟩ |
    ⟨rfl, rfl⟩ | ⟨rfl, rfl⟩ | ⟨rfl, rfl⟩ | ⟨rfl, rfl⟩ | ⟨rfl, rfl⟩ | ⟨rfl, rfl⟩ <;>
  simp [splitSuffix?, stripEnd?, stripStart?, binarySuffixes, decimalSuffixes]

/-- A text that holds no character of any suffix has no suffix. -/
theorem splitSuffix?_eq_none {cs : List Char} {table : List (String × Nat)}
    (h : ∀ entry ∈ table, entry.1.toList ≠ [] ∧ ∀ c ∈ cs, c ∉ entry.1.toList) :
    splitSuffix? cs table = none := by
  induction table with
  | nil => rfl
  | cons entry table ih =>
    obtain ⟨hne, hcs⟩ := h entry List.mem_cons_self
    rw [splitSuffix?, stripEnd?_eq_none hne hcs]
    exact ih fun entry hentry => h entry (List.mem_cons_of_mem _ hentry)

/-- The characters of the suffixes. -/
theorem suffixes_letters : ∀ entry ∈ binarySuffixes ++ decimalSuffixes,
    entry.1.toList ≠ [] ∧ ∀ c ∈ entry.1.toList, c.isDigit = false ∧ c ≠ '.' := by
  have hall : ∀ entry ∈ binarySuffixes ++ decimalSuffixes,
      entry.1.toList ≠ [] ∧ entry.1.toList.all (fun c => !c.isDigit && c != '.') := by
    decide
  simpa only [List.all_eq_true, Bool.and_eq_true, Bool.not_eq_true', bne_iff_ne] using hall

theorem suffixes_not_blank : ∀ entry ∈ binarySuffixes ++ decimalSuffixes,
    ∀ c ∈ entry.1.toList, isBlank c = false := by
  have hall : ∀ entry ∈ binarySuffixes ++ decimalSuffixes,
      entry.1.toList.all (fun c => !isBlank c) := by
    decide
  simpa only [List.all_eq_true, Bool.not_eq_true'] using hall

/-! ### Factors -/

/-- A factor that is kept as it is when a number is multiplied by it. -/
structure IsFactor (factor : Nat) : Prop where
  /-- The factor is positive. -/
  pos : 0 < factor
  /-- The factor is a number of 64 bits. -/
  lt : factor < 2 ^ 64
  /-- The format holds the factor. -/
  holds : Holds (factor : ℚ)

/-- The factors of the binary suffixes are powers of two. -/
theorem exists_of_mem_binarySuffixes {suffix : String} {factor : Nat}
    (h : (suffix, factor) ∈ binarySuffixes) : ∃ k ≤ 60, factor = 2 ^ k := by
  have hall : ∀ entry ∈ binarySuffixes, ∃ k ∈ List.range 61, entry.2 = 2 ^ k := by decide
  obtain ⟨k, hk, hfactor⟩ := hall _ h
  exact ⟨k, Nat.lt_succ_iff.1 (List.mem_range.1 hk), hfactor⟩

/-- The factors of the decimal suffixes are powers of ten. -/
theorem exists_of_mem_decimalSuffixes {suffix : String} {factor : Nat}
    (h : (suffix, factor) ∈ decimalSuffixes) : ∃ k ≤ 18, factor = 10 ^ k := by
  have hall : ∀ entry ∈ decimalSuffixes, ∃ k ∈ List.range 19, entry.2 = 10 ^ k := by decide
  obtain ⟨k, hk, hfactor⟩ := hall _ h
  exact ⟨k, Nat.lt_succ_iff.1 (List.mem_range.1 hk), hfactor⟩

theorem isFactor_two_pow {k : Nat} (hk : k ≤ 60) : IsFactor (2 ^ k) := by
  refine ⟨Nat.pow_pos (by decide), Nat.pow_lt_pow_right (by decide) (by omega), ?_⟩
  exact ⟨1, k, by decide, by rw [minExponent]; omega, by simp⟩

theorem isFactor_ten_pow {k : Nat} (hk : k ≤ 18) : IsFactor (10 ^ k) := by
  refine ⟨Nat.pow_pos (by decide), ?_, 5 ^ k, k, ?_, by rw [minExponent]; omega, ?_⟩
  · exact (Nat.pow_le_pow_right (by decide) hk).trans_lt (by decide)
  · exact (Nat.pow_le_pow_right (by decide) hk).trans_lt (by decide)
  · push_cast
    rw [zpow_natCast, ← mul_pow]
    norm_num

theorem keepsPowers_of_mem_decimalSuffixes {suffix : String} {factor : Nat}
    (h : (suffix, factor) ∈ decimalSuffixes) : KeepsPowers factor := by
  have hall : ∀ entry ∈ decimalSuffixes, KeepsPowers entry.2 := by decide
  exact hall _ h

/-! ### Amounts that are read -/

section

variable {text : List Char} {n : Nat}

/-- A quotient is rounded when it is read, and again when it is multiplied by the factor. -/
theorem exists_scaled {factor : Nat} (hfactor : IsFactor factor) (hn : n < 2 ^ 53)
    (h : IsDecimal text (n / factor)) :
    ∃ x v back, float? text = some x ∧ IsNearest (n / factor) v ∧
      (x.mul (.ofNat factor)).HasValue back ∧ IsNearest (v * factor) back := by
  have hpos : (0 : ℚ) < factor := by exact_mod_cast hfactor.pos
  have hone : (1 : ℚ) ≤ factor := by exact_mod_cast hfactor.pos
  have hbound : (factor : ℚ) < 2 ^ 64 := by exact_mod_cast hfactor.lt
  have hn' : (n : ℚ) < 2 ^ 53 := by exact_mod_cast hn
  have hquotient : (n : ℚ) / factor ≤ (2 ^ 53 : ℕ) := by
    push_cast
    exact (div_le_self n.cast_nonneg hone).trans hn'.le
  have hleast : (n : ℚ) / factor = 0 ∨ 1 ≤ (n : ℚ) / factor * 10 ^ 60 := by
    rcases Nat.eq_zero_or_pos n with rfl | hnpos
    · exact .inl (by rw [Nat.cast_zero, zero_div])
    · have hone' : (1 : ℚ) ≤ n := by exact_mod_cast hnpos
      right
      rw [div_mul_eq_mul_div, le_div_iff₀ hpos]
      linarith
  have hgreatest : (n : ℚ) / factor < 10 ^ 60 := hquotient.trans_lt (by norm_num)
  obtain ⟨x, v, hread, hx, hv⟩ := exists_float h hgreatest hleast
  have hvle : v ≤ (2 ^ 53 : ℕ) := hv.le_of_holds (holds_natCast le_rfl) hquotient
  have hproduct : v * factor < 2 ^ 200 := by
    calc v * factor ≤ (2 ^ 53 : ℕ) * 2 ^ 64 := by gcongr
      _ < 2 ^ 200 := by norm_num
  have hlt : factor < 2 ^ 200 := hfactor.lt.trans (by decide)
  obtain ⟨back, hback, hnear⟩ := exists_mul hx (hasValue_ofNat hfactor.holds hlt) hproduct
  exact ⟨x, v, back, hread, hv, hback, hnear⟩

/-- Cutting to 64 bits gives the whole part. -/
theorem truncated_eq {x : Binary64} {q : ℚ} (hx : x.HasValue q) (hq : ⌊q⌋₊ ≤ n + 1)
    (hn : n < 2 ^ 53) : truncated x = ⌊q⌋₊ := by
  have hmax : maxUInt64 = 2 ^ 64 - 1 := rfl
  rw [truncated, clamp_of_hasValue hx, min_eq_right]
  omega

/-- A decimal text has no blanks. -/
theorem isBlank_of_isDecimal {q : ℚ} (h : IsDecimal text q) : ∀ c ∈ text, isBlank c = false := by
  intro c hc
  rcases h.isDigit_or_eq c hc with hdigit | rfl
  · exact isBlank_of_isDigit hdigit
  · rfl

/-- A decimal text ends with no suffix of the tables. -/
theorem notMem_of_isDecimal {q : ℚ} (h : IsDecimal text q) {pattern : List Char}
    (hpattern : ∀ c ∈ pattern, c.isDigit = false ∧ c ≠ '.') : ∀ c ∈ text, c ∉ pattern := by
  intro c hc hmem
  obtain ⟨hdigit, hpoint⟩ := hpattern c hmem
  rcases h.isDigit_or_eq c hc with h | h
  · rw [hdigit] at h
    exact Bool.false_ne_true h
  · exact hpoint h

theorem stripEnd?_milli_of_isDecimal {q : ℚ} (h : IsDecimal text q) :
    stripEnd? ['m'] text = none :=
  stripEnd?_eq_none (by decide)
    (notMem_of_isDecimal h (List.forall_mem_singleton.2 (by decide)))

/-- Cores are multiplied by 1000. -/
theorem cpuMillis?_of_isDecimal {q : ℚ} (h : IsDecimal text q) :
    cpuMillis? (String.ofList text) =
      (float? text).map fun x => truncated (x.mul (.ofNat 1000)) := by
  rw [cpuMillis?, String.toList_ofList, trimBlank_of_forall (isBlank_of_isDecimal h),
    stripEnd?_milli_of_isDecimal h]

/-- Thousandths of a core are taken as they are. -/
theorem cpuMillis?_append_milli {q : ℚ} (h : IsDecimal text q) :
    cpuMillis? (String.ofList (text ++ ['m'])) = (float? text).map truncated := by
  have hblank : ∀ c ∈ text ++ ['m'], isBlank c = false := by
    intro c hc
    rcases List.mem_append.1 hc with hc | hc
    · exact isBlank_of_isDecimal h c hc
    · rw [List.mem_singleton.1 hc]
      rfl
  rw [cpuMillis?, String.toList_ofList, trimBlank_of_forall hblank, stripEnd?_append]

/-- A plain number counts bytes. -/
theorem memoryBytes?_of_isDecimal {q : ℚ} (h : IsDecimal text q) :
    memoryBytes? (String.ofList text) = (float? text).map truncated := by
  have hsuffix : splitSuffix? text (binarySuffixes ++ decimalSuffixes) = none := by
    refine splitSuffix?_eq_none fun entry hentry => ?_
    obtain ⟨hne, hletters⟩ := suffixes_letters entry hentry
    exact ⟨hne, notMem_of_isDecimal h hletters⟩
  rw [memoryBytes?, String.toList_ofList, trimBlank_of_forall (isBlank_of_isDecimal h), hsuffix,
    stripEnd?_milli_of_isDecimal h]

/-- A number with a suffix is multiplied by the factor of the suffix. -/
theorem memoryBytes?_append_suffix {q : ℚ} (h : IsDecimal text q) {suffix : String} {factor : Nat}
    (hmem : (suffix, factor) ∈ binarySuffixes ++ decimalSuffixes) :
    memoryBytes? (String.ofList (text ++ suffix.toList)) =
      (float? text).map fun x => truncated (x.mul (.ofNat factor)) := by
  have hblank : ∀ c ∈ text ++ suffix.toList, isBlank c = false := by
    intro c hc
    rcases List.mem_append.1 hc with hc | hc
    · exact isBlank_of_isDecimal h c hc
    · exact suffixes_not_blank _ hmem c hc
  rw [memoryBytes?, String.toList_ofList, trimBlank_of_forall hblank, splitSuffix?_append hmem]

/-- A quotient comes back closely when it is multiplied by the factor. -/
theorem exists_isClose {factor : Nat} (hfactor : IsFactor factor) (hkeeps : KeepsPowers factor)
    (hn : n < 2 ^ 53) (h : IsDecimal text (n / factor)) :
    ∃ back, (float? text).map (fun x => truncated (x.mul (.ofNat factor))) = some back ∧
      IsClose factor n back := by
  obtain ⟨x, v, back, hread, hv, hback, hnear⟩ := exists_scaled hfactor hn h
  have hclose := isClose_floor hfactor.pos hfactor.lt hkeeps hn hv hnear
  rw [hread, Option.map_some, truncated_eq hback hclose.le hn]
  exact ⟨_, rfl, hclose⟩

/-- A quotient of a power of two comes back exactly. -/
theorem map_truncated_eq {k : Nat} (hk : k ≤ 60) (hn : n < 2 ^ 53)
    (h : IsDecimal text (n / (2 ^ k : ℕ))) :
    (float? text).map (fun x => truncated (x.mul (.ofNat (2 ^ k)))) = some n := by
  obtain ⟨x, v, back, hread, hv, hback, hnear⟩ := exists_scaled (isFactor_two_pow hk) hn h
  have hholds : Holds ((n : ℚ) / (2 ^ k : ℕ)) := by
    push_cast
    exact holds_div_two_pow hn (by omega)
  have heq := eq_of_holds_div (Nat.pow_pos (by decide)) hn hv hnear hholds
  have hfloor : ⌊back⌋₊ = n := by rw [heq, Nat.floor_natCast]
  rw [hread, Option.map_some, truncated_eq hback (by omega) hn, hfloor]

/-- A natural number comes back as it is. -/
theorem map_truncated_natCast (hn : n < 2 ^ 53) (h : IsDecimal text n) :
    (float? text).map truncated = some n := by
  obtain ⟨x, hread, hx⟩ := exists_float_of_natCast h hn
  have hfloor : ⌊(n : ℚ)⌋₊ = n := Nat.floor_natCast n
  rw [hread, Option.map_some, truncated_eq hx (by omega) hn, hfloor]

end

/-- **How an amount comes back from each of its spellings.** Thousandths of a core, plain bytes and
bytes in powers of 1024 come back exactly. Cores, and bytes in powers of 1000, come back closely. -/
theorem amounts_come_back {n : Nat} (hn : n < 2 ^ 53) :
    (∀ text, IsDecimal text n → cpuMillis? (String.ofList (text ++ ['m'])) = some n) ∧
    (∀ text, IsDecimal text n → memoryBytes? (String.ofList text) = some n) ∧
    (∀ suffix factor text, (suffix, factor) ∈ binarySuffixes → IsDecimal text (n / factor) →
      memoryBytes? (String.ofList (text ++ suffix.toList)) = some n) ∧
    (∀ text, IsDecimal text (n / 1000) →
      ∃ back, cpuMillis? (String.ofList text) = some back ∧ IsClose 1000 n back) ∧
    (∀ suffix factor text, (suffix, factor) ∈ decimalSuffixes → IsDecimal text (n / factor) →
      ∃ back, memoryBytes? (String.ofList (text ++ suffix.toList)) = some back ∧
        IsClose factor n back) := by
  refine ⟨fun text h => ?_, fun text h => ?_, fun suffix factor text hmem h => ?_, fun text h => ?_,
    fun suffix factor text hmem h => ?_⟩
  · rw [cpuMillis?_append_milli h, map_truncated_natCast hn h]
  · rw [memoryBytes?_of_isDecimal h, map_truncated_natCast hn h]
  · rw [memoryBytes?_append_suffix h (List.mem_append_left _ hmem)]
    obtain ⟨k, hk, rfl⟩ := exists_of_mem_binarySuffixes hmem
    exact map_truncated_eq hk hn h
  · rw [cpuMillis?_of_isDecimal h]
    exact exists_isClose (isFactor_ten_pow (k := 3) (by decide)) (by decide) hn
      (by exact_mod_cast h)
  · rw [memoryBytes?_append_suffix h (List.mem_append_right _ hmem)]
    obtain ⟨k, hk, hfactor⟩ := exists_of_mem_decimalSuffixes hmem
    exact exists_isClose (hfactor ▸ isFactor_ten_pow hk) (keepsPowers_of_mem_decimalSuffixes hmem)
      hn h

/-- The spellings of 1005. -/
theorem spellings_of_1005 : 1005 < 2 ^ 53 ∧
    cpuMillis? (String.ofList ("1005".toList ++ ['m'])) = some 1005 ∧
    memoryBytes? (String.ofList "1005".toList) = some 1005 ∧
    memoryBytes? (String.ofList ("0.9814453125".toList ++ "Ki".toList)) = some 1005 ∧
    (∃ back, cpuMillis? (String.ofList "1.005".toList) = some back ∧ IsClose 1000 1005 back) ∧
    ∃ back, memoryBytes? (String.ofList ("1.005".toList ++ "k".toList)) = some back ∧
      IsClose 1000 1005 back := by
  have hwhole : IsDecimal "1005".toList (1005 : ℕ) := isDecimal_repr 1005
  have hthousandths : IsDecimal "1.005".toList ((1005 : ℕ) / (1000 : ℕ)) := by
    have h := isDecimal_fixed (show 0 < 3 by decide) 1005
    norm_num at h ⊢
    exact h
  have hbinary : IsDecimal "0.9814453125".toList ((1005 : ℕ) / (1024 : ℕ)) := by
    have h := isDecimal_fixed (show 0 < 10 by decide) 9814453125
    norm_num at h ⊢
    exact h
  obtain ⟨hmilli, hbytes, hsuffix, hcores, hdecimal⟩ := amounts_come_back (n := 1005) (by decide)
  exact ⟨by decide, hmilli _ hwhole, hbytes _ hwhole, hsuffix _ 1024 _ (by decide) hbinary,
    hcores _ (by exact_mod_cast hthousandths), hdecimal _ 1000 _ (by decide) hthousandths⟩

/-- With a point, an amount of cores need not come back: `1.005` cores are one thousandth less than
`1005m`. -/
theorem not_forall_cpuMillis?_fixed :
    ¬ ∀ n < 2 ^ 53, cpuMillis? (String.ofList (fixed 3 n)) = some n :=
  fun h => absurd (h 1005 (by decide)) (by decide)

end Quantity

end EdgeHealth
