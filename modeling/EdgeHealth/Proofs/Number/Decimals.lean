import Mathlib.Data.List.TakeWhile
import EdgeHealth.Number.Literal
import EdgeHealth.Proofs.Number.Rounding

/-!
# Decimal texts

A decimal text is a run of digits, with a point among, before or after them or without a point. It
is read as a number nearest to its value. That is the value itself where the format holds it; so a
natural number below `2 ^ 53` is read as what it is.

## Main definitions

* `Number.IsDecimal` : a decimal text and its value.
* `Number.fixed` : the decimal text with a given number of places after the point.

## Main results

* `Number.isDecimal_repr`, `Number.isDecimal_fixed` : the value of these texts.
* `Number.exists_float` : a decimal text is read as a number nearest to its value.
* `Number.exists_float_of_natCast`, `Number.float?_repr` : a natural number below `2 ^ 53` is read
  as it is.
-/

namespace EdgeHealth

/-! ### Decimals that are rounded -/

namespace Binary64

/-- Digits with some places after the point are rounded once, unless they are too great or too
small. -/
theorem exists_ofDecimal {digits places : Nat} (hlt : (digits : ℚ) / 10 ^ places < 10 ^ 60)
    (hge : digits = 0 ∨ 1 ≤ (digits : ℚ) / 10 ^ places * 10 ^ 60) :
    ∃ v, (ofDecimal false digits (-(places : ℤ))).HasValue v ∧
      IsNearest (digits / 10 ^ places) v := by
  rcases Nat.eq_zero_or_pos digits with rfl | hpos
  · refine ⟨0, hasValue_zero, 0, by simp, ?_⟩
    rw [Nat.cast_zero, zero_div, sub_self, abs_zero]
    positivity
  have hden : (0 : ℚ) < 10 ^ places := by positivity
  have hge' : 10 ^ places ≤ digits * 10 ^ 60 := by
    have h := hge.resolve_left hpos.ne'
    rw [div_mul_eq_mul_div, le_div_iff₀ hden, one_mul] at h
    exact_mod_cast h
  have hlt' : digits < 10 ^ (places + 60) := by
    rw [div_lt_iff₀ hden, mul_comm, ← pow_add] at hlt
    exact_mod_cast hlt
  -- the count of digits is that of the places, up to sixty
  have hshort : (Nat.repr digits).length ≤ places + 60 :=
    (Nat.length_repr_le_iff (by omega)).2 hlt'
  have hlong : places ≤ (Nat.repr digits).length + 60 := by
    have hdigits : digits < 10 ^ (Nat.repr digits).length :=
      (Nat.length_repr_le_iff (Nat.length_repr_pos)).1 le_rfl
    have hpow : 10 ^ places < 10 ^ ((Nat.repr digits).length + 60) := by
      rw [pow_add]
      exact hge'.trans_lt (by gcongr)
    exact ((Nat.pow_lt_pow_iff_right (by decide)).1 hpow).le
  have hround : ofDecimal false digits (-(places : ℤ)) = round false digits (10 ^ places) := by
    rw [ofDecimal.eq_def, if_neg hpos.ne', decimalBound, if_neg (by omega), if_neg (by omega)]
    cases places with
    | zero => simp
    | succ k => rfl
  have hcast : ((10 ^ places : ℕ) : ℚ) = 10 ^ places := by push_cast; rfl
  have hsmall : (digits : ℚ) / (10 ^ places : ℕ) < 2 ^ 200 := by
    rw [hcast]
    refine hlt.trans ?_
    norm_num
  rw [hround, ← hcast]
  exact exists_round (Nat.pow_pos (by decide)) hsmall

end Binary64

namespace Number

/-! ### Texts and their values -/

theorem digitsValueFrom_eq (acc : Nat) (cs : List Char) :
    digitsValueFrom acc cs = Nat.ofDigitChars 10 cs acc := by
  induction cs generalizing acc with
  | nil => rfl
  | cons c cs ih =>
    calc digitsValueFrom acc (c :: cs) = digitsValueFrom (acc * 10 + digitValue c) cs := rfl
      _ = Nat.ofDigitChars 10 cs (acc * 10 + digitValue c) := ih _
      _ = Nat.ofDigitChars 10 (c :: cs) acc := by
        rw [Nat.ofDigitChars_cons, Nat.mul_comm acc]
        rfl

theorem digitsValue_append (cs ds : List Char) :
    digitsValue (cs ++ ds) = 10 ^ ds.length * digitsValue cs + digitsValue ds := by
  simp only [digitsValue, digitsValueFrom_eq, Nat.ofDigitChars_append]
  exact Nat.ofDigitChars_eq_ofDigitChars_zero

@[simp] theorem digitsValue_repr (n : Nat) : digitsValue (Nat.repr n).toList = n := by
  rw [digitsValue, digitsValueFrom_eq, Nat.toList_repr]
  exact Nat.ofDigitChars_toDigits (by decide) (by decide)

@[simp] theorem digitsValue_replicate_zero (n : Nat) : digitsValue (List.replicate n '0') = 0 := by
  rw [digitsValue]
  induction n with
  | zero => rfl
  | succ n ih => exact ih

theorem isDigit_of_mem_repr {n : Nat} {c : Char} (h : c ∈ (Nat.repr n).toList) : c.isDigit := by
  rw [Nat.toList_repr] at h
  exact Nat.isDigit_of_mem_toDigits (by decide) (by decide) h

theorem toList_repr_ne_nil (n : Nat) : (Nat.repr n).toList ≠ [] := by
  rw [Nat.toList_repr]
  exact Nat.toDigits_ne_nil

/-- A decimal text and its value. -/
inductive IsDecimal : List Char → ℚ → Prop
  /-- Digits without a point. -/
  | whole {digits : List Char} (isDigit : ∀ c ∈ digits, c.isDigit) (ne_nil : digits ≠ []) :
      IsDecimal digits (digitsValue digits)
  /-- Digits with a point. -/
  | pointed {before after : List Char} (isDigit : ∀ c ∈ before ++ after, c.isDigit)
      (ne_nil : before ++ after ≠ []) :
      IsDecimal (before ++ '.' :: after) (digitsValue (before ++ after) / 10 ^ after.length)

theorem isDecimal_repr (n : Nat) : IsDecimal (Nat.repr n).toList n := by
  have h := IsDecimal.whole (fun _ => isDigit_of_mem_repr) (toList_repr_ne_nil n)
  rwa [digitsValue_repr] at h

/-- A number without a sign or leading zeros, divided by a power of ten: the decimal text with
exactly `places` digits after the point. -/
def fixed (places n : Nat) : List Char :=
  let after := (Nat.repr (n % 10 ^ places)).toList
  (Nat.repr (n / 10 ^ places)).toList ++ '.' ::
    (List.replicate (places - after.length) '0' ++ after)

theorem isDecimal_fixed {places : Nat} (hplaces : 0 < places) (n : Nat) :
    IsDecimal (fixed places n) (n / 10 ^ places) := by
  rw [fixed]
  generalize hafter : (Nat.repr (n % 10 ^ places)).toList = after
  have hlength : after.length ≤ places := by
    rw [← hafter, String.length_toList]
    exact (Nat.length_repr_le_iff hplaces).2 (Nat.mod_lt n (by positivity))
  have hpadded : (List.replicate (places - after.length) '0' ++ after).length = places := by
    rw [List.length_append, List.length_replicate]
    omega
  have hvalue : digitsValue ((Nat.repr (n / 10 ^ places)).toList ++
      (List.replicate (places - after.length) '0' ++ after)) = n := by
    rw [digitsValue_append, hpadded, digitsValue_repr, digitsValue_append,
      digitsValue_replicate_zero, ← hafter, digitsValue_repr, mul_zero, zero_add]
    exact Nat.div_add_mod n (10 ^ places)
  have hdigits : ∀ c ∈ (Nat.repr (n / 10 ^ places)).toList ++
      (List.replicate (places - after.length) '0' ++ after), c.isDigit := by
    intro c hc
    rcases List.mem_append.1 hc with hc | hc
    · exact isDigit_of_mem_repr hc
    · rcases List.mem_append.1 hc with hc | hc
      · rw [List.eq_of_mem_replicate hc]
        rfl
      · exact isDigit_of_mem_repr (hafter ▸ hc)
  have h := IsDecimal.pointed hdigits
    (List.append_ne_nil_of_left_ne_nil (toList_repr_ne_nil _) _)
  rwa [hvalue, hpadded] at h

/-! ### Texts that are read -/

/-- A decimal text holds digits and the point. -/
theorem IsDecimal.isDigit_or_eq {cs : List Char} {q : ℚ} (h : IsDecimal cs q) :
    ∀ c ∈ cs, c.isDigit ∨ c = '.' := by
  intro c hc
  cases h with
  | whole hdigits hne => exact .inl (hdigits c hc)
  | pointed hdigits hne =>
    rcases List.mem_append.1 hc with hc | hc
    · exact .inl (hdigits c (List.mem_append_left _ hc))
    · rcases List.mem_cons.1 hc with rfl | hc
      · exact .inr rfl
      · exact .inl (hdigits c (List.mem_append_right _ hc))

/-- A decimal text has no sign. -/
theorem signOf_eq_of_isDecimal {cs : List Char} {q : ℚ} (h : IsDecimal cs q) :
    signOf cs = (false, cs) := by
  have hchars := h.isDigit_or_eq
  rw [signOf.eq_def]
  split
  · exact absurd (hchars _ List.mem_cons_self) (by decide)
  · exact absurd (hchars _ List.mem_cons_self) (by decide)
  · rfl

/-- What is read as a run of digits. -/
theorem digits?_eq_some_iff {cs : List Char} {n : Nat} :
    digits? cs = some n ↔ (∀ c ∈ cs, c.isDigit) ∧ cs ≠ [] ∧ digitsValue cs = n := by
  rw [digits?]
  split_ifs with hnil hall
  · simp [List.isEmpty_iff.1 hnil]
  · have hne : cs ≠ [] := fun h => hnil (List.isEmpty_iff.2 h)
    exact ⟨fun h => ⟨List.all_eq_true.1 hall, hne, Option.some.inj h⟩,
      fun h => congrArg some h.2.2⟩
  · exact ⟨fun h => (by cases h), fun h => absurd (List.all_eq_true.2 h.1) hall⟩

section

variable {digits rest : List Char}

/-- Digits in front of something else are found. -/
theorem span_isDigit (hdigits : ∀ c ∈ digits, c.isDigit)
    (hrest : ∀ c ∈ rest.head?, c.isDigit = false) :
    (digits ++ rest).takeWhile Char.isDigit = digits ∧
      (digits ++ rest).dropWhile Char.isDigit = rest := by
  rw [List.takeWhile_append_of_pos hdigits, List.dropWhile_append_of_pos hdigits]
  cases rest with
  | nil => exact ⟨List.append_nil _, rfl⟩
  | cons c rest =>
    have hc : ¬ c.isDigit = true := by simp [hrest c rfl]
    rw [List.takeWhile_cons_of_neg hc, List.dropWhile_cons_of_neg hc]
    exact ⟨List.append_nil _, rfl⟩

/-- How a text is read that has digits and no point behind them. -/
theorem unsigned?_append (negative : Bool) (hdigits : ∀ c ∈ digits, c.isDigit)
    (hrest : ∀ c ∈ rest.head?, c.isDigit = false ∧ c ≠ '.') :
    unsigned? negative (digits ++ rest) =
      if digits = [] then none
      else (exponent? rest).map fun e => ⟨negative, digitsValue digits, e - (0 : ℕ)⟩ := by
  obtain ⟨htake, hdrop⟩ := span_isDigit hdigits fun c hc => (hrest c hc).1
  rw [unsigned?.eq_def]
  extract_lets whole behind parts
  have hparts : parts = ([], rest) := by
    simp only [parts, behind, hdrop]
    split
    · exact absurd rfl (hrest '.' rfl).2
    · rfl
  simp only [whole, htake, hparts, List.append_nil, List.isEmpty_nil, List.length_nil,
    Bool.and_true, List.isEmpty_iff]

/-- How a text is read that has digits and a point behind them. -/
theorem unsigned?_append_point {after : List Char} (negative : Bool)
    (hdigits : ∀ c ∈ digits ++ after, c.isDigit) (hrest : ∀ c ∈ rest.head?, c.isDigit = false) :
    unsigned? negative (digits ++ '.' :: (after ++ rest)) =
      if digits ++ after = [] then none
      else (exponent? rest).map fun e =>
        ⟨negative, digitsValue (digits ++ after), e - after.length⟩ := by
  have hpoint : ∀ c ∈ ('.' :: (after ++ rest)).head?, c.isDigit = false := by
    rintro c ⟨⟩
    rfl
  obtain ⟨htake, hdrop⟩ := span_isDigit (fun c hc => hdigits c (List.mem_append_left _ hc)) hpoint
  obtain ⟨htake', hdrop'⟩ := span_isDigit (fun c hc => hdigits c (List.mem_append_right _ hc)) hrest
  rw [unsigned?.eq_def, htake, hdrop]
  simp only [htake', hdrop', Bool.and_eq_true, List.isEmpty_iff, List.append_eq_nil_iff]

end

/-- Digits without a point are read as what they are. -/
theorem decimal?_digits {cs : List Char} (hdigits : ∀ c ∈ cs, c.isDigit) (hne : cs ≠ []) :
    decimal? cs = some ⟨false, digitsValue cs, 0⟩ := by
  have hend : ∀ c ∈ ([] : List Char).head?, c.isDigit = false ∧ c ≠ '.' :=
    fun c hc => absurd hc (Option.not_mem_none c)
  have hread := unsigned?_append false hdigits hend
  rw [List.append_nil, if_neg hne] at hread
  rw [decimal?, signOf_eq_of_isDecimal (.whole hdigits hne), hread]
  rfl

/-- A decimal text is read as its digits and the count of its places. -/
theorem exists_decimal_eq {cs : List Char} {q : ℚ} (h : IsDecimal cs q) :
    ∃ digits places : Nat, decimal? cs = some ⟨false, digits, -(places : ℤ)⟩ ∧
      (digits : ℚ) / 10 ^ places = q := by
  have hsign := signOf_eq_of_isDecimal h
  cases h with
  | whole hdigits hne => exact ⟨digitsValue cs, 0, decimal?_digits hdigits hne, by simp⟩
  | @pointed before after hdigits hne =>
    refine ⟨digitsValue (before ++ after), after.length, ?_, rfl⟩
    have hend : ∀ c ∈ ([] : List Char).head?, c.isDigit = false :=
      fun c hc => absurd hc (Option.not_mem_none c)
    have hread := unsigned?_append_point false hdigits hend
    rw [List.append_nil, if_neg hne] at hread
    rw [decimal?, hsign, hread, exponent?, Option.map_some, zero_sub]

/-- **A decimal text is read as a number nearest to its value.** -/
theorem exists_float {cs : List Char} {q : ℚ} (h : IsDecimal cs q) (hlt : q < 10 ^ 60)
    (hge : q = 0 ∨ 1 ≤ q * 10 ^ 60) :
    ∃ x v, float? cs = some x ∧ x.HasValue v ∧ Binary64.IsNearest q v := by
  obtain ⟨digits, places, hread, rfl⟩ := exists_decimal_eq h
  have hzero : digits = 0 ∨ 1 ≤ (digits : ℚ) / 10 ^ places * 10 ^ 60 := by
    refine hge.imp_left fun h => ?_
    have hpow : (10 : ℚ) ^ places ≠ 0 := by positivity
    exact_mod_cast (div_eq_zero_iff.1 h).resolve_right hpow
  obtain ⟨v, hv, hnear⟩ := Binary64.exists_ofDecimal hlt hzero
  exact ⟨_, v, by rw [float?, hread]; rfl, hv, hnear⟩

/-- A natural number below the bound of the significand is read as what it is. -/
theorem exists_float_of_natCast {cs : List Char} {n : Nat} (h : IsDecimal cs n)
    (hn : n < 2 ^ 53) : ∃ x, float? cs = some x ∧ x.HasValue n := by
  have hlt : (n : ℚ) < 10 ^ 60 := by
    have hn' : (n : ℚ) < 2 ^ 53 := by exact_mod_cast hn
    exact hn'.trans (by norm_num)
  have hge : (n : ℚ) = 0 ∨ 1 ≤ (n : ℚ) * 10 ^ 60 := by
    rcases Nat.eq_zero_or_pos n with rfl | hpos
    · exact .inl Nat.cast_zero
    · right
      exact_mod_cast Nat.mul_pos hpos (by decide)
  obtain ⟨x, v, hx, hv, hnear⟩ := exists_float h hlt hge
  rw [hnear.eq_of_holds (Binary64.holds_natCast hn.le)] at hv
  exact ⟨x, hx, hv⟩

/-- A natural number is read as the number of the format that is made of it. -/
theorem float?_repr {n : Nat} (hn : n < 2 ^ 53) : float? (Nat.repr n).toList = some (.ofNat n) := by
  have hlength : (Nat.repr n).length ≤ 16 := by
    refine (Nat.length_repr_le_iff (by decide)).2 (hn.trans (by decide))
  rw [float?, decimal?_digits (fun _ => isDigit_of_mem_repr) (toList_repr_ne_nil n),
    digitsValue_repr]
  simp only [Decimal.toBinary64, Option.some.injEq]
  rcases Nat.eq_zero_or_pos n with rfl | hpos
  · rw [Binary64.ofDecimal.eq_def, if_pos rfl]
    rfl
  · rw [Binary64.ofDecimal.eq_def, if_neg hpos.ne', Binary64.decimalBound, if_neg (by omega),
      if_neg (by omega)]
    exact congrArg (Binary64.round false · 1) (Nat.mul_one n)

end Number

end EdgeHealth
