import EdgeHealth.Proofs.Number.Decimals

/-!
# Numbers as they are written

What is read as a floating-point number: a decimal number with an optional sign, an optional
fraction and an optional exponent, or one of the words for a number that is not finite, with an
optional sign and in any case. Nothing else is read.

A decimal number below zero is read as a number with a minus sign, and its whole part, kept between
zero and a bound, is zero.

## Main definitions

* `Binary64.hasMinus`, `Binary64.KeepsSign` : numbers with a minus sign, and operations that keep
  signs.
* `Number.IsNumeral` : a decimal number and its value.
* `Number.IsNonFinite` : a word for a number that is not finite, and that number.
* `Number.IsFloat` : a floating-point number as it is written.
* `Number.HasNumberEnd` : a text that ends as a number does.

## Main results

* `Number.isNumeral_iff` : what is read as a decimal number.
* `Number.exists_float_of_isNumeral`, `Number.float?_of_isNonFinite` : what the numbers are read as.
* `Number.isSome_float?_iff` : what is read as a floating-point number.
-/

namespace EdgeHealth

/-! ### Numbers with a minus sign -/

namespace Binary64

/-- Whether a number has a minus sign; the undefined number has none. -/
def hasMinus : Binary64 → Bool
  | .nan => false
  | .infinite negative => negative
  | .finite negative _ _ => negative

/-- The whole part of a number with a minus sign is cut to zero. -/
theorem clamp_of_hasMinus {x : Binary64} (h : x.hasMinus) (bound : Nat) : x.clamp bound = 0 := by
  cases x with
  | nan => cases h
  | infinite negative => exact if_pos h
  | finite negative m e => exact if_pos h

/-- Rounding keeps a minus sign. -/
theorem hasMinus_round (num den : Nat) : (round true num den).hasMinus := by
  rw [round]
  split
  · rfl
  · simp only [ofSignificand]
    split_ifs <;> rfl

theorem hasMinus_ofDecimal (digits : Nat) (exponent : ℤ) :
    (ofDecimal true digits exponent).hasMinus := by
  rw [ofDecimal.eq_def]
  dsimp only
  split_ifs
  · rfl
  · rfl
  · rfl
  · cases exponent <;> exact hasMinus_round _ _

/-- An operation that keeps signs, infinity and the undefined number. -/
structure KeepsSign (scale : Binary64 → Binary64) : Prop where
  /-- The undefined number is kept. -/
  nan : scale .nan = .nan
  /-- Infinity of either sign is kept. -/
  infinite (negative : Bool) : scale (.infinite negative) = .infinite negative
  /-- The minus sign of a finite number is kept. -/
  finite (m : Nat) (e : ℤ) : (scale (.finite true m e)).hasMinus

/-- A minus sign is kept. -/
theorem KeepsSign.hasMinus {scale : Binary64 → Binary64} (h : KeepsSign scale) {x : Binary64}
    (hx : x.hasMinus) : (scale x).hasMinus := by
  cases x with
  | nan => cases hx
  | infinite negative =>
    rw [h.infinite]
    exact hx
  | finite negative m e =>
    obtain rfl : negative = true := hx
    exact h.finite m e

theorem keepsSign_id : KeepsSign id := ⟨rfl, fun _ => rfl, fun _ _ => rfl⟩

/-- A positive finite number keeps signs as a factor and as a divisor. -/
theorem HasValue.keepsSign {y : Binary64} {q : ℚ} (hy : y.HasValue q) (hq : 0 < q) :
    KeepsSign (·.mul y) ∧ KeepsSign (·.div y) := by
  obtain ⟨n, e, rfl, rfl⟩ := hy
  have hn : n ≠ 0 := by
    rintro rfl
    simp at hq
  constructor
  · exact ⟨rfl, by simp [mul, hn], fun m p => hasMinus_round _ _⟩
  · refine ⟨rfl, by simp [div], fun m p => ?_⟩
    simp only [div, if_neg hn]
    exact hasMinus_round _ _

end Binary64

namespace Number

/-! ### Decimal numbers -/

/-- A sign in front of a number: none, plus or minus. -/
inductive IsSign : List Char → (negative : Bool) → Prop
  /-- No sign. -/
  | none : IsSign [] false
  /-- A plus sign. -/
  | plus : IsSign ['+'] false
  /-- A minus sign. -/
  | minus : IsSign ['-'] true

/-- An exponent behind a number and its value: nothing, or the letter `e` of either case with an
optional sign and digits. -/
inductive IsExponent : List Char → ℤ → Prop
  /-- No exponent. -/
  | none : IsExponent [] 0
  /-- An exponent after its letter. -/
  | marked {c : Char} {sign digits : List Char} {negative : Bool} (mark : c = 'e' ∨ c = 'E')
      (isSign : IsSign sign negative) (isDigit : ∀ c ∈ digits, c.isDigit) (ne_nil : digits ≠ []) :
      IsExponent (c :: (sign ++ digits))
        (if negative then -(digitsValue digits : ℤ) else digitsValue digits)

/-- A decimal number and its value: digits with an optional point, an optional sign in front of them
and an optional exponent behind. -/
inductive IsNumeral : List Char → ℚ → Prop
  /-- The three parts of a number. -/
  | mk {sign mantissa exponent : List Char} {negative : Bool} {q : ℚ} {e : ℤ}
      (isSign : IsSign sign negative) (isDecimal : IsDecimal mantissa q)
      (isExponent : IsExponent exponent e) :
      IsNumeral (sign ++ (mantissa ++ exponent)) ((if negative then -q else q) * 10 ^ e)

/-- The value of a decimal number that was read. -/
def Decimal.value (d : Decimal) : ℚ :=
  (if d.negative then -(d.digits : ℚ) else d.digits) * 10 ^ d.exponent

/-! ### Signs and digits -/

section

variable {cs sign rest : List Char} {negative : Bool}

/-- A sign is read in front of something that starts with none. -/
theorem signOf_append (h : IsSign sign negative) (hrest : ∀ c ∈ rest.head?, c ≠ '+' ∧ c ≠ '-') :
    signOf (sign ++ rest) = (negative, rest) := by
  cases h with
  | plus => rfl
  | minus => rfl
  | none =>
    rw [List.nil_append, signOf.eq_def]
    split
    · exact absurd rfl (hrest '-' rfl).2
    · exact absurd rfl (hrest '+' rfl).1
    · rfl

/-- What is read as a sign is one. -/
theorem exists_eq_append_signOf (cs : List Char) :
    ∃ sign, IsSign sign (signOf cs).1 ∧ cs = sign ++ (signOf cs).2 := by
  rw [signOf.eq_def]
  split
  · exact ⟨['-'], .minus, rfl⟩
  · exact ⟨['+'], .plus, rfl⟩
  · exact ⟨[], .none, rfl⟩

theorem ne_sign_of_isDigit {c : Char} (hc : c.isDigit) : c ≠ '+' ∧ c ≠ '-' := by
  constructor <;> rintro rfl <;> exact absurd hc (by decide)

theorem ne_sign_of_mem_head? (hdigits : ∀ c ∈ cs, c.isDigit) :
    ∀ c ∈ cs.head?, c ≠ '+' ∧ c ≠ '-' :=
  fun c hc => ne_sign_of_isDigit (hdigits c (List.mem_of_mem_head? hc))

end

/-! ### Exponents -/

theorem exponent?_eq_some_iff {cs : List Char} {e : ℤ} :
    exponent? cs = some e ↔ IsExponent cs e := by
  constructor
  · intro h
    cases cs with
    | nil =>
      obtain rfl := Option.some.inj h
      exact .none
    | cons c rest =>
      rw [exponent?] at h
      split_ifs at h with hc
      obtain ⟨i, hi, rfl⟩ := Option.map_eq_some_iff.1 h
      obtain ⟨n, hn, hcast⟩ := Option.bind_eq_some_iff.1 hi
      obtain rfl := Option.some.inj hcast
      obtain ⟨hdigits, hne, rfl⟩ := digits?_eq_some_iff.1 hn
      obtain ⟨sign, hsign, hrest⟩ := exists_eq_append_signOf rest
      have hmark : c = 'e' ∨ c = 'E' := by simpa using hc
      have hexponent := IsExponent.marked hmark hsign hdigits hne
      rwa [← hrest] at hexponent
  · intro h
    cases h with
    | none => rfl
    | @marked c sign digits negative hmark hsign hdigits hne =>
      have hc : (c = 'e' || c = 'E') = true := by simpa using hmark
      have hread := digits?_eq_some_iff.2 ⟨hdigits, hne, rfl⟩
      rw [exponent?, if_pos hc]
      simp only [signOf_append hsign (ne_sign_of_mem_head? hdigits), hread]
      rfl

/-- An exponent starts with no digit and no point. -/
theorem IsExponent.head_ne {cs : List Char} {e : ℤ} (h : IsExponent cs e) :
    ∀ c ∈ cs.head?, c.isDigit = false ∧ c ≠ '.' := by
  cases h with
  | none => exact fun c hc => by cases hc
  | marked hmark hsign hdigits hne =>
    rintro c ⟨⟩
    rcases hmark with rfl | rfl <;> exact ⟨rfl, by decide⟩

/-! ### What is read as a decimal number -/

section

variable {cs : List Char} {q : ℚ} {negative : Bool}

/-- Every text is digits in front of something else. -/
theorem exists_digits_append (cs : List Char) :
    ∃ digits rest, cs = digits ++ rest ∧ (∀ c ∈ digits, c.isDigit) ∧
      ∀ c ∈ rest.head?, c.isDigit = false := by
  refine ⟨cs.takeWhile Char.isDigit, cs.dropWhile Char.isDigit,
    List.takeWhile_append_dropWhile.symm, fun c hc => List.mem_takeWhile_imp hc, fun c hc => ?_⟩
  have hhead := List.head?_dropWhile_not Char.isDigit cs
  rw [Option.mem_def.1 hc] at hhead
  simpa using hhead

/-- The value of digits with places behind the point and an exponent. -/
theorem value_eq {digits places : Nat} {e : ℤ} :
    Decimal.value ⟨negative, digits, e - places⟩ =
      (if negative then -((digits : ℚ) / 10 ^ places) else (digits : ℚ) / 10 ^ places) *
        10 ^ e := by
  have hten : (10 : ℚ) ≠ 0 := by norm_num
  rw [Decimal.value, zpow_sub₀ hten, zpow_natCast]
  cases negative <;> simp <;> ring

/-- A decimal text with an exponent behind is read as their value. -/
theorem exists_unsigned? {exponent : List Char} {e : ℤ} (h : IsDecimal cs q)
    (he : IsExponent exponent e) (negative : Bool) :
    ∃ d, unsigned? negative (cs ++ exponent) = some d ∧
      d.value = (if negative then -q else q) * 10 ^ e := by
  have hread := exponent?_eq_some_iff.2 he
  cases h with
  | whole hdigits hne =>
    rw [unsigned?_append _ hdigits he.head_ne, if_neg hne, hread]
    exact ⟨_, rfl, by rw [value_eq, pow_zero, div_one]⟩
  | @pointed before after hdigits hne =>
    rw [List.append_assoc, List.cons_append,
      unsigned?_append_point _ hdigits fun c hc => (he.head_ne c hc).1, if_neg hne, hread]
    exact ⟨_, rfl, value_eq⟩

/-- What is read without a sign is a decimal text with an exponent behind. -/
theorem exists_of_unsigned? {d : Decimal} (h : unsigned? negative cs = some d) :
    ∃ mantissa exponent q e, IsDecimal mantissa q ∧ IsExponent exponent e ∧
      cs = mantissa ++ exponent ∧ d.value = (if negative then -q else q) * 10 ^ e := by
  obtain ⟨digits, rest, rfl, hdigits, hrest⟩ := exists_digits_append cs
  -- only a point behind the first digits lets more of them follow
  by_cases hpoint : ∃ behind, rest = '.' :: behind
  · obtain ⟨behind, rfl⟩ := hpoint
    obtain ⟨after, exponent, rfl, hafter, hexponent⟩ := exists_digits_append behind
    have hall : ∀ c ∈ digits ++ after, c.isDigit := List.forall_mem_append.2 ⟨hdigits, hafter⟩
    rw [unsigned?_append_point _ hall hexponent] at h
    split_ifs at h with hne
    obtain ⟨e, he, rfl⟩ := Option.map_eq_some_iff.1 h
    exact ⟨digits ++ '.' :: after, exponent, _, e, .pointed hall hne,
      exponent?_eq_some_iff.1 he, by rw [List.append_assoc, List.cons_append], value_eq⟩
  · have hnone : ∀ c ∈ rest.head?, c.isDigit = false ∧ c ≠ '.' := by
      refine fun c hc => ⟨hrest c hc, ?_⟩
      rintro rfl
      exact hpoint ⟨rest.tail, List.eq_cons_of_mem_head? hc⟩
    rw [unsigned?_append _ hdigits hnone] at h
    split_ifs at h with hne
    obtain ⟨e, he, rfl⟩ := Option.map_eq_some_iff.1 h
    exact ⟨digits, rest, _, e, .whole hdigits hne, exponent?_eq_some_iff.1 he, rfl,
      by rw [value_eq, pow_zero, div_one]⟩

/-- A decimal text has a first character. -/
theorem IsDecimal.ne_nil (h : IsDecimal cs q) : cs ≠ [] := by
  cases h with
  | whole _ hne => exact hne
  | pointed => simp

/-- **What is read as a decimal number is one, and as its value.** -/
theorem isNumeral_iff : IsNumeral cs q ↔ ∃ d, decimal? cs = some d ∧ d.value = q := by
  constructor
  · rintro ⟨hsign, hdecimal, hexponent⟩
    next sign mantissa exponent negative q e =>
    obtain ⟨d, hd, hvalue⟩ := exists_unsigned? hdecimal hexponent negative
    have hhead : ∀ c ∈ (mantissa ++ exponent).head?, c ≠ '+' ∧ c ≠ '-' := by
      intro c hc
      rw [List.head?_append_of_ne_nil _ hdecimal.ne_nil] at hc
      rcases hdecimal.isDigit_or_eq c (List.mem_of_mem_head? hc) with hdigit | rfl
      · exact ne_sign_of_isDigit hdigit
      · decide
    exact ⟨d, by rw [decimal?, signOf_append hsign hhead]; exact hd, hvalue⟩
  · rintro ⟨d, hd, rfl⟩
    obtain ⟨sign, hsign, hcs⟩ := exists_eq_append_signOf cs
    obtain ⟨mantissa, exponent, q, e, hdecimal, hexponent, hbody, hvalue⟩ :=
      exists_of_unsigned? hd
    rw [hcs, hbody, hvalue]
    exact .mk hsign hdecimal hexponent

/-- A decimal number has one value. -/
theorem IsNumeral.unique {r : ℚ} (hq : IsNumeral cs q) (hr : IsNumeral cs r) : q = r := by
  obtain ⟨d, hd, rfl⟩ := isNumeral_iff.1 hq
  obtain ⟨d', hd', rfl⟩ := isNumeral_iff.1 hr
  rw [Option.some.inj (hd.symm.trans hd')]

/-- A decimal number below zero has a minus sign. -/
theorem Decimal.negative_of_value_neg {d : Decimal} (h : d.value < 0) : d.negative := by
  by_contra hsign
  rw [Decimal.value, if_neg hsign] at h
  exact h.not_ge (by positivity)

end

/-! ### Numbers that are not finite -/

/-- The words for numbers that are not finite, and what they say with a sign in front. -/
def nonFiniteWords : List (String × (Bool → Binary64)) :=
  [("inf", .infinite), ("infinity", .infinite), ("nan", fun _ => .nan)]

/-- A word for a number that is not finite, in any case and with an optional sign, and that
number. -/
inductive IsNonFinite : List Char → Binary64 → Prop
  /-- A sign and a word. -/
  | mk {sign word : List Char} {negative : Bool} {entry : String × (Bool → Binary64)}
      (isSign : IsSign sign negative) (mem : entry ∈ nonFiniteWords)
      (map_eq : word.map Char.toLower = entry.1.toList) :
      IsNonFinite (sign ++ word) (entry.2 negative)

section

variable {cs sign word : List Char} {negative : Bool} {x : Binary64} {q : ℚ}

/-- A character that is a letter in lower case is one. -/
theorem isAlpha_of_isAlpha_toLower {c : Char} (h : c.toLower.isAlpha) : c.isAlpha := by
  by_cases hupper : c.isUpper
  · exact Bool.or_eq_true_iff.2 (.inl hupper)
  · have hsame : c.toLower = c := dif_neg fun hrange => hupper (decide_eq_true hrange)
    rwa [hsame] at h

/-- Letters are no digits. -/
theorem isDigit_of_isAlpha {c : Char} (h : c.isAlpha) : c.isDigit = false := by
  rw [Bool.eq_false_iff]
  intro hdigit
  have hle : c.val ≤ '9'.val := of_decide_eq_true (Bool.and_eq_true_iff.1 hdigit).2
  rcases Bool.or_eq_true_iff.1 h with hupper | hlower
  · have hge : 'A'.val ≤ c.val := (of_decide_eq_true hupper).1
    exact absurd (UInt32.le_trans hge hle) (by decide)
  · have hge : 'a'.val ≤ c.val := of_decide_eq_true (Bool.and_eq_true_iff.1 hlower).1
    exact absurd (UInt32.le_trans hge hle) (by decide)

/-- Letters are no digits, no points and no signs. -/
theorem ne_of_isAlpha {c : Char} (h : c.isAlpha) :
    (c.isDigit = false ∧ c ≠ '.') ∧ c ≠ '+' ∧ c ≠ '-' := by
  refine ⟨⟨isDigit_of_isAlpha h, ?_⟩, ?_, ?_⟩
  all_goals
    rintro rfl
    exact absurd h (by decide)

/-- The words hold letters. -/
theorem isAlpha_of_mem_nonFiniteWords {entry : String × (Bool → Binary64)}
    (hmem : entry ∈ nonFiniteWords) (h : word.map Char.toLower = entry.1.toList) :
    ∀ c ∈ word, c.isAlpha := by
  have hlower : ∀ entry ∈ nonFiniteWords, entry.1.toList.all Char.isAlpha := by
    simp only [nonFiniteWords, List.forall_mem_cons]
    decide
  exact fun c hc => isAlpha_of_isAlpha_toLower
    (List.all_eq_true.1 (hlower entry hmem) _ (h ▸ List.mem_map_of_mem hc))

/-- What is read as a word. -/
theorem special?_eq_some_iff :
    special? negative word = some x ↔
      ∃ entry ∈ nonFiniteWords, word.map Char.toLower = entry.1.toList ∧ entry.2 negative = x := by
  have hword : ∀ lower : String,
      String.ofList (word.map Char.toLower) = lower ↔ word.map Char.toLower = lower.toList :=
    fun lower => by rw [← String.toList_inj, String.toList_ofList]
  simp only [special?, hword, nonFiniteWords, List.exists_mem_cons_iff, Bool.or_eq_true,
    decide_eq_true_eq, List.not_mem_nil, false_and, exists_false, or_false]
  split_ifs with hinfinite hnan
  · rcases hinfinite with h | h <;> simp [h]
  · simp [hnan]
  · simp_all

/-- Letters with a sign are read as a word only. -/
theorem read_append_of_isAlpha (hsign : IsSign sign negative) (hword : ∀ c ∈ word, c.isAlpha) :
    decimal? (sign ++ word) = none ∧ float? (sign ++ word) = special? negative word := by
  have hhead : ∀ c ∈ word.head?, (c.isDigit = false ∧ c ≠ '.') ∧ c ≠ '+' ∧ c ≠ '-' :=
    fun c hc => ne_of_isAlpha (hword c (List.mem_of_mem_head? hc))
  have hsigned := signOf_append hsign fun c hc => (hhead c hc).2
  have hnone : decimal? (sign ++ word) = none := by
    rw [decimal?, hsigned]
    have hnil : ∀ c ∈ ([] : List Char), c.isDigit := fun c hc => absurd hc List.not_mem_nil
    exact unsigned?_append negative hnil fun c hc => (hhead c hc).1
  exact ⟨hnone, by rw [float?, hnone, hsigned]⟩

/-- A word for a number that is not finite is no decimal number. -/
theorem IsNonFinite.not_isNumeral (h : IsNonFinite cs x) : ¬ IsNumeral cs q := by
  obtain ⟨hsign, hmem, hword⟩ := h
  intro hnumeral
  obtain ⟨d, hd, -⟩ := isNumeral_iff.1 hnumeral
  rw [(read_append_of_isAlpha hsign (isAlpha_of_mem_nonFiniteWords hmem hword)).1] at hd
  cases hd

/-- A number that is not finite is kept with its sign. -/
theorem IsNonFinite.apply_eq (h : IsNonFinite cs x) {scale : Binary64 → Binary64}
    (hscale : Binary64.KeepsSign scale) : scale x = x := by
  obtain ⟨hsign, hmem, hword⟩ := h
  have hwords : ∀ entry ∈ nonFiniteWords, ∀ negative,
      scale (entry.2 negative) = entry.2 negative := by
    simp only [nonFiniteWords, List.forall_mem_cons]
    exact ⟨hscale.infinite, hscale.infinite, fun _ => hscale.nan,
      fun entry hentry => absurd hentry List.not_mem_nil⟩
  exact hwords _ hmem _

/-! ### What is read as a floating-point number -/

/-- A word for a number that is not finite is read as that number. -/
theorem float?_of_isNonFinite (h : IsNonFinite cs x) : float? cs = some x := by
  obtain ⟨hsign, hmem, hword⟩ := h
  rw [(read_append_of_isAlpha hsign (isAlpha_of_mem_nonFiniteWords hmem hword)).2]
  exact special?_eq_some_iff.2 ⟨_, hmem, hword, rfl⟩

/-- A decimal number is read as a floating-point number, with a minus sign if it is below zero. -/
theorem exists_float_of_isNumeral (h : IsNumeral cs q) :
    ∃ x, float? cs = some x ∧ (q < 0 → x.hasMinus) := by
  obtain ⟨d, hd, rfl⟩ := isNumeral_iff.1 h
  refine ⟨d.toBinary64, by rw [float?, hd], fun hneg => ?_⟩
  rw [Decimal.toBinary64, Decimal.negative_of_value_neg hneg]
  exact Binary64.hasMinus_ofDecimal _ _

/-- A floating-point number as it is written. -/
def IsFloat (cs : List Char) : Prop := (∃ q, IsNumeral cs q) ∨ ∃ x, IsNonFinite cs x

/-- **What is read as a floating-point number.** -/
theorem isSome_float?_iff : (float? cs).isSome ↔ IsFloat cs := by
  constructor
  · intro h
    obtain ⟨x, hx⟩ := Option.isSome_iff_exists.1 h
    cases hd : decimal? cs with
    | some d => exact .inl ⟨d.value, isNumeral_iff.2 ⟨d, hd, rfl⟩⟩
    | none =>
      rw [float?, hd] at hx
      obtain ⟨entry, hmem, hword, rfl⟩ := special?_eq_some_iff.1 hx
      obtain ⟨sign, hsign, hcs⟩ := exists_eq_append_signOf cs
      rw [hcs]
      exact .inr ⟨_, .mk hsign hmem hword⟩
  · rintro (⟨q, hq⟩ | ⟨x, hx⟩)
    · obtain ⟨x, hx, -⟩ := exists_float_of_isNumeral hq
      rw [hx, Option.isSome_some]
    · rw [float?_of_isNonFinite hx, Option.isSome_some]

end

/-! ### Where a number ends -/

/-- The characters a number can end with: a digit, a point, or the last letter of a word for a
number that is not finite. -/
def isNumberEnd (c : Char) : Bool := c.isDigit || ".fyn".toList.contains c.toLower

/-- A text that ends as a number does. -/
def HasNumberEnd (cs : List Char) : Prop := ∃ c ∈ cs.getLast?, isNumberEnd c

section

variable {cs ds : List Char} {x : Binary64} {q : ℚ}

theorem HasNumberEnd.append (h : HasNumberEnd ds) (cs : List Char) : HasNumberEnd (cs ++ ds) := by
  obtain ⟨c, hc, hends⟩ := h
  exact ⟨c, List.mem_getLast?_append_of_mem_getLast? hc, hends⟩

theorem hasNumberEnd_of_forall (hne : cs ≠ []) (h : ∀ c ∈ cs, isNumberEnd c) : HasNumberEnd cs :=
  ⟨_, List.getLast?_eq_some_getLast hne, h _ (List.getLast_mem hne)⟩

theorem IsDecimal.hasNumberEnd (h : IsDecimal cs q) : HasNumberEnd cs := by
  refine hasNumberEnd_of_forall h.ne_nil fun c hc => ?_
  rcases h.isDigit_or_eq c hc with hdigit | rfl
  · rw [isNumberEnd, hdigit, Bool.true_or]
  · rfl

theorem IsNumeral.hasNumberEnd (h : IsNumeral cs q) : HasNumberEnd cs := by
  obtain ⟨hsign, hdecimal, hexponent⟩ := h
  refine HasNumberEnd.append ?_ _
  cases hexponent with
  | none => rw [List.append_nil]; exact hdecimal.hasNumberEnd
  | @marked c sign digits _ hmark hsign hdigits hne =>
    have hdigits : HasNumberEnd digits := hasNumberEnd_of_forall hne fun c hc => by
      rw [isNumberEnd, hdigits c hc, Bool.true_or]
    exact ((hdigits.append sign).append [c]).append _

theorem IsNonFinite.hasNumberEnd (h : IsNonFinite cs x) : HasNumberEnd cs := by
  obtain ⟨hsign, hmem, hword⟩ := h
  refine HasNumberEnd.append ?_ _
  have hlast : ∀ entry ∈ nonFiniteWords, entry.1.toList.getLast?.any ".fyn".toList.contains := by
    simp only [nonFiniteWords, List.forall_mem_cons]
    decide
  obtain ⟨lower, hlower, hcontains⟩ := (Option.any_eq_true _ _).1 (hlast _ hmem)
  rw [← hword, List.getLast?_map] at hlower
  obtain ⟨c, hc, rfl⟩ := Option.map_eq_some_iff.1 hlower
  exact ⟨c, hc, by rw [isNumberEnd, hcontains, Bool.or_true]⟩

theorem IsFloat.hasNumberEnd (h : IsFloat cs) : HasNumberEnd cs := by
  rcases h with ⟨q, hq⟩ | ⟨x, hx⟩
  · exact hq.hasNumberEnd
  · exact hx.hasNumberEnd

end

end Number

end EdgeHealth
