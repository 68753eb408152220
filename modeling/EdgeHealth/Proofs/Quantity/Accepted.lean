import EdgeHealth.Proofs.Evaluate.Machines
import EdgeHealth.Proofs.Number.Numerals
import EdgeHealth.Proofs.Quantity.Spellings

/-!
# What is read as a quantity

A quantity is a decimal number that is not negative, with at most one suffix behind. Every quantity
is read. What else is read is a number with at most one suffix that is no quantity: a negative
number, which counts as nothing, and a word for a number that is not finite, of which infinity
counts as the greatest amount and the others as nothing. All other texts are refused, by a policy
that demands them and by the check of a node that offers them.

## Main definitions

* `Quantity.IsQuantity` : a quantity.
* `Quantity.IsMistaken` : a text that is read as an amount though it is no quantity.
* `Quantity.Splits` : how a suffix is split off a number.
* `Quantity.Accepts` : what is read as an amount.

## Main results

* `Quantity.accepts_memoryBytes?`, `Quantity.accepts_cpuMillis?` : what is read as an amount.
* `Quantity.only_numbers_accepted` : what is read, demanded and offered.
-/

namespace EdgeHealth

namespace Quantity

open Binary64 Number Text

/-! ### Quantities -/

/-- The suffixes of an amount of processing power; the empty one stands for none. -/
def cpuSuffixes : List String := ["", "m"]

/-- The suffixes of an amount of memory; the empty one stands for none. -/
def memorySuffixes : List String :=
  ["", "m"] ++ (binarySuffixes ++ decimalSuffixes).map Prod.fst

/-- A text that consists of a number of some kind with a suffix behind, between blanks. -/
def IsSpelled (suffixes : List String) (IsNumber : List Char → Prop) (raw : String) : Prop :=
  ∃ number suffix, suffix ∈ suffixes ∧ trimBlank raw.toList = number ++ suffix.toList ∧
    IsNumber number

/-- A quantity: a decimal number that is not negative, with a suffix behind. -/
def IsQuantity (suffixes : List String) : String → Prop :=
  IsSpelled suffixes fun number => ∃ q, IsNumeral number q ∧ 0 ≤ q

/-- A number that no quantity has, and the amount that it is read as: a negative number counts as
nothing, and a number that is not finite as what is left of it when it is cut to 64 bits. -/
def IsMisread (amount : Nat) (number : List Char) : Prop :=
  (∃ q, IsNumeral number q ∧ q < 0 ∧ amount = 0) ∨
    ∃ x, IsNonFinite number x ∧ amount = truncated x

/-- A text that is read as an amount though it is no quantity. -/
def IsMistaken (suffixes : List String) (amount : Nat) : String → Prop :=
  IsSpelled suffixes (IsMisread amount)

/-- A quantity, or a text that is mistaken for one. -/
def IsRead (suffixes : List String) (raw : String) : Prop :=
  IsQuantity suffixes raw ∨ ∃ amount, IsMistaken suffixes amount raw

/-- What is read as an amount. -/
structure Accepts (suffixes : List String) (read? : String → Option Nat) : Prop where
  /-- Quantities are read, and what is mistaken for one, and nothing else. -/
  isSome_iff (raw : String) : (read? raw).isSome ↔ IsRead suffixes raw
  /-- What a mistaken text is read as. -/
  eq_of_isMistaken {amount : Nat} {raw : String} (h : IsMistaken suffixes amount raw) :
    read? raw = some amount
  /-- A mistaken text is no quantity. -/
  not_isQuantity {amount : Nat} {raw : String} (h : IsMistaken suffixes amount raw) :
    ¬ IsQuantity suffixes raw

/-! ### Splitting off a suffix -/

/-- The suffixes end as no number does. -/
theorem isNumberEnd_of_mem_memorySuffixes :
    ∀ suffix ∈ memorySuffixes, ∀ c ∈ suffix.toList, isNumberEnd c = false := by
  have hall : ∀ suffix ∈ memorySuffixes, suffix.toList.all fun c => !isNumberEnd c := by decide
  simpa only [List.all_eq_true, Bool.not_eq_true'] using hall

theorem cpuSuffixes_subset : cpuSuffixes ⊆ memorySuffixes := List.subset_append_left _ _

section

variable {suffixes : List String} {cs ds number suffix : List Char}

/-- What ends as a number does has no suffix behind. -/
theorem eq_nil_of_hasNumberEnd (hsuffix : ∀ c ∈ suffix, isNumberEnd c = false)
    (h : HasNumberEnd (cs ++ suffix)) : suffix = [] := by
  by_contra hne
  obtain ⟨c, hc, hends⟩ := h
  rw [List.getLast?_append_of_ne_nil _ hne] at hc
  rw [hsuffix c (List.mem_of_mem_getLast? hc)] at hends
  cases hends

/-- A pattern that ends as no number does is not found behind a number. -/
theorem stripEnd?_of_hasNumberEnd (hne : suffix ≠ [])
    (hsuffix : ∀ c ∈ suffix, isNumberEnd c = false) (h : HasNumberEnd number) :
    stripEnd? suffix number = none := by
  cases hstrip : stripEnd? suffix number with
  | none => rfl
  | some rest =>
    rw [eq_append_of_stripEnd? hstrip] at h
    exact absurd (eq_nil_of_hasNumberEnd hsuffix h) hne

/-- A text is a number with a suffix behind in one way only. -/
theorem eq_of_append_eq_append {suffix' : List Char} (hcs : HasNumberEnd cs)
    (hds : HasNumberEnd ds) (hsuffix : ∀ c ∈ suffix, isNumberEnd c = false)
    (hsuffix' : ∀ c ∈ suffix', isNumberEnd c = false) (h : cs ++ suffix = ds ++ suffix') :
    cs = ds := by
  -- what one number is longer by would be a part of the other suffix, and no number ends so
  rcases List.append_eq_append_iff.1 h with ⟨middle, rfl, rfl⟩ | ⟨middle, rfl, rfl⟩
  · have hmiddle := eq_nil_of_hasNumberEnd (fun c hc => hsuffix c (List.mem_append_left _ hc)) hds
    rw [hmiddle, List.append_nil]
  · have hmiddle := eq_nil_of_hasNumberEnd (fun c hc => hsuffix' c (List.mem_append_left _ hc)) hcs
    rw [hmiddle, List.append_nil]

/-- The suffix that is split off stands in the table. -/
theorem exists_of_splitSuffix? {factor : Nat} : {table : List (String × Nat)} →
    splitSuffix? cs table = some (number, factor) →
    ∃ suffix, (suffix, factor) ∈ table ∧ cs = number ++ suffix.toList
  | [], h => by cases h
  | (suffix, _) :: table, h => by
    rw [splitSuffix?] at h
    split at h
    · next hstrip =>
      obtain ⟨rfl, rfl⟩ := Prod.mk.inj (Option.some.inj h)
      exact ⟨suffix, List.mem_cons_self, eq_append_of_stripEnd? hstrip⟩
    · obtain ⟨suffix, hmem, hcs⟩ := exists_of_splitSuffix? h
      exact ⟨suffix, List.mem_cons_of_mem _ hmem, hcs⟩

/-- No suffix of the table is found behind a number. -/
theorem splitSuffix?_of_hasNumberEnd (h : HasNumberEnd number) :
    splitSuffix? number (binarySuffixes ++ decimalSuffixes) = none := by
  cases hsplit : splitSuffix? number (binarySuffixes ++ decimalSuffixes) with
  | none => rfl
  | some split =>
    obtain ⟨suffix, hmem, hnumber⟩ := exists_of_splitSuffix? hsplit
    have hsuffix : suffix ∈ memorySuffixes := List.mem_append_right _ (List.mem_map_of_mem hmem)
    rw [hnumber] at h
    exact absurd (eq_nil_of_hasNumberEnd (isNumberEnd_of_mem_memorySuffixes suffix hsuffix) h)
      (suffixes_letters _ hmem).1

/-- No suffix of the table is found where the suffix for thousandths is. -/
theorem splitSuffix?_append_milli (number : List Char) :
    splitSuffix? (number ++ ['m']) (binarySuffixes ++ decimalSuffixes) = none := by
  simp [splitSuffix?, stripEnd?, stripStart?, binarySuffixes, decimalSuffixes]

theorem stripEnd?_milli_of_hasNumberEnd (h : HasNumberEnd number) :
    stripEnd? ['m'] number = none :=
  stripEnd?_of_hasNumberEnd (by decide) (List.forall_mem_singleton.2 (by decide)) h

end

/-! ### Numbers that are scaled -/

/-- How an amount is read: a suffix is split off, and the number before it is scaled and cut. -/
structure Splits (suffixes : List String) (read? : String → Option Nat) : Prop where
  /-- From every text a suffix is split off, perhaps the empty one. -/
  exists_split (raw : String) : ∃ number suffix scale, suffix ∈ suffixes ∧
    trimBlank raw.toList = number ++ suffix.toList ∧ KeepsSign scale ∧
    read? raw = (float? number).map fun x => truncated (scale x)
  /-- It is the suffix behind the number, if there is a number. -/
  exists_scale {raw suffix : String} {number : List Char} (hmem : suffix ∈ suffixes)
    (hraw : trimBlank raw.toList = number ++ suffix.toList) (hends : HasNumberEnd number) :
    ∃ scale, KeepsSign scale ∧ read? raw = (float? number).map fun x => truncated (scale x)

/-- The factors of the suffixes are kept as they are when a number is multiplied by them. -/
theorem isFactor_of_mem {suffix : String} {factor : Nat}
    (h : (suffix, factor) ∈ binarySuffixes ++ decimalSuffixes) : IsFactor factor := by
  rcases List.mem_append.1 h with h | h
  · obtain ⟨k, hk, rfl⟩ := exists_of_mem_binarySuffixes h
    exact isFactor_two_pow hk
  · obtain ⟨k, hk, rfl⟩ := exists_of_mem_decimalSuffixes h
    exact isFactor_ten_pow hk

/-- Multiplying by a factor and dividing by it keep signs. -/
theorem IsFactor.keepsSign {factor : Nat} (h : IsFactor factor) :
    KeepsSign (·.mul (.ofNat factor)) ∧ KeepsSign (·.div (.ofNat factor)) :=
  (hasValue_ofNat h.holds (h.lt.trans (by decide))).keepsSign (by exact_mod_cast h.pos)

theorem isFactor_thousand : IsFactor 1000 := isFactor_ten_pow (k := 3) (by decide)

/-- How an amount of processing power is read. -/
theorem splits_cpuMillis? : Splits cpuSuffixes cpuMillis? where
  exists_split raw := by
    rw [cpuMillis?]
    cases hmilli : stripEnd? ['m'] (trimBlank raw.toList) with
    | some milli =>
      exact ⟨milli, "m", id, by decide, eq_append_of_stripEnd? hmilli, keepsSign_id, rfl⟩
    | none =>
      exact ⟨_, "", _, by decide, (List.append_nil _).symm, isFactor_thousand.keepsSign.1, rfl⟩
  exists_scale {raw suffix number} hmem hraw hends := by
    rw [cpuMillis?, hraw]
    rcases List.mem_pair.1 hmem with rfl | rfl
    · rw [String.toList_empty, List.append_nil, stripEnd?_milli_of_hasNumberEnd hends]
      exact ⟨_, isFactor_thousand.keepsSign.1, rfl⟩
    · rw [show "m".toList = ['m'] from rfl, stripEnd?_append]
      exact ⟨id, keepsSign_id, rfl⟩

/-- How an amount of memory is read. -/
theorem splits_memoryBytes? : Splits memorySuffixes memoryBytes? where
  exists_split raw := by
    rw [memoryBytes?]
    cases hsplit : splitSuffix? (trimBlank raw.toList) (binarySuffixes ++ decimalSuffixes) with
    | some split =>
      obtain ⟨suffix, hmem, hraw⟩ := exists_of_splitSuffix? hsplit
      exact ⟨split.1, suffix, _, List.mem_append_right _ (List.mem_map_of_mem hmem), hraw,
        (isFactor_of_mem hmem).keepsSign.1, rfl⟩
    | none =>
      cases hmilli : stripEnd? ['m'] (trimBlank raw.toList) with
      | some milli =>
        exact ⟨milli, "m", _, by decide, eq_append_of_stripEnd? hmilli,
          isFactor_thousand.keepsSign.2, rfl⟩
      | none => exact ⟨_, "", id, by decide, (List.append_nil _).symm, keepsSign_id, rfl⟩
  exists_scale {raw suffix number} hmem hraw hends := by
    rw [memoryBytes?, hraw]
    -- the tables come before the suffix for thousandths, which none of their suffixes ends with
    rcases List.mem_append.1 hmem with hmem | hmem
    · rcases List.mem_pair.1 hmem with rfl | rfl
      · rw [String.toList_empty, List.append_nil, splitSuffix?_of_hasNumberEnd hends,
          stripEnd?_milli_of_hasNumberEnd hends]
        exact ⟨id, keepsSign_id, rfl⟩
      · rw [show "m".toList = ['m'] from rfl, splitSuffix?_append_milli, stripEnd?_append]
        exact ⟨_, isFactor_thousand.keepsSign.2, rfl⟩
    · obtain ⟨⟨suffix, factor⟩, hentry, rfl⟩ := List.mem_map.1 hmem
      rw [splitSuffix?_append hentry]
      exact ⟨_, (isFactor_of_mem hentry).keepsSign.1, rfl⟩

/-! ### What is read -/

section

variable {suffixes : List String} {read? : String → Option Nat} {raw : String}

theorem IsMisread.isFloat {amount : Nat} {number : List Char} (h : IsMisread amount number) :
    IsFloat number :=
  h.imp (fun ⟨q, hq, _⟩ => ⟨q, hq⟩) fun ⟨x, hx, _⟩ => ⟨x, hx⟩

/-- Quantities and what is mistaken for one are floating-point numbers with a suffix behind. -/
theorem isRead_iff : IsRead suffixes raw ↔ IsSpelled suffixes IsFloat raw := by
  constructor
  · rintro (⟨number, suffix, hmem, hraw, q, hq, -⟩ | ⟨amount, number, suffix, hmem, hraw, h⟩)
    · exact ⟨number, suffix, hmem, hraw, .inl ⟨q, hq⟩⟩
    · exact ⟨number, suffix, hmem, hraw, h.isFloat⟩
  · rintro ⟨number, suffix, hmem, hraw, ⟨q, hq⟩ | ⟨x, hx⟩⟩
    · rcases le_or_gt 0 q with hle | hlt
      · exact .inl ⟨number, suffix, hmem, hraw, q, hq, hle⟩
      · exact .inr ⟨0, number, suffix, hmem, hraw, .inl ⟨q, hq, hlt, rfl⟩⟩
    · exact .inr ⟨_, number, suffix, hmem, hraw, .inr ⟨x, hx, rfl⟩⟩

/-- **What is read as an amount, where a suffix is split off a number.** -/
theorem Splits.accepts (h : Splits suffixes read?)
    (hsuffixes : ∀ suffix ∈ suffixes, ∀ c ∈ suffix.toList, isNumberEnd c = false) :
    Accepts suffixes read? where
  isSome_iff raw := by
    rw [isRead_iff]
    constructor
    · intro hread
      obtain ⟨number, suffix, scale, hmem, hraw, -, heq⟩ := h.exists_split raw
      rw [heq, Option.isSome_map, isSome_float?_iff] at hread
      exact ⟨number, suffix, hmem, hraw, hread⟩
    · rintro ⟨number, suffix, hmem, hraw, hnumber⟩
      obtain ⟨scale, -, heq⟩ := h.exists_scale hmem hraw hnumber.hasNumberEnd
      rwa [heq, Option.isSome_map, isSome_float?_iff]
  eq_of_isMistaken := by
    rintro amount raw ⟨number, suffix, hmem, hraw, ⟨q, hq, hneg, rfl⟩ | ⟨x, hx, rfl⟩⟩
    · obtain ⟨scale, hscale, heq⟩ := h.exists_scale hmem hraw hq.hasNumberEnd
      obtain ⟨x, hx, hminus⟩ := exists_float_of_isNumeral hq
      rw [heq, hx, Option.map_some, truncated, clamp_of_hasMinus (hscale.hasMinus (hminus hneg))]
    · obtain ⟨scale, hscale, heq⟩ := h.exists_scale hmem hraw hx.hasNumberEnd
      rw [heq, float?_of_isNonFinite hx, Option.map_some, hx.apply_eq hscale]
  not_isQuantity := by
    rintro amount raw ⟨number, suffix, hmem, hraw, hnumber⟩
      ⟨number', suffix', hmem', hraw', q, hq, hle⟩
    obtain rfl : number = number' := eq_of_append_eq_append hnumber.isFloat.hasNumberEnd
      hq.hasNumberEnd (hsuffixes suffix hmem) (hsuffixes suffix' hmem') (hraw.symm.trans hraw')
    rcases hnumber with ⟨r, hr, hneg, -⟩ | ⟨x, hx, -⟩
    · exact absurd (hr.unique hq ▸ hneg) hle.not_gt
    · exact hx.not_isNumeral hq

end

/-- What is read as an amount of memory. -/
theorem accepts_memoryBytes? : Accepts memorySuffixes memoryBytes? :=
  splits_memoryBytes?.accepts isNumberEnd_of_mem_memorySuffixes

/-- What is read as an amount of processing power. -/
theorem accepts_cpuMillis? : Accepts cpuSuffixes cpuMillis? :=
  splits_cpuMillis?.accepts fun suffix hsuffix =>
    isNumberEnd_of_mem_memorySuffixes suffix (cpuSuffixes_subset hsuffix)

/-! ### Demands and offers -/

section

variable {policy : ReadinessPolicy} {n : Node}

/-- A policy is refused for the memory that it demands if this is not read. -/
theorem validate_eq_error_iff :
    policy.validate =
        .error (.invalid "minMemory" s!"'{policy.minMemory}' is not a memory quantity") ↔
      ¬ IsRead memorySuffixes policy.minMemory := by
  rw [← accepts_memoryBytes?.isSome_iff, ReadinessPolicy.validate, ReadinessPolicy.minMemoryBytes]
  cases memoryBytes? policy.minMemory with
  | none => simp
  | some bytes => cases policy.architectures.isEmpty <;> simp

/-- A value that a node says is not known if it says none or one that is not read. -/
theorem bind_eq_none_iff {suffixes : List String} {read? : String → Option Nat}
    (h : Accepts suffixes read?) (value : Option String) :
    value.bind read? = none ↔ ¬ ∃ raw, value = some raw ∧ IsRead suffixes raw := by
  cases value with
  | none => simp
  | some raw => simp [← h.isSome_iff]

/-- The memory of a node is a warning if it is not read. -/
theorem memoryFinding_eq_warning_iff (least : Nat) :
    (Readiness.memoryFinding policy least n).status = .warning ↔
      ¬ ∃ raw, n.allocatable? "memory" = some raw ∧ IsRead memorySuffixes raw :=
  Readiness.statusOf_eq_warning_iff.trans (bind_eq_none_iff accepts_memoryBytes? _)

/-- The processing power of a node is a warning if it is not read. -/
theorem cpuFinding_eq_warning_iff :
    (Readiness.cpuFinding policy n).status = .warning ↔
      ¬ ∃ raw, n.allocatable? "cpu" = some raw ∧ IsRead cpuSuffixes raw :=
  Readiness.statusOf_eq_warning_iff.trans (bind_eq_none_iff accepts_cpuMillis? _)

end

/-- **What is read, demanded and offered.** Only numbers with at most one suffix are read as
amounts: all quantities, and what is mistaken for one. A policy that demands anything else is
refused, and a node that offers anything else gets a warning. -/
theorem only_numbers_accepted (policy : ReadinessPolicy) (least : Nat) (n : Node) :
    Accepts memorySuffixes memoryBytes? ∧ Accepts cpuSuffixes cpuMillis? ∧
    (policy.validate =
        .error (.invalid "minMemory" s!"'{policy.minMemory}' is not a memory quantity") ↔
      ¬ IsRead memorySuffixes policy.minMemory) ∧
    ((Readiness.memoryFinding policy least n).status = .warning ↔
      ¬ ∃ raw, n.allocatable? "memory" = some raw ∧ IsRead memorySuffixes raw) ∧
    ((Readiness.cpuFinding policy n).status = .warning ↔
      ¬ ∃ raw, n.allocatable? "cpu" = some raw ∧ IsRead cpuSuffixes raw) :=
  ⟨accepts_memoryBytes?, accepts_cpuMillis?, validate_eq_error_iff,
    memoryFinding_eq_warning_iff least, cpuFinding_eq_warning_iff⟩

/-- The word for the undefined number is mistaken for a quantity. -/
theorem isMistaken_nan : IsMistaken memorySuffixes 0 "nan" := by
  have hmem : ("nan", fun _ => Binary64.nan) ∈ nonFiniteWords := by simp [nonFiniteWords]
  have hword : IsNonFinite "nan".toList .nan := .mk .none hmem rfl
  exact ⟨"nan".toList, "", by decide, by decide, .inr ⟨.nan, hword, rfl⟩⟩

/-- What is read need not be a quantity, and a policy that is accepted need not demand one. -/
theorem not_forall_isQuantity :
    (¬ ∀ raw, (memoryBytes? raw).isSome → IsQuantity memorySuffixes raw) ∧
    ¬ ∀ policy : ReadinessPolicy, policy.validate = .ok () →
      IsQuantity memorySuffixes policy.minMemory := by
  have hnot := accepts_memoryBytes?.not_isQuantity isMistaken_nan
  have hread := accepts_memoryBytes?.eq_of_isMistaken isMistaken_nan
  constructor
  · exact fun h => hnot (h "nan" (by rw [hread]; rfl))
  · refine fun h => hnot (h { ReadinessPolicy.standard with minMemory := "nan" } ?_)
    rw [ReadinessPolicy.validate, ReadinessPolicy.minMemoryBytes]
    simp only [hread]
    rfl

end Quantity

end EdgeHealth
