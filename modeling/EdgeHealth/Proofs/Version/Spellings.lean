import EdgeHealth.Proofs.Number.Decimals
import EdgeHealth.Proofs.Text.Pieces
import EdgeHealth.Proofs.Version.Order

/-!
# The spellings of a version

A version is spelled by its numbers in decimal with dots between them. Blanks may stand around it,
letters `v` in front, and behind it any text that a vendor adds, which may hold digits and dots of
its own. All spellings are read as the numbers, and as nothing but the numbers: the text of the
vendor ends the last number, and nothing behind it is looked at.

What is read is always spelled by its written form, whatever the text was that it was read from. So
a version that was written is read as the same list of numbers.

## Main definitions

* `Version.IsDotted` : numbers in decimal with dots between them.
* `Version.Spells` : a text that spells numbers.

## Main results

* `Version.read?_of_spells` : every spelling is read as its numbers.
* `Version.read?_text` : a version that was read is read again from its written form.
* `Version.compare_is_numeric` : spelled versions are compared number by number.
-/

namespace EdgeHealth

namespace Version

open Number Text

/-! ### Spellings -/

/-- Numbers in decimal with dots between them. Zeros may stand in front of a number. -/
inductive IsDotted : List Char → List Nat → Prop
  /-- A single number. -/
  | one {digits : List Char} (isDigit : ∀ c ∈ digits, c.isDigit) (ne_nil : digits ≠ []) :
      IsDotted digits [digitsValue digits]
  /-- A number in front of others. -/
  | dot {digits rest : List Char} {parts : List Nat} (isDigit : ∀ c ∈ digits, c.isDigit)
      (ne_nil : digits ≠ []) (h : IsDotted rest parts) :
      IsDotted (digits ++ '.' :: rest) (digitsValue digits :: parts)

/-- What a vendor may add behind a version: nothing, or a text that starts with something else than
a digit, a dot or a blank. -/
def IsVendorText (cs : List Char) : Prop :=
  ∀ c ∈ cs.head?, c.isDigit = false ∧ c ≠ '.' ∧ isBlank c = false

instance (cs : List Char) : Decidable (IsVendorText cs) :=
  inferInstanceAs (Decidable (∀ c ∈ cs.head?, c.isDigit = false ∧ c ≠ '.' ∧ isBlank c = false))

/-- A text that spells numbers: with blanks around them, letters `v` in front and the text of a
vendor behind. -/
def Spells (text : String) (parts : List Nat) : Prop :=
  ∃ before letters dotted vendor after : List Char,
    text.toList = before ++ (letters ++ dotted ++ (vendor ++ after)) ∧
    (∀ c ∈ before, isBlank c) ∧ (∀ c ∈ letters, c = 'v') ∧ IsDotted dotted parts ∧
    IsVendorText vendor ∧ ∀ c ∈ after, isBlank c

section

variable {cs vendor : List Char} {parts : List Nat}

theorem IsDotted.isDigit_or_eq (h : IsDotted cs parts) : ∀ c ∈ cs, c.isDigit ∨ c = '.' := by
  induction h with
  | one hdigits hne => exact fun c hc => .inl (hdigits c hc)
  | dot hdigits hne h ih =>
    intro c hc
    rcases List.mem_append.1 hc with hc | hc
    · exact .inl (hdigits c hc)
    · rcases List.mem_cons.1 hc with rfl | hc
      · exact .inr rfl
      · exact ih c hc

/-- Dotted numbers start with a digit. -/
theorem IsDotted.exists_eq_cons (h : IsDotted cs parts) : ∃ c rest, cs = c :: rest ∧ c.isDigit := by
  have hhead {digits : List Char} (hdigits : ∀ c ∈ digits, c.isDigit) (hne : digits ≠ []) :
      ∃ c rest, digits = c :: rest ∧ c.isDigit := by
    obtain ⟨c, rest, rfl⟩ := List.exists_cons_of_ne_nil hne
    exact ⟨c, rest, rfl, hdigits c List.mem_cons_self⟩
  cases h with
  | one hdigits hne => exact hhead hdigits hne
  | @dot digits rest parts hdigits hne h =>
    obtain ⟨c, tail, rfl, hc⟩ := hhead hdigits hne
    exact ⟨c, tail ++ '.' :: rest, rfl, hc⟩

/-! ### Reading -/

/-- Digits in front of something that starts with no digit are a number, if it is not too great. -/
theorem leadingNumber?_append {digits rest : List Char} (hdigits : ∀ c ∈ digits, c.isDigit)
    (hne : digits ≠ []) (hrest : ∀ c ∈ rest.head?, c.isDigit = false)
    (hvalue : digitsValue digits < 2 ^ 64) :
    leadingNumber? (digits ++ rest) = some (digitsValue digits) := by
  have hblank : ∀ c ∈ digits, isBlank c = false := fun c hc => isBlank_of_isDigit (hdigits c hc)
  have htrim : trimBlank (digits ++ rest) = digits ++ dropBlankEnd rest :=
    trimBlank_append_append (List.forall_mem_nil _) hblank hne rest
  have htake : (digits ++ dropBlankEnd rest).takeWhile Char.isDigit = digits :=
    (span_isDigit hdigits fun c hc => hrest c (mem_head?_of_mem_head?_dropBlankEnd hc)).1
  have hsome : digits? digits = some (digitsValue digits) :=
    digits?_eq_some_iff.2 ⟨hdigits, hne, rfl⟩
  have hmax : digitsValue digits ≤ maxUInt64 := by
    have hmax : maxUInt64 = 2 ^ 64 - 1 := rfl
    omega
  rw [leadingNumber?, htrim, htake, hsome, Option.filter_some, if_pos (decide_eq_true hmax)]

/-- Digits are a number, if it is not too great. -/
theorem leadingNumber?_digits {digits : List Char} (hdigits : ∀ c ∈ digits, c.isDigit)
    (hne : digits ≠ []) (hvalue : digitsValue digits < 2 ^ 64) :
    leadingNumber? digits = some (digitsValue digits) := by
  have hend : ∀ c ∈ ([] : List Char).head?, c.isDigit = false :=
    fun c hc => absurd hc (Option.not_mem_none c)
  have hnumber := leadingNumber?_append hdigits hne hend hvalue
  rwa [List.append_nil] at hnumber

/-- Numbers go on behind a piece that is nothing but a number. -/
theorem leadingNumbers_cons_of_all {piece : List Char} {n : Nat} (h : leadingNumber? piece = some n)
    (hall : piece.all Char.isDigit) (pieces : List (List Char)) :
    leadingNumbers (piece :: pieces) = n :: leadingNumbers pieces := by
  simp [leadingNumbers, h, hall]

/-- Numbers end with a piece that is more than a number. -/
theorem leadingNumbers_cons_of_not_all {piece : List Char} {n : Nat}
    (h : leadingNumber? piece = some n) (hall : ¬ piece.all Char.isDigit)
    (pieces : List (List Char)) : leadingNumbers (piece :: pieces) = [n] := by
  simp [leadingNumbers, h, hall]

/-- The pieces of dotted numbers are read one after another, up to the text of a vendor. -/
theorem leadingNumbers_splitOn (h : IsDotted cs parts) (hvendor : IsVendorText vendor)
    (hparts : ∀ n ∈ parts, n < 2 ^ 64) : leadingNumbers (splitOn '.' (cs ++ vendor)) = parts := by
  have hnone {digits : List Char} (hdigits : ∀ c ∈ digits, c.isDigit) : '.' ∉ digits :=
    fun hmem => absurd (hdigits _ hmem) (by decide)
  induction h with
  | @one digits hdigits hne =>
    have hvalue : digitsValue digits < 2 ^ 64 := hparts _ List.mem_cons_self
    cases vendor with
    | nil =>
      have hnumber := leadingNumber?_digits hdigits hne hvalue
      rw [List.append_nil, splitOn_eq_singleton (hnone hdigits),
        leadingNumbers_cons_of_all hnumber (List.all_eq_true.2 hdigits), leadingNumbers]
    | cons c vendor =>
      obtain ⟨hdigit, hdot, -⟩ := hvendor c rfl
      have hfront : '.' ∉ digits ++ [c] := by
        simp [hnone hdigits, Ne.symm hdot]
      -- the piece goes on behind the digits, so that it is the last one that counts
      obtain ⟨piece, pieces, -, hsplit⟩ := exists_splitOn_append hfront vendor
      have hpiece : ∀ d ∈ (c :: piece).head?, d.isDigit = false := by simpa using hdigit
      have hnumber := leadingNumber?_append hdigits hne hpiece hvalue
      have hmixed : ¬ (digits ++ c :: piece).all Char.isDigit := by
        simp [hdigit]
      rw [List.append_assoc, List.singleton_append, List.append_assoc, List.singleton_append]
        at hsplit
      rw [hsplit, leadingNumbers_cons_of_not_all hnumber hmixed]
  | @dot digits rest parts hdigits hne h ih =>
    obtain ⟨hvalue, hparts⟩ := List.forall_mem_cons.1 hparts
    have hnumber := leadingNumber?_digits hdigits hne hvalue
    rw [List.append_assoc, List.cons_append, splitOn_append (hnone hdigits),
      leadingNumbers_cons_of_all hnumber (List.all_eq_true.2 hdigits), ih hparts]

/-- Blanks around a text that starts and ends with none are trimmed, perhaps with a part of the text
of a vendor. -/
theorem exists_trimBlank_eq {before core after : List Char} (hbefore : ∀ c ∈ before, isBlank c)
    (hcore : ∀ c ∈ core, isBlank c = false) (hne : core ≠ []) (hvendor : IsVendorText vendor)
    (hafter : ∀ c ∈ after, isBlank c) :
    ∃ vendor', IsVendorText vendor' ∧
      trimBlank (before ++ (core ++ (vendor ++ after))) = core ++ vendor' := by
  refine ⟨dropBlankEnd (vendor ++ after), ?_, trimBlank_append_append hbefore hcore hne _⟩
  cases vendor with
  | nil =>
    have hnil : dropBlankEnd after = [] := List.rdropWhile_eq_nil_iff.2 hafter
    rw [List.nil_append, hnil]
    exact fun c hc => by cases hc
  | cons c vendor =>
    intro d hd
    have hhead : d ∈ (c :: vendor ++ after).head? := mem_head?_of_mem_head?_dropBlankEnd hd
    exact hvendor d hhead

end

/-- **Every spelling is read as its numbers.** -/
theorem read?_of_spells {text : String} {parts : List Nat} (h : Spells text parts)
    (hparts : ∀ n ∈ parts, n < 2 ^ 64) : read? text = some ⟨parts⟩ := by
  obtain ⟨before, letters, dotted, vendor, after, htext, hbefore, hletters, hdotted, hvendor,
    hafter⟩ := h
  have hcore : ∀ c ∈ letters ++ dotted, isBlank c = false := by
    intro c hc
    rcases List.mem_append.1 hc with hc | hc
    · rw [hletters c hc]
      rfl
    · rcases hdotted.isDigit_or_eq c hc with hdigit | rfl
      · exact isBlank_of_isDigit hdigit
      · rfl
  obtain ⟨first, tail, hfirst, hdigit⟩ := hdotted.exists_eq_cons
  have hne : letters ++ dotted ≠ [] := by simp [hfirst]
  obtain ⟨vendor', hvendor', htrim⟩ := exists_trimBlank_eq hbefore hcore hne hvendor hafter
  have hbody : (letters ++ dotted ++ vendor').dropWhile (· == 'v') = dotted ++ vendor' := by
    have hfirst' : first ≠ 'v' := by
      rintro rfl
      exact absurd hdigit (by decide)
    have hletters' : ∀ c ∈ letters, (c == 'v') = true := fun c hc => by simp [hletters c hc]
    rw [List.append_assoc, List.dropWhile_append_of_pos hletters', hfirst, List.cons_append,
      List.dropWhile_cons_of_neg (by simpa using hfirst')]
  have hnumbers := leadingNumbers_splitOn hdotted hvendor' hparts
  have hsome : parts ≠ [] := by cases hdotted <;> simp
  rw [read?, htext, htrim, hbody, hnumbers]
  cases parts with
  | nil => exact absurd rfl hsome
  | cons n parts => rfl

/-! ### Written forms -/

theorem lt_of_leadingNumber? {cs : List Char} {n : Nat} (h : leadingNumber? cs = some n) :
    n < 2 ^ 64 := by
  have hmax : maxUInt64 = 2 ^ 64 - 1 := rfl
  have hle : n ≤ maxUInt64 := by simpa using (Option.filter_eq_some_iff.1 h).2
  omega

theorem lt_of_mem_leadingNumbers {n : Nat} : {pieces : List (List Char)} →
    n ∈ leadingNumbers pieces → n < 2 ^ 64
  | [], h => absurd h List.not_mem_nil
  | piece :: pieces, h => by
    rw [leadingNumbers] at h
    cases hnumber : leadingNumber? piece with
    | none => simp [hnumber] at h
    | some m =>
      have hm := lt_of_leadingNumber? hnumber
      rw [hnumber] at h
      dsimp only at h
      split at h
      · rcases List.mem_cons.1 h with rfl | h
        · exact hm
        · exact lt_of_mem_leadingNumbers h
      · rwa [List.mem_singleton.1 h]

/-- A version that is read has a number, and all its numbers have 64 bits. -/
theorem parts_of_read? {text : String} {v : Version} (h : read? text = some v) :
    v.parts ≠ [] ∧ ∀ n ∈ v.parts, n < 2 ^ 64 := by
  rw [read?] at h
  split at h
  · cases h
  · next hne =>
    obtain rfl := Option.some.inj h
    exact ⟨hne, fun n hn => lt_of_mem_leadingNumbers hn⟩

/-- Numbers with dots between them are dotted numbers. -/
theorem isDotted_joinWith : {parts : List Nat} → parts ≠ [] →
    IsDotted (joinWith "." (parts.map Nat.repr)).toList parts
  | [n], _ => by
    have h := IsDotted.one (fun _ => isDigit_of_mem_repr) (toList_repr_ne_nil n)
    rwa [digitsValue_repr] at h
  | n :: m :: parts, _ => by
    have h := IsDotted.dot (fun _ => isDigit_of_mem_repr) (toList_repr_ne_nil n)
      (isDotted_joinWith (List.cons_ne_nil m parts))
    rw [digitsValue_repr] at h
    simpa [joinWith] using h

/-- The written form of a version spells its numbers. -/
theorem spells_text {v : Version} (h : v.parts ≠ []) : Spells v.text v.parts := by
  refine ⟨[], [], v.text.toList, [], [], by simp, by simp, by simp, isDotted_joinWith h, ?_,
    by simp⟩
  exact fun c hc => by cases hc

/-- **A version that was read is read again from its written form.** -/
theorem read?_text {text : String} {v : Version} (h : read? text = some v) :
    read? v.text = some v := by
  obtain ⟨hne, hparts⟩ := parts_of_read? h
  exact read?_of_spells (spells_text hne) hparts

/-! ### Comparison -/

/-- **Spelled versions are compared number by number.** Two texts that spell numbers of 64 bits are
read, and the versions compare as the lists of numbers do in lexicographic order, when the shorter
one is filled up with zeros. The comparison of all versions is a total order up to an equality; two
versions are equal if their numbers are the same when filled up with zeros; and zeros at the end of
a version do not change its place. -/
theorem compare_is_numeric :
    (∀ {s t : String} {as bs : List Nat}, Spells s as → Spells t bs →
      (∀ n ∈ as, n < 2 ^ 64) → (∀ n ∈ bs, n < 2 ^ 64) →
      let length := max as.length bs.length
      ∃ v w, read? s = some v ∧ read? t = some w ∧
        v.compare w = Ord.compare (as.rightpad length 0) (bs.rightpad length 0)) ∧
    IsTotalComparison compare same ∧
    (∀ v w : Version,
      let length := max v.parts.length w.parts.length
      v.same w ↔ v.parts.rightpad length 0 = w.parts.rightpad length 0) ∧
    ∀ (v w : Version) (k : Nat),
      compare ⟨v.parts ++ List.replicate k 0⟩ w = v.compare w ∧
      w.compare ⟨v.parts ++ List.replicate k 0⟩ = w.compare v := by
  refine ⟨fun {s t as bs} hs ht has hbs => ?_, isTotalComparison, fun v w => ?_, fun v w k => ?_⟩
  · exact ⟨⟨as⟩, ⟨bs⟩, read?_of_spells hs has, read?_of_spells ht hbs,
      compare_eq_compare_rightpad (Nat.le_max_left _ _) (Nat.le_max_right _ _)⟩
  · exact same_iff_rightpad_eq (Nat.le_max_left _ _) (Nat.le_max_right _ _)
  · have hcongr := isTotalComparison.congr w (same_append_zeros v k)
    refine ⟨hcongr, ?_⟩
    rw [← isTotalComparison.swap, hcongr, isTotalComparison.swap]

/-- A kernel as a vendor tells it, between blanks, and a version with one number less. -/
theorem compare_is_numeric_vendor :
    Spells "\tvv5.15.0-1051.4-azure " [5, 15, 0] ∧ Spells "5.015" [5, 15] ∧
    (∀ n ∈ [5, 15, 0], n < 2 ^ 64) ∧ (∀ n ∈ [5, 15], n < 2 ^ 64) ∧
    ∃ v w, read? "\tvv5.15.0-1051.4-azure " = some v ∧ read? "5.015" = some w ∧
      v.compare w = .eq := by
  have hjoin : joinWith "." ([5, 15, 0].map Nat.repr) = "5.15.0" := by decide +kernel
  have hwritten : IsDotted "5.15.0".toList [5, 15, 0] :=
    hjoin ▸ isDotted_joinWith (List.cons_ne_nil 5 [15, 0])
  have hvendor : Spells "\tvv5.15.0-1051.4-azure " [5, 15, 0] :=
    ⟨['\t'], ['v', 'v'], "5.15.0".toList, "-1051.4-azure".toList, [' '], by decide,
      List.forall_mem_singleton.2 rfl, by simp, hwritten, by rintro c ⟨⟩; decide,
      List.forall_mem_singleton.2 rfl⟩
  have hdotted : IsDotted ['5', '.', '0', '1', '5'] [5, 15] := by
    have hfirst : digitsValue ['5'] = 5 := by decide
    have hlast : digitsValue ['0', '1', '5'] = 15 := by decide
    have h := @IsDotted.dot ['5'] ['0', '1', '5'] _ (List.all_eq_true.1 (by decide)) (by decide)
      (IsDotted.one (List.all_eq_true.1 (by decide)) (by decide))
    rwa [hfirst, hlast] at h
  have hplain : Spells "5.015" [5, 15] :=
    ⟨[], [], ['5', '.', '0', '1', '5'], [], [], by decide, by simp, by simp, hdotted,
      by rintro c ⟨⟩, by simp⟩
  have has : ∀ n ∈ [5, 15, 0], n < 2 ^ 64 := by decide
  have hbs : ∀ n ∈ [5, 15], n < 2 ^ 64 := by decide
  obtain ⟨v, w, hv, hw, hcompare⟩ := compare_is_numeric.1 hvendor hplain has hbs
  exact ⟨hvendor, hplain, has, hbs, v, w, hv, hw, hcompare.trans (by decide)⟩

end Version

end EdgeHealth
