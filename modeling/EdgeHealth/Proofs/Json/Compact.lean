import EdgeHealth.Json.Reader
import EdgeHealth.Json.Writer
import EdgeHealth.Proofs.Number.Decimals

/-!
# Values on one line, read again

The text of a value on one line is read as that value, whatever follows it: strings with all their
characters, integers of 64 bits, lists and objects with distinct names, up to the depth at which the
reader gives up. Numbers with a fraction are left out, since the reader rounds them in its own way.

The induction is on the value. The rest of the text is arbitrary, but for a character that would
prolong a number; so the items of a list are read one after another.

## Main definitions

* `Json.IsExact` : values without fractions, of a bounded depth.
* `Json.EndsNumber` : texts that do not prolong a number.
* `Json.IsReadBack` : a value of which the text is read, whatever follows it.

## Main results

* `Json.stringAfter_escaped`, `Json.numberAfter_repr` : strings and natural numbers.
* `Json.isReadBack_of_isExact` : the text of a value, with anything behind.
* `Json.read_compact` : the text of a value.
-/

namespace EdgeHealth

namespace Json

open Number Text

/-! ### Values and texts -/

/-- A value that its text on one line holds exactly, with at most `depth` lists and objects inside
each other: its integers have 64 bits, and the names of an object are distinct. -/
inductive IsExact : (depth : Nat) → Json → Prop
  /-- The value that stands for nothing. -/
  | null {depth : Nat} : IsExact depth .null
  /-- A truth value. -/
  | bool {depth : Nat} (b : Bool) : IsExact depth (.bool b)
  /-- An integer. -/
  | int {depth : Nat} {i : Int} (lower : -2 ^ 63 ≤ i) (upper : i < 2 ^ 64) : IsExact depth (.int i)
  /-- A text. -/
  | string {depth : Nat} (s : String) : IsExact depth (.string s)
  /-- A list of such values. -/
  | array {depth : Nat} {items : List Json} (items_exact : ∀ v ∈ items, IsExact depth v) :
      IsExact (depth + 1) (.array items)
  /-- Such values with names. -/
  | object {depth : Nat} {members : List (String × Json)}
      (distinct : (members.map Prod.fst).Nodup)
      (members_exact : ∀ pair ∈ members, IsExact depth pair.2) :
      IsExact (depth + 1) (.object members)

/-- Whether a text does not prolong a number in front of it. -/
def EndsNumber (cs : List Char) : Prop :=
  ∀ c ∈ cs.head?, c.isDigit = false ∧ c ≠ '.' ∧ isExponentMark c = false

instance (cs : List Char) : Decidable (EndsNumber cs) :=
  inferInstanceAs
    (Decidable (∀ c ∈ cs.head?, c.isDigit = false ∧ c ≠ '.' ∧ isExponentMark c = false))

/-! ### Strings -/

theorem hexValue?_hexDigit : ∀ n < 16, hexValue? (hexDigit n) = some n := by decide

/-- The escape of a control character by its number. -/
theorem numberedEscape_control {n : Nat} (hn : n < 0x20) (rest : List Char) :
    numberedEscape ('0' :: '0' :: hexDigit (n / 16) :: hexDigit (n % 16) :: rest) =
      .ok (Char.ofNat n, rest) := by
  have hhigh := hexValue?_hexDigit (n / 16) (by omega)
  have hlow := hexValue?_hexDigit (n % 16) (by omega)
  have hzero : hexValue? '0' = some 0 := rfl
  have hlong : ¬ byteCount ('0' :: '0' :: hexDigit (n / 16) :: hexDigit (n % 16) :: rest) < 4 := by
    have h := (hexDigit (n / 16)).utf8Size_pos
    have h' := (hexDigit (n % 16)).utf8Size_pos
    have hsize : Char.utf8Size '0' = 1 := rfl
    simp only [byteCount, hsize]
    omega
  have hvalue : ((0 * 16 + 0) * 16 + n / 16) * 16 + n % 16 = n := by omega
  have hescape : hexEscape ('0' :: '0' :: hexDigit (n / 16) :: hexDigit (n % 16) :: rest) =
      .ok (n, rest) := by
    rw [hexEscape, if_neg hlong]
    simp only [hzero, hhigh, hlow, hvalue]
  have hplain : ¬ (0xDC00 ≤ n && n ≤ 0xDFFF) = true ∧ ¬ (0xD800 ≤ n && n ≤ 0xDBFF) = true := by
    simp
    omega
  rw [numberedEscape, hescape]
  simp only [Except.bind, if_neg hplain.1, if_neg hplain.2]

/-- A character is read as what was written, with an escape or without. -/
theorem stringFrom_escapeChar (fuel : Nat) (before : List Char) (c : Char) (rest : List Char) :
    stringFrom (fuel + 1) before (escapeChar c ++ rest) = stringFrom fuel (c :: before) rest := by
  rw [escapeChar]
  split_ifs with hquote hslash hline hreturn htab hback hfeed hcontrol
  · subst hquote; rfl
  · subst hslash; rfl
  · subst hline; rfl
  · subst hreturn; rfl
  · subst htab; rfl
  · subst hback; rfl
  · subst hfeed; rfl
  · have hescape : escape ('u' :: '0' :: '0' :: hexDigit (c.toNat / 16) ::
        hexDigit (c.toNat % 16) :: rest) = .ok (c, rest) := by
      rw [escape, numberedEscape_control hcontrol, Char.ofNat_toNat]
    simp [stringFrom, hescape]
  · simp [stringFrom, hquote, hslash, hcontrol]

/-- The characters of a string, up to the mark behind it. -/
theorem stringFrom_flatMap_escapeChar (rest : List Char) : {cs : List Char} → {fuel : Nat} →
    cs.length < fuel → (before : List Char) →
    stringFrom fuel before (cs.flatMap escapeChar ++ '\x22' :: rest) =
      .ok (String.ofList (before.reverse ++ cs), rest)
  | [], fuel + 1, _, before => by simp [stringFrom]
  | c :: cs, fuel + 1, hfuel, before => by
    have hfuel : cs.length < fuel := Nat.lt_of_succ_lt_succ hfuel
    rw [List.flatMap_cons, List.append_assoc, stringFrom_escapeChar,
      stringFrom_flatMap_escapeChar rest hfuel]
    simp

theorem one_le_length_escapeChar (c : Char) : 1 ≤ (escapeChar c).length := by
  rw [escapeChar]
  split_ifs <;> simp

theorem length_le_length_flatMap_escapeChar (cs : List Char) :
    cs.length ≤ (cs.flatMap escapeChar).length := by
  induction cs with
  | nil => simp
  | cons c cs ih =>
    have h := one_le_length_escapeChar c
    rw [List.flatMap_cons, List.length_append, List.length_cons]
    omega

/-- The text between the marks of a string, and the mark behind it. -/
theorem stringAfter_escaped (s : String) (rest : List Char) :
    stringAfter (s.toList.flatMap escapeChar ++ '\x22' :: rest) = .ok (s, rest) := by
  have hfuel : s.toList.length < (s.toList.flatMap escapeChar ++ '\x22' :: rest).length + 1 := by
    have h := length_le_length_flatMap_escapeChar s.toList
    rw [List.length_append]
    omega
  rw [stringAfter, stringFrom_flatMap_escapeChar rest hfuel]
  simp

/-! ### Numbers -/

theorem le_digitsValueFrom (value : Nat) (digits : List Char) :
    value ≤ digitsValueFrom value digits := by
  induction digits generalizing value with
  | nil => exact le_rfl
  | cons c digits ih =>
    have h : value * 10 + digitValue c ≤ digitsValueFrom value (c :: digits) := ih _
    omega

/-- Digits of a number of 64 bits are all added up. -/
theorem fittingDigits_append {digits rest : List Char} {value : Nat}
    (hdigits : ∀ c ∈ digits, c.isDigit) (hrest : EndsNumber rest)
    (hvalue : digitsValueFrom value digits ≤ maxUInt64) (count : Nat) :
    fittingDigits value count (digits ++ rest) =
      (digitsValueFrom value digits, count + digits.length, rest) := by
  induction digits generalizing value count with
  | nil =>
    cases rest with
    | nil => rfl
    | cons c rest =>
      have hc : ¬ c.isDigit := Bool.eq_false_iff.1 (hrest c rfl).1
      rw [List.nil_append, fittingDigits, if_neg hc]
      rfl
  | cons c digits ih =>
    obtain ⟨hc, hdigits⟩ := List.forall_mem_cons.1 hdigits
    have hfits : ¬ maxUInt64 < value * 10 + digitValue c :=
      Nat.not_lt.2 ((le_digitsValueFrom _ digits).trans hvalue)
    rw [List.cons_append, fittingDigits, if_pos hc]
    dsimp only
    rw [if_neg hfits, ih hdigits hvalue, List.length_cons, Nat.add_assoc, Nat.add_comm 1]
    rfl

/-- A natural number but zero is written without a zero in front. -/
theorem exists_toList_repr_eq (n : Nat) :
    ∃ c digits, (Nat.repr n).toList = c :: digits ∧ (c = '0' → n = 0) := by
  rw [Nat.toList_repr]
  induction n using Nat.strongRecOn with
  | _ n ih =>
    rcases Nat.lt_or_ge n 10 with hn | hn
    · have hzero : ∀ n < 10, n.digitChar = '0' → n = 0 := by decide
      exact ⟨n.digitChar, [], Nat.toDigits_of_lt_base hn, hzero n hn⟩
    · obtain ⟨c, digits, hdigits, hzero⟩ := ih (n / 10) (by omega)
      refine ⟨c, digits ++ [(n % 10).digitChar], ?_, fun hc => ?_⟩
      · rw [Nat.toDigits_of_base_le (by decide) hn, hdigits, List.cons_append]
      · have hzero := hzero hc
        omega

/-- A text that does not prolong a number starts with no digit. -/
theorem EndsNumber.span_isDigit {cs : List Char} (h : EndsNumber cs) :
    cs.takeWhile Char.isDigit = [] ∧ cs.dropWhile Char.isDigit = cs :=
  Number.span_isDigit (fun _ hc => absurd hc List.not_mem_nil) fun c hc => (h c hc).1

/-- A natural number of 64 bits is read as what was written. -/
theorem numberAfter_repr {n : Nat} (hn : n < 2 ^ 64) {rest : List Char} (hrest : EndsNumber rest)
    (negative : Bool) :
    numberAfter negative ((Nat.repr n).toList ++ rest) = .ok (integerValue negative n, rest) := by
  obtain ⟨c, digits, hrepr, hzero⟩ := exists_toList_repr_eq n
  have hdigits : ∀ d ∈ (Nat.repr n).toList, d.isDigit := fun _ => isDigit_of_mem_repr
  have hvalue : digitsValueFrom (digitValue c) digits = n := by
    have h : digitsValue (c :: digits) = n := by rw [← hrepr, digitsValue_repr]
    have hfirst : digitsValueFrom (0 * 10 + digitValue c) digits = n := h
    rwa [Nat.zero_mul, Nat.zero_add] at hfirst
  have hmax : digitsValueFrom (digitValue c) digits ≤ maxUInt64 := by
    have hmax : maxUInt64 = 2 ^ 64 - 1 := rfl
    omega
  have hlead : ¬ (c = '0' && (digits ++ rest).head?.any Char.isDigit) = true := by
    rw [Bool.and_eq_true, decide_eq_true_eq]
    rintro ⟨hc, hnext⟩
    have hnil : digits = [] := by
      rw [hzero hc, show (Nat.repr 0).toList = ['0'] from rfl] at hrepr
      exact (List.cons.inj hrepr).2.symm
    cases rest with
    | nil => simp [hnil] at hnext
    | cons d rest => simp [hnil, (hrest d rfl).1] at hnext
  rw [hrepr] at hdigits ⊢
  obtain ⟨hc, hdigits⟩ := List.forall_mem_cons.1 hdigits
  have hfit := fittingDigits_append hdigits hrest hmax 0
  rw [List.cons_append, numberAfter, if_neg (by simp [hc]), if_neg hlead, hfit, hvalue]
  simp only [hrest.span_isDigit]
  cases rest with
  | nil => rfl
  | cons d rest =>
    obtain ⟨-, hpoint, hmark⟩ := hrest d rfl
    simp [hpoint, hmark]

/-! ### Values -/

theorem skipSpace_cons {c : Char} (hc : isSpace c = false) (cs : List Char) :
    skipSpace (c :: cs) = c :: cs :=
  List.dropWhile_cons_of_neg (Bool.eq_false_iff.1 hc)

theorem isSpace_of_isDigit {c : Char} (hc : c.isDigit) : isSpace c = false := by
  have hne : c ≠ ' ' ∧ c ≠ '\n' ∧ c ≠ '\t' ∧ c ≠ '\r' := by
    refine ⟨?_, ?_, ?_, ?_⟩ <;> rintro rfl <;> exact absurd hc (by decide)
  simp [isSpace, hne]

/-- The items of a list behind the first one, each behind a comma. -/
def itemsTail : List Json → List Char
  | [] => []
  | v :: items => ',' :: (v.compact.toList ++ itemsTail items)

/-- A member of an object behind the first mark of its name. -/
def memberBody (key : String) (v : Json) : List Char :=
  key.toList.flatMap escapeChar ++ '\x22' :: ':' :: v.compact.toList

/-- The members of an object behind the first one, each behind a comma. -/
def membersTail : List (String × Json) → List Char
  | [] => []
  | (key, v) :: members => ',' :: '\x22' :: (memberBody key v ++ membersTail members)

@[simp] theorem toList_quoted (s : String) :
    (quoted s).toList = '\x22' :: (s.toList.flatMap escapeChar ++ ['\x22']) := by
  simp [quoted]

theorem toList_compact_array (v : Json) (items : List Json) :
    (array (v :: items)).compact.toList =
      '[' :: (v.compact.toList ++ itemsTail items ++ [']']) := by
  have hitems : ∀ (v : Json) (items : List Json), (joinWith "," (compactList (v :: items))).toList =
      v.compact.toList ++ itemsTail items := by
    intro v items
    induction items generalizing v with
    | nil => simp [compactList, joinWith, itemsTail]
    | cons w items ih =>
      have hw := ih w
      rw [compactList] at hw
      simp [compactList, joinWith, itemsTail, hw]
  simp [compact, hitems]

theorem toList_compact_object (key : String) (v : Json) (members : List (String × Json)) :
    (object ((key, v) :: members)).compact.toList =
      '\x7b' :: '\x22' :: (memberBody key v ++ membersTail members ++ ['\x7d']) := by
  have hmembers : ∀ (key : String) (v : Json) (members : List (String × Json)),
      (joinWith "," (compactMembers ((key, v) :: members))).toList =
        '\x22' :: (memberBody key v ++ membersTail members) := by
    intro key v members
    induction members generalizing key v with
    | nil => simp [compactMembers, joinWith, membersTail, memberBody]
    | cons pair members ih =>
      have hpair := ih pair.1 pair.2
      rw [compactMembers] at hpair
      simp [compactMembers, joinWith, membersTail, memberBody, hpair]
  simp [compact, hmembers]

/-- The text of a value starts with a character that is no blank and no bracket that closes a
list. -/
theorem IsExact.exists_toList_eq {depth : Nat} {v : Json} (h : IsExact depth v) :
    ∃ c cs, v.compact.toList = c :: cs ∧ isSpace c = false ∧ c ≠ ']' := by
  cases h with
  | null => exact ⟨'n', "ull".toList, rfl, rfl, by decide⟩
  | bool b => cases b <;> exact ⟨_, _, rfl, rfl, by decide⟩
  | @int _ i hlower hupper =>
    cases i with
    | ofNat n =>
      obtain ⟨c, cs, hrepr, -⟩ := exists_toList_repr_eq n
      have hc : c.isDigit := isDigit_of_mem_repr (hrepr ▸ List.mem_cons_self)
      refine ⟨c, cs, hrepr, ?_, ?_⟩
      · exact isSpace_of_isDigit hc
      · rintro rfl
        exact absurd hc (by decide)
    | negSucc n =>
      refine ⟨'-', (Nat.repr (n + 1)).toList, ?_, rfl, by decide⟩
      simp [compact, ofInt]
  | string s => exact ⟨'\x22', _, toList_quoted s, rfl, by decide⟩
  | @array _ items hitems =>
    cases items with
    | nil => exact ⟨'[', [']'], rfl, rfl, by decide⟩
    | cons v items => exact ⟨'[', _, toList_compact_array v items, rfl, by decide⟩
  | @object _ members hdistinct hmembers =>
    cases members with
    | nil => exact ⟨'\x7b', ['\x7d'], rfl, rfl, by decide⟩
    | cons pair members =>
      exact ⟨'\x7b', _, toList_compact_object pair.1 pair.2 members, rfl, by decide⟩

theorem setMember_of_notMem {name : String} {members : List (String × Json)}
    (h : name ∉ members.map Prod.fst) (v : Json) :
    setMember name v members = members ++ [(name, v)] := by
  induction members with
  | nil => rfl
  | cons pair members ih =>
    rw [List.map_cons, List.mem_cons, not_or] at h
    rw [setMember, if_neg (Ne.symm h.1), ih h.2, List.cons_append]

/-- Whether the text of a value is read as the value, with `depth` less one lists and objects that
may still be opened, whatever follows that does not prolong a number. -/
def IsReadBack (depth : Nat) (v : Json) : Prop :=
  ∀ (fuel : Nat) (rest : List Char), 2 * v.compact.toList.length ≤ fuel → EndsNumber rest →
    valueFrom fuel depth (v.compact.toList ++ rest) = .ok (v, rest)

theorem endsNumber_itemsTail (items : List Json) (rest : List Char) :
    EndsNumber (itemsTail items ++ ']' :: rest) := by
  cases items <;> simp [itemsTail, EndsNumber, isExponentMark]

theorem endsNumber_membersTail (members : List (String × Json)) (rest : List Char) :
    EndsNumber (membersTail members ++ '\x7d' :: rest) := by
  cases members <;> simp [membersTail, EndsNumber, isExponentMark]

/-- The items of a list from one on, one after another. -/
theorem itemsFrom_itemsTail {depth : Nat} (rest : List Char) : {items : List Json} → {v : Json} →
    (∀ w ∈ v :: items, IsReadBack depth w ∧
      ∃ c cs, w.compact.toList = c :: cs ∧ isSpace c = false ∧ c ≠ ']') →
    {fuel : Nat} → 2 * (v.compact.toList.length + (itemsTail items).length) < fuel →
    (before : List Json) →
    itemsFrom fuel depth before (v.compact.toList ++ (itemsTail items ++ ']' :: rest)) =
      .ok (.array (before.reverse ++ v :: items), rest)
  | [], v, h, fuel + 1, hfuel, before => by
    have hread := (h v List.mem_cons_self).1 fuel _ (by omega) (endsNumber_itemsTail [] rest)
    rw [itemsFrom, hread]
    simp [itemsTail, skipSpace, isSpace]
  | w :: items, v, h, fuel + 1, hfuel, before => by
    obtain ⟨⟨hread, -⟩, hrest⟩ := List.forall_mem_cons.1 h
    have hread := hread fuel _ (by omega) (endsNumber_itemsTail (w :: items) rest)
    obtain ⟨c, cs, hw, hc, hc'⟩ := (hrest w List.mem_cons_self).2
    have hfuel : 2 * (w.compact.toList.length + (itemsTail items).length) < fuel := by
      simp only [itemsTail, List.length_cons, List.length_append] at hfuel
      omega
    have ih := itemsFrom_itemsTail rest hrest hfuel (v :: before)
    rw [itemsFrom, hread]
    simp only [itemsTail, List.cons_append, skipSpace_cons (show isSpace ',' = false from rfl)]
    rw [hw] at ih ⊢
    simp only [List.cons_append, List.append_assoc, skipSpace_cons hc] at ih ⊢
    split
    · next h => exact absurd (List.cons.inj h).1 hc'
    · next h => cases h
    · rw [ih]
      simp

/-- The members of an object from one on, one after another. -/
theorem membersFrom_membersTail {depth : Nat} (rest : List Char) :
    {members : List (String × Json)} → {key : String} → {v : Json} →
    (∀ pair ∈ (key, v) :: members, IsReadBack depth pair.2) →
    {fuel : Nat} → 2 * ((memberBody key v).length + (membersTail members).length) < fuel →
    (before : List (String × Json)) → ((before ++ (key, v) :: members).map Prod.fst).Nodup →
    membersFrom fuel depth before (memberBody key v ++ (membersTail members ++ '\x7d' :: rest)) =
      .ok (.object (before ++ (key, v) :: members), rest)
  | members, key, v, h, fuel + 1, hfuel, before, hdistinct => by
    obtain ⟨hread, hrest⟩ := List.forall_mem_cons.1 h
    have hlength : 2 * v.compact.toList.length ≤ fuel := by
      simp only [memberBody, List.length_append, List.length_cons] at hfuel
      omega
    have hread := hread fuel _ hlength (endsNumber_membersTail members rest)
    have hset : setMember key v before = before ++ [(key, v)] := by
      refine setMember_of_notMem (fun hmem => ?_) v
      rw [List.map_append, List.nodup_append] at hdistinct
      exact hdistinct.2.2 key hmem key List.mem_cons_self rfl
    rw [membersFrom, memberBody, List.append_assoc, List.cons_append, stringAfter_escaped]
    simp only [List.cons_append, afterColon, skipSpace_cons (show isSpace ':' = false from rfl),
      hread, hset]
    cases members with
    | nil => simp [membersTail, skipSpace, isSpace]
    | cons pair members =>
      have hfuel :
          2 * ((memberBody pair.1 pair.2).length + (membersTail members).length) < fuel := by
        simp only [membersTail, List.length_cons, List.length_append] at hfuel
        omega
      have hdistinct :
          ((before ++ [(key, v)] ++ (pair.1, pair.2) :: members).map Prod.fst).Nodup := by
        rwa [List.append_assoc]
      have ih := membersFrom_membersTail rest hrest hfuel (before ++ [(key, v)]) hdistinct
      simp only [membersTail, List.cons_append, skipSpace_cons (show isSpace ',' = false from rfl),
        skipSpace_cons (show isSpace '\x22' = false from rfl), List.append_assoc, ih]
      simp

/-- A digit starts a natural number. -/
theorem valueFrom_digit {c : Char} (hc : c.isDigit) (fuel depth : Nat) (cs : List Char) :
    valueFrom (fuel + 1) depth (c :: cs) = numberAfter false (c :: cs) := by
  rw [valueFrom, skipSpace_cons (isSpace_of_isDigit hc)]
  split
  · next h => cases h
  -- the characters that start other values are no digits
  all_goals
    next h =>
      obtain ⟨rfl, rfl⟩ := List.cons.inj h
      first
        | exact absurd hc (by decide)
        | rw [if_pos hc]

/-- A value of which the text is read with one step that is left is read with any steps. -/
theorem IsExact.isReadBack_of_succ {d depth : Nat} {v : Json} (h : IsExact d v)
    (hread : ∀ (fuel : Nat) (rest : List Char), 2 * v.compact.toList.length ≤ fuel + 1 →
      EndsNumber rest → valueFrom (fuel + 1) depth (v.compact.toList ++ rest) = .ok (v, rest)) :
    IsReadBack depth v := by
  rintro (_ | fuel) rest hfuel hrest
  · obtain ⟨c, cs, htext, -⟩ := h.exists_toList_eq
    rw [htext, List.length_cons] at hfuel
    omega
  · exact hread fuel rest hfuel hrest

theorem isReadBack_int {depth : Nat} {i : Int} (hlower : -2 ^ 63 ≤ i) (hupper : i < 2 ^ 64) :
    IsReadBack depth (.int i) := by
  have hexact : IsExact 0 (.int i) := .int hlower hupper
  refine hexact.isReadBack_of_succ fun fuel rest hfuel hrest => ?_
  cases i with
  | ofNat n =>
    have hn : n < 2 ^ 64 := Int.ofNat_lt.1 hupper
    obtain ⟨c, cs, hrepr, -⟩ := exists_toList_repr_eq n
    have hc : c.isDigit := isDigit_of_mem_repr (hrepr ▸ List.mem_cons_self)
    have htext : (int (.ofNat n)).compact.toList = c :: cs := hrepr
    have hread := numberAfter_repr hn hrest false
    rw [hrepr] at hread
    rw [htext, List.cons_append, valueFrom_digit hc]
    exact hread
  | negSucc n =>
    have hn : n + 1 ≤ 2 ^ 63 := by omega
    have htext : (int (.negSucc n)).compact.toList = '-' :: (Nat.repr (n + 1)).toList := by
      simp [compact, ofInt]
    have hvalue : integerValue true (n + 1) = .int (.negSucc n) := by
      have hsmall : (n + 1 ≠ 0 && n + 1 ≤ 1 <<< 63) = true :=
        Bool.and_eq_true_iff.2 ⟨decide_eq_true n.succ_ne_zero, decide_eq_true hn⟩
      rw [integerValue, if_neg (by decide), if_pos hsmall]
      rfl
    have hread := numberAfter_repr (show n + 1 < 2 ^ 64 by omega) hrest true
    rw [hvalue] at hread
    rw [htext, List.cons_append, valueFrom, skipSpace_cons rfl]
    exact hread

theorem isReadBack_string {depth : Nat} (s : String) : IsReadBack depth (.string s) := by
  have hexact : IsExact 0 (.string s) := .string s
  refine hexact.isReadBack_of_succ fun fuel rest hfuel hrest => ?_
  have htext : (string s).compact.toList = '\x22' :: (s.toList.flatMap escapeChar ++ ['\x22']) :=
    toList_quoted s
  rw [htext, List.cons_append, List.append_assoc, List.singleton_append, valueFrom,
    skipSpace_cons rfl]
  simp only [stringAfter_escaped]
  rfl

/-- A list is read if its items are, with one list less that may be opened. -/
theorem isReadBack_array {d depth : Nat} {items : List Json} (hitems : ∀ v ∈ items, IsExact d v)
    (hread : ∀ v ∈ items, IsReadBack depth v) (hdepth : 0 < depth) :
    IsReadBack (depth + 1) (.array items) := by
  have hexact : IsExact (d + 1) (.array items) := .array hitems
  have hopen : ¬ depth + 1 ≤ 1 := by omega
  refine hexact.isReadBack_of_succ fun fuel rest hfuel hrest => ?_
  cases items with
  | nil =>
    have htext : (array []).compact.toList = ['[', ']'] := rfl
    rw [htext, List.cons_append, valueFrom, skipSpace_cons rfl]
    simp only [if_neg hopen, List.cons_append, skipSpace_cons (show isSpace ']' = false from rfl)]
    rfl
  | cons v items =>
    rw [toList_compact_array] at hfuel ⊢
    have hfuel : 2 * (v.compact.toList.length + (itemsTail items).length) < fuel := by
      simp only [List.length_cons, List.length_append, List.length_nil] at hfuel
      omega
    have hrun := itemsFrom_itemsTail rest
      (fun w hw => ⟨hread w hw, (hitems w hw).exists_toList_eq⟩) hfuel []
    obtain ⟨c, cs, htext, hc, hc'⟩ := (hitems v List.mem_cons_self).exists_toList_eq
    rw [List.cons_append, valueFrom, skipSpace_cons rfl]
    simp only [if_neg hopen, Nat.add_sub_cancel]
    rw [htext] at hrun ⊢
    simp only [List.cons_append, List.append_assoc, skipSpace_cons hc] at hrun ⊢
    split
    · next h => exact absurd (List.cons.inj h).1 hc'
    · next h => cases h
    · exact hrun

/-- An object is read if the values of its members are, with one object less that may be opened. -/
theorem isReadBack_object {d depth : Nat} {members : List (String × Json)}
    (hdistinct : (members.map Prod.fst).Nodup) (hmembers : ∀ pair ∈ members, IsExact d pair.2)
    (hread : ∀ pair ∈ members, IsReadBack depth pair.2) (hdepth : 0 < depth) :
    IsReadBack (depth + 1) (.object members) := by
  have hexact : IsExact (d + 1) (.object members) := .object hdistinct hmembers
  have hopen : ¬ depth + 1 ≤ 1 := by omega
  refine hexact.isReadBack_of_succ fun fuel rest hfuel hrest => ?_
  cases members with
  | nil =>
    have htext : (object []).compact.toList = ['\x7b', '\x7d'] := rfl
    rw [htext, List.cons_append, valueFrom, skipSpace_cons rfl]
    simp only [if_neg hopen, List.cons_append,
      skipSpace_cons (show isSpace '\x7d' = false from rfl)]
    rfl
  | cons pair members =>
    rw [toList_compact_object] at hfuel ⊢
    have hfuel : 2 * ((memberBody pair.1 pair.2).length + (membersTail members).length) < fuel := by
      simp only [List.length_cons, List.length_append, List.length_nil] at hfuel
      omega
    have hrun := membersFrom_membersTail rest hread hfuel [] hdistinct
    rw [List.cons_append, valueFrom, skipSpace_cons rfl]
    simp only [if_neg hopen, Nat.add_sub_cancel, List.cons_append, List.append_assoc,
      skipSpace_cons (show isSpace '\x22' = false from rfl)]
    exact hrun

/-- **The text of a value on one line is read as the value**, with anything behind that does not
prolong a number. -/
theorem isReadBack_of_isExact {d : Nat} {v : Json} (h : IsExact d v) {depth : Nat}
    (hdepth : d < depth) : IsReadBack depth v := by
  induction h generalizing depth with
  | null => exact IsExact.isReadBack_of_succ (.null : IsExact 0 .null) fun _ _ _ _ => rfl
  | bool b =>
    refine IsExact.isReadBack_of_succ (.bool b : IsExact 0 (.bool b)) fun fuel rest _ _ => ?_
    cases b <;> rfl
  | int hlower hupper => exact isReadBack_int hlower hupper
  | string s => exact isReadBack_string s
  | array hitems ih =>
    obtain ⟨k, rfl⟩ : ∃ k, depth = k + 1 := ⟨depth - 1, by omega⟩
    exact isReadBack_array hitems (fun v hv => ih v hv (by omega)) (by omega)
  | object hdistinct hmembers ih =>
    obtain ⟨k, rfl⟩ : ∃ k, depth = k + 1 := ⟨depth - 1, by omega⟩
    exact isReadBack_object hdistinct hmembers (fun pair hpair => ih pair hpair (by omega))
      (by omega)

/-- **The text of a value on one line is read as the value.** -/
theorem read_compact {d : Nat} {v : Json} (h : IsExact d v) (hdepth : d < depthLimit) :
    read v.compact = .ok v := by
  have hread := isReadBack_of_isExact h hdepth (2 * v.compact.toList.length + 2) [] (by omega)
    (fun c hc => by cases hc)
  rw [List.append_nil] at hread
  rw [read, readBy]
  simp only [whole, anyFrom, hread]
  rfl

end Json

end EdgeHealth
