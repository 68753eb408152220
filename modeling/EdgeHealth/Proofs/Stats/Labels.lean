import Mathlib.Data.List.TakeWhile
import Mathlib.Order.Basic
import EdgeHealth.Proofs.Data.Grown
import EdgeHealth.Proofs.Text.Pieces
import EdgeHealth.Stats.Exposition

/-!
# Labels that are written and read

Labels are written with their values between quotation marks, in which a backslash, a quotation mark
and a line feed are escaped, and with commas between them. They are read by cutting at commas and
equals signs and removing quotation marks, so that the escapes stay. Labels whose values hold no
comma are read one by one; such a value is read back if and only if it needs no escape.

## Main definitions

* `Label.isName` : the names of metrics and of labels.
* `Label.writeLabels` : labels as they are written.
* `Label.readBack` : the value of a written label as it is read.
* `Label.IsPlain` : the values of labels that are read back.

## Main results

* `Label.readBack_eq_iff` : the values that are read as what was written.
* `Label.readLabels_writeLabels_eq_iff` : the labels that are read as what was written.
* `Label.mem_of_mem_readLabels` : what the values of labels that are read do not hold.
-/

namespace EdgeHealth.Label

open Text

/-! ### The format -/

/-- A character that a name can start with. -/
def isNameStart (c : Char) : Bool := c.isAlpha || c == '_' || c == ':'

/-- A character of a name. -/
def isNameChar (c : Char) : Bool := isNameStart c || c.isDigit

/-- A name of a metric or of a label. -/
def isName : List Char → Bool
  | [] => false
  | c :: rest => isNameStart c && rest.all isNameChar

/-- A character in the value of a label. -/
def escape (c : Char) : List Char :=
  if c = '\\' ∨ c = '\x22' then ['\\', c] else if c = '\n' then ['\\', 'n'] else [c]

/-- The value of a label without the quotation marks around it. -/
def escaped (value : String) : List Char := value.toList.flatMap escape

/-- A label. -/
def writeLabel (label : String × String) : List Char :=
  label.1.toList ++ '=' :: '\x22' :: (escaped label.2 ++ ['\x22'])

/-- Labels with commas between them. -/
def writeLabels : List (String × String) → List Char
  | [] => []
  | [label] => writeLabel label
  | label :: next :: rest => writeLabel label ++ ',' :: writeLabels (next :: rest)

/-- The values of labels that are read back. -/
def IsPlain (value : String) : Prop :=
  ∀ c ∈ value.toList, c ≠ '\x7d' ∧ c ≠ ',' ∧ c ≠ '\\' ∧ c ≠ '\x22' ∧ c ≠ '\n'

instance (value : String) : Decidable (IsPlain value) :=
  List.decidableBAll _ value.toList

/-! ### Characters -/

/-- The characters of names are not blank, and they mean nothing to the reader. -/
theorem isNameChar_ne {c : Char} (h : isNameChar c) :
    isBlank c = false ∧ c ≠ '#' ∧ c ≠ '\x7b' ∧ c ≠ '\x7d' ∧ c ≠ ',' ∧ c ≠ '=' ∧ c ≠ '\x22' ∧
      c ≠ '\n' := by
  refine ⟨?_, ?_, ?_, ?_, ?_, ?_, ?_, ?_⟩
  · have hrange : 48 ≤ c.toNat ∧ c.toNat ≤ 122 := by
      unfold isNameChar isNameStart Char.isAlpha Char.isUpper Char.isLower Char.isDigit at h
      simp only [Bool.or_eq_true, Bool.and_eq_true, decide_eq_true_eq, beq_iff_eq, ge_iff_le,
        UInt32.le_iff_toNat_le] at h
      rcases h with (((h | h) | rfl) | rfl) | h
      · exact ⟨le_trans (by decide) h.1, le_trans h.2 (by decide)⟩
      · exact ⟨le_trans (by decide) h.1, le_trans h.2 (by decide)⟩
      · decide
      · decide
      · exact ⟨le_trans (by decide) h.1, le_trans h.2 (by decide)⟩
    rw [isBlank]
    grind
  all_goals
    rintro rfl
    exact absurd h (by decide)

theorem isNameChar_of_mem {cs : List Char} (h : isName cs) {c : Char} (hc : c ∈ cs) :
    isNameChar c := by
  cases cs with
  | nil => exact absurd hc List.not_mem_nil
  | cons first rest =>
    rw [isName, Bool.and_eq_true, List.all_eq_true] at h
    rcases List.mem_cons.1 hc with rfl | hc
    · rw [isNameChar, h.1, Bool.true_or]
    · exact h.2 c hc

/-- An escaped value holds the characters of the value, backslashes, and the letter of the line
feed. -/
theorem mem_of_mem_escaped {value : String} {c : Char} (h : c ∈ escaped value) :
    (c ∈ value.toList ∧ c ≠ '\n') ∨ c = '\\' ∨ c = 'n' := by
  obtain ⟨d, hd, hc⟩ := List.mem_flatMap.1 h
  rw [escape] at hc
  grind

/-- A label holds a character only in its value, unless the character is one of a name, an equals
sign, a quotation mark or a backslash. -/
theorem notMem_writeLabel {label : String × String} (hname : isName label.1.toList) {c : Char}
    (hc : isNameChar c = false) (hequals : c ≠ '=') (hquote : c ≠ '\x22') (hslash : c ≠ '\\')
    (h : c ∉ label.2.toList ∨ c = '\n') : c ∉ writeLabel label := by
  intro hmem
  rw [writeLabel, List.mem_append, List.mem_cons, List.mem_cons, List.mem_append,
    List.mem_singleton] at hmem
  rcases hmem with hmem | hmem | hmem | hmem | hmem
  · rw [isNameChar_of_mem hname hmem] at hc
    exact Bool.noConfusion hc
  · exact hequals hmem
  · exact hquote hmem
  · rcases mem_of_mem_escaped hmem with ⟨hvalue, hne⟩ | hmem | rfl
    · exact h.elim (fun h => h hvalue) (fun h => hne h)
    · exact hslash hmem
    · exact Bool.noConfusion hc
  · exact hquote hmem

/-- Labels hold a character that is no comma only if one of them holds it. -/
theorem notMem_writeLabels {c : Char} (hcomma : c ≠ ',') : {labels : List (String × String)} →
    (∀ label ∈ labels, c ∉ writeLabel label) → c ∉ writeLabels labels
  | [], _ => List.not_mem_nil
  | [label], h => h label List.mem_cons_self
  | label :: next :: rest, h => by
    rw [writeLabels, List.mem_append, List.mem_cons]
    have hrest : c ∉ writeLabels (next :: rest) :=
      notMem_writeLabels hcomma fun label hlabel => h label (List.mem_cons_of_mem _ hlabel)
    rintro (hmem | hmem | hmem)
    · exact h label List.mem_cons_self hmem
    · exact hcomma hmem
    · exact hrest hmem

/-! ### Labels -/

/-- The value of a label as it is read. -/
def readBack (value : String) : String :=
  String.ofList (Sample.unquoted ('\x22' :: (escaped value ++ ['\x22'])))

/-- A label is read by itself. -/
theorem label?_writeLabel {label : String × String} (hname : isName label.1.toList) :
    Sample.label? (writeLabel label) = some (label.1, readBack label.2) := by
  have hequals : '=' ∉ label.1.toList := fun hmem =>
    absurd (isNameChar_of_mem hname hmem) (by decide)
  have hblank : ∀ c ∈ label.1.toList, isBlank c = false := fun c hc =>
    (isNameChar_ne (isNameChar_of_mem hname hc)).1
  have hquoted : trimBlank ('\x22' :: (escaped label.2 ++ ['\x22'])) =
      '\x22' :: (escaped label.2 ++ ['\x22']) := by
    refine trimBlank_eq_self ?_ ?_
    · rintro c ⟨⟩
      rfl
    · rw [← List.cons_append, List.getLast?_concat]
      rintro c ⟨⟩
      rfl
  rw [Sample.label?, writeLabel, cutAt?_append hequals, Option.map_some]
  simp only [trimBlank_of_forall hblank, hquoted, String.ofList_toList, readBack]

/-- Labels without commas in their values are the pieces between commas. -/
theorem splitOn_writeLabels : {labels : List (String × String)} → labels ≠ [] →
    (∀ label ∈ labels, ',' ∉ writeLabel label) →
    splitOn ',' (writeLabels labels) = labels.map writeLabel
  | [], h, _ => absurd rfl h
  | [label], _, h => splitOn_eq_singleton (h label List.mem_cons_self)
  | label :: next :: rest, _, h => by
    rw [writeLabels, splitOn_append (h label List.mem_cons_self),
      splitOn_writeLabels (List.cons_ne_nil _ _) fun label hlabel =>
        h label (List.mem_cons_of_mem _ hlabel)]
    rfl

/-- Labels without commas in their values are read one by one. -/
theorem filterMap_label?_writeLabels {labels : List (String × String)}
    (hname : ∀ label ∈ labels, isName label.1.toList)
    (hcomma : ∀ label ∈ labels, ',' ∉ label.2.toList) :
    (splitOn ',' (writeLabels labels)).filterMap Sample.label? =
      labels.map fun label => (label.1, readBack label.2) := by
  cases labels with
  | nil => rfl
  | cons label rest =>
    have hwritten : ∀ l ∈ label :: rest, ',' ∉ writeLabel l := fun l hl =>
      notMem_writeLabel (hname l hl) (by decide) (by decide) (by decide) (by decide)
        (.inl (hcomma l hl))
    rw [splitOn_writeLabels (List.cons_ne_nil _ _) hwritten, List.filterMap_map,
      ← List.filterMap_eq_map]
    exact List.filterMap_congr fun l hl => label?_writeLabel (hname l hl)

/-! ### Values of labels -/

/-- Quotation marks around a text that neither starts nor ends with one are removed. -/
theorem unquoted_eq {cs quotes : List Char} (hfirst : ∀ c ∈ cs.head?, c ≠ '\x22')
    (hlast : ∀ c ∈ cs.getLast?, c ≠ '\x22') (hquotes : ∀ c ∈ quotes, c = '\x22') :
    Sample.unquoted ('\x22' :: (cs ++ quotes)) = cs := by
  have hall : ∀ c ∈ quotes, (c == '\x22') = true := fun c hc => beq_iff_eq.2 (hquotes c hc)
  rw [Sample.unquoted, List.dropWhile_cons_of_pos (by rfl)]
  cases cs with
  | nil => rw [List.nil_append, List.dropWhile_eq_nil_iff.2 hall]; rfl
  | cons c cs =>
    have hc : ¬ (c == '\x22') = true := by simpa using hfirst c rfl
    have hreverse : (c :: cs).reverse.dropWhile (· == '\x22') = (c :: cs).reverse := by
      rw [← List.head?_reverse] at hlast
      cases hcs : (c :: cs).reverse with
      | nil => rfl
      | cons d ds =>
        rw [List.dropWhile_cons_of_neg]
        simpa using hlast d (by rw [hcs]; rfl)
    rw [List.cons_append, List.dropWhile_cons_of_neg (p := (· == '\x22')) hc, ← List.cons_append,
      List.reverse_append,
      List.dropWhile_append_of_pos fun d hd => hall d (List.mem_reverse.1 hd), hreverse,
      List.reverse_reverse]

/-- The characters of a value that are written as they are. -/
theorem flatMap_escape_eq_self_iff (cs : List Char) :
    cs.flatMap escape = cs ↔ ∀ c ∈ cs, c ≠ '\\' ∧ c ≠ '\x22' ∧ c ≠ '\n' := by
  have hlength : ∀ cs : List Char, cs.length ≤ (cs.flatMap escape).length := by
    intro cs
    induction cs with
    | nil => exact le_rfl
    | cons c cs ih =>
      have hc : 1 ≤ (escape c).length := by
        rw [escape]
        split_ifs <;> simp
      rw [List.flatMap_cons, List.length_append, List.length_cons]
      omega
  induction cs with
  | nil => simp
  | cons c cs ih =>
    rw [List.flatMap_cons, List.forall_mem_cons, escape]
    split_ifs with hslash hn
    · refine iff_of_false (fun h => ?_) (by tauto)
      have := congrArg List.length h
      have := hlength cs
      simp only [List.cons_append, List.nil_append, List.length_cons] at *
      omega
    · refine iff_of_false (fun h => ?_) (by tauto)
      have := congrArg List.length h
      have := hlength cs
      simp only [List.cons_append, List.nil_append, List.length_cons] at *
      omega
    · simp only [List.singleton_append, List.cons.injEq, true_and, ih]
      rw [not_or] at hslash
      exact ⟨fun h => ⟨⟨hslash.1, hslash.2, hn⟩, h⟩, And.right⟩

/-- A written value starts with no quotation mark. -/
theorem ne_of_mem_head?_flatMap_escape {cs : List Char} :
    ∀ c ∈ (cs.flatMap escape).head?, c ≠ '\x22' := by
  intro c hc
  cases cs with
  | nil => exact absurd hc (Option.not_mem_none c)
  | cons d ds =>
    rw [List.flatMap_cons, escape] at hc
    split_ifs at hc <;> grind

/-- A quotation mark at the end of a value goes with the one that closes the value, and its
backslash stays. -/
theorem unquoted_flatMap_escape_quote (front : List Char) :
    Sample.unquoted ('\x22' :: ((front ++ ['\x22']).flatMap escape ++ ['\x22'])) =
      front.flatMap escape ++ ['\\'] := by
  have hsplit : (front ++ ['\x22']).flatMap escape ++ ['\x22'] =
      (front.flatMap escape ++ ['\\']) ++ ['\x22', '\x22'] := by
    rw [List.flatMap_append, List.flatMap_singleton, escape, if_pos (.inr rfl)]
    simp
  rw [hsplit]
  refine unquoted_eq ?head ?last (by simp)
  case head =>
    intro c hc
    cases hfront : front.flatMap escape with
    | nil =>
      rw [hfront] at hc
      rintro rfl
      exact absurd hc (by decide)
    | cons d ds =>
      have hhead : c ∈ (front.flatMap escape).head? := by
        rw [hfront] at hc ⊢
        exact hc
      exact ne_of_mem_head?_flatMap_escape c hhead
  case last =>
    rw [List.getLast?_concat]
    rintro c ⟨⟩
    decide

/-- A value that ends in another character is read as it was escaped. -/
theorem unquoted_flatMap_escape {front : List Char} {last : Char} (hlast : last ≠ '\x22') :
    Sample.unquoted ('\x22' :: ((front ++ [last]).flatMap escape ++ ['\x22'])) =
      (front ++ [last]).flatMap escape := by
  refine unquoted_eq ne_of_mem_head?_flatMap_escape ?_ (by simp)
  rw [List.flatMap_append, List.flatMap_singleton, escape]
  split_ifs <;> grind

/-- **The values that are read as what was written.** -/
theorem readBack_eq_iff (value : String) :
    readBack value = value ↔ ∀ c ∈ value.toList, c ≠ '\\' ∧ c ≠ '\x22' ∧ c ≠ '\n' := by
  rw [readBack, ← String.toList_inj, String.toList_ofList, escaped]
  rcases List.eq_nil_or_concat value.toList with hnil | ⟨front, last, hvalue⟩
  · rw [hnil]
    exact iff_of_true rfl (by simp)
  rw [hvalue, List.concat_eq_append]
  by_cases hlast : last = '\x22'
  · rw [hlast, unquoted_flatMap_escape_quote]
    refine iff_of_false (fun h => ?_) (by simp)
    have := congrArg List.getLast? h
    rw [List.getLast?_concat, List.getLast?_concat] at this
    exact absurd this (by decide)
  · rw [unquoted_flatMap_escape hlast]
    exact flatMap_escape_eq_self_iff _

/-- The values of labels that are read hold neither commas nor characters that are not there. -/
theorem mem_of_mem_readLabels {inner : List Char} {label : String × String}
    (h : label ∈ (Sample.readLabels inner).toList) {c : Char} (hc : c ∈ label.2.toList) :
    c ∈ inner ∧ c ≠ ',' := by
  obtain ⟨piece, hpiece, hlabel⟩ := List.mem_filterMap.1 (Table.mem_of_mem_ofList h)
  obtain ⟨⟨name, value⟩, hcut, rfl⟩ := Option.map_eq_some_iff.1 hlabel
  have hmem : c ∈ value := by
    rw [String.toList_ofList, Sample.unquoted, List.mem_reverse] at hc
    exact mem_of_mem_trimBlank ((List.dropWhile_sublist _).mem
      (List.mem_reverse.1 ((List.dropWhile_sublist _).mem hc)))
  refine mem_of_mem_splitOn hpiece ?_
  rw [(notMem_of_cutAt? hcut).2]
  exact List.mem_append_right _ (List.mem_cons_of_mem _ hmem)

/-- Labels are read back if their values hold no comma and are kept one by one. -/
theorem readLabels_writeLabels_eq_iff {labels : Table String}
    (hname : ∀ label ∈ labels.toList, isName label.1.toList)
    (hcomma : ∀ label ∈ labels.toList, ',' ∉ label.2.toList) :
    Sample.readLabels (writeLabels labels.toList) = labels ↔
      ∀ label ∈ labels.toList, readBack label.2 = label.2 := by
  have hread : Sample.readLabels (writeLabels labels.toList) = labels.mapValues readBack := by
    rw [Sample.readLabels, filterMap_label?_writeLabels hname hcomma]
    exact Table.ofList_toList (labels.mapValues readBack)
  rw [hread]
  constructor
  · intro h label hlabel
    have hmem : (label.1, readBack label.2) ∈ (labels.mapValues readBack).toList :=
      List.mem_map_of_mem (f := fun pair : String × String => (pair.1, readBack pair.2)) hlabel
    rw [h, Table.mem_toList_iff] at hmem
    have hvalue : labels.get? label.1 = some label.2 := Table.mem_toList_iff.1 hlabel
    rw [hvalue] at hmem
    exact (Option.some.inj hmem).symm
  · intro h
    have htoList : (labels.mapValues readBack).toList = labels.toList := by
      refine (List.map_congr_left fun label hlabel => ?_).trans (List.map_id _)
      exact Prod.ext rfl (h label hlabel)
    cases labels
    rw [Table.mapValues, Table.mk.injEq]
    exact htoList

end EdgeHealth.Label
