import EdgeHealth.Proofs.Text.Pieces
import EdgeHealth.Yaml.Writer

/-!
# Texts without escape characters

An escape character starts the sequences by which a terminal is told about colours. Whatever is
written of numbers has none, and values are written without one, on a line and as a document, if
none of their texts has one.

## Main definitions

* `Text.IsClean` : a text without an escape character.
* `Json.texts` : the texts in a value.

## Main results

* `Number.isClean_write` : numbers are written without escape characters.
* `Json.isClean_compact` : values on a line.
* `Yaml.isClean_document` : values as documents.
-/

namespace EdgeHealth

namespace Text

/-- A text without an escape character. -/
def IsClean (s : String) : Prop := '\x1b' ∉ s.toList

instance (s : String) : Decidable (IsClean s) := inferInstanceAs (Decidable (_ ∉ _))

@[simp] theorem isClean_append {s t : String} : IsClean (s ++ t) ↔ IsClean s ∧ IsClean t := by
  rw [IsClean, String.toList_append, List.mem_append, not_or]
  rfl

@[simp] theorem isClean_ofList {cs : List Char} : IsClean (String.ofList cs) ↔ '\x1b' ∉ cs := by
  rw [IsClean, String.toList_ofList]

theorem isClean_joinWith {sep : String} (hsep : IsClean sep) : {l : List String} →
    (∀ s ∈ l, IsClean s) → IsClean (joinWith sep l)
  | [], _ => List.not_mem_nil
  | [s], h => h s List.mem_cons_self
  | s :: t :: rest, h => by
    obtain ⟨hs, hrest⟩ := List.forall_mem_cons.1 h
    rw [joinWith, isClean_append, isClean_append]
    exact ⟨⟨hs, hsep⟩, isClean_joinWith hsep hrest⟩

theorem notMem_replicate {c : Char} (hc : c ≠ '\x1b') (n : Nat) : '\x1b' ∉ List.replicate n c :=
  fun hmem => hc (List.eq_of_mem_replicate hmem).symm

/-- What is written of characters has no escape character if that is so of each of them. -/
theorem notMem_flatMap {write : Char → List Char} (hwrite : ∀ c, c ≠ '\x1b' → '\x1b' ∉ write c)
    {cs : List Char} (h : '\x1b' ∉ cs) : '\x1b' ∉ cs.flatMap write := by
  intro hmem
  obtain ⟨c, hc, hmem⟩ := List.mem_flatMap.1 hmem
  exact hwrite c (fun heq => h (heq ▸ hc)) hmem

theorem isClean_repeated {c : Char} (hc : c ≠ '\x1b') (n : Nat) : IsClean (repeated c n) :=
  isClean_ofList.2 (notMem_replicate hc n)

/-- The lines of a text without an escape character have none. -/
theorem isClean_of_mem_lines {s : String} (h : IsClean s) {line : List Char}
    (hline : line ∈ lines s.toList) : IsClean (String.ofList line) :=
  isClean_ofList.2 fun hmem => h (mem_of_mem_lines hline hmem)

/-! ### Digits -/

/-- A digit is written by `Nat.digitChar`. -/
theorem exists_digitChar_of_mem_toDigits {base n : Nat} (hbase : 1 < base) {c : Char}
    (h : c ∈ Nat.toDigits base n) : ∃ d, c = Nat.digitChar d := by
  induction n using Nat.strongRecOn with
  | ind n ih =>
    rw [Nat.toDigits_eq_if hbase] at h
    split at h
    · exact ⟨n, List.mem_singleton.1 h⟩
    · next hge =>
      rcases List.mem_append.1 h with h | h
      · exact ih _ (Nat.div_lt_self (by omega) hbase) h
      · exact ⟨_, List.mem_singleton.1 h⟩

theorem notMem_toDigits {base : Nat} (hbase : 1 < base) (n : Nat) :
    '\x1b' ∉ Nat.toDigits base n := by
  intro h
  obtain ⟨d, hd⟩ := exists_digitChar_of_mem_toDigits hbase h
  exact Nat.digitChar_ne '\x1b' (by decide) hd.symm

theorem toUpper_digitChar_ne (d : Nat) : (Nat.digitChar d).toUpper ≠ '\x1b' := by
  match d with
  | 0 | 1 | 2 | 3 | 4 | 5 | 6 | 7 | 8 | 9 | 10 | 11 | 12 | 13 | 14 | 15 => decide
  | d + 16 =>
    have hstar : Nat.digitChar (d + 16) = '*' := Nat.digitChar_eq_star.2 (by omega)
    rw [hstar]
    decide

theorem isClean_repr (n : Nat) : IsClean (Nat.repr n) := by
  rw [IsClean, Nat.toList_repr]
  exact notMem_toDigits (by decide) n

theorem isClean_ofInt (i : Int) : IsClean (ofInt i) := by
  cases i with
  | ofNat n => exact isClean_repr n
  | negSucc n => exact isClean_append.2 ⟨by decide, isClean_repr (n + 1)⟩

end Text

open Text

/-! ### Numbers -/

namespace Number

theorem isClean_fixedText {digits : String} (h : IsClean digits) (top : Int) :
    IsClean (fixedText digits top) := by
  cases top with
  | negSucc k =>
    exact isClean_append.2 ⟨isClean_append.2 ⟨by decide, isClean_repeated (by decide) k⟩, h⟩
  | ofNat k =>
    rw [fixedText]
    split
    · exact isClean_append.2 ⟨isClean_append.2 ⟨h, isClean_repeated (by decide) _⟩, by decide⟩
    · simp only [isClean_append, isClean_ofList]
      exact ⟨⟨fun hmem => h (List.mem_of_mem_take hmem), by decide⟩,
        fun hmem => h (List.mem_of_mem_drop hmem)⟩

theorem isClean_exponentText {digits : String} (h : IsClean digits) (plusSign : Bool) (top : Int) :
    IsClean (exponentText plusSign digits top) := by
  rw [exponentText]
  have hsign : IsClean (if plusSign && 0 ≤ top then "+" else "") := by split <;> decide
  simp only [isClean_append]
  refine ⟨⟨⟨?_, by decide⟩, hsign⟩, isClean_ofInt top⟩
  split
  · next first second rest heq =>
    rw [IsClean, heq] at h
    simp only [isClean_ofList, List.mem_cons] at h ⊢
    tauto
  · exact h

/-- Numbers are written without escape characters. -/
theorem isClean_write {layout : FloatLayout} (hnan : IsClean layout.nanText)
    (hinfinity : IsClean layout.infinityText) (x : Binary64) : IsClean (layout.write x) := by
  have hsign : ∀ negative : Bool, IsClean (if negative then "-" else "") := by decide
  cases x with
  | nan => exact hnan
  | infinite negative => exact isClean_append.2 ⟨hsign negative, hinfinity⟩
  | finite negative m e =>
    refine isClean_append.2 ⟨hsign negative, ?_⟩
    have hdigits : IsClean (shortest m e).1 := isClean_repr _
    split
    · decide
    · dsimp only
      split
      · exact isClean_fixedText hdigits _
      · exact isClean_exponentText hdigits _ _

end Number

/-! ### Values on a line -/

namespace Json

mutual

/-- The texts in a value: those that are values and those that are names. -/
def texts : Json → List String
  | .string s => [s]
  | .array items => itemTexts items
  | .object members => memberTexts members
  | _ => []

/-- The texts in the items of an array. -/
def itemTexts : List Json → List String
  | [] => []
  | v :: rest => texts v ++ itemTexts rest

/-- The texts in the members of an object. -/
def memberTexts : List (String × Json) → List String
  | [] => []
  | (key, v) :: rest => key :: texts v ++ memberTexts rest

end

theorem hexDigit_ne (n : Nat) : hexDigit n ≠ '\x1b' := by
  intro h
  refine notMem_toDigits (by decide : 1 < 16) n ?_
  rw [hexDigit] at h
  cases hdigits : Nat.toDigits 16 n with
  | nil => exact absurd hdigits Nat.toDigits_ne_nil
  | cons c rest =>
    rw [hdigits, List.headD_cons] at h
    rw [h]
    exact List.mem_cons_self

/-- A character that is escaped or not is no escape character. -/
theorem notMem_escapeChar (c : Char) (h : c ≠ '\x1b') : '\x1b' ∉ escapeChar c := by
  have hhigh : '\x1b' ≠ hexDigit (c.toNat / 16) := (hexDigit_ne _).symm
  have hlow : '\x1b' ≠ hexDigit (c.toNat % 16) := (hexDigit_ne _).symm
  rw [escapeChar]
  split_ifs <;> simp [hhigh, hlow, h.symm]

theorem isClean_quoted {s : String} (h : IsClean s) : IsClean (quoted s) := by
  have hescaped : '\x1b' ∉ s.toList.flatMap escapeChar := notMem_flatMap notMem_escapeChar h
  rw [quoted, isClean_ofList]
  simpa using hescaped

mutual

/-- Values are written on a line without escape characters. -/
theorem isClean_compact : (v : Json) → (∀ s ∈ v.texts, IsClean s) → IsClean v.compact
  | .null, _ => by decide
  | .bool b, _ => by cases b <;> decide
  | .int i, _ => isClean_ofInt i
  | .real x, _ => Number.isClean_write (by decide) (by decide) x
  | .string s, h => isClean_quoted (h s List.mem_cons_self)
  | .array items, h => by
    rw [compact, isClean_append, isClean_append]
    exact ⟨⟨by decide, isClean_joinWith (by decide) (isClean_compactList items h)⟩, by decide⟩
  | .object members, h => by
    rw [compact, isClean_append, isClean_append]
    exact ⟨⟨by decide, isClean_joinWith (by decide) (isClean_compactMembers members h)⟩, by decide⟩

theorem isClean_compactList : (items : List Json) → (∀ s ∈ itemTexts items, IsClean s) →
    ∀ s ∈ compactList items, IsClean s
  | [], _ => fun s hs => absurd hs List.not_mem_nil
  | v :: rest, h => by
    rw [itemTexts, List.forall_mem_append] at h
    exact List.forall_mem_cons.2 ⟨isClean_compact v h.1, isClean_compactList rest h.2⟩

theorem isClean_compactMembers : (members : List (String × Json)) →
    (∀ s ∈ memberTexts members, IsClean s) → ∀ s ∈ compactMembers members, IsClean s
  | [], _ => fun s hs => absurd hs List.not_mem_nil
  | (key, v) :: rest, h => by
    rw [memberTexts, List.cons_append, List.forall_mem_cons, List.forall_mem_append] at h
    refine List.forall_mem_cons.2 ⟨?_, isClean_compactMembers rest h.2.2⟩
    rw [isClean_append, isClean_append]
    exact ⟨⟨isClean_quoted h.1, by decide⟩, isClean_compact v h.2.1⟩

end

/-- A value as a reader sees it has no escape character. -/
theorem isClean_scalarText {v : Json} (h : ∀ s ∈ v.texts, IsClean s) : IsClean v.scalarText := by
  cases v with
  | string s => exact h s List.mem_cons_self
  | null => decide
  | _ => exact isClean_compact _ h

end Json

/-! ### Values as documents -/

namespace Yaml

theorem notMem_blanks (n : Nat) : '\x1b' ∉ blanks n := notMem_replicate (by decide) n

/-- Indented lines hold what is written of their characters, and blanks. -/
theorem notMem_indented {indent : Nat} {write : Char → List Char}
    (hwrite : ∀ c, c ≠ '\x1b' → '\x1b' ∉ write c) : (broken : Bool) → {cs : List Char} →
    '\x1b' ∉ cs → '\x1b' ∉ indented indent write broken cs
  | _, [], _ => List.not_mem_nil
  | broken, c :: cs, h => by
    rw [List.mem_cons, not_or] at h
    have hblanks : '\x1b' ∉ (if broken then blanks indent else []) := by
      split
      · exact notMem_blanks indent
      · exact List.not_mem_nil
    rw [indented]
    split
    · rw [List.mem_cons, not_or]
      exact ⟨h.1, notMem_indented hwrite true h.2⟩
    · rw [List.mem_append, List.mem_append, not_or, not_or]
      exact ⟨⟨hblanks, hwrite c (Ne.symm h.1)⟩, notMem_indented hwrite false h.2⟩

theorem notMem_singleQuoted (indent : Nat) {cs : List Char} (h : '\x1b' ∉ cs) :
    '\x1b' ∉ singleQuoted indent cs := by
  have hquote : ∀ c, c ≠ '\x1b' → '\x1b' ∉ doubleQuote c := by
    intro c hc
    rw [doubleQuote]
    split <;> simp [hc.symm]
  have hclosing : '\x1b' ∉ (if cs.getLast?.any isBreak then blanks indent else []) := by
    split
    · exact notMem_blanks indent
    · exact List.not_mem_nil
  have hinner : '\x1b' ∉ indented indent doubleQuote false cs := notMem_indented hquote false h
  rw [singleQuoted]
  simp only [List.cons_append, List.mem_cons, List.mem_append, List.not_mem_nil, or_false, not_or]
  exact ⟨by decide, ⟨hinner, hclosing⟩, by decide⟩

theorem notMem_hexDigits (width n : Nat) : '\x1b' ∉ hexDigits width n := by
  rw [hexDigits, List.mem_append, not_or]
  refine ⟨notMem_replicate (by decide) _, fun hmem => ?_⟩
  obtain ⟨c, hc, heq⟩ := List.mem_map.1 hmem
  obtain ⟨d, rfl⟩ := exists_digitChar_of_mem_toDigits (by decide) hc
  exact toUpper_digitChar_ne d heq

/-- The letters of escapes are no escape characters. -/
theorem letter_ne_of_lookup {n : Nat} {letter : Char} (h : letterEscapes.lookup n = some letter) :
    letter ≠ '\x1b' := by
  have hall : ∀ pair ∈ letterEscapes, pair.2 ≠ '\x1b' := by decide
  obtain ⟨before, after, heq, -⟩ := List.lookup_eq_some_iff.1 h
  exact hall (n, letter) (heq ▸ List.mem_append_right before List.mem_cons_self)

theorem notMem_escaped (c : Char) (hc : c ≠ '\x1b') : '\x1b' ∉ escaped c := by
  rw [escaped]
  split
  · simpa using hc.symm
  · split
    · next letter hletter => simpa using (letter_ne_of_lookup hletter).symm
    · split_ifs <;> simp [notMem_hexDigits]

theorem notMem_doubleQuoted {cs : List Char} (h : '\x1b' ∉ cs) : '\x1b' ∉ doubleQuoted cs := by
  have hinner : '\x1b' ∉ cs.flatMap escaped := notMem_flatMap notMem_escaped h
  rw [doubleQuoted]
  simpa using hinner

theorem notMem_literal (indent : Nat) {cs : List Char} (h : '\x1b' ∉ cs) :
    '\x1b' ∉ literal indent cs := by
  have hinner : '\x1b' ∉ indented indent (fun c => [c]) true cs :=
    notMem_indented (fun c hc => by simpa using hc.symm) true h
  have hdepth : '\x1b' ∉ (if cs.head?.any (fun c => c == ' ' || isBreak c) then ['2'] else []) := by
    split <;> decide
  have hchomping : '\x1b' ∉ chomping cs := by
    rw [chomping]
    split
    · decide
    · split <;> decide
    · split_ifs <;> decide
  rw [literal]
  simp only [List.cons_append, List.mem_cons, List.mem_append, not_or]
  exact ⟨by decide, ⟨hdepth, hchomping⟩, by decide, hinner⟩

/-- A text is written in its style without escape characters. -/
theorem isClean_scalar (indent : Nat) {s : String} (h : IsClean s) : IsClean (scalar indent s) := by
  rw [scalar]
  split
  · exact h
  · exact isClean_ofList.2 (notMem_singleQuoted indent h)
  · exact isClean_ofList.2 (notMem_doubleQuoted h)
  · exact isClean_ofList.2 (notMem_literal indent h)

theorem isClean_newLine (before : String) (indent : Nat) : IsClean (newLine before indent) := by
  have hblanks : IsClean (String.ofList (blanks indent)) := isClean_ofList.2 (notMem_blanks indent)
  rw [newLine]
  split
  · exact hblanks
  · exact isClean_append.2 ⟨by decide, hblanks⟩

theorem isClean_stack (indent : Nat) : {pieces : List String} → (∀ s ∈ pieces, IsClean s) →
    IsClean (stack indent pieces)
  | [], _ => List.not_mem_nil
  | [piece], h => h piece List.mem_cons_self
  | piece :: next :: rest, h => by
    obtain ⟨hpiece, hrest⟩ := List.forall_mem_cons.1 h
    rw [stack, isClean_append, isClean_append]
    exact ⟨⟨hpiece, isClean_newLine piece indent⟩, isClean_stack indent hrest⟩

theorem isClean_afterKey (indent : Nat) (v : Json) : IsClean (afterKey indent v) := by
  rw [afterKey]
  split_ifs
  · exact isClean_append.2 ⟨by decide, isClean_ofList.2 (notMem_blanks _)⟩
  · exact isClean_append.2 ⟨by decide, isClean_ofList.2 (notMem_blanks _)⟩
  · decide

mutual

theorem isClean_node : (indent : Nat) → (v : Json) → (∀ s ∈ v.texts, IsClean s) →
    IsClean (node indent v)
  | _, .null, _ => by rw [node]; decide
  | _, .bool b, _ => by rw [node]; cases b <;> decide
  | _, .int i, _ => by rw [node]; exact isClean_ofInt i
  | _, .real x, _ => by rw [node]; exact Number.isClean_write (by decide) (by decide) x
  | indent, .string s, h => by rw [node]; exact isClean_scalar indent (h s List.mem_cons_self)
  | _, .array [], _ => by rw [node]; decide
  | _, .object [], _ => by rw [node]; decide
  | indent, .array (v :: rest), h => by
    rw [Json.texts, Json.itemTexts, List.forall_mem_append] at h
    rw [node]
    refine isClean_stack indent (List.forall_mem_cons.2 ⟨?_, isClean_items indent rest h.2⟩)
    exact isClean_append.2 ⟨by decide, isClean_node (indent + 2) v h.1⟩
  | indent, .object ((key, v) :: rest), h => by
    rw [Json.texts, Json.memberTexts, List.cons_append, List.forall_mem_cons,
      List.forall_mem_append] at h
    rw [node]
    exact isClean_stack indent (List.forall_mem_cons.2
      ⟨isClean_member indent key v h.1 h.2.1, isClean_members indent rest h.2.2⟩)

theorem isClean_items : (indent : Nat) → (items : List Json) →
    (∀ s ∈ Json.itemTexts items, IsClean s) → ∀ s ∈ Yaml.items indent items, IsClean s
  | _, [], _ => by simp [Yaml.items]
  | indent, v :: rest, h => by
    rw [Json.itemTexts, List.forall_mem_append] at h
    rw [Yaml.items]
    refine List.forall_mem_cons.2 ⟨?_, isClean_items indent rest h.2⟩
    exact isClean_append.2 ⟨by decide, isClean_node (indent + 2) v h.1⟩

theorem isClean_member : (indent : Nat) → (key : String) → (v : Json) → IsClean key →
    (∀ s ∈ v.texts, IsClean s) → IsClean (member indent key v)
  | indent, key, v, hkey, h => by
    rw [member]
    split
    · simp only [isClean_append]
      exact ⟨⟨⟨isClean_scalar _ hkey, by decide⟩, isClean_afterKey indent v⟩, isClean_node _ v h⟩
    · simp only [isClean_append]
      exact ⟨⟨⟨⟨by decide, isClean_scalar _ hkey⟩, isClean_newLine _ indent⟩, by decide⟩,
        isClean_node _ v h⟩

theorem isClean_members : (indent : Nat) → (members : List (String × Json)) →
    (∀ s ∈ Json.memberTexts members, IsClean s) → ∀ s ∈ Yaml.members indent members, IsClean s
  | _, [], _ => by simp [Yaml.members]
  | indent, (key, v) :: rest, h => by
    rw [Json.memberTexts, List.cons_append, List.forall_mem_cons, List.forall_mem_append] at h
    rw [Yaml.members]
    exact List.forall_mem_cons.2
      ⟨isClean_member indent key v h.1 h.2.1, isClean_members indent rest h.2.2⟩

end

/-- A value is written as a document without escape characters. -/
theorem isClean_document {v : Json} (h : ∀ s ∈ v.texts, IsClean s) : IsClean (document v) :=
  isClean_append.2 ⟨isClean_node _ v h, isClean_newLine _ 0⟩

end Yaml

end EdgeHealth
