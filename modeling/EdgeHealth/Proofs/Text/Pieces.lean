import Mathlib.Data.List.Basic
import Mathlib.Data.List.DropRight
import EdgeHealth.Text.Blank
import EdgeHealth.Text.Pieces

/-!
# Pieces that are found again

What was put together from pieces is cut into the same pieces, where no piece holds the separator;
and whatever is cut, no piece holds it.

## Main results

* `Text.stripEnd?_append`, `Text.stripEnd?_eq_none` : a pattern at the end of a text.
* `Text.cutAt?_append`, `Text.notMem_of_cutAt?` : a text that is cut at a character.
* `Text.splitOn_append`, `Text.mem_of_mem_splitOn` : a text that is split at a character.
* `Text.lines_flatMap`, `Text.mem_of_mem_lines` : the lines of a text that is made of lines, and
  those of any text.
* `Text.trimBlank_append_append`, `Text.exists_append_trimBlank_append` : what trimming leaves.
* `Text.trimBlank_eq_self`, `Text.words_cons` : texts between blanks.
-/

namespace EdgeHealth.Text

/-! ### Patterns at the end -/

theorem stripStart?_append (pattern cs : List Char) :
    stripStart? pattern (pattern ++ cs) = some cs := by
  induction pattern with
  | nil => rfl
  | cons p ps ih => rw [List.cons_append, stripStart?, if_pos rfl, ih]

theorem eq_append_of_stripStart? : {pattern cs rest : List Char} →
    stripStart? pattern cs = some rest → cs = pattern ++ rest
  | [], _, _, h => Option.some.inj h
  | _ :: _, [], _, h => by cases h
  | p :: ps, c :: cs, rest, h => by
    rw [stripStart?] at h
    split_ifs at h with hc
    rw [hc, List.cons_append, eq_append_of_stripStart? h]

/-- A pattern at the end of a text is found. -/
theorem stripEnd?_append (pattern cs : List Char) :
    stripEnd? pattern (cs ++ pattern) = some cs := by
  rw [stripEnd?, List.reverse_append, stripStart?_append, Option.map_some, List.reverse_reverse]

/-- A text ends with the pattern that was found at its end. -/
theorem eq_append_of_stripEnd? {pattern cs rest : List Char}
    (h : stripEnd? pattern cs = some rest) : cs = rest ++ pattern := by
  obtain ⟨reversed, hreversed, rfl⟩ := Option.map_eq_some_iff.1 h
  rw [← cs.reverse_reverse, eq_append_of_stripStart? hreversed, List.reverse_append,
    List.reverse_reverse]

/-- A text that holds no character of a pattern does not end with it. -/
theorem stripEnd?_eq_none {pattern cs : List Char} (hpattern : pattern ≠ [])
    (h : ∀ c ∈ cs, c ∉ pattern) : stripEnd? pattern cs = none := by
  rw [stripEnd?, Option.map_eq_none_iff]
  have hp : pattern.reverse ≠ [] := List.reverse_ne_nil_iff.2 hpattern
  cases hreverse : pattern.reverse with
  | nil => exact absurd hreverse hp
  | cons p ps =>
    have hmem : p ∈ pattern := List.mem_reverse.1 (hreverse ▸ List.mem_cons_self)
    cases hcs : cs.reverse with
    | nil => rfl
    | cons c rest =>
      have hc : c ∈ cs := List.mem_reverse.1 (hcs ▸ List.mem_cons_self)
      rw [stripStart?, if_neg]
      rintro rfl
      exact h _ hc hmem

/-! ### Cuts at a character -/

section

variable {sep : Char}

/-- A text is cut at the first occurrence of a character. -/
theorem cutAt?_append : {before : List Char} → sep ∉ before → (after : List Char) →
    cutAt? [sep] (before ++ sep :: after) = some (before, after)
  | [], _, after => by simp [cutAt?, stripStart?]
  | c :: before, h, after => by
    rw [List.mem_cons, not_or] at h
    rw [List.cons_append, cutAt?, stripStart?, if_neg h.1]
    simp only [cutAt?_append h.2 after, Option.map_some]

/-- A text without a character is not cut at it. -/
theorem cutAt?_eq_none : {cs : List Char} → sep ∉ cs → cutAt? [sep] cs = none
  | [], _ => rfl
  | c :: cs, h => by
    rw [List.mem_cons, not_or] at h
    rw [cutAt?, stripStart?, if_neg h.1]
    simp only [cutAt?_eq_none h.2, Option.map_none]

/-- The part before the first occurrence of a character does not hold it. -/
theorem notMem_of_cutAt? : {cs before after : List Char} →
    cutAt? [sep] cs = some (before, after) → sep ∉ before ∧ cs = before ++ sep :: after
  | [], before, after, h => by simp [cutAt?] at h
  | c :: cs, before, after, h => by
    by_cases hc : sep = c
    · subst hc
      simp only [cutAt?, stripStart?, if_true, Option.some.injEq, Prod.mk.injEq] at h
      obtain ⟨rfl, rfl⟩ := h
      exact ⟨List.not_mem_nil, rfl⟩
    · rw [cutAt?, stripStart?, if_neg hc] at h
      obtain ⟨⟨before', after'⟩, hcut, heq⟩ := Option.map_eq_some_iff.1 h
      obtain ⟨rfl, rfl⟩ := Prod.mk.inj heq
      obtain ⟨hmem, rfl⟩ := notMem_of_cutAt? hcut
      exact ⟨by simpa [hc] using hmem, rfl⟩

/-! ### Splits at a character -/

/-- A text without a separator is one piece. -/
theorem splitOn_eq_singleton : {cs : List Char} → sep ∉ cs → splitOn sep cs = [cs]
  | [], _ => rfl
  | c :: cs, h => by
    rw [List.mem_cons, not_or] at h
    rw [splitOn, if_neg (Ne.symm h.1), splitOn_eq_singleton h.2]

/-- A piece before a separator is the first piece. -/
theorem splitOn_append : {piece : List Char} → sep ∉ piece → (rest : List Char) →
    splitOn sep (piece ++ sep :: rest) = piece :: splitOn sep rest
  | [], _, rest => by rw [List.nil_append, splitOn, if_pos rfl]
  | c :: piece, h, rest => by
    rw [List.mem_cons, not_or] at h
    rw [List.cons_append, splitOn, if_neg (Ne.symm h.1), splitOn_append h.2 rest]

/-- The pieces of two texts with a separator between them. -/
theorem splitOn_append_cons : (cs ds : List Char) →
    splitOn sep (cs ++ sep :: ds) = splitOn sep cs ++ splitOn sep ds
  | [], ds => splitOn_append List.not_mem_nil ds
  | c :: cs, ds => by
    rw [List.cons_append, splitOn, splitOn, splitOn_append_cons cs ds]
    split
    · rfl
    · obtain ⟨piece, pieces, hcs⟩ := List.exists_cons_of_ne_nil (splitOn_ne_nil sep cs)
      rw [hcs]
      rfl

/-- Text without a separator in front of a text goes to its first piece. -/
theorem exists_splitOn_append : {front : List Char} → sep ∉ front → (cs : List Char) →
    ∃ piece pieces, splitOn sep cs = piece :: pieces ∧
      splitOn sep (front ++ cs) = (front ++ piece) :: pieces
  | [], _, cs => by
    obtain ⟨piece, pieces, h⟩ := List.exists_cons_of_ne_nil (splitOn_ne_nil sep cs)
    exact ⟨piece, pieces, h, h⟩
  | c :: front, h, cs => by
    rw [List.mem_cons, not_or] at h
    obtain ⟨piece, pieces, hcs, hfront⟩ := exists_splitOn_append h.2 cs
    exact ⟨piece, pieces, hcs, by rw [List.cons_append, splitOn, if_neg (Ne.symm h.1), hfront]; rfl⟩

/-- The pieces hold the characters of the text and no separator. -/
theorem mem_of_mem_splitOn : {cs piece : List Char} → piece ∈ splitOn sep cs → {c : Char} →
    c ∈ piece → c ∈ cs ∧ c ≠ sep
  | [], piece, hpiece, c, hc => by
    rw [splitOn, List.mem_singleton] at hpiece
    exact absurd (hpiece ▸ hc) List.not_mem_nil
  | d :: cs, piece, hpiece, c, hc => by
    rw [splitOn] at hpiece
    by_cases hd : d = sep
    · rw [if_pos hd] at hpiece
      rcases List.mem_cons.1 hpiece with rfl | hpiece
      · exact absurd hc List.not_mem_nil
      · exact (mem_of_mem_splitOn hpiece hc).imp_left (List.mem_cons_of_mem d)
    · rw [if_neg hd] at hpiece
      cases hsplit : splitOn sep cs with
      | nil => exact absurd hsplit (splitOn_ne_nil sep cs)
      | cons first rest =>
        rw [hsplit] at hpiece
        have hkeep {other : List Char} (hother : other ∈ first :: rest) (hc : c ∈ other) :
            c ∈ d :: cs ∧ c ≠ sep :=
          (mem_of_mem_splitOn (hsplit ▸ hother) hc).imp_left (List.mem_cons_of_mem d)
        rcases List.mem_cons.1 hpiece with rfl | hpiece
        · rcases List.mem_cons.1 hc with rfl | hc
          · exact ⟨List.mem_cons_self, hd⟩
          · exact hkeep List.mem_cons_self hc
        · exact hkeep (List.mem_cons_of_mem _ hpiece) hc

end

/-! ### Lines -/

/-- The lines of a text that is made of lines, each with its end. -/
theorem lines_flatMap {ls : List (List Char)} (h : ∀ line ∈ ls, '\n' ∉ line) :
    lines (ls.flatMap fun line => line ++ ['\n']) = ls.map dropReturn := by
  rw [lines]
  induction ls with
  | nil => rfl
  | cons line ls ih =>
    have hls : ∀ line ∈ ls, '\n' ∉ line := fun line hline => h line (List.mem_cons_of_mem _ hline)
    rw [List.flatMap_cons, List.append_assoc, List.singleton_append,
      splitOn_append (h line List.mem_cons_self), List.map_cons, ← ih hls]
    cases hsplit : splitOn '\n' (ls.flatMap fun line => line ++ ['\n']) with
    | nil => exact absurd hsplit (splitOn_ne_nil _ _)
    | cons next rest => rfl

theorem dropReturn_eq_self {line : List Char} (h : ∀ c ∈ line.getLast?, c ≠ '\r') :
    dropReturn line = line := by
  have hnone : stripEnd? ['\r'] line = none := by
    rw [stripEnd?, Option.map_eq_none_iff]
    rw [← List.head?_reverse] at h
    cases hline : line.reverse with
    | nil => rfl
    | cons c cs =>
      rw [List.reverse_singleton, stripStart?, if_neg]
      rintro rfl
      exact h _ (by rw [hline]; rfl) rfl
  rw [dropReturn, hnone, Option.getD_none]

/-- Only a carriage return is dropped. -/
theorem dropReturn_eq_or (line : List Char) :
    dropReturn line = line ∨ line = dropReturn line ++ ['\r'] := by
  by_cases h : ∃ front, line = front ++ ['\r']
  · obtain ⟨front, rfl⟩ := h
    right
    rw [dropReturn, stripEnd?_append, Option.getD_some]
  · refine .inl (dropReturn_eq_self fun c hc => ?_)
    rintro rfl
    exact h ⟨_, (List.dropLast_append_getLast? _ hc).symm⟩

theorem mem_of_mem_dropReturn {line : List Char} {c : Char} (h : c ∈ dropReturn line) :
    c ∈ line := by
  rcases dropReturn_eq_or line with heq | heq
  · exact heq ▸ h
  · rw [heq]
    exact List.mem_append_left _ h

/-- A line holds characters of one piece. -/
theorem exists_mem_of_mem_go {line : List Char} {c : Char} (hc : c ∈ line) :
    {pieces : List (List Char)} → line ∈ lines.go pieces → ∃ piece ∈ pieces, c ∈ piece
  | [], h => absurd h List.not_mem_nil
  | [last], h => by
    rw [lines.go] at h
    split at h
    · exact absurd h List.not_mem_nil
    · exact ⟨last, List.mem_cons_self, List.mem_singleton.1 h ▸ hc⟩
  | piece :: next :: rest, h => by
    rw [lines.go] at h
    rcases List.mem_cons.1 h with rfl | h
    · exact ⟨piece, List.mem_cons_self, mem_of_mem_dropReturn hc⟩
    · obtain ⟨other, hother, hc⟩ := exists_mem_of_mem_go hc h
      exact ⟨other, List.mem_cons_of_mem piece hother, hc⟩

/-- The lines hold no character that is not in the text. -/
theorem mem_of_mem_lines {cs line : List Char} (hline : line ∈ lines cs) {c : Char}
    (hc : c ∈ line) : c ∈ cs := by
  obtain ⟨piece, hpiece, hc⟩ := exists_mem_of_mem_go hc hline
  exact (mem_of_mem_splitOn hpiece hc).1

/-! ### Blanks -/

theorem isBlank_of_isDigit {c : Char} (h : c.isDigit) : isBlank c = false := by
  have hrange : 48 ≤ c.toNat ∧ c.toNat ≤ 57 := by
    simpa [Char.isDigit, UInt32.le_iff_toNat_le] using h
  rw [isBlank]
  grind

/-- A text whose first and last characters are not blank is not trimmed. -/
theorem trimBlank_eq_self {cs : List Char} (hfirst : ∀ c ∈ cs.head?, isBlank c = false)
    (hlast : ∀ c ∈ cs.getLast?, isBlank c = false) : trimBlank cs = cs := by
  have hdrop : ∀ {ds : List Char}, (∀ c ∈ ds.head?, isBlank c = false) →
      ds.dropWhile isBlank = ds := by
    intro ds hds
    cases ds with
    | nil => rfl
    | cons d ds => rw [List.dropWhile_cons_of_neg (by rw [hds d rfl]; decide)]
  rw [trimBlank, dropBlankEnd, hdrop hfirst, hdrop, List.reverse_reverse]
  rwa [List.head?_reverse]

/-- A character that is not blank is kept with all before it. -/
theorem dropBlankEnd_cons {c : Char} (hc : isBlank c = false) (cs : List Char) :
    dropBlankEnd (c :: cs) = c :: dropBlankEnd cs := by
  have hstop : [c].dropWhile isBlank = [c] :=
    List.dropWhile_cons_of_neg (by rw [hc]; exact Bool.false_ne_true)
  rw [dropBlankEnd, dropBlankEnd, List.reverse_cons, List.dropWhile_append]
  split
  · next hall => rw [hstop, List.isEmpty_iff.1 hall]; rfl
  · rw [List.reverse_append, List.reverse_singleton, List.singleton_append]

/-- Text without blanks is kept in front of anything. -/
theorem dropBlankEnd_append : {cs : List Char} → (∀ c ∈ cs, isBlank c = false) →
    (ds : List Char) → dropBlankEnd (cs ++ ds) = cs ++ dropBlankEnd ds
  | [], _, _ => rfl
  | c :: cs, h, ds => by
    rw [List.cons_append, dropBlankEnd_cons (h c List.mem_cons_self),
      dropBlankEnd_append (fun d hd => h d (List.mem_cons_of_mem c hd)) ds]
    rfl

/-- Blanks in front of text without blanks are trimmed, and those at the end of what follows it. -/
theorem trimBlank_append_append {before core : List Char} (hbefore : ∀ c ∈ before, isBlank c)
    (hcore : ∀ c ∈ core, isBlank c = false) (hne : core ≠ []) (rest : List Char) :
    trimBlank (before ++ (core ++ rest)) = core ++ dropBlankEnd rest := by
  obtain ⟨c, tail, rfl⟩ := List.exists_cons_of_ne_nil hne
  have hc : isBlank c = false := hcore c List.mem_cons_self
  rw [trimBlank, List.dropWhile_append_of_pos hbefore, List.cons_append,
    List.dropWhile_cons_of_neg (by rw [hc]; exact Bool.false_ne_true), ← List.cons_append,
    dropBlankEnd_append hcore]

/-- What is trimmed from a text is blank. -/
theorem exists_append_trimBlank_append (cs : List Char) :
    ∃ before after, cs = before ++ (trimBlank cs ++ after) ∧ (∀ c ∈ before, isBlank c) ∧
      ∀ c ∈ after, isBlank c := by
  refine ⟨cs.takeWhile isBlank, (cs.dropWhile isBlank).rtakeWhile isBlank, ?_,
    fun _ => List.mem_takeWhile_imp, fun _ => List.mem_rtakeWhile_imp⟩
  have hrest : trimBlank cs ++ (cs.dropWhile isBlank).rtakeWhile isBlank = cs.dropWhile isBlank :=
    List.rdropWhile_append_rtakeWhile
  rw [hrest, List.takeWhile_append_dropWhile]

/-- What is left of a text without the blanks at its end starts as the text does. -/
theorem mem_head?_of_mem_head?_dropBlankEnd {cs : List Char} {c : Char}
    (h : c ∈ (dropBlankEnd cs).head?) : c ∈ cs.head? := by
  obtain ⟨rest, hrest⟩ : dropBlankEnd cs <+: cs := List.rdropWhile_prefix isBlank cs
  cases hdrop : dropBlankEnd cs with
  | nil => rw [hdrop] at h; cases h
  | cons d ds => rwa [← hrest, hdrop, List.cons_append, List.head?_cons, ← List.head?_cons, ← hdrop]

/-- A text without blanks is not trimmed. -/
theorem trimBlank_of_forall {cs : List Char} (h : ∀ c ∈ cs, isBlank c = false) :
    trimBlank cs = cs :=
  trimBlank_eq_self (fun c hc => h c (List.mem_of_mem_head? hc))
    (fun c hc => h c (List.mem_of_mem_getLast? hc))

/-- Trimming keeps no character that is not there. -/
theorem mem_of_mem_trimBlank {cs : List Char} {c : Char} (h : c ∈ trimBlank cs) : c ∈ cs := by
  rw [trimBlank, dropBlankEnd, List.mem_reverse] at h
  exact (List.dropWhile_sublist _).mem
    (List.mem_reverse.1 ((List.dropWhile_sublist _).mem h))

private theorem wordsFrom_eq_singleton : {cs : List Char} → (run : List Char) →
    (∀ c ∈ cs, isBlank c = false) → run.reverse ++ cs ≠ [] →
    wordsFrom run cs = [run.reverse ++ cs]
  | [], run, _, hne => by
    rw [List.append_nil] at hne ⊢
    rw [wordsFrom, if_neg]
    simpa using hne
  | c :: cs, run, h, hne => by
    have hc : isBlank c = false := h c List.mem_cons_self
    have hcs : ∀ c ∈ cs, isBlank c = false := fun d hd => h d (List.mem_cons_of_mem _ hd)
    rw [wordsFrom, hc, if_neg Bool.false_ne_true, wordsFrom_eq_singleton (c :: run) hcs (by simp)]
    simp

/-- A text without blanks behind one blank is the only word. -/
theorem words_cons {blank : Char} {cs : List Char} (hblank : isBlank blank)
    (h : ∀ c ∈ cs, isBlank c = false) (hne : cs ≠ []) : words (blank :: cs) = [cs] := by
  rw [words, wordsFrom, if_pos hblank, List.isEmpty_nil, if_pos rfl,
    wordsFrom_eq_singleton [] h hne]
  rfl

end EdgeHealth.Text
