import Mathlib.Data.List.Infix
import EdgeHealth.Proofs.Text.Pieces

/-!
# Cuts at a pattern, and the ends of lines

A text is cut at the first occurrence of a pattern, and is not cut if the pattern does not occur in
it. Text in front that does not hold the first character of the pattern goes to the part before the
cut. The lines of a text whose parts are divided by a line feed are those of its parts.

## Main results

* `Text.cutAt?_append_of_notMem` : a cut behind text that the pattern cannot start in.
* `Text.cutAt?_eq_none_iff`, `Text.eq_append_of_cutAt?` : the texts that are cut.
* `Text.lines_append_cons` : the lines of a text in two parts.
* `Text.nil_mem_lines_plain`, `Text.nil_mem_lines_returned` : line ends that enclose an empty line.
* `Text.trimBlank_dropReturn` : a line that is trimmed anyway.
-/

namespace EdgeHealth.Text

/-! ### Cuts at a pattern -/

section

variable {pattern : List Char}

/-- A pattern stands at the start of the texts from which it can be taken off. -/
theorem stripStart?_eq_none_iff {cs : List Char} :
    stripStart? pattern cs = none ↔ ¬ pattern <+: cs := by
  constructor
  · rintro h ⟨rest, rfl⟩
    rw [stripStart?_append] at h
    cases h
  · intro h
    rw [Option.eq_none_iff_forall_ne_some]
    intro rest hrest
    exact h ⟨rest, (eq_append_of_stripStart? hrest).symm⟩

/-- A text that starts with a pattern is cut behind it. -/
theorem cutAt?_pattern_append (pattern cs : List Char) :
    cutAt? pattern (pattern ++ cs) = some ([], cs) := by
  cases h : pattern ++ cs with
  | nil =>
    obtain ⟨rfl, rfl⟩ := List.append_eq_nil_iff.1 h
    rfl
  | cons c rest =>
    rw [cutAt?, ← h, stripStart?_append]

/-- Text in which a pattern cannot start goes to the part before the cut. -/
theorem cutAt?_append_of_notMem {p : Char} : {front : List Char} → p ∉ front →
    (cs : List Char) →
    cutAt? (p :: pattern) (front ++ cs) =
      (cutAt? (p :: pattern) cs).map fun cut => (front ++ cut.1, cut.2)
  | [], _, cs => by simp
  | c :: front, h, cs => by
    rw [List.mem_cons, not_or] at h
    rw [List.cons_append, cutAt?, stripStart?, if_neg h.1]
    simp only [cutAt?_append_of_notMem h.2 cs, Option.map_map]
    rfl

/-- A text is cut where the pattern stands. -/
theorem eq_append_of_cutAt? : {cs before after : List Char} →
    cutAt? pattern cs = some (before, after) → cs = before ++ (pattern ++ after)
  | [], before, after, h => by
    rw [cutAt?] at h
    split_ifs at h with hempty
    cases h
    rw [List.isEmpty_iff.1 hempty]
    rfl
  | c :: cs, before, after, h => by
    rw [cutAt?] at h
    split at h
    · next hstrip =>
      cases h
      rw [List.nil_append, eq_append_of_stripStart? hstrip]
    · obtain ⟨⟨before', after'⟩, hcut, heq⟩ := Option.map_eq_some_iff.1 h
      cases heq
      rw [eq_append_of_cutAt? hcut]
      rfl

/-- A text is not cut if the pattern does not occur in it. -/
theorem cutAt?_eq_none_iff : {cs : List Char} → (cutAt? pattern cs = none ↔ ¬ pattern <:+: cs)
  | [] => by
    rw [cutAt?, List.infix_nil, ← List.isEmpty_iff]
    split <;> simp_all
  | c :: cs => by
    have ih : cutAt? pattern cs = none ↔ ¬ pattern <:+: cs := cutAt?_eq_none_iff
    rw [cutAt?, List.infix_cons_iff, not_or, ← ih, ← stripStart?_eq_none_iff]
    cases stripStart? pattern (c :: cs) <;> simp

end

/-! ### Lines -/

theorem lines_go_append : (pieces : List (List Char)) → {rest : List (List Char)} → rest ≠ [] →
    lines.go (pieces ++ rest) = pieces.map dropReturn ++ lines.go rest
  | [], _, _ => rfl
  | piece :: pieces, rest, h => by
    obtain ⟨next, others, hnext⟩ : ∃ next others, pieces ++ rest = next :: others :=
      List.exists_cons_of_ne_nil (List.append_ne_nil_of_right_ne_nil _ h)
    rw [List.cons_append, hnext, lines.go, ← hnext, lines_go_append pieces h]
    rfl

/-- The lines of a text in two parts with a line feed between them. -/
theorem lines_append_cons (cs ds : List Char) :
    lines (cs ++ '\n' :: ds) = (splitOn '\n' cs).map dropReturn ++ lines ds := by
  rw [lines, splitOn_append_cons, lines_go_append _ (splitOn_ne_nil _ ds)]
  rfl

/-- A line feed behind another one ends an empty line. -/
theorem nil_mem_lines_plain (cs ds : List Char) : [] ∈ lines (cs ++ (['\n', '\n'] ++ ds)) := by
  have hline : lines ('\n' :: ds) = [] :: lines ds := lines_append_cons [] ds
  rw [List.cons_append, lines_append_cons]
  exact List.mem_append_right _ (hline ▸ List.mem_cons_self)

/-- So does one that has only a carriage return between itself and the line feed before. -/
theorem nil_mem_lines_returned (cs ds : List Char) :
    [] ∈ lines (cs ++ (['\r', '\n', '\r', '\n'] ++ ds)) := by
  have hline : lines ('\r' :: '\n' :: ds) = [] :: lines ds := lines_append_cons ['\r'] ds
  have hsplit : cs ++ (['\r', '\n', '\r', '\n'] ++ ds) =
      (cs ++ ['\r']) ++ '\n' :: '\r' :: '\n' :: ds := by simp
  rw [hsplit, lines_append_cons]
  exact List.mem_append_right _ (hline ▸ List.mem_cons_self)

/-! ### Blanks at the end of a line -/

/-- A blank at the end of a text is trimmed with the others. -/
theorem trimBlank_append_blank {blank : Char} (h : isBlank blank) (cs : List Char) :
    trimBlank (cs ++ [blank]) = trimBlank cs := by
  have hdrop (ds : List Char) : dropBlankEnd (ds ++ [blank]) = dropBlankEnd ds := by
    rw [dropBlankEnd, List.reverse_append, List.reverse_singleton, List.singleton_append,
      List.dropWhile_cons_of_pos h, dropBlankEnd]
  rw [trimBlank, trimBlank, List.dropWhile_append]
  split
  · next hall =>
    rw [List.dropWhile_cons_of_pos h, List.isEmpty_iff.1 hall]
    rfl
  · exact hdrop _

/-- The carriage return at the end of a line is a blank. -/
theorem trimBlank_dropReturn (line : List Char) : trimBlank (dropReturn line) = trimBlank line := by
  rcases dropReturn_eq_or line with heq | heq
  · rw [heq]
  · conv_rhs => rw [heq, trimBlank_append_blank (by rfl)]

end EdgeHealth.Text
