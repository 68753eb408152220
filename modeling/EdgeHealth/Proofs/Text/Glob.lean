import Mathlib.Data.List.Infix
import EdgeHealth.Text.Glob

/-!
# Glob patterns and the names that they stand for

The decision whether a pattern stands for a name computes one row of answers for each tail of the
pattern, with an answer for each tail of the name. Each row is right if the row of the next tail is,
so the first answer of the first row is the answer for the whole pattern and the whole name.

## Main results

* `Glob.matches_star_cons`, `Glob.matches_cons_iff` : what the first character of a pattern does.
* `Glob.accepts_iff_matches` : the decision agrees with the rules.
-/

namespace EdgeHealth.Text.Glob

variable {pattern name : List Char} {p c : Char}

/-! ### The rules read backwards -/

theorem matches_nil_iff : Matches [] name ↔ name = [] := by
  constructor
  · intro h
    cases h
    rfl
  · rintro rfl
    exact .nil

theorem matches_star_nil : Matches ('*' :: pattern) [] ↔ Matches pattern [] := by
  constructor
  · intro h
    cases h with
    | starNil h => exact h
  · exact .starNil

/-- A star stands for nothing, or takes one more character. -/
theorem matches_star_cons :
    Matches ('*' :: pattern) (c :: name) ↔
      Matches pattern (c :: name) ∨ Matches ('*' :: pattern) name := by
  constructor
  · intro h
    cases h with
    | starNil h => exact .inl h
    | starCons _ h => exact .inr h
    | same _ hstar _ _ => exact absurd rfl hstar
  · rintro (h | h)
    · exact .starNil h
    · exact .starCons c h

theorem not_matches_cons_nil (hp : p ≠ '*') : ¬ Matches (p :: pattern) [] := by
  intro h
  cases h with
  | starNil _ => exact hp rfl

/-- A character other than the star stands for one character. -/
theorem matches_cons_iff (hp : p ≠ '*') :
    Matches (p :: pattern) (c :: name) ↔ (p = '?' ∨ p = c) ∧ Matches pattern name := by
  constructor
  · intro h
    cases h with
    | starNil _ => exact absurd rfl hp
    | starCons _ _ => exact absurd rfl hp
    | one _ h => exact ⟨.inl rfl, h⟩
    | same _ _ _ h => exact ⟨.inr rfl, h⟩
  · rintro ⟨h | rfl, hmatches⟩
    · exact h ▸ .one c hmatches
    · by_cases hone : p = '?'
      · subst hone
        exact .one _ hmatches
      · exact .same p hp hone hmatches

/-! ### Rows of answers -/

/-- Answers for each tail of a name, the longest first, whether it has a property. -/
def Answers (P : List Char → Prop) (name : List Char) (answers : List Bool) : Prop :=
  List.Forall₂ (fun tail b => b = true ↔ P tail) name.tails answers

variable {P : List Char → Prop} {answers : List Bool}

/-- The first answer of a row is that for the whole name. -/
theorem Answers.headD (h : Answers P name answers) : answers.headD false = true ↔ P name := by
  cases name with
  | nil =>
    cases h with
    | cons h _ => exact h
  | cons c name =>
    rw [Answers, List.tails_cons] at h
    cases h with
    | cons h _ => exact h

theorem answers_emptyRow : (name : List Char) → Answers (Matches []) name (emptyRow name)
  | [] => .cons (by simp [matches_nil_iff]) .nil
  | c :: name => by
    have ih : Answers (Matches []) name (emptyRow name) := answers_emptyRow name
    rw [Answers, List.tails_cons]
    exact .cons (by simp [matches_nil_iff]) ih

theorem Answers.starRow : {name : List Char} → {answers : List Bool} →
    Answers (Matches pattern) name answers →
      Answers (Matches ('*' :: pattern)) name (starRow answers)
  | [], _, .cons h .nil => .cons (by simpa [Glob.starRow, matches_star_nil] using h) .nil
  | c :: name, _, h => by
    rw [Answers, List.tails_cons] at h ⊢
    cases h with
    | cons hfirst hrest =>
      have ih := Answers.starRow hrest
      exact .cons (by rw [Bool.or_eq_true, hfirst, ih.headD, matches_star_cons]) ih

theorem Answers.oneRow (hp : p ≠ '*') : {name : List Char} → {answers : List Bool} →
    Answers (Matches pattern) name answers →
      Answers (Matches (p :: pattern)) name (oneRow p name answers)
  | [], _, .cons _ .nil => .cons (by simpa using not_matches_cons_nil hp) .nil
  | c :: name, _, h => by
    rw [Answers, List.tails_cons] at h ⊢
    cases h with
    | cons _ hrest =>
      have hnext := Answers.headD hrest
      refine .cons ?_ (Answers.oneRow hp hrest)
      rw [Bool.and_eq_true, Bool.or_eq_true, beq_iff_eq, beq_iff_eq, hnext, matches_cons_iff hp]

/-- The row of a pattern answers for each tail of a name whether the pattern stands for it. -/
theorem answers_row : (pattern name : List Char) → Answers (Matches pattern) name (row pattern name)
  | [], name => answers_emptyRow name
  | p :: pattern, name => by
    have ih := answers_row pattern name
    by_cases hp : p = '*'
    · rw [row, if_pos hp, hp]
      exact ih.starRow
    · rw [row, if_neg hp]
      exact ih.oneRow hp

/-- The decision whether a pattern stands for a name agrees with the rules. -/
theorem accepts_iff_matches : accepts pattern name = true ↔ Matches pattern name :=
  (answers_row pattern name).headD

instance : Decidable (Matches pattern name) := decidable_of_iff _ accepts_iff_matches

end EdgeHealth.Text.Glob
