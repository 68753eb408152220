import EdgeHealth.Proofs.Text.Pieces
import EdgeHealth.Run.Request

/-!
# The kinds that a request looks at

A request looks at those kinds of a service that one of its words means, or at all of them if it has
no words, and at none that it leaves out. This is told of each kind by itself, and of all of them
together by their order, which is that of the catalog.

## Main definitions

* `Kind.IsMeantBy` : a word means a kind.
* `RunRequest.LooksAt` : the kinds of a service that a request looks at.

## Main results

* `RunRequest.looksAt_selectedKinds` : they are those that the run selects.
-/

namespace EdgeHealth

open EdgeHealth.Text

/-! ### Words for a kind -/

namespace Kind

/-- A word means a kind: it is the word for the kind in any case of ASCII letters, with nothing but
blanks around it. -/
def IsMeantBy (k : Kind) (word : String) : Prop :=
  ∃ before core after, word.toList = before ++ (core ++ after) ∧ (∀ c ∈ before, isBlank c) ∧
    (∀ c ∈ after, isBlank c) ∧ core.map Char.toLower = k.word.toList

variable {k : Kind} {word : String}

/-- No letter is blank in one case and not in the other one. -/
theorem isBlank_of_isBlank_toLower {c : Char} (h : isBlank c.toLower = false) :
    isBlank c = false := by
  delta Char.toLower at h
  split at h
  · next hupper =>
    have hrange : 65 ≤ c.toNat ∧ c.toNat ≤ 90 := by
      simpa [UInt32.le_iff_toNat_le] using hupper
    rw [isBlank]
    grind
  · exact h

/-- The word for a kind is in lower case. -/
theorem lowerAscii_word : lowerAscii k.word = k.word := by
  cases k <;> decide

theorem isBlank_of_mem_word : ∀ c ∈ k.word.toList, isBlank c = false := by
  have hall : k.word.toList.all fun c => !isBlank c := by
    cases k <;> decide
  simpa using hall

theorem word_ne_nil : k.word.toList ≠ [] := by
  cases k <;> decide

/-- A word is compared with the word for a kind as it is left by trimming. -/
theorem matchesFilter_iff_map_toLower :
    k.matchesFilter word ↔ (trimBlank word.toList).map Char.toLower = k.word.toList := by
  rw [matchesFilter, sameAscii, lowerAscii_word, beq_iff_eq, lowerAscii, String.trimBlank,
    String.toList_ofList, ← String.toList_inj, String.toList_ofList, eq_comm]

/-- The words of the user that match a kind are those that mean it. -/
theorem matchesFilter_iff : k.matchesFilter word ↔ k.IsMeantBy word := by
  rw [matchesFilter_iff_map_toLower]
  constructor
  · intro h
    obtain ⟨before, after, hword, hbefore, hafter⟩ := exists_append_trimBlank_append word.toList
    exact ⟨before, trimBlank word.toList, after, hword, hbefore, hafter, h⟩
  · rintro ⟨before, core, after, hword, hbefore, hafter, hcore⟩
    have hblank : ∀ c ∈ core, isBlank c = false := fun c hc =>
      isBlank_of_isBlank_toLower (isBlank_of_mem_word _ (hcore ▸ List.mem_map_of_mem hc))
    have hne : core ≠ [] := by
      rintro rfl
      exact word_ne_nil hcore.symm
    have hnil : dropBlankEnd after = [] := List.rdropWhile_eq_nil_iff.2 hafter
    rw [hword, trimBlank_append_append hbefore hblank hne, hnil, List.append_nil, hcore]

end Kind

/-! ### The kinds of a request -/

namespace RunRequest

/-- The kinds of a service that a request looks at stand in the order of the catalog. They are the
kinds of the service that a word of the request means, if it has words, and that it does not leave
out. -/
structure LooksAt (q : RunRequest) (s : Service) (kinds : List Kind) : Prop where
  sublist_all : kinds.Sublist Kind.all
  mem_iff (k : Kind) : k ∈ kinds ↔
    k.service = s ∧ (∀ words, q.kinds = some words → ∃ word ∈ words, k.IsMeantBy word) ∧
      k ∉ q.excluded

variable {q : RunRequest} {s : Service}

theorem selects_iff {k : Kind} : q.selects k ↔
    (∀ words, q.kinds = some words → ∃ word ∈ words, k.IsMeantBy word) ∧ k ∉ q.excluded := by
  simp only [selects, Bool.and_eq_true, Bool.not_eq_true', List.contains_eq_mem,
    decide_eq_false_iff_not]
  refine and_congr_left fun _ => ?_
  cases q.kinds with
  | none => simp
  | some words => simp [Kind.matchesFilter_iff]

theorem mem_kinds_iff {k : Kind} : k ∈ s.kinds ↔ k.service = s := by
  cases s <;> cases k <;> decide

theorem looksAt_selectedKinds (q : RunRequest) (s : Service) : q.LooksAt s (q.selectedKinds s) where
  sublist_all := List.filter_sublist.trans (by cases s <;> decide)
  mem_iff k := by rw [selectedKinds, List.mem_filter, mem_kinds_iff, selects_iff]

end RunRequest

end EdgeHealth
