import EdgeHealth.Check.Note
import EdgeHealth.Proofs.Data.Lookup
import EdgeHealth.Proofs.Status.Order

/-!
# Sound checks

A check is *sound* when its status is the worst status of its observations, and each of its entries
has the worst status of its own observations and as many conditions as observations. Notes that
record a condition together with its observation keep a check sound, and so do lines for a human
reader: neither changes the status apart from an observation. A check is *conclusive* when moreover
nothing in it was skipped, which is what tells an evaluation from the checks that stand in for one.

## Main definitions

* `Entry.IsSound`, `Check.IsSound` : the invariant.
* `Change.isPaired` : the changes that record conditions only together with observations.
* `Check.IsConclusive`, `Change.isFinding` : the same without observations that were skipped.

## Main results

* `Check.entryAt?_note` : a note changes one entry and no other.
* `Check.mem_evaluations_ofNotes` : the observations of a check are those of its notes.
* `Check.IsSound.note` : a paired note keeps a check sound.
* `Check.isSound_ofNotes`, `Check.isConclusive_ofNotes` : what checks made of notes are.
-/

namespace EdgeHealth

namespace Change

/-- The observations that a change adds. -/
def evaluations : Change → List Evaluation
  | .evaluate e => [e]
  | .observe _ e => [e]
  | _ => []

/-- Whether a change adds a condition and its observation together, or lines for a human reader. -/
def isPaired : Change → Bool
  | .observe _ _ => true
  | .display _ => true
  | _ => false

/-- Whether a change adds a condition and an observation that was not skipped, or lines for a human
reader. -/
def isFinding : Change → Bool
  | .observe _ e => e.status != .skipped
  | .display _ => true
  | _ => false

theorem isPaired_of_isFinding {ch : Change} (h : ch.isFinding) : ch.isPaired := by
  cases ch with
  | observe condition e => rfl
  | display lines => rfl
  | _ => cases h

/-- A finding adds no observation that was skipped. -/
theorem status_ne_of_isFinding {ch : Change} (h : ch.isFinding) :
    ∀ e ∈ ch.evaluations, e.status ≠ .skipped := by
  cases ch with
  | observe condition e => simpa [isFinding, evaluations] using h
  | _ => simp [isFinding, evaluations] at h ⊢

/-- A paired change brings in the status of the observations that it adds. -/
theorem status_eq_worstOf {ch : Change} (h : ch.isPaired) :
    ch.status = .worstOf (ch.evaluations.map Evaluation.status) := by
  cases ch with
  | observe condition e => cases he : e.status <;> simp [status, evaluations, he] <;> rfl
  | display lines => rfl
  | _ => cases h

end Change

namespace Entry

theorem evaluations_apply (e : Entry) (ch : Change) :
    (e.apply ch).evaluations = e.evaluations ++ ch.evaluations := by
  cases ch <;> simp [apply, Change.evaluations]

theorem status_apply (e : Entry) (ch : Change) :
    (e.apply ch).status = e.status.worst ch.status := by
  cases ch <;> simp [apply, Change.status]

/-- An entry whose status and conditions are those of its observations. -/
structure IsSound (e : Entry) : Prop where
  /-- The status is the worst of the observations. -/
  status_eq : e.status = .worstOf (e.evaluations.map Evaluation.status)
  /-- There are as many conditions as observations. -/
  length_eq : e.conditions.length = e.evaluations.length

theorem isSound_empty : empty.IsSound := ⟨rfl, rfl⟩

/-- A paired change keeps an entry sound. -/
theorem IsSound.apply {e : Entry} (he : e.IsSound) {ch : Change} (h : ch.isPaired) :
    (e.apply ch).IsSound where
  status_eq := by
    rw [status_apply, evaluations_apply, List.map_append, Status.worstOf_append, ← he.status_eq,
      Change.status_eq_worstOf h]
  length_eq := by
    cases ch with
    | observe condition e => simp [Entry.apply, he.length_eq]
    | display lines => exact he.length_eq
    | _ => cases h

end Entry

namespace Check

/-! ### Entries -/

/-- The entries of a check are what it holds for their targets and namespaces. -/
theorem mem_entries_iff {c : Check} {target ns : String} {e : Entry} :
    (target, ns, e) ∈ c.entries ↔ c.entryAt? target ns = some e := by
  simp only [entries, List.mem_flatMap, List.mem_map, Prod.exists, Prod.mk.injEq,
    Table.mem_toList_iff, entryAt?, Option.bind_eq_some_iff]
  constructor
  · rintro ⟨_, es, hes, _, _, he, rfl, rfl, rfl⟩
    exact ⟨es, hes, he⟩
  · rintro ⟨es, hes, he⟩
    exact ⟨target, es, hes, ns, e, he, rfl, rfl, rfl⟩

@[simp] theorem entryAt?_empty (name description target ns : String) :
    (empty name description).entryAt? target ns = none := rfl

/-- A note changes the entry that it is addressed to, and no other. -/
theorem entryAt?_note (c : Check) (n : Note) (target ns : String) :
    (c.note n).entryAt? target ns =
      if target = n.target ∧ ns = n.ns then
        some (((c.entryAt? n.target n.ns).getD Entry.empty).apply n.change)
      else c.entryAt? target ns := by
  simp only [entryAt?, note, Table.get?_alter]
  by_cases ht : target = n.target
  · by_cases hns : ns = n.ns
    · simp [Table.get?_alter, Table.get?_getD_empty, ht, hns]
    · simp [Table.get?_alter, Table.get?_getD_empty, ht, hns]
  · simp [ht]

/-- The observations of a check are those of its entries. -/
theorem mem_evaluations_iff {c : Check} {x : Evaluation} :
    x ∈ c.evaluations ↔ ∃ target ns e, c.entryAt? target ns = some e ∧ x ∈ e.evaluations := by
  simp only [evaluations, List.mem_flatMap, Prod.exists]
  simp only [← mem_entries_iff]

/-- A note adds its observations to those of a check. -/
theorem mem_evaluations_note {c : Check} {n : Note} {x : Evaluation} :
    x ∈ (c.note n).evaluations ↔ x ∈ c.evaluations ∨ x ∈ n.change.evaluations := by
  simp only [mem_evaluations_iff, entryAt?_note]
  constructor
  · rintro ⟨target, ns, e, he, hx⟩
    split at he
    · cases he
      rw [Entry.evaluations_apply, List.mem_append] at hx
      refine hx.imp_left fun hx => ?_
      cases hold : c.entryAt? n.target n.ns with
      | none => simp [hold, Entry.empty] at hx
      | some old => exact ⟨n.target, n.ns, old, hold, by simpa [hold] using hx⟩
    · exact .inl ⟨target, ns, e, he, hx⟩
  · rintro (⟨target, ns, e, he, hx⟩ | hx)
    · by_cases h : target = n.target ∧ ns = n.ns
      · obtain ⟨rfl, rfl⟩ := h
        refine ⟨n.target, n.ns, _, if_pos ⟨rfl, rfl⟩, ?_⟩
        rw [Entry.evaluations_apply, he]
        exact List.mem_append_left _ hx
      · exact ⟨target, ns, e, by rw [if_neg h, he], hx⟩
    · refine ⟨n.target, n.ns, _, if_pos ⟨rfl, rfl⟩, ?_⟩
      rw [Entry.evaluations_apply]
      exact List.mem_append_right _ hx

theorem mem_evaluations_foldl_note {x : Evaluation} : (notes : List Note) → (c : Check) →
    (x ∈ (notes.foldl Check.note c).evaluations ↔
      x ∈ c.evaluations ∨ ∃ n ∈ notes, x ∈ n.change.evaluations)
  | [], c => by simp
  | n :: notes, c => by
    rw [List.foldl_cons, mem_evaluations_foldl_note notes, mem_evaluations_note, or_assoc]
    simp

/-- The observations of a check made of notes are those that the notes add. -/
theorem mem_evaluations_ofNotes {name description : String} {notes : List Note} {x : Evaluation} :
    x ∈ (ofNotes name description notes).evaluations ↔
      ∃ n ∈ notes, x ∈ n.change.evaluations := by
  rw [ofNotes, mem_evaluations_foldl_note]
  exact or_iff_right (List.not_mem_nil (a := x))

/-- Lines for human readers add no observation, and are left out without a loss of one. -/
theorem mem_evaluations_ofNotesFor {withDisplays : Bool} {name description : String}
    {notes : List Note} {x : Evaluation} :
    x ∈ (ofNotesFor withDisplays name description notes).evaluations ↔
      ∃ n ∈ notes, x ∈ n.change.evaluations := by
  unfold ofNotesFor
  split
  · exact mem_evaluations_ofNotes
  · rw [mem_evaluations_ofNotes]
    constructor
    · rintro ⟨n, hn, hx⟩
      exact ⟨n, (List.mem_filter.1 hn).1, hx⟩
    · rintro ⟨n, hn, hx⟩
      refine ⟨n, List.mem_filter.2 ⟨hn, ?_⟩, hx⟩
      cases hch : n.change with
      | display lines => simp [hch, Change.evaluations] at hx
      | _ => simp [Note.isDisplay, Change.isDisplay, hch]

/-- The worst status of all observations after a note. -/
theorem evaluatedStatus_note (c : Check) (n : Note) :
    (c.note n).evaluatedStatus =
      c.evaluatedStatus.worst (.worstOf (n.change.evaluations.map Evaluation.status)) := by
  refine Status.worstOf_eq_worst_of_mem_iff fun s => ?_
  simp only [List.mem_map, mem_evaluations_note, or_and_right, exists_or]

/-! ### The invariant -/

/-- A check whose status, and that of every entry, is the worst of the observations, and in which
every condition has one observation. -/
structure IsSound (c : Check) : Prop where
  /-- The status is the worst of all observations. -/
  status_eq : c.status = c.evaluatedStatus
  /-- Every entry is sound. -/
  entry_isSound : ∀ {target ns : String} {e : Entry}, c.entryAt? target ns = some e → e.IsSound

theorem isSound_empty (name description : String) : (empty name description).IsSound :=
  ⟨rfl, fun h => by cases h⟩

/-- A note keeps a check sound when it keeps its own entry sound and brings in the status of its
observations. -/
theorem IsSound.note_of_apply {c : Check} (hc : c.IsSound) {n : Note}
    (hstatus : n.change.status = .worstOf (n.change.evaluations.map Evaluation.status))
    (hentry : (((c.entryAt? n.target n.ns).getD Entry.empty).apply n.change).IsSound) :
    (c.note n).IsSound where
  status_eq := by
    rw [evaluatedStatus_note, ← hc.status_eq, ← hstatus]
    rfl
  entry_isSound {target ns e} he := by
    rw [entryAt?_note] at he
    split at he
    · cases he
      exact hentry
    · exact hc.entry_isSound he

/-- A paired note keeps a check sound. -/
theorem IsSound.note {c : Check} (hc : c.IsSound) {n : Note} (hn : n.change.isPaired) :
    (c.note n).IsSound := by
  refine hc.note_of_apply (Change.status_eq_worstOf hn) (Entry.IsSound.apply ?_ hn)
  cases h : c.entryAt? n.target n.ns with
  | none => exact Entry.isSound_empty
  | some e => exact hc.entry_isSound h

/-- The start of an entry of which nothing is known yet keeps a check sound, as long as no
condition is set down in advance. -/
theorem IsSound.note_declare {c : Check} (hc : c.IsSound) {target ns : String}
    (hnone : c.entryAt? target ns = none) (description : Option String) :
    (c.note ⟨target, ns, .declare [] description⟩).IsSound := by
  refine hc.note_of_apply rfl ?_
  rw [hnone]
  exact ⟨rfl, rfl⟩

theorem IsSound.foldl_note : (notes : List Note) → (∀ n ∈ notes, n.change.isPaired) →
    {c : Check} → c.IsSound → (notes.foldl Check.note c).IsSound
  | [], _, _, hc => hc
  | n :: notes, h, _, hc =>
    IsSound.foldl_note notes (fun m hm => h m (List.mem_cons_of_mem n hm))
      (hc.note (h n List.mem_cons_self))

/-- A check made of paired notes is sound. -/
theorem isSound_ofNotes (name description : String) {notes : List Note}
    (h : ∀ n ∈ notes, n.change.isPaired) : (ofNotes name description notes).IsSound :=
  (isSound_empty name description).foldl_note notes h

/-- A check made of paired notes is sound, with its lines for human readers or without. -/
theorem isSound_ofNotesFor (withDisplays : Bool) (name description : String) {notes : List Note}
    (h : ∀ n ∈ notes, n.change.isPaired) :
    (ofNotesFor withDisplays name description notes).IsSound := by
  unfold ofNotesFor
  split
  · exact isSound_ofNotes name description h
  · exact isSound_ofNotes name description fun n hn => h n (List.mem_filter.1 hn).1

/-! ### Conclusive checks -/

/-- A sound check in which nothing was skipped. -/
structure IsConclusive (c : Check) : Prop where
  /-- The check is sound. -/
  isSound : c.IsSound
  /-- No observation was skipped. -/
  status_ne : ∀ e ∈ c.evaluations, e.status ≠ .skipped

/-- A finding keeps a check conclusive. -/
theorem IsConclusive.note {c : Check} (hc : c.IsConclusive) {n : Note} (hn : n.change.isFinding) :
    (c.note n).IsConclusive where
  isSound := hc.isSound.note (Change.isPaired_of_isFinding hn)
  status_ne e he :=
    (mem_evaluations_note.1 he).elim (hc.status_ne e) (Change.status_ne_of_isFinding hn e)

theorem IsConclusive.foldl_note : (notes : List Note) → (∀ n ∈ notes, n.change.isFinding) →
    {c : Check} → c.IsConclusive → (notes.foldl Check.note c).IsConclusive
  | [], _, _, hc => hc
  | n :: notes, h, _, hc =>
    IsConclusive.foldl_note notes (fun m hm => h m (List.mem_cons_of_mem n hm))
      (hc.note (h n List.mem_cons_self))

theorem isConclusive_empty (name description : String) : (empty name description).IsConclusive :=
  ⟨isSound_empty name description, by simp [mem_evaluations_iff]⟩

/-- A check made of findings is conclusive. -/
theorem isConclusive_ofNotes (name description : String) {notes : List Note}
    (h : ∀ n ∈ notes, n.change.isFinding) : (ofNotes name description notes).IsConclusive :=
  (isConclusive_empty name description).foldl_note notes h

/-- A check made of findings is conclusive, with its lines for human readers or without. -/
theorem isConclusive_ofNotesFor (withDisplays : Bool) (name description : String)
    {notes : List Note} (h : ∀ n ∈ notes, n.change.isFinding) :
    (ofNotesFor withDisplays name description notes).IsConclusive := by
  unfold ofNotesFor
  split
  · exact isConclusive_ofNotes name description h
  · exact isConclusive_ofNotes name description fun n hn => h n (List.mem_filter.1 hn).1

end Check

end EdgeHealth
