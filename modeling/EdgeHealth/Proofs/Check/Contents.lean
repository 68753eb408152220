import Mathlib.Data.List.Perm.Basic
import EdgeHealth.Proofs.Check.Told
import EdgeHealth.Proofs.Evaluate.Groups
import EdgeHealth.Proofs.Evaluate.Machines

/-!
# What a check holds

A check that is made of notes holds the observations of its notes and no others, in the order of the
places that the notes are addressed to. At one place it holds the observations of the notes with
that place, in their order, each beside its condition. Whether the notes of lines are left out does
not matter.

## Main results

* `Check.pairs_entryAt?_ofNotesFor` : the conditions and observations at a place.
* `Check.perm_evaluations_ofNotesFor`, `Check.perm_observed_ofNotesFor` : all observations.
* `Check.exists_note_of_mem_entries` : every entry has a note.
* `Check.exists_entries_of_place` : notes with one place make one entry.
-/

namespace EdgeHealth

theorem Change.evaluations_eq_map_observed {ch : Change} (h : ch.isPaired) :
    ch.evaluations = ch.observed.map Prod.snd := by
  cases ch with
  | observe condition e => rfl
  | display lines => rfl
  | _ => cases h

/-- A note of lines adds no condition. -/
theorem Note.observed_eq_nil_of_isDisplay {n : Note} (h : n.isDisplay) :
    n.change.observed = [] := by
  obtain ⟨target, ns, change⟩ := n
  cases change with
  | display lines => rfl
  | _ => cases h

/-- Notes without lines for human readers have the same conditions and observations. -/
theorem flatMap_observed_filter (notes : List Note) :
    (notes.filter fun n => !n.isDisplay).flatMap (fun n => n.change.observed) =
      notes.flatMap fun n => n.change.observed := by
  induction notes with
  | nil => rfl
  | cons n notes ih =>
    cases h : n.isDisplay with
    | true =>
      rw [List.filter_cons_of_neg (by simp [h]), ih, List.flatMap_cons,
        Note.observed_eq_nil_of_isDisplay h, List.nil_append]
    | false => rw [List.filter_cons_of_pos (by simp [h]), List.flatMap_cons, List.flatMap_cons, ih]

namespace Check

/-! ### The contents of an entry -/

section

variable (name description : String) {notes : List Note}

/-- The conditions and observations at a place are those of the notes with that place. -/
theorem pairs_entryAt?_ofNotes (h : ∀ n ∈ notes, n.change.isPaired) (target ns : String) :
    (((ofNotes name description notes).entryAt? target ns).getD Entry.empty).pairs =
      (notes.filter fun n => n.place = (target, ns)).flatMap fun n => n.change.observed := by
  have hchanges : ∀ ch ∈ Note.changesAt target ns notes, ch.isPaired :=
    fun ch hch => h _ (Note.mem_changesAt.1 hch)
  have hentry : ((ofNotes name description notes).entryAt? target ns).getD Entry.empty =
      (Note.changesAt target ns notes).foldl Entry.apply Entry.empty := by
    rw [entryAt?_ofNotes]
    split
    · next hnil =>
      rw [hnil]
      rfl
    · rfl
  rw [hentry, Entry.pairs_foldl_apply _ hchanges Entry.isSound_empty,
    Note.changesAt_eq_map_filter, List.flatMap_map]
  rfl

/-- The conditions and observations at a place, with lines for human readers or without. -/
theorem pairs_entryAt?_ofNotesFor (withDisplays : Bool) (h : ∀ n ∈ notes, n.change.isPaired)
    (target ns : String) :
    (((ofNotesFor withDisplays name description notes).entryAt? target ns).getD Entry.empty).pairs =
      (notes.filter fun n => n.place = (target, ns)).flatMap fun n => n.change.observed := by
  cases withDisplays with
  | true => exact pairs_entryAt?_ofNotes name description h target ns
  | false =>
    rw [← flatMap_observed_filter, List.filter_filter]
    have hsub : ∀ n ∈ notes.filter fun n => !n.isDisplay, n.change.isPaired :=
      fun n hn => h n (List.mem_filter.1 hn).1
    refine (pairs_entryAt?_ofNotes name description hsub target ns).trans ?_
    rw [List.filter_filter]
    simp only [Bool.and_comm]

/-- Every entry is at the place of a note. -/
theorem exists_note_of_mem_entries {withDisplays : Bool} {entry : String × String × Entry}
    (h : entry ∈ (ofNotesFor withDisplays name description notes).entries) :
    ∃ n ∈ notes, n.place = (entry.1, entry.2.1) := by
  have hnotes {l : List Note} (h : entry ∈ (ofNotes name description l).entries) :
      ∃ n ∈ l, n.place = (entry.1, entry.2.1) := by
    have hentry := mem_entries_iff.1 h
    rw [entryAt?_ofNotes] at hentry
    split at hentry
    · cases hentry
    · next hne =>
      obtain ⟨ch, hch⟩ := List.exists_mem_of_ne_nil _ hne
      exact ⟨_, Note.mem_changesAt.1 hch, rfl⟩
  cases withDisplays with
  | true => exact hnotes h
  | false =>
    obtain ⟨n, hn, hplace⟩ := hnotes h
    exact ⟨n, (List.mem_filter.1 hn).1, hplace⟩

/-- Notes with one place, which are not all lines for human readers, make a single entry. It holds
what they observe. -/
theorem exists_entries_of_place (withDisplays : Bool) {target ns : String}
    (hpaired : ∀ n ∈ notes, n.change.isPaired) (hplace : ∀ n ∈ notes, n.place = (target, ns))
    (hobserved : ∃ n ∈ notes, n.isDisplay = false) :
    ∃ entry, (ofNotesFor withDisplays name description notes).entries = [(target, ns, entry)] ∧
      entry.isConsistent ∧ entry.pairs = notes.flatMap fun n => n.change.observed := by
  have hplace' : ∀ n ∈ notes, n.target = target ∧ n.ns = ns := fun n hn =>
    Prod.mk.inj (hplace n hn)
  obtain ⟨n, hn, hdisplay⟩ := hobserved
  obtain ⟨entry, hentries⟩ : ∃ entry,
      (ofNotesFor withDisplays name description notes).entries = [(target, ns, entry)] := by
    cases withDisplays with
    | true =>
      obtain ⟨entry, hentries, -⟩ := exists_entries_ofNotes (List.ne_nil_of_mem hn) hplace'
      exact ⟨entry, hentries⟩
    | false =>
      have hmem : n ∈ notes.filter fun n => !n.isDisplay :=
        List.mem_filter.2 ⟨hn, by simp [hdisplay]⟩
      obtain ⟨entry, hentries, -⟩ := exists_entries_ofNotes (List.ne_nil_of_mem hmem)
        fun n hn => hplace' n (List.mem_filter.1 hn).1
      exact ⟨entry, hentries⟩
  have hentry : (ofNotesFor withDisplays name description notes).entryAt? target ns = some entry :=
    mem_entries_iff.1 (hentries ▸ List.mem_singleton_self _)
  have hsound := (isSound_ofNotesFor withDisplays name description hpaired).entry_isSound hentry
  have hpairs := pairs_entryAt?_ofNotesFor name description withDisplays hpaired target ns
  rw [hentry, Option.getD_some,
    List.filter_eq_self.2 fun n hn => decide_eq_true (hplace n hn)] at hpairs
  exact ⟨entry, hentries, beq_iff_eq.2 hsound.length_eq, hpairs⟩

end

/-! ### All observations -/

/-- The observations of a check that is made of notes, target by target and namespace by
namespace. -/
theorem evaluations_ofNotes (name description : String) (notes : List Note) :
    (ofNotes name description notes).evaluations =
      (notes.map Note.target).eraseDups.flatMap fun target =>
        let mentioned := notes.filter fun n => n.target = target
        (mentioned.map Note.ns).eraseDups.flatMap fun ns =>
          (mentioned.filter fun n => n.ns = ns).flatMap fun n => n.change.evaluations := by
  rw [evaluations, entries, targets_ofNotes, Table.toList_grow, List.flatMap_map,
    List.flatMap_assoc]
  refine List.flatMap_congr fun target _ => ?_
  rw [List.flatMap_map]
  change (Table.grow Note.ns (fun e n => e.apply n.change) Entry.empty _).toList.flatMap _ = _
  rw [Table.toList_grow, List.flatMap_map]
  refine List.flatMap_congr fun ns _ => ?_
  dsimp only
  rw [← List.foldl_map, Entry.evaluations_foldl_apply, List.flatMap_map]
  rfl

/-- A check that is made of notes holds their observations and no others. -/
theorem perm_evaluations_ofNotes (name description : String) (notes : List Note) :
    (ofNotes name description notes).evaluations.Perm
      (notes.flatMap fun n => n.change.evaluations) := by
  rw [evaluations_ofNotes]
  have hnamespaces (l : List Note) : ((l.map Note.ns).eraseDups.flatMap fun ns =>
      (l.filter fun n => n.ns = ns).flatMap fun n => n.change.evaluations).Perm
        (l.flatMap fun n => n.change.evaluations) := by
    rw [← List.flatMap_assoc]
    exact (perm_flatMap_eraseDups Note.ns l).flatMap_right _
  refine (List.Perm.flatMap_left _ fun target _ => hnamespaces _).trans ?_
  rw [← List.flatMap_assoc]
  exact (perm_flatMap_eraseDups Note.target notes).flatMap_right _

/-- All observations, with lines for human readers or without. -/
theorem perm_evaluations_ofNotesFor (withDisplays : Bool) (name description : String)
    (notes : List Note) :
    (ofNotesFor withDisplays name description notes).evaluations.Perm
      (notes.flatMap fun n => n.change.evaluations) := by
  cases withDisplays with
  | true => exact perm_evaluations_ofNotes name description notes
  | false =>
    rw [← flatMap_evaluations_filter]
    exact perm_evaluations_ofNotes name description _

/-- All observations are those that stand beside the conditions. -/
theorem perm_observed_ofNotesFor (withDisplays : Bool) (name description : String)
    {notes : List Note} (h : ∀ n ∈ notes, n.change.isPaired) :
    (ofNotesFor withDisplays name description notes).evaluations.Perm
      ((notes.flatMap fun n => n.change.observed).map Prod.snd) := by
  rw [List.map_flatMap,
    ← List.flatMap_congr fun n hn => Change.evaluations_eq_map_observed (h n hn)]
  exact perm_evaluations_ofNotesFor withDisplays name description notes

/-- The status of a check is the worst one that its notes observe, with lines for human readers or
without. -/
theorem status_ofNotesFor (name description : String) (withDisplays : Bool) {notes : List Note}
    (h : ∀ n ∈ notes, n.change.isPaired) :
    (ofNotesFor withDisplays name description notes).status =
      .worstOf ((notes.flatMap fun n => n.change.observed).map fun pair => pair.2.status) := by
  rw [(isSound_ofNotesFor withDisplays name description h).status_eq, evaluatedStatus]
  refine Status.worstOf_congr fun s => ?_
  rw [((perm_observed_ofNotesFor withDisplays name description h).map _).mem_iff, List.map_map]
  rfl

end Check

end EdgeHealth
