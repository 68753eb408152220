import EdgeHealth.Proofs.Check.Statuses
import EdgeHealth.Proofs.Check.Stripped
import EdgeHealth.Proofs.Data.Distinct
import EdgeHealth.Proofs.Data.Grown

/-!
# Notes and the entries that they are addressed to

A note has a place: a target and a namespace. The entry at a place is made by the notes with this
place, in order, and all other notes leave it alone. The targets of a check stand in the order in
which they are mentioned first, and so do the namespaces of each target. So notes with different
places may be exchanged: entries and status stay the same, and only the order of the entries may
change.

## Main results

* `Note.changesAt_eq_map_filter` : the changes of an entry are those of the notes with its place.
* `Check.targets_ofNotes`, `Check.get?_targets_ofNotes` : a check as tables that grow.
* `Check.ofNotes_is_local` : the entries of a check that is made of notes.
-/

namespace EdgeHealth

/-- The changes of an entry are those of the notes with its place. -/
theorem Note.changesAt_eq_map_filter (target ns : String) : (notes : List Note) →
    changesAt target ns notes = (notes.filter fun n => n.place = (target, ns)).map Note.change
  | [] => rfl
  | n :: notes => by
    have ih := changesAt_eq_map_filter target ns notes
    by_cases h : n.place = (target, ns)
    · have hplace : target = n.target ∧ ns = n.ns := by
        rw [place, Prod.mk.injEq] at h
        exact ⟨h.1.symm, h.2.symm⟩
      rw [changesAt, if_pos hplace, List.filter_cons_of_pos (by simpa using h), ih]
      rfl
    · have hplace : ¬ (target = n.target ∧ ns = n.ns) := fun heq =>
        h (by rw [place, heq.1, heq.2])
      rw [changesAt, if_neg hplace, List.filter_cons_of_neg (by simpa using h), ih]

/-- Notes with different places may be exchanged: at most one of them is addressed to an entry. -/
theorem Note.changesAt_swap {n m : Note} (h : n.place ≠ m.place) (target ns : String)
    (before after : List Note) :
    changesAt target ns (before ++ n :: m :: after) =
      changesAt target ns (before ++ m :: n :: after) := by
  simp only [changesAt_eq_map_filter, List.filter_append]
  by_cases hn : n.place = (target, ns)
  · have hm : m.place ≠ (target, ns) := fun hm => h (hn.trans hm.symm)
    simp [hn, hm]
  · by_cases hm : m.place = (target, ns) <;> simp [hn, hm]

namespace Check

section

variable (name description : String) (notes : List Note)

/-- The table of targets grows out of the notes. -/
theorem targets_ofNotes :
    (ofNotes name description notes).targets =
      Table.grow Note.target
        (fun entries n => entries.alter n.ns fun e => (e.getD Entry.empty).apply n.change)
        Table.empty notes :=
  (List.foldl_hom Check.targets fun _ _ => rfl).symm

/-- The table of a target grows out of the notes that mention it. -/
theorem get?_targets_ofNotes (target : String) :
    (ofNotes name description notes).targets.get? target =
      if target ∈ notes.map Note.target then
        some (Table.grow Note.ns (fun e n => e.apply n.change) Entry.empty
          (notes.filter fun n => n.target = target))
      else none := by
  rw [targets_ofNotes, Table.get?_grow]
  rfl

/-- A check whose notes all have one target: an entry for each namespace. -/
theorem targets_ofNotes_of_target_eq {name description target : String} {notes : List Note}
    (hne : notes ≠ []) (h : ∀ n ∈ notes, n.target = target) :
    (ofNotes name description notes).targets.toList =
      [(target, Table.grow Note.ns (fun e n => e.apply n.change) Entry.empty notes)] := by
  have hkeys : (notes.map Note.target).eraseDups = [target] := eraseDups_map_of_forall_eq hne h
  have hall : (notes.filter fun n => n.target = target) = notes :=
    List.filter_eq_self.2 fun n hn => decide_eq_true (h n hn)
  rw [targets_ofNotes, Table.toList_grow, hkeys, List.map_singleton, hall]
  rfl

/-- The entries of a check whose notes all have one target. -/
theorem entries_ofNotes_of_target_eq {name description target : String} {notes : List Note}
    (hne : notes ≠ []) (h : ∀ n ∈ notes, n.target = target) :
    (ofNotes name description notes).entries =
      (notes.map Note.ns).eraseDups.map fun ns =>
        (target, ns, (notes.filter fun n => n.ns = ns).foldl (fun e n => e.apply n.change)
          Entry.empty) := by
  rw [entries, targets_ofNotes_of_target_eq hne h, List.flatMap_singleton]
  change List.map _ (Table.toList _) = _
  rw [Table.toList_grow, List.map_map]
  rfl

/-- An entry is made by the notes with its place. -/
theorem entryAt?_ofNotes_eq_filter (target ns : String) :
    (ofNotes name description notes).entryAt? target ns =
      (ofNotes name description
        (notes.filter fun n => n.place = (target, ns))).entryAt? target ns := by
  rw [entryAt?_ofNotes, entryAt?_ofNotes]
  simp only [Note.changesAt_eq_map_filter, List.filter_filter, Bool.and_self]

end

/-- **Entries are local.** The entry at a place of a check that is made of notes is the one that the
notes with this place make on their own: they change the empty entry, in order, and without such a
note there is no entry. The targets stand in the order in which the notes mention them first, and so
do the namespaces of each target. If two neighbouring notes with different places are exchanged, all
entries and the status of the check are the same. -/
theorem ofNotes_is_local (name description : String) (notes : List Note) :
    let c := ofNotes name description notes
    (∀ target ns,
      let own := notes.filter fun n => n.place = (target, ns)
      c.entryAt? target ns = (ofNotes name description own).entryAt? target ns ∧
      c.entryAt? target ns =
        if own = [] then none else some ((own.map Note.change).foldl Entry.apply Entry.empty)) ∧
    c.targets.keys = (notes.map Note.target).eraseDups ∧
    (∀ target entries, c.targets.get? target = some entries →
      entries.keys = ((notes.filter fun n => n.target = target).map Note.ns).eraseDups) ∧
    ∀ before n m after, notes = before ++ n :: m :: after → n.place ≠ m.place →
      let swapped := ofNotes name description (before ++ m :: n :: after)
      (∀ target ns, c.entryAt? target ns = swapped.entryAt? target ns) ∧
      c.status = swapped.status := by
  intro c
  refine ⟨fun target ns => ⟨entryAt?_ofNotes_eq_filter name description notes target ns, ?_⟩, ?_,
    fun target entries hentries => ?_, ?_⟩
  · rw [entryAt?_ofNotes, Note.changesAt_eq_map_filter]
    simp only [List.map_eq_nil_iff]
  · rw [targets_ofNotes, Table.keys_grow]
  · rw [get?_targets_ofNotes] at hentries
    split at hentries
    · cases hentries
      rw [Table.keys_grow]
    · cases hentries
  · rintro before n m after rfl hplace
    refine ⟨fun target ns => ?_, ?_⟩
    · rw [entryAt?_ofNotes, entryAt?_ofNotes, Note.changesAt_swap hplace]
    · rw [status_ofNotes, status_ofNotes]
      refine Status.worstOf_congr fun s => (List.Perm.flatMap_right _ ?_).mem_iff
      exact (List.Perm.swap m n after).append_left before

end Check

end EdgeHealth
