import Mathlib.Data.List.Basic
import EdgeHealth.Proofs.Check.Told

/-!
# The statuses of a check and of its entries

A status is told to an entry by an observation, or on its own. Entries and checks keep their
statuses apart from each other: a note worsens both the status of its entry and that of the check.
Still the two agree. The status of an entry is the worst one that was told to it, that of the check
is the worst one that was told at all, and so it is the worst one of the entries. A status that was
told on its own leaves no observation behind. So the observations of a check may be better than its
status, but are never worse.

Nothing is assumed of the notes: conditions need not come with observations, entries may be declared
again, and notes of different entries may alternate.

## Main definitions

* `Change.told` : the statuses that a change tells to its entry.

## Main results

* `Entry.status_foldl_apply`, `Check.status_foldl_note` : statuses after several changes.
* `Check.status_ofNotes` : the status of a check is the worst one that was told.
* `Check.worstOf_entries_ofNotes` : the worst status of the entries.
* `Check.ofNotes_keeps_worst_status` : the statuses of a check that is made of notes.
-/

namespace EdgeHealth

namespace Change

/-- The statuses that a change tells to its entry: that of an observation, or one on its own. -/
def told : Change → List Status
  | .evaluate e => [e.status]
  | .observe _ e => [e.status]
  | .worsen s => [s]
  | _ => []

/-- The statuses of the observations that a change adds are told. -/
theorem map_status_evaluations_subset (ch : Change) :
    ch.evaluations.map Evaluation.status ⊆ ch.told := by
  cases ch <;> simp [evaluations, told]

/-- A change that tells no status on its own tells those of its observations. -/
theorem told_eq_map_status {ch : Change} (h : ∀ s, ch ≠ .worsen s) :
    ch.told = ch.evaluations.map Evaluation.status := by
  cases ch with
  | worsen s => exact absurd rfl (h s)
  | _ => rfl

/-- A change worsens statuses by what it tells. -/
theorem worst_status (s : Status) (ch : Change) :
    s.worst ch.status = ch.told.foldl Status.worst s := by
  cases ch <;> simp [status, told]

end Change

/-- Changes worsen the status of their entry by what they tell. -/
theorem Entry.status_foldl_apply (changes : List Change) (e : Entry) :
    (changes.foldl apply e).status = (changes.flatMap Change.told).foldl Status.worst e.status := by
  rw [List.foldl_flatMap]
  refine (List.foldl_hom Entry.status fun e ch => ?_).symm
  rw [status_apply, Change.worst_status]

namespace Check

/-- Notes worsen the status of their check by what they tell. -/
theorem status_foldl_note (notes : List Note) (c : Check) :
    (notes.foldl note c).status =
      (notes.flatMap fun n => n.change.told).foldl Status.worst c.status := by
  rw [List.foldl_flatMap]
  exact (List.foldl_hom Check.status fun c n => (Change.worst_status c.status n.change).symm).symm

section

variable (name description : String) (notes : List Note)

/-- The status of a check is the worst one that its notes tell. -/
theorem status_ofNotes :
    (ofNotes name description notes).status =
      .worstOf (notes.flatMap fun n => n.change.told) :=
  status_foldl_note notes (empty name description)

/-- The status of an entry is the worst one that is told to it. -/
theorem status_of_entryAt?_ofNotes {name description : String} {notes : List Note}
    {target ns : String} {e : Entry}
    (h : (ofNotes name description notes).entryAt? target ns = some e) :
    e.status = .worstOf ((Note.changesAt target ns notes).flatMap Change.told) := by
  rw [eq_foldl_of_entryAt?_ofNotes h, Entry.status_foldl_apply]
  rfl

/-- The worst status of the entries is the worst one that is told: whatever is told is told to an
entry, and whatever is told to an entry is told. -/
theorem worstOf_entries_ofNotes :
    .worstOf ((ofNotes name description notes).entries.map fun (_, _, e) => e.status) =
      Status.worstOf (notes.flatMap fun n => n.change.told) := by
  refine Status.eq_of_rank_le_iff fun bound => ?_
  rw [Status.rank_worstOf_le_iff, Status.rank_worstOf_le_iff, List.forall_mem_map,
    List.forall_mem_flatMap]
  constructor
  · intro h n hn s hs
    have hchange : n.change ∈ Note.changesAt n.target n.ns notes := Note.mem_changesAt.2 hn
    have hentry := entryAt?_ofNotes name description notes n.target n.ns
    rw [if_neg (List.ne_nil_of_mem hchange)] at hentry
    have hle : Status.rank (Entry.status _) ≤ bound := h _ (mem_entries_iff.2 hentry)
    rw [status_of_entryAt?_ofNotes hentry, Status.rank_worstOf_le_iff] at hle
    exact hle s (List.mem_flatMap.2 ⟨n.change, hchange, hs⟩)
  · rintro h ⟨target, ns, e⟩ he
    change e.status.rank ≤ bound
    rw [status_of_entryAt?_ofNotes (mem_entries_iff.1 he), Status.rank_worstOf_le_iff]
    intro s hs
    obtain ⟨ch, hch, hs⟩ := List.mem_flatMap.1 hs
    exact h ⟨target, ns, ch⟩ (Note.mem_changesAt.1 hch) s hs

theorem evaluatedStatus_ofNotes :
    (ofNotes name description notes).evaluatedStatus =
      .worstOf (notes.flatMap fun n => n.change.evaluations.map Evaluation.status) := by
  refine Status.worstOf_congr fun s => ?_
  simp only [List.mem_map, mem_evaluations_ofNotes, List.mem_flatMap]
  constructor
  · rintro ⟨x, ⟨n, hn, hx⟩, rfl⟩
    exact ⟨n, hn, x, hx, rfl⟩
  · rintro ⟨n, hn, x, hx, rfl⟩
    exact ⟨x, ⟨n, hn, hx⟩, rfl⟩

end

/-- **A check and its entries keep the worst status.** Of a check that is made of any notes: the
status of each entry is the worst one that was told to it; the status of the check is the worst of
the entries, and the worst one that was told at all. To be the worst means that none of the others
exceeds it, and that it is one of them unless it is a success. The worst status of the observations
is no worse than that of the check, and it is the same if no status was told on its own. As more
notes come, neither the status of the check nor that of an entry becomes better. -/
theorem ofNotes_keeps_worst_status (name description : String) (notes : List Note) :
    let c := ofNotes name description notes
    (∀ target ns e, c.entryAt? target ns = some e →
      e.status = .worstOf ((Note.changesAt target ns notes).flatMap Change.told) ∧
      e.status.IsWorstOf ((Note.changesAt target ns notes).flatMap Change.told)) ∧
    (c.status = .worstOf (c.entries.map fun (_, _, e) => e.status) ∧
      c.status.IsWorstOf (c.entries.map fun (_, _, e) => e.status)) ∧
    (c.status = .worstOf (notes.flatMap fun n => n.change.told) ∧
      c.status.IsWorstOf (notes.flatMap fun n => n.change.told)) ∧
    c.evaluatedStatus.rank ≤ c.status.rank ∧
    ((∀ n ∈ notes, ∀ s, n.change ≠ .worsen s) → c.evaluatedStatus = c.status) ∧
    ∀ before, before <+: notes →
      (ofNotes name description before).status.rank ≤ c.status.rank ∧
      ∀ target ns e, (ofNotes name description before).entryAt? target ns = some e →
        ∃ e', c.entryAt? target ns = some e' ∧ e.status.rank ≤ e'.status.rank := by
  intro c
  have hstatus : c.status = .worstOf (notes.flatMap fun n => n.change.told) :=
    status_ofNotes name description notes
  have hevaluated : c.evaluatedStatus =
      .worstOf (notes.flatMap fun n => n.change.evaluations.map Evaluation.status) :=
    evaluatedStatus_ofNotes name description notes
  have hentries : c.status = .worstOf (c.entries.map fun (_, _, e) => e.status) := by
    rw [hstatus, ← worstOf_entries_ofNotes name description notes]
  refine ⟨fun _ _ _ he => ?_, ⟨hentries, Status.isWorstOf_iff.2 hentries⟩,
    ⟨hstatus, Status.isWorstOf_iff.2 hstatus⟩, ?_, fun h => ?_, ?_⟩
  · have hentry := status_of_entryAt?_ofNotes he
    exact ⟨hentry, Status.isWorstOf_iff.2 hentry⟩
  · rw [hevaluated, hstatus, Status.rank_worstOf_le_iff]
    intro s hs
    obtain ⟨n, hn, hs⟩ := List.mem_flatMap.1 hs
    exact Status.rank_worstOf_le_iff.1 Nat.le.refl s
      (List.mem_flatMap.2 ⟨n, hn, n.change.map_status_evaluations_subset hs⟩)
  · rw [hevaluated, hstatus]
    exact congrArg _ (List.flatMap_congr fun n hn => (Change.told_eq_map_status (h n hn)).symm)
  · rintro before ⟨after, rfl⟩
    have hc : c = after.foldl note (ofNotes name description before) :=
      List.foldl_append
    rw [hc]
    constructor
    · rw [status_foldl_note]
      exact Status.rank_le_rank_foldl_worst _ _
    · intro target ns e he
      refine ⟨_, entryAt?_foldl_note_of_eq_some he after, ?_⟩
      rw [Entry.status_foldl_apply]
      exact Status.rank_le_rank_foldl_worst _ _

end Check

end EdgeHealth
