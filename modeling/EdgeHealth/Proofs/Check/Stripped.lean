import EdgeHealth.Proofs.Check.Soundness

/-!
# Leaving out the lines for human readers

The lines for human readers can be left out of a check after it was made, or the notes that add them
can be left out before. A note that adds lines also creates the entry that it is addressed to, so
the two ways come to the same only as long as no such note is the first about its entry: else the
entry could stand at another place, or be there in one way and not in the other. A note of lines
that is followed at once by another note about the same entry does no harm.

## Main definitions

* `Note.Led` : every note of lines follows another note about its entry.
* `Note.Strippable` : lists of notes for which the two ways come to the same.

## Main results

* `Check.withoutDisplays_ofNotes` : a check without its lines is made of notes without lines.
* `Note.Led.strippable`, `Note.Strippable.cons_display` : which lists are strippable.
-/

namespace EdgeHealth

/-! ### Notes without lines -/

namespace Note

/-- The target and the namespace that a note is addressed to. -/
def place (n : Note) : String × String := (n.target, n.ns)

/-- The note with its lines taken away. -/
def muted (n : Note) : Note :=
  match n.change with
  | .display _ => { n with change := .display [] }
  | _ => n

theorem muted_of_not_isDisplay {n : Note} (h : n.isDisplay = false) : n.muted = n := by
  obtain ⟨target, ns, change⟩ := n
  cases change with
  | display lines => cases h
  | _ => rfl

theorem muted_of_isDisplay {n : Note} (h : n.isDisplay = true) :
    n.muted = .display n.target n.ns [] := by
  obtain ⟨target, ns, change⟩ := n
  cases change with
  | display lines => rfl
  | _ => cases h

@[simp] theorem place_observe (target ns condition : String) (e : Evaluation) :
    (observe target ns condition e).place = (target, ns) := rfl

@[simp] theorem place_display (target ns : String) (lines : List Display) :
    (display target ns lines).place = (target, ns) := rfl

@[simp] theorem isDisplay_observe (target ns condition : String) (e : Evaluation) :
    (observe target ns condition e).isDisplay = false := rfl

@[simp] theorem isDisplay_display (target ns : String) (lines : List Display) :
    (display target ns lines).isDisplay = true := rfl

end Note

theorem Entry.withoutDisplays_apply (e : Entry) (n : Note) :
    (e.apply n.change).withoutDisplays = e.withoutDisplays.apply n.muted.change := by
  obtain ⟨target, ns, change⟩ := n
  cases change <;> rfl

namespace Check

/-- A note, and the lines left out after it. -/
theorem withoutDisplays_note (c : Check) (n : Note) :
    (c.note n).withoutDisplays = c.withoutDisplays.note n.muted := by
  have htarget : n.muted.target = n.target := by
    obtain ⟨target, ns, change⟩ := n
    cases change <;> rfl
  have hns : n.muted.ns = n.ns := by
    obtain ⟨target, ns, change⟩ := n
    cases change <;> rfl
  have hstatus : n.muted.change.status = n.change.status := by
    obtain ⟨target, ns, change⟩ := n
    cases change <;> rfl
  rw [note, note, withoutDisplays, withoutDisplays, htarget, hns, hstatus, Check.mk.injEq]
  refine ⟨rfl, rfl, Table.mapValues_alter fun entries => ?_, rfl⟩
  have hgetD : ((entries.map fun es => es.mapValues Entry.withoutDisplays).getD Table.empty) =
      (entries.getD Table.empty).mapValues Entry.withoutDisplays := by
    cases entries <;> rfl
  rw [hgetD]
  refine Table.mapValues_alter fun entry => ?_
  cases entry <;> exact Entry.withoutDisplays_apply _ n

theorem withoutDisplays_foldl_note : (notes : List Note) → (c : Check) →
    (notes.foldl note c).withoutDisplays = (notes.map Note.muted).foldl note c.withoutDisplays
  | [], _ => rfl
  | n :: notes, c => by
    rw [List.foldl_cons, withoutDisplays_foldl_note notes, withoutDisplays_note]
    rfl

/-- A check without its lines is made of the notes without theirs. -/
theorem withoutDisplays_ofNotes (name description : String) (notes : List Note) :
    (ofNotes name description notes).withoutDisplays =
      ofNotes name description (notes.map Note.muted) :=
  withoutDisplays_foldl_note notes _

/-- Every entry stays in its place when the lines are left out. -/
theorem entries_withoutDisplays (c : Check) :
    c.withoutDisplays.entries =
      c.entries.map fun (target, ns, e) => (target, ns, e.withoutDisplays) := by
  simp only [entries, withoutDisplays, Table.mapValues, List.flatMap_map, List.map_flatMap,
    List.map_map]
  rfl

/-- A note without lines about an entry that is there changes nothing. -/
theorem note_muted_eq_self {c : Check} {n : Note} (hn : n.isDisplay = true)
    (h : (c.entryAt? n.target n.ns).isSome) : c.note n.muted = c := by
  obtain ⟨e, he⟩ := Option.isSome_iff_exists.1 h
  obtain ⟨entries, hentries, hentry⟩ := Option.bind_eq_some_iff.1 he
  rw [Note.muted_of_isDisplay hn, note]
  obtain ⟨name, description, targets, status⟩ := c
  rw [Check.mk.injEq]
  refine ⟨rfl, rfl, Table.alter_eq_self hentries ?_, Status.worst_success status⟩
  refine Table.alter_eq_self hentry ?_
  exact congrArg (fun lines => { e with displays := lines }) (List.append_nil e.displays)

end Check

/-! ### Notes of lines that follow others -/

namespace Note

/-- Whether every note of lines follows another note about its entry, given the entries that there
are before. -/
def Led (known : List (String × String)) : List Note → Prop
  | [] => True
  | n :: notes => (n.isDisplay = true → n.place ∈ known) ∧ Led (n.place :: known) notes

theorem Led.mono {known known' : List (String × String)} (hsub : known ⊆ known') :
    {notes : List Note} → Led known notes → Led known' notes
  | [], _ => trivial
  | _ :: _, ⟨hn, hnotes⟩ =>
    ⟨fun h => hsub (hn h), hnotes.mono (List.cons_subset_cons _ hsub)⟩

theorem Led.append {known : List (String × String)} {notes' : List Note} :
    {notes : List Note} → Led known notes → Led (notes.map place ++ known) notes' →
    Led known (notes ++ notes')
  | [], _, h' => h'
  | n :: notes, ⟨hn, hnotes⟩, h' =>
    ⟨hn, hnotes.append (h'.mono fun p hp => by simpa [or_left_comm] using hp)⟩

theorem Led.flatten {known : List (String × String)} : {lists : List (List Note)} →
    (∀ notes ∈ lists, Led known notes) → Led known lists.flatten
  | [], _ => trivial
  | notes :: _, h =>
    (h notes List.mem_cons_self).append
      ((Led.flatten fun l hl => h l (List.mem_cons_of_mem notes hl)).mono
        (List.subset_append_right _ known))

theorem Led.flatMap {α : Type} {known : List (String × String)} {l : List α} {f : α → List Note}
    (h : ∀ a ∈ l, Led known (f a)) : Led known (l.flatMap f) := by
  rw [List.flatMap_def]
  refine Led.flatten fun notes hnotes => ?_
  obtain ⟨a, ha, rfl⟩ := List.mem_map.1 hnotes
  exact h a ha

/-- Notes about entries that are there may be notes of lines. -/
theorem led_of_place_mem {known : List (String × String)} : {notes : List Note} →
    (∀ n ∈ notes, n.place ∈ known) → Led known notes
  | [], _ => trivial
  | n :: _, h =>
    ⟨fun _ => h n List.mem_cons_self,
      (led_of_place_mem fun m hm => h m (List.mem_cons_of_mem n hm)).mono
        (List.subset_cons_self n.place known)⟩

end Note

namespace Check

/-- Notes of lines that follow others may be left out. -/
theorem foldl_note_map_muted : (notes : List Note) → {c : Check} →
    {known : List (String × String)} → (∀ p ∈ known, (c.entryAt? p.1 p.2).isSome) →
    Note.Led known notes →
    (notes.map Note.muted).foldl note c = (notes.filter fun n => !n.isDisplay).foldl note c
  | [], _, _, _, _ => rfl
  | n :: notes, c, known, hknown, ⟨hn, hnotes⟩ => by
    cases h : n.isDisplay with
    | true =>
      have hplace := hknown n.place (hn h)
      have hknown' : ∀ p ∈ n.place :: known, (c.entryAt? p.1 p.2).isSome :=
        List.forall_mem_cons.2 ⟨hplace, hknown⟩
      rw [List.map_cons, List.foldl_cons, note_muted_eq_self h hplace,
        List.filter_cons_of_neg (by simp [h])]
      exact foldl_note_map_muted notes hknown' hnotes
    | false =>
      have hknown' : ∀ p ∈ n.place :: known, ((c.note n).entryAt? p.1 p.2).isSome := by
        intro p hp
        rw [entryAt?_note]
        split
        · rfl
        · next hne =>
          refine hknown p ((List.mem_cons.1 hp).resolve_left fun heq => hne ?_)
          exact ⟨congrArg Prod.fst heq, congrArg Prod.snd heq⟩
      rw [List.map_cons, List.foldl_cons, Note.muted_of_not_isDisplay h,
        List.filter_cons_of_pos (by simp [h]), List.foldl_cons]
      exact foldl_note_map_muted notes hknown' hnotes

/-- Two notes about one entry, of which one adds lines, may be exchanged. -/
theorem note_display_note (c : Check) {n : Note} (hn : n.isDisplay = false)
    (lines : List Display) :
    (c.note (.display n.target n.ns lines)).note n =
      (c.note n).note (.display n.target n.ns lines) := by
  have hentry (e : Entry) : (e.apply (.display lines)).apply n.change =
      (e.apply n.change).apply (.display lines) := by
    obtain ⟨target, ns, change⟩ := n
    cases change with
    | display lines => cases hn
    | _ => rfl
  simp only [note, Note.display, Table.alter_alter, Option.getD_some, hentry, Change.status,
    Status.worst_success]

end Check

/-! ### Strippable notes -/

namespace Note

/-- A list of notes for which it does not matter whether the lines are left out before the check is
made or after. -/
def Strippable (notes : List Note) : Prop :=
  ∀ name description, Check.ofNotesFor false name description notes =
    (Check.ofNotesFor true name description notes).withoutDisplays

theorem Led.strippable {notes : List Note} (h : Led [] notes) : Strippable notes := by
  intro name description
  refine Eq.trans ?_ (Check.withoutDisplays_ofNotes name description notes).symm
  exact (Check.foldl_note_map_muted notes (by simp) h).symm

/-- The lines may come before the first note that is none of lines. -/
theorem Strippable.cons_display {n : Note} {notes : List Note} {lines : List Display}
    (hn : n.isDisplay = false)
    (h : Strippable (n :: .display n.target n.ns lines :: notes)) :
    Strippable (.display n.target n.ns lines :: n :: notes) := by
  intro name description
  have hswap : Check.ofNotesFor true name description (.display n.target n.ns lines :: n :: notes) =
      Check.ofNotesFor true name description (n :: .display n.target n.ns lines :: notes) := by
    simp only [Check.ofNotesFor, if_true, Check.ofNotes, List.foldl_cons]
    rw [Check.note_display_note _ hn]
  rw [hswap, ← h]
  simp only [Check.ofNotesFor, List.filter_cons, hn, isDisplay_display]
  rfl

end Note

end EdgeHealth
