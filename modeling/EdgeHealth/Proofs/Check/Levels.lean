import Mathlib.Data.List.Forall2
import EdgeHealth.Proofs.Check.Soundness

/-!
# Checks at two levels of detail

A check that is made at some level of detail and one that is made at a higher level say the same.
They have the same entries in the same order, with the same conditions and observations; only lines
for human readers may come in between the others. One observation may hold more where all that is
known is shown: the status that a resource reports, of which each part may have a description.

## Main definitions

* `Json.withoutDescriptions` : the value of a status without the descriptions.
* `Evaluation.Extends`, `Entry.Extends`, `Check.Extends` : what a higher level of detail may add.
* `Note.Extends` : what it may add to a note.

## Main results

* `Check.extends_ofNotesFor` : checks made of notes of which one extends the other.
-/

namespace EdgeHealth

/-! ### Tables -/

namespace Table

variable {α β : Type} {R : α → β → Prop}

/-- Two tables with the same keys in the same order, whose values stand in a relation. -/
def Rel (R : α → β → Prop) (t : Table α) (t' : Table β) : Prop :=
  List.Forall₂ (fun p p' => p.1 = p'.1 ∧ R p.2 p'.2) t.toList t'.toList

theorem rel_empty : Rel R empty empty := .nil

/-- Related changes keep tables related. -/
theorem Rel.alter {t : Table α} {t' : Table β} (h : Rel R t t') {key : String}
    {f : Option α → α} {f' : Option β → β} (hf : ∀ o o', Option.Rel R o o' → R (f o) (f' o')) :
    Rel R (t.alter key f) (t'.alter key f') := by
  have halter {l : List (String × α)} {l' : List (String × β)}
      (hl : List.Forall₂ (fun p p' => p.1 = p'.1 ∧ R p.2 p'.2) l l') :
      List.Forall₂ (fun p p' => p.1 = p'.1 ∧ R p.2 p'.2) (alterList key f l)
        (alterList key f' l') := by
    induction hl with
    | nil => exact .cons ⟨rfl, hf _ _ .none⟩ .nil
    | @cons p p' l l' hp hl ih =>
      obtain ⟨k, a⟩ := p
      obtain ⟨k', b⟩ := p'
      obtain ⟨rfl, hab⟩ := hp
      by_cases hk : k = key
      · rw [alterList, alterList, if_pos hk, if_pos hk]
        exact .cons ⟨rfl, hf _ _ (.some hab)⟩ hl
      · rw [alterList, alterList, if_neg hk, if_neg hk]
        exact .cons ⟨rfl, hab⟩ ih
  exact halter h

end Table

/-! ### What a higher level of detail may add -/

namespace Json

/-- An object without the members of a name. -/
def withoutMember (name : String) : Json → Json
  | .object members => .object (members.filter fun m => m.1 != name)
  | v => v

/-- The status that a resource reports, without the descriptions of its parts. -/
def withoutDescriptions : Json → Json
  | .object parts => .object (parts.map fun p => (p.1, p.2.withoutMember "statusDescription"))
  | v => v

end Json

section

variable (level level' : DetailLevel)

/-- An observation of a condition, and the same one at another level of detail. -/
structure Evaluation.Extends (condition : String) (x x' : Evaluation) : Prop where
  /-- The outcome. -/
  status_eq : x.status = x'.status
  /-- The name of the resource. -/
  name_eq : x.name = x'.name
  /-- The kind of the resource. -/
  kind_eq : x.kind = x'.kind
  /-- What was observed; a reported status may have descriptions where all that is known is shown
  at the other level only. -/
  value : x.value = x'.value ∨
    condition = "status" ∧ level.isVerbose = false ∧ level'.isVerbose = true ∧
      x.value = x'.value.withoutDescriptions

/-- An entry, and the same one at another level of detail. -/
structure Entry.Extends (e e' : Entry) : Prop where
  /-- The conditions. -/
  conditions_eq : e.conditions = e'.conditions
  /-- Every condition has an observation. -/
  length_eq : e.conditions.length = e.evaluations.length
  /-- Every condition has an observation at the other level. -/
  length_eq' : e'.conditions.length = e'.evaluations.length
  /-- The observations. -/
  pairs : List.Forall₂ (fun p p' => p.1 = p'.1 ∧ p.2.Extends level level' p.1 p'.2) e.pairs e'.pairs
  /-- The status. -/
  status_eq : e.status = e'.status
  /-- What the target is. -/
  description_eq : e.description = e'.description
  /-- The lines, of which there may be more. -/
  displays : e.displays.Sublist e'.displays

/-- A check, and the same one at another level of detail: the entries have the same targets and
namespaces in the same order. -/
structure Check.Extends (c c' : Check) : Prop where
  /-- The name. -/
  name_eq : c.name = c'.name
  /-- What the check does. -/
  description_eq : c.description = c'.description
  /-- The entries. -/
  targets : Table.Rel (Table.Rel (Entry.Extends level level')) c.targets c'.targets
  /-- The status. -/
  status_eq : c.status = c'.status

/-- A note, and the same one at another level of detail. -/
inductive Note.Extends : Note → Note → Prop
  /-- A condition and its observation. -/
  | observe (target ns : String) {condition : String} {x x' : Evaluation}
    (h : x.Extends level level' condition x') :
    Extends (.observe target ns condition x) (.observe target ns condition x')
  /-- Lines for a human reader. -/
  | display (target ns : String) {lines lines' : List Display} (h : lines.Sublist lines') :
    Extends (.display target ns lines) (.display target ns lines')

end

variable {level level' : DetailLevel}

theorem Evaluation.extends_refl (condition : String) (x : Evaluation) :
    x.Extends level level' condition x := ⟨rfl, rfl, rfl, .inl rfl⟩

theorem Note.extends_refl {n : Note} (h : n.change.isPaired) : n.Extends level level' n := by
  obtain ⟨target, ns, change⟩ := n
  cases change with
  | observe condition x => exact .observe target ns (x.extends_refl condition)
  | display lines => exact .display target ns (.refl lines)
  | _ => cases h

/-! ### Checks made of notes -/

namespace Entry

theorem extends_empty : empty.Extends level level' empty :=
  ⟨rfl, rfl, rfl, .nil, rfl, rfl, .slnil⟩

theorem Extends.observe {e e' : Entry} (he : e.Extends level level' e') {condition : String}
    {x x' : Evaluation} (hx : x.Extends level level' condition x') :
    (e.apply (.observe condition x)).Extends level level' (e'.apply (.observe condition x')) where
  conditions_eq := congrArg (· ++ [condition]) he.conditions_eq
  length_eq := by simp [apply, he.length_eq]
  length_eq' := by simp [apply, he.length_eq']
  pairs := by
    simp only [Entry.pairs, apply]
    rw [List.zip_append he.length_eq, List.zip_append he.length_eq']
    exact List.rel_append he.pairs (.cons ⟨rfl, hx⟩ .nil)
  status_eq := by simp only [apply, he.status_eq, hx.status_eq]
  description_eq := he.description_eq
  displays := he.displays

theorem Extends.display {e e' : Entry} (he : e.Extends level level' e')
    {lines lines' : List Display} (h : lines.Sublist lines') :
    (e.apply (.display lines)).Extends level level' (e'.apply (.display lines')) :=
  { he with displays := he.displays.append h }

end Entry

namespace Check

theorem extends_empty (name description : String) :
    (empty name description).Extends level level' (empty name description) :=
  ⟨rfl, rfl, Table.rel_empty, rfl⟩

/-- A change of one entry, and the same one at another level of detail. -/
theorem Extends.note {c c' : Check} (hc : c.Extends level level' c') {n n' : Note}
    (hn : n.Extends level level' n') : (c.note n).Extends level level' (c'.note n') := by
  have hentry {o o' : Option Entry} (ho : Option.Rel (Entry.Extends level level') o o') :
      (o.getD Entry.empty).Extends level level' (o'.getD Entry.empty) := by
    cases ho with
    | some he => exact he
    | none => exact Entry.extends_empty
  have hentries {o o' : Option (Table Entry)}
      (ho : Option.Rel (Table.Rel (Entry.Extends level level')) o o') :
      Table.Rel (Entry.Extends level level') (o.getD Table.empty) (o'.getD Table.empty) := by
    cases ho with
    | some ht => exact ht
    | none => exact Table.rel_empty
  cases hn with
  | observe target ns hx =>
    exact ⟨hc.name_eq, hc.description_eq,
      hc.targets.alter fun _ _ ho => (hentries ho).alter fun _ _ ho => (hentry ho).observe hx,
      by simp only [Check.note, Note.observe, Change.status, hc.status_eq, hx.status_eq]⟩
  | display target ns h =>
    exact ⟨hc.name_eq, hc.description_eq,
      hc.targets.alter fun _ _ ho => (hentries ho).alter fun _ _ ho => (hentry ho).display h,
      by simp only [Check.note, Note.display, Change.status, hc.status_eq]⟩

theorem Extends.foldl_note {notes notes' : List Note}
    (h : List.Forall₂ (Note.Extends level level') notes notes') {c c' : Check}
    (hc : c.Extends level level' c') :
    (notes.foldl Check.note c).Extends level level' (notes'.foldl Check.note c') := by
  induction h generalizing c c' with
  | nil => exact hc
  | cons hn _ ih => exact ih (hc.note hn)

/-- The start of an entry in a check that has none. -/
theorem extends_declare (name description target ns : String) (what : Option String) :
    ((empty name description).note ⟨target, ns, .declare [] what⟩).Extends level level'
      ((empty name description).note ⟨target, ns, .declare [] what⟩) :=
  ⟨rfl, rfl, .cons ⟨rfl, .cons ⟨rfl, rfl, rfl, rfl, .nil, rfl, rfl, .slnil⟩ .nil⟩ .nil, rfl⟩

end Check

/-- The notes of an evaluation, and those of the same one at another level of detail. -/
inductive Note.ListExtends (level level' : DetailLevel) : List Note → List Note → Prop
  /-- Conditions with their observations, and lines. -/
  | paired {notes notes' : List Note}
    (h : List.Forall₂ (Note.Extends level level') notes notes') :
    ListExtends level level' notes notes'
  /-- The same after an entry was started. -/
  | started (target ns : String) (what : Option String) {notes notes' : List Note}
    (h : List.Forall₂ (Note.Extends level level') notes notes') :
    ListExtends level level' (⟨target, ns, .declare [] what⟩ :: notes)
      (⟨target, ns, .declare [] what⟩ :: notes')

namespace Note

theorem forall₂_extends_refl {notes : List Note} (h : ∀ n ∈ notes, n.change.isPaired) :
    List.Forall₂ (Note.Extends level level') notes notes :=
  List.forall₂_same.2 fun n hn => extends_refl (h n hn)

theorem forall₂_extends_filter {notes notes' : List Note}
    (h : List.Forall₂ (Note.Extends level level') notes notes') :
    List.Forall₂ (Note.Extends level level') (notes.filter fun n => !n.isDisplay)
      (notes'.filter fun n => !n.isDisplay) := by
  refine List.rel_filter (fun n n' hn => ?_) h
  cases hn <;> rfl

end Note

/-- A check at some level of detail, and the same one at another. -/
theorem Check.extends_ofNotesFor {notes notes' : List Note}
    (h : Note.ListExtends level level' notes notes') (withDisplays : Bool)
    (name description : String) :
    (ofNotesFor withDisplays name description notes).Extends level level'
      (ofNotesFor withDisplays name description notes') := by
  cases h with
  | paired h =>
    cases withDisplays with
    | true => exact (extends_empty name description).foldl_note h
    | false => exact (extends_empty name description).foldl_note (Note.forall₂_extends_filter h)
  | started target ns what h =>
    cases withDisplays with
    | true => exact (extends_declare name description target ns what).foldl_note h
    | false =>
      exact (extends_declare name description target ns what).foldl_note
        (Note.forall₂_extends_filter h)

end EdgeHealth
