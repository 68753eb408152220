import EdgeHealth.Proofs.Check.Soundness

/-!
# Failures that lines tell

A line tells a status when one of its spans has the tone of that status. An entry that has lines for
human readers *tells* a failure when one of its lines tells the status of it. Whether the entries of
a check tell all failures is seen from the notes that the check is made of: the note that records a
failure is accompanied by one of lines about the same entry. Some failures may be excepted.

## Main definitions

* `Display.Tells` : a line with a span that has the tone of a status.
* `Check.Tells` : a check whose entries tell all failures but some.
* `Note.Told` : notes whose failures are told by lines about the same entry.

## Main results

* `Check.entryAt?_ofNotes` : an entry is made of the changes that are addressed to it.
* `Note.Told.tells_ofNotes` : a check whose notes tell all failures but some.
-/

namespace EdgeHealth

namespace Display

/-- A line with a span that has the tone of a status. -/
def Tells (s : Status) (d : Display) : Prop := ∃ span ∈ d.spans, span.tone = .status s

instance (s : Status) (d : Display) : Decidable (d.Tells s) :=
  inferInstanceAs (Decidable (∃ span ∈ d.spans, span.tone = .status s))

theorem tells_status (d : Display) (text : String) (s : Status) : (d.status text s).Tells s :=
  ⟨⟨text, .status s⟩, List.mem_append_right d.spans (List.mem_singleton_self _), rfl⟩

theorem Tells.push {s : Status} {d : Display} (h : d.Tells s) (tone : Tone) (text : String) :
    (d.push tone text).Tells s := by
  obtain ⟨span, hspan, htone⟩ := h
  exact ⟨span, List.mem_append_left _ hspan, htone⟩

end Display

/-! ### What a change brings into an entry -/

namespace Change

/-- The lines that a change adds. -/
def lines : Change → List Display
  | .display lines => lines
  | _ => []

/-- The condition that a change adds together with its observation. -/
def observed : Change → List (String × Evaluation)
  | .observe condition e => [(condition, e)]
  | _ => []

end Change

namespace Entry

theorem displays_apply (e : Entry) (ch : Change) :
    (e.apply ch).displays = e.displays ++ ch.lines := by
  cases ch <;> simp [apply, Change.lines]

theorem pairs_apply {e : Entry} (he : e.IsSound) {ch : Change} (h : ch.isPaired) :
    (e.apply ch).pairs = e.pairs ++ ch.observed := by
  cases ch with
  | observe condition x => exact List.zip_append he.length_eq
  | display lines => exact (List.append_nil _).symm
  | _ => cases h

theorem displays_foldl_apply : (changes : List Change) → (e : Entry) →
    (changes.foldl apply e).displays = e.displays ++ changes.flatMap Change.lines
  | [], e => by simp
  | ch :: changes, e => by
    rw [List.foldl_cons, displays_foldl_apply changes, displays_apply, List.flatMap_cons,
      List.append_assoc]

theorem pairs_foldl_apply : (changes : List Change) → (∀ ch ∈ changes, ch.isPaired) →
    {e : Entry} → e.IsSound →
    (changes.foldl apply e).pairs = e.pairs ++ changes.flatMap Change.observed
  | [], _, e, _ => by simp
  | ch :: changes, h, e, he => by
    have hch := h ch List.mem_cons_self
    rw [List.foldl_cons, pairs_foldl_apply changes (fun c hc => h c (List.mem_cons_of_mem ch hc))
      (he.apply hch), pairs_apply he hch, List.flatMap_cons, List.append_assoc]

end Entry

/-! ### The changes of an entry -/

/-- The changes that notes make to the entry of a target in a namespace. -/
def Note.changesAt (target ns : String) : List Note → List Change
  | [] => []
  | n :: notes =>
    if target = n.target ∧ ns = n.ns then n.change :: changesAt target ns notes
    else changesAt target ns notes

theorem Note.mem_changesAt {target ns : String} {ch : Change} : {notes : List Note} →
    (ch ∈ changesAt target ns notes ↔ ⟨target, ns, ch⟩ ∈ notes)
  | [] => by simp [changesAt]
  | ⟨target', ns', ch'⟩ :: notes => by
    have ih : ch ∈ changesAt target ns notes ↔ ⟨target, ns, ch⟩ ∈ notes := mem_changesAt
    rw [changesAt]
    split
    · next h =>
      obtain ⟨rfl, rfl⟩ := h
      simp [ih]
    · next h =>
      rw [ih, List.mem_cons, Note.mk.injEq]
      exact (or_iff_right fun heq => h ⟨heq.1, heq.2.1⟩).symm

namespace Check

theorem entryAt?_foldl_note (target ns : String) : (notes : List Note) → (c : Check) →
    (notes.foldl note c).entryAt? target ns =
      (Note.changesAt target ns notes).foldl
        (fun e ch => some ((e.getD Entry.empty).apply ch)) (c.entryAt? target ns)
  | [], _ => rfl
  | n :: notes, c => by
    rw [List.foldl_cons, entryAt?_foldl_note target ns notes, entryAt?_note, Note.changesAt]
    split
    · next h =>
      obtain ⟨rfl, rfl⟩ := h
      rfl
    · rfl

private theorem foldl_apply_some : (changes : List Change) → (e : Entry) →
    changes.foldl (fun e ch => some ((e.getD Entry.empty).apply ch)) (some e) =
      some (changes.foldl Entry.apply e)
  | [], _ => rfl
  | ch :: changes, e => foldl_apply_some changes (e.apply ch)

/-- An entry that is there is changed by the changes that are addressed to it. -/
theorem entryAt?_foldl_note_of_eq_some {target ns : String} {c : Check} {e : Entry}
    (h : c.entryAt? target ns = some e) (notes : List Note) :
    (notes.foldl note c).entryAt? target ns =
      some ((Note.changesAt target ns notes).foldl Entry.apply e) := by
  rw [entryAt?_foldl_note, h, foldl_apply_some]

/-- An entry is there if there are changes that are addressed to it, and it is made of these. -/
theorem entryAt?_ofNotes (name description : String) (notes : List Note) (target ns : String) :
    (ofNotes name description notes).entryAt? target ns =
      if Note.changesAt target ns notes = [] then none
      else some ((Note.changesAt target ns notes).foldl Entry.apply Entry.empty) := by
  rw [ofNotes, entryAt?_foldl_note, entryAt?_empty]
  cases Note.changesAt target ns notes with
  | nil => rfl
  | cons ch changes => exact foldl_apply_some changes (Entry.empty.apply ch)

/-- An entry is made of the changes that are addressed to it. -/
theorem eq_foldl_of_entryAt?_ofNotes {name description target ns : String} {notes : List Note}
    {e : Entry} (h : (ofNotes name description notes).entryAt? target ns = some e) :
    e = (Note.changesAt target ns notes).foldl Entry.apply Entry.empty := by
  rw [entryAt?_ofNotes] at h
  split at h
  · cases h
  · exact (Option.some.inj h).symm

end Check

/-! ### Failures that are told -/

/-- A check whose entries tell all failures but some, as far as they have lines at all. -/
def Check.Tells (P : String → Evaluation → Prop) (c : Check) : Prop :=
  ∀ ⦃target ns e⦄, c.entryAt? target ns = some e →
    ∀ ⦃condition x⦄, (condition, x) ∈ e.pairs → x.status.isFailure true →
      e.displays = [] ∨ (∃ d ∈ e.displays, d.Tells x.status) ∨ P condition x

namespace Note

/-- Notes among which every failure but some is accompanied by a line about the same entry that
tells it. -/
def Accompanied (P : String → Evaluation → Prop) (notes : List Note) : Prop :=
  ∀ n ∈ notes, ∀ p ∈ n.change.observed, p.2.status.isFailure true →
    P p.1 p.2 ∨ ∃ m ∈ notes, m.target = n.target ∧ m.ns = n.ns ∧
      ∃ d ∈ m.change.lines, d.Tells p.2.status

/-- Notes that record conditions together with their observations, perhaps after the start of an
entry, and whose failures are accompanied by lines unless there are no lines at all. -/
structure Told (P : String → Evaluation → Prop) (notes : List Note) : Prop where
  /-- Conditions and observations come together. -/
  paired : (∀ n ∈ notes, n.change.isPaired) ∨
    ∃ target ns what rest, notes = ⟨target, ns, .declare [] what⟩ :: rest ∧
      ∀ n ∈ rest, n.change.isPaired
  /-- The failures are accompanied by lines. -/
  accompanied : (∀ n ∈ notes, n.change.lines = []) ∨ Accompanied P notes

variable {P : String → Evaluation → Prop}

theorem accompanied_nil : Accompanied P [] := fun _ h => absurd h List.not_mem_nil

theorem Accompanied.append {notes notes' : List Note} (h : Accompanied P notes)
    (h' : Accompanied P notes') : Accompanied P (notes ++ notes') := by
  intro n hn p hp hfailure
  rcases List.mem_append.1 hn with hn | hn
  · refine (h n hn p hp hfailure).imp_right ?_
    rintro ⟨m, hm, htold⟩
    exact ⟨m, List.mem_append_left _ hm, htold⟩
  · refine (h' n hn p hp hfailure).imp_right ?_
    rintro ⟨m, hm, htold⟩
    exact ⟨m, List.mem_append_right _ hm, htold⟩

theorem Accompanied.flatten : {lists : List (List Note)} →
    (∀ notes ∈ lists, Accompanied P notes) → Accompanied P lists.flatten
  | [], _ => accompanied_nil
  | notes :: _, h =>
    (h notes List.mem_cons_self).append
      (Accompanied.flatten fun l hl => h l (List.mem_cons_of_mem notes hl))

theorem Accompanied.flatMap {α : Type} {l : List α} {f : α → List Note}
    (h : ∀ a ∈ l, Accompanied P (f a)) : Accompanied P (l.flatMap f) := by
  rw [List.flatMap_def]
  refine Accompanied.flatten fun notes hnotes => ?_
  obtain ⟨a, ha, rfl⟩ := List.mem_map.1 hnotes
  exact h a ha

/-- One more note, whose failures are all excepted. -/
theorem Accompanied.cons {n : Note} {notes : List Note} (h : Accompanied P notes)
    (hn : ∀ p ∈ n.change.observed, p.2.status.isFailure true → P p.1 p.2) :
    Accompanied P (n :: notes) := by
  intro m hm p hp hfailure
  rcases List.mem_cons.1 hm with rfl | hm
  · exact .inl (hn p hp hfailure)
  · refine (h m hm p hp hfailure).imp_right ?_
    rintro ⟨m', hm', htold⟩
    exact ⟨m', List.mem_cons_of_mem n hm', htold⟩

/-- Lines about an entry before other notes. -/
theorem Accompanied.cons_display {notes : List Note} (h : Accompanied P notes)
    (target ns : String) (lines : List Display) :
    Accompanied P (.display target ns lines :: notes) :=
  h.cons fun _ hp => absurd hp List.not_mem_nil

/-- Notes about one entry, followed by the lines about them. -/
theorem accompanied_append_display {target ns : String} {notes : List Note} {lines : List Display}
    (hplace : ∀ n ∈ notes, n.target = target ∧ n.ns = ns)
    (h : ∀ n ∈ notes, ∀ p ∈ n.change.observed, p.2.status.isFailure true →
      P p.1 p.2 ∨ ∃ d ∈ lines, d.Tells p.2.status) :
    Accompanied P (notes ++ [.display target ns lines]) := by
  intro n hn p hp hfailure
  rcases List.mem_append.1 hn with hmem | hmem
  · obtain ⟨htarget, hns⟩ := hplace n hmem
    refine (h n hmem p hp hfailure).imp_right fun htold => ?_
    exact ⟨_, List.mem_append_right _ (List.mem_singleton_self _), htarget.symm, hns.symm, htold⟩
  · cases List.mem_singleton.1 hmem
    cases hp

/-- A condition with its observation, followed by the lines about it. -/
theorem accompanied_pair {target ns condition : String} {x : Evaluation} {lines : List Display}
    (h : x.status.isFailure true → P condition x ∨ ∃ d ∈ lines, d.Tells x.status) :
    Accompanied P [.observe target ns condition x, .display target ns lines] := by
  have hplace : ∀ n ∈ [observe target ns condition x], n.target = target ∧ n.ns = ns :=
    List.forall_mem_singleton.2 ⟨rfl, rfl⟩
  exact accompanied_append_display hplace
    (List.forall_mem_singleton.2 (List.forall_mem_singleton.2 h))

/-- The order of notes does not count. -/
theorem Accompanied.perm {notes notes' : List Note} (h : Accompanied P notes)
    (hperm : notes.Perm notes') : Accompanied P notes' := by
  intro n hn p hp hfailure
  refine (h n (hperm.mem_iff.2 hn) p hp hfailure).imp_right ?_
  rintro ⟨m, hm, htold⟩
  exact ⟨m, hperm.mem_iff.1 hm, htold⟩

/-- What an entry records is recorded by notes. -/
theorem Told.mem_of_mem_pairs {notes : List Note} (h : Told P notes)
    {name description target ns condition : String} {e : Entry} {x : Evaluation}
    (he : (Check.ofNotes name description notes).entryAt? target ns = some e)
    (hx : (condition, x) ∈ e.pairs) : ⟨target, ns, .observe condition x⟩ ∈ notes := by
  have hobserved {changes : List Change} (hmem : (condition, x) ∈ changes.flatMap Change.observed) :
      .observe condition x ∈ changes := by
    obtain ⟨ch, hch, hx⟩ := List.mem_flatMap.1 hmem
    cases ch with
    | observe c y =>
      cases List.mem_singleton.1 hx
      exact hch
    | _ => cases hx
  rw [Check.eq_foldl_of_entryAt?_ofNotes he] at hx
  rcases h.paired with hpaired | ⟨target', ns', what, rest, rfl, hpaired⟩
  · rw [Entry.pairs_foldl_apply _ (fun ch hch => hpaired _ (mem_changesAt.1 hch))
      Entry.isSound_empty] at hx
    exact mem_changesAt.1 (hobserved hx)
  · have hrest : ∀ ch ∈ changesAt target ns rest, ch.isPaired :=
      fun ch hch => hpaired _ (mem_changesAt.1 hch)
    refine List.mem_cons_of_mem _ (mem_changesAt.1 (hobserved ?_))
    rw [changesAt] at hx
    split at hx
    · have hstart : (Entry.empty.apply (.declare [] what)).IsSound := ⟨rfl, rfl⟩
      rwa [List.foldl_cons, Entry.pairs_foldl_apply _ hrest hstart] at hx
    · rwa [Entry.pairs_foldl_apply _ hrest Entry.isSound_empty] at hx

/-- A check tells all failures but some if its notes do. -/
theorem Told.tells_ofNotes {notes : List Note} (h : Told P notes) (name description : String) :
    (Check.ofNotes name description notes).Tells P := by
  intro target ns e he condition x hx hfailure
  have hdisplays : e.displays = (changesAt target ns notes).flatMap Change.lines := by
    have heq := congrArg Entry.displays (Check.eq_foldl_of_entryAt?_ofNotes he)
    rwa [Entry.displays_foldl_apply] at heq
  have hnote := h.mem_of_mem_pairs he hx
  rcases h.accompanied with hnone | haccompanied
  · refine .inl ?_
    rw [hdisplays, List.flatMap_eq_nil_iff]
    exact fun ch hch => hnone _ (mem_changesAt.1 hch)
  · refine .inr ((haccompanied _ hnote _ (List.mem_singleton_self _) hfailure).symm.imp_left ?_)
    rintro ⟨⟨target', ns', ch⟩, hm, rfl, rfl, d, hd, htells⟩
    refine ⟨d, ?_, htells⟩
    rw [hdisplays]
    exact List.mem_flatMap.2 ⟨ch, mem_changesAt.2 hm, hd⟩

end Note

end EdgeHealth
