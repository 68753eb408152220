import EdgeHealth.Projection

/-!
# Projecting a resource is a walk through it

The values below a value are reached by names: an object has its members below it, a list those of
the objects among its items, and nothing stands below any other value. A walk visits a value, under
its label, and then what is below it, from the first member to the last and each with all that is
below it in turn. The label of a member of an object stands four blanks deeper than that of the
object, the label of a member of an item six blanks deeper than that of the list.

The lines of a resource follow such a walk. Read from above, each line has the label of the value
that is visited next, or it has none and tells more of what was visited last: it numbers an item,
holds an item that is no object, or is a long text, which stands alone under its label. Where the
walk starts deeper, all lines stand as much deeper.

## Main definitions

* `Json.children`, `Json.inset` : what is below a value, and how much deeper it stands.
* `walk`, `Property.visits` : the values that are visited, below one label and in a resource.
* `Display.labels` : the labels of a line.
* `LaidOut` : lines that follow a walk.

## Main results

* `laidOut_project` : the lines of a resource follow the walk through it.
* `project_add` : the lines of a resource that start deeper.
* `project_walks` : labels, long texts and indentation of these lines.
-/

namespace EdgeHealth

/-! ### Walks -/

namespace Json

/-- The members of an object. Nothing else has any. -/
def members : Json → List (String × Json)
  | .object members => members
  | _ => []

/-- What is below a value: the members of an object, and those of the objects among the items of a
list. -/
def children : Json → List (String × Json)
  | .object members => members
  | .array items => items.flatMap members
  | _ => []

/-- How much deeper than the label of a value the labels below it stand. -/
def inset : Json → Nat
  | .object _ => 4
  | .array _ => 6
  | _ => 0

theorem sizeOf_lt_of_mem_members {v : Json} {child : String × Json} (h : child ∈ v.members) :
    sizeOf child.2 < sizeOf v := by
  cases v with
  | object members =>
    have hmem : sizeOf child < sizeOf members := List.sizeOf_lt_of_mem h
    obtain ⟨key, value⟩ := child
    rw [Prod.mk.sizeOf_spec] at hmem
    rw [object.sizeOf_spec]
    show sizeOf value < _
    omega
  | _ => cases h

/-- What is below a value is smaller. -/
theorem sizeOf_lt_of_mem_children {v : Json} {child : String × Json} (h : child ∈ v.children) :
    sizeOf child.2 < sizeOf v := by
  cases v with
  | object members =>
    have hmem : child ∈ (object members).members := h
    exact sizeOf_lt_of_mem_members hmem
  | array items =>
    obtain ⟨item, hitem, hchild⟩ := List.mem_flatMap.1 h
    have hlt := sizeOf_lt_of_mem_members hchild
    have hmem := List.sizeOf_lt_of_mem hitem
    rw [array.sizeOf_spec]
    omega
  | _ => cases h

/-- Nothing is below a list without an object. -/
theorem children_array_eq_nil {items : List Json} (h : ¬ items.any Json.isObject) :
    (Json.array items).children = [] := by
  refine List.flatMap_eq_nil_iff.2 fun item hitem => ?_
  cases item with
  | object members => exact absurd (List.any_eq_true.2 ⟨_, hitem, rfl⟩) h
  | _ => rfl

end Json

/-- A value that is visited. -/
structure Visit where
  /-- The count of blanks in front of the line with its label. -/
  indent : Nat
  /-- The label. -/
  label : String
  /-- The value. -/
  value : Json
  deriving DecidableEq, Repr

namespace Visit

/-- The label with its indentation. -/
def place (visit : Visit) : Nat × String := (visit.indent, visit.label)

/-- Whether the value is a text that stands on a line of its own. -/
def IsLong (visit : Visit) : Prop := ∃ s, visit.value = .string s ∧ longText < s.length

end Visit

/-- The walk through a value: the value itself, and then the walks through what is below it, one
after another. -/
def walk (indent : Nat) (label : String) (v : Json) : List Visit :=
  ⟨indent, label, v⟩ ::
    v.children.attach.flatMap fun child => walk (indent + v.inset) child.1.1 child.1.2
termination_by sizeOf v
decreasing_by exact Json.sizeOf_lt_of_mem_children child.2

theorem walk_eq (indent : Nat) (label : String) (v : Json) :
    walk indent label v = ⟨indent, label, v⟩ ::
      v.children.flatMap fun child => walk (indent + v.inset) child.1 child.2 := by
  rw [walk, List.flatMap_subtype (g := fun child => walk (indent + v.inset) child.1 child.2)
    fun _ _ => rfl, List.unattach_attach]

/-- The walk through a value with nothing below it. -/
theorem walk_of_children_eq_nil (indent : Nat) (label : String) {v : Json} (h : v.children = []) :
    walk indent label v = [⟨indent, label, v⟩] := by
  rw [walk_eq, h, List.flatMap_nil]

/-- The walk through one property of a resource. There is none where the property is shown only with
all that is known and less is shown, and none where its value is missing or `null`. -/
def Property.visits (level : DetailLevel) (indent : Nat) (resource : Json) (p : Property) :
    List Visit :=
  if p.verboseOnly ∧ level ≠ .verbose then []
  else
    match resource.lookup? p.path with
    | none => []
    | some .null => []
    | some v => walk indent p.label v

/-! ### Lines that follow a walk -/

namespace Display

/-- The labels of a line, each with the indentation of the line. -/
def labels (line : Display) : List (Nat × String) :=
  (line.spans.filter fun span => span.tone = .label).map fun span => (line.indent, span.text)

/-- The line with more blanks in front of it. -/
def deeper (more : Nat) (line : Display) : Display := { line with indent := line.indent + more }

end Display

/-- Lines that follow a walk. -/
inductive LaidOut : List Visit → List Display → Prop
  /-- Nothing is left. -/
  | done : LaidOut [] []
  /-- A line without a label, which tells more of what was visited last. -/
  | unlabelled {line visits lines} (hline : line.labels = []) (h : LaidOut visits lines) :
      LaidOut visits (line :: lines)
  /-- A line with the label of the next value, which is no long text. -/
  | short {visit line visits lines} (hvisit : ¬ visit.IsLong)
      (hline : line.labels = [visit.place]) (h : LaidOut visits lines) :
      LaidOut (visit :: visits) (line :: lines)
  /-- The label of a long text, and the text alone on the line below it. -/
  | long {visit s visits lines} (hvalue : visit.value = .string s) (hs : longText < s.length)
      (h : LaidOut visits lines) :
      LaidOut (visit :: visits)
        (⟨visit.indent, [⟨visit.label, .label⟩, ⟨":", .plain⟩]⟩ ::
          ⟨visit.indent + 4, [⟨s, .value⟩]⟩ :: lines)

namespace LaidOut

variable {visits visits' : List Visit} {lines lines' : List Display}

theorem append (h : LaidOut visits lines) (h' : LaidOut visits' lines') :
    LaidOut (visits ++ visits') (lines ++ lines') := by
  induction h with
  | done => exact h'
  | unlabelled hline _ ih => exact .unlabelled hline ih
  | short hvisit hline _ ih => exact .short hvisit hline ih
  | long hvalue hs _ ih => exact .long hvalue hs ih

/-- The labels of the lines are those of the values, in the order in which they are visited. -/
theorem labels_eq (h : LaidOut visits lines) :
    lines.flatMap Display.labels = visits.map Visit.place := by
  induction h with
  | done => rfl
  | unlabelled hline _ ih => rw [List.flatMap_cons, hline, ih, List.nil_append]
  | short _ hline _ ih => rw [List.flatMap_cons, hline, ih, List.map_cons, List.singleton_append]
  | long _ _ _ ih => rw [List.flatMap_cons, List.flatMap_cons, ih]; rfl

/-- A long text stands alone under its label, between the lines of what is visited before it and
those of what is visited after it. -/
theorem exists_long (h : LaidOut visits lines) {before after : List Visit} {visit : Visit}
    {s : String} (hvisits : visits = before ++ visit :: after) (hvalue : visit.value = .string s)
    (hs : longText < s.length) :
    ∃ above below, lines = above ++ ⟨visit.indent, [⟨visit.label, .label⟩, ⟨":", .plain⟩]⟩ ::
        ⟨visit.indent + 4, [⟨s, .value⟩]⟩ :: below ∧
      LaidOut before above ∧ LaidOut after below := by
  induction h generalizing before with
  | done => simp at hvisits
  | unlabelled hline _ ih =>
    obtain ⟨above, below, rfl, habove, hbelow⟩ := ih hvisits
    exact ⟨_ :: above, below, rfl, .unlabelled hline habove, hbelow⟩
  | short hvisit hline _ ih =>
    cases before with
    | nil =>
      obtain ⟨rfl, -⟩ := List.cons.inj hvisits
      exact absurd ⟨s, hvalue, hs⟩ hvisit
    | cons first before =>
      obtain ⟨rfl, hrest⟩ := List.cons.inj hvisits
      obtain ⟨above, below, rfl, habove, hbelow⟩ := ih hrest
      exact ⟨_ :: above, below, rfl, .short hvisit hline habove, hbelow⟩
  | long hvalue' hs' hrest' ih =>
    cases before with
    | nil =>
      obtain ⟨rfl, rfl⟩ := List.cons.inj hvisits
      obtain rfl : s = _ := Json.string.inj (hvalue.symm.trans hvalue')
      exact ⟨[], _, rfl, .done, hrest'⟩
    | cons first before =>
      obtain ⟨rfl, hrest⟩ := List.cons.inj hvisits
      obtain ⟨above, below, rfl, habove, hbelow⟩ := ih hrest
      exact ⟨_ :: _ :: above, below, rfl, .long hvalue' hs' habove, hbelow⟩

end LaidOut

/-! ### The lines of a value -/

/-- The lines of a value with nothing below it that is no list. -/
theorem laidOut_leafLines (indent : Nat) (label : String) {v : Json} (h : v.children = []) :
    LaidOut (walk indent label v) (leafLines indent label v) := by
  rw [walk_of_children_eq_nil indent label h]
  cases v with
  | string s =>
    by_cases hs : longText < s.length
    · rw [leafLines, if_pos hs]
      exact .long rfl hs .done
    · have hshort : ¬ Visit.IsLong ⟨indent, label, .string s⟩ := by
        rintro ⟨t, ht, hlong⟩
        exact hs (Json.string.inj ht ▸ hlong)
      rw [leafLines, if_neg hs]
      exact .short hshort rfl .done
  | _ => exact .short (fun ⟨_, hvalue, _⟩ => nomatch hvalue) rfl .done

mutual

/-- The lines of a value follow the walk through it. -/
theorem laidOut_valueLines (indent : Nat) (label : String) : (v : Json) →
    LaidOut (walk indent label v) (valueLines indent label v)
  | .object members => by
    have hshort : ¬ Visit.IsLong ⟨indent, label, .object members⟩ :=
      fun ⟨_, hvalue, _⟩ => nomatch hvalue
    rw [walk_eq, valueLines]
    exact .short hshort rfl (laidOut_memberLines (indent + 4) members)
  | .array items => by
    have hshort : ¬ Visit.IsLong ⟨indent, label, .array items⟩ :=
      fun ⟨_, hvalue, _⟩ => nomatch hvalue
    rw [valueLines]
    split
    · rw [walk_eq]
      exact .short hshort rfl (laidOut_itemLines indent 0 items)
    · next hany =>
      rw [walk_of_children_eq_nil indent label (Json.children_array_eq_nil hany)]
      exact .short hshort rfl .done
  | .null => laidOut_leafLines indent label rfl
  | .bool _ => laidOut_leafLines indent label rfl
  | .int _ => laidOut_leafLines indent label rfl
  | .real _ => laidOut_leafLines indent label rfl
  | .string _ => laidOut_leafLines indent label rfl

theorem laidOut_memberLines : (indent : Nat) → (members : List (String × Json)) →
    LaidOut (members.flatMap fun child => walk indent child.1 child.2)
      (memberLines indent members)
  | _, [] => .done
  | indent, (key, v) :: rest => by
    rw [memberLines, List.flatMap_cons]
    exact (laidOut_valueLines indent key v).append (laidOut_memberLines indent rest)

theorem laidOut_itemLines (indent number : Nat) : (items : List Json) →
    LaidOut ((items.flatMap Json.members).flatMap fun child => walk (indent + 6) child.1 child.2)
      (itemLines indent number items)
  | [] => .done
  | v :: rest => by
    rw [itemLines, List.flatMap_cons, List.flatMap_append]
    exact .unlabelled rfl
      ((laidOut_itemBody (indent + 6) v).append (laidOut_itemLines indent (number + 1) rest))

theorem laidOut_itemBody (indent : Nat) : (v : Json) →
    LaidOut (v.members.flatMap fun child => walk indent child.1 child.2) (itemBody indent v)
  | .object members => laidOut_memberLines indent members
  | .array _ => .unlabelled rfl .done
  | .null => .unlabelled rfl .done
  | .bool _ => .unlabelled rfl .done
  | .int _ => .unlabelled rfl .done
  | .real _ => .unlabelled rfl .done
  | .string _ => .unlabelled rfl .done

end

/-! ### Lines that start deeper -/

/-- The lines of a value that is no structure, from a deeper place on. -/
theorem leafLines_add (indent more : Nat) (label : String) (v : Json) :
    leafLines (indent + more) label v =
      (leafLines indent label v).map (Display.deeper more) := by
  cases v with
  | string s =>
    rw [leafLines, leafLines]
    split
    · rw [Nat.add_right_comm]
      rfl
    · rfl
  | _ => rfl

mutual

/-- The lines of a value, from a deeper place on. -/
theorem valueLines_add (indent more : Nat) (label : String) : (v : Json) →
    valueLines (indent + more) label v =
      (valueLines indent label v).map (Display.deeper more)
  | .object members => by
    rw [valueLines, valueLines, Nat.add_right_comm, memberLines_add (indent + 4) more members]
    rfl
  | .array items => by
    rw [valueLines, valueLines]
    split
    · rw [itemLines_add indent more 0 items]
      rfl
    · rfl
  | .null => leafLines_add indent more label .null
  | .bool b => leafLines_add indent more label (.bool b)
  | .int i => leafLines_add indent more label (.int i)
  | .real x => leafLines_add indent more label (.real x)
  | .string s => leafLines_add indent more label (.string s)

theorem memberLines_add : (indent more : Nat) → (members : List (String × Json)) →
    memberLines (indent + more) members =
      (memberLines indent members).map (Display.deeper more)
  | _, _, [] => rfl
  | indent, more, (key, v) :: rest => by
    rw [memberLines, memberLines, valueLines_add indent more key v,
      memberLines_add indent more rest, List.map_append]

theorem itemLines_add (indent more number : Nat) : (items : List Json) →
    itemLines (indent + more) number items =
      (itemLines indent number items).map (Display.deeper more)
  | [] => rfl
  | v :: rest => by
    rw [itemLines, itemLines, itemLines_add indent more (number + 1) rest,
      Nat.add_right_comm indent more 6, itemBody_add (indent + 6) more v, List.map_append,
      List.map_cons, Nat.add_right_comm indent more 2]
    rfl

theorem itemBody_add (indent more : Nat) : (v : Json) →
    itemBody (indent + more) v = (itemBody indent v).map (Display.deeper more)
  | .object members => memberLines_add indent more members
  | .array _ => rfl
  | .null => rfl
  | .bool _ => rfl
  | .int _ => rfl
  | .real _ => rfl
  | .string _ => rfl

end

/-! ### The lines of a resource -/

namespace Property

variable (resource : Json) (level : DetailLevel) (indent : Nat)

theorem not_isShownAt_iff (p : Property) :
    ¬ p.isShownAt level ↔ p.verboseOnly ∧ level ≠ .verbose := by
  cases hverbose : p.verboseOnly <;> cases level <;>
    simp [isShownAt, DetailLevel.isVerbose, hverbose]

/-- The lines of a property that is shown follow the walk through its value. -/
theorem laidOut_lines {p : Property} (h : p.isShownAt level) :
    LaidOut (p.visits level indent resource) (p.lines indent resource) := by
  have hshown : ¬ (p.verboseOnly ∧ level ≠ .verbose) :=
    fun hnot => (p.not_isShownAt_iff level).2 hnot h
  rw [visits, if_neg hshown, lines, Json.present?]
  cases resource.lookup? p.path with
  | none => exact .done
  | some v =>
    cases v with
    | null => exact .done
    | _ => exact laidOut_valueLines indent p.label _

theorem lines_add (more : Nat) (p : Property) :
    p.lines (indent + more) resource =
      (p.lines indent resource).map (Display.deeper more) := by
  rw [lines, lines]
  cases resource.present? p.path with
  | none => rfl
  | some v => exact valueLines_add indent more p.label v

end Property

section

variable (resource : Json) (properties : List Property) (level : DetailLevel) (indent : Nat)

/-- The lines of a resource follow the walk through it, one property after another. -/
theorem laidOut_project :
    LaidOut (properties.flatMap (Property.visits level indent resource))
      (project resource properties level indent) := by
  induction properties with
  | nil => exact .done
  | cons p rest ih =>
    rw [List.flatMap_cons]
    by_cases h : p.isShownAt level
    · have hlines : project resource (p :: rest) level indent =
          p.lines indent resource ++ project resource rest level indent := by simp [project, h]
      rw [hlines]
      exact (Property.laidOut_lines resource level indent h).append ih
    · have hlines : project resource (p :: rest) level indent =
          project resource rest level indent := by simp [project, h]
      have hvisits : p.visits level indent resource = [] :=
        if_pos ((p.not_isShownAt_iff level).1 h)
      rw [hlines, hvisits]
      exact ih

/-- The lines of a resource, from a deeper place on. -/
theorem project_add (more : Nat) :
    project resource properties level (indent + more) =
      (project resource properties level indent).map (Display.deeper more) := by
  simp only [project, Property.lines_add, List.map_flatMap]

/-- **A projection is a walk through a resource.** Its labels are those of the values that are
visited, each at its place: property by property, where a property is shown and its value is neither
missing nor `null`, the label of the property and then the names below it. A text of more than fifty
characters stands alone and as it is on the line below its label, four blanks deeper; what is
visited before it has its labels above, what is visited after it has them below. And where the lines
start deeper, they are the same lines, all as much deeper. -/
theorem project_walks :
    let visits := properties.flatMap (Property.visits level indent resource)
    let lines := project resource properties level indent
    lines.flatMap Display.labels = visits.map Visit.place ∧
    (∀ before visit after s, visits = before ++ visit :: after → visit.value = .string s →
      50 < s.length →
      ∃ above below, lines = above ++ ⟨visit.indent, [⟨visit.label, .label⟩, ⟨":", .plain⟩]⟩ ::
          ⟨visit.indent + 4, [⟨s, .value⟩]⟩ :: below ∧
        above.flatMap Display.labels = before.map Visit.place ∧
        below.flatMap Display.labels = after.map Visit.place) ∧
    ∀ more, project resource properties level (indent + more) =
      lines.map (Display.deeper more) := by
  intro visits lines
  have hlaid : LaidOut visits lines := laidOut_project resource properties level indent
  refine ⟨hlaid.labels_eq, fun before visit after s hvisits hvalue hs => ?_,
    project_add resource properties level indent⟩
  obtain ⟨above, below, hlines, habove, hbelow⟩ := hlaid.exists_long hvisits hvalue hs
  exact ⟨above, below, hlines, habove.labels_eq, hbelow.labels_eq⟩

end

/-- A text that is too long for the line of its label. -/
private def longName : String := Text.repeated 'x' 60

/-- A list of a number and an object. -/
private def mixedRoutes : Json :=
  .array [.int 5, .object [("name", .string longName), ("on", .bool true)]]

private def routed : Json := .object [("spec", .object [("routes", mixedRoutes), ("to", .null)])]

private def routeProperties : List Property :=
  [⟨"spec.to", "To", false⟩, ⟨"spec.routes", "Routes", false⟩, ⟨"spec", "All", true⟩]

/-- The long name of an item, between what is visited before and after it. -/
theorem project_walks_routes :
    routeProperties.flatMap (Property.visits .detail 6 routed) =
        [⟨6, "Routes", mixedRoutes⟩] ++ ⟨12, "name", .string longName⟩ :: [⟨12, "on", .bool true⟩] ∧
      50 < longName.length ∧
      ∃ above below, project routed routeProperties .detail 6 =
          above ++ ⟨12, [⟨"name", .label⟩, ⟨":", .plain⟩]⟩ ::
            ⟨16, [⟨longName, .value⟩]⟩ :: below ∧
        above.flatMap Display.labels = [(6, "Routes")] ∧
        below.flatMap Display.labels = [(12, "on")] := by
  have hvisits : routeProperties.flatMap (Property.visits .detail 6 routed) =
      [⟨6, "Routes", mixedRoutes⟩] ++ ⟨12, "name", .string longName⟩ ::
        [⟨12, "on", .bool true⟩] := by
    decide +kernel
  have hlong : 50 < longName.length := by decide +kernel
  obtain ⟨-, hbetween, -⟩ := project_walks routed routeProperties .detail 6
  exact ⟨hvisits, hlong, hbetween _ _ _ _ hvisits rfl hlong⟩

end EdgeHealth
