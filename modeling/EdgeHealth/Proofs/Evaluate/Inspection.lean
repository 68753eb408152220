import Mathlib.Data.List.Basic
import EdgeHealth.Evaluate.Requirement
import EdgeHealth.Proofs.Data.Grown

/-!
# Requirements, one after another

An inspection goes through a list of requirements with one record for all of them: the fields that
it has seen, and its complaints. A requirement looks at a field, which is put into the record, and
may complain, also of what it has just seen. The record is shared, but no requirement reads what
another one has put there. So the inspection comes to the same as the requirements do on their own,
each with an empty record: its complaints are theirs, one after another, and it has seen what they
have seen. Whether all is well depends on nothing but which requirements there are.

## Main definitions

* `Inspection` : the record of an inspection.
* `Inspection.step` : the record after one more requirement.
* `Requirement.inspect` : the inspection of a resource by a list of requirements.

## Main results

* `Inspection.step_eq` : what one requirement adds to the record.
* `Inspection.foldl_step` : what several requirements add to it.
* `Requirement.observed_eq` : what is seen, each path once.
* `Requirement.inspection_is_conjunction` : an inspection and its requirements on their own.
-/

namespace EdgeHealth

open Json

/-- The record of an inspection. -/
structure Inspection where
  /-- The fields that were seen, each under its path, in the order in which they were seen first. -/
  observed : List (String × Json)
  /-- The complaints, in order. -/
  complaints : List String
  deriving DecidableEq, Repr

namespace Inspection

/-! ### The steps of an inspection -/

/-- The empty record. -/
def start : Inspection := ⟨[], []⟩

/-- The record with one more complaint. -/
def complain (i : Inspection) (message : String) : Inspection :=
  { i with complaints := i.complaints ++ [message] }

/-- A look at a field. A value other than `null` is found, and put into the record. -/
def look (resource : Json) (path : String) (i : Inspection) : Inspection × Option Json :=
  match resource.present? path with
  | some v => ({ i with observed := setMember path v i.observed }, some v)
  | none => (i, none)

/-- A look at a field that has to be there. -/
def demand (resource : Json) (path : String) (i : Inspection) : Inspection × Option Json :=
  match i.look resource path with
  | (i, some v) => (i, some v)
  | (i, none) => (i.complain s!"missing {path}", none)

/-- The record after a check of what was found, if anything was. -/
def examine (check : Json → Inspection → Inspection) : Inspection × Option Json → Inspection
  | (i, some v) => check v i
  | (i, none) => i

/-- The check of a value that has to be a text that is not blank. -/
def checkText (path : String) (v : Json) (i : Inspection) : Inspection :=
  match v with
  | .string s =>
    if (Text.trimBlank s.toList).isEmpty then i.complain s!"{path} must be a non-empty string" else i
  | _ => i.complain s!"{path} must be a non-empty string"

/-- The check of a value that has to be a list that is not empty. -/
def checkItems (path : String) (v : Json) (i : Inspection) : Inspection :=
  match v with
  | .array (_ :: _) => i
  | _ => i.complain s!"{path} must be a non-empty list"

/-- The check of a value that has to be a natural number of at least `least`. -/
def checkAtLeast (path : String) (least : Nat) (v : Json) (i : Inspection) : Inspection :=
  match v.toNat? with
  | some n => if least ≤ n then i else i.complain s!"{path} must be >= {least} (got {n})"
  | none => i.complain s!"{path} must be an integer"

/-- The check of a value that has to be a natural number between two others. -/
def checkBetween (path : String) (least greatest : Nat) (v : Json) (i : Inspection) : Inspection :=
  match v.toNat? with
  | some n =>
    if least ≤ n ∧ n ≤ greatest then i
    else i.complain s!"{path} must be between {least} and {greatest} (got {v.scalarText})"
  | none => i.complain s!"{path} must be between {least} and {greatest} (got {v.scalarText})"

/-- The check of a value that has to be one of some words. -/
def checkWord (path : String) (allowed : List String) (v : Json) (i : Inspection) : Inspection :=
  if v.text?.any fun s => allowed.any fun word => Text.sameAscii word s then i
  else i.complain s!"{path} must be one of {Text.enumerated allowed} (got {v.scalarText})"

/-- The record after one more requirement. -/
def step (resource : Json) (i : Inspection) : Requirement → Inspection
  | .present path => (i.demand resource path).1
  | .text path => examine (checkText path) (i.demand resource path)
  | .items path => examine (checkItems path) (i.demand resource path)
  | .atLeast path least => examine (checkAtLeast path least) (i.demand resource path)
  | .word path allowed => examine (checkWord path allowed) (i.demand resource path)
  | .textIfGiven path => examine (checkText path) (i.look resource path)
  | .atLeastIfGiven path least => examine (checkAtLeast path least) (i.look resource path)
  | .betweenIfGiven path least greatest =>
    examine (checkBetween path least greatest) (i.look resource path)
  | .wordIfGiven path allowed => examine (checkWord path allowed) (i.look resource path)
  | .problem message => i.complain message

/-- The outcome of an inspection: what was seen, or the complaints. -/
def outcome (i : Inspection) : Status × Json :=
  if i.complaints = [] then (.success, .object i.observed)
  else (.error, .string (Text.joinWith "; " i.complaints))

/-! ### What is added to the record -/

/-- The record with more that was seen, and with more complaints. -/
def add (i : Inspection) (seen : List (String × Json)) (complaints : List String) : Inspection where
  observed := seen.foldl (fun observed pair => setMember pair.1 pair.2 observed) i.observed
  complaints := i.complaints ++ complaints

variable (i : Inspection)

theorem add_nil : i.add [] [] = i := by
  rw [add, List.append_nil]
  rfl

theorem complain_eq_add (message : String) : i.complain message = i.add [] [message] := rfl

/-- What is added in two parts is added at once. -/
theorem add_add (seen seen' : List (String × Json)) (complaints complaints' : List String) :
    (i.add seen complaints).add seen' complaints' =
      i.add (seen ++ seen') (complaints ++ complaints') := by
  simp only [add, List.foldl_append, List.append_assoc]

section

variable (path : String) (v : Json)

theorem checkText_eq_add : checkText path v i = i.add [] (Requirement.textProblems path v) := by
  cases v with
  | string s =>
    cases h : (Text.trimBlank s.toList).isEmpty <;>
      simp [checkText, Requirement.textProblems, Requirement.filledText?, text?, h, add_nil,
        complain_eq_add]
  | _ => exact complain_eq_add ..

theorem checkItems_eq_add : checkItems path v i = i.add [] (Requirement.itemsProblems path v) := by
  cases v with
  | array items =>
    cases items with
    | nil => exact complain_eq_add ..
    | cons => exact (add_nil i).symm
  | _ => exact complain_eq_add ..

theorem checkAtLeast_eq_add (least : Nat) :
    checkAtLeast path least v i = i.add [] (Requirement.atLeastProblems path least v) := by
  rw [checkAtLeast, Requirement.atLeastProblems]
  cases v.toNat? with
  | none => exact complain_eq_add ..
  | some n => by_cases h : least ≤ n <;> simp [h, add_nil, complain_eq_add]

theorem checkBetween_eq_add (least greatest : Nat) :
    checkBetween path least greatest v i =
      i.add [] (Requirement.betweenProblems path least greatest v) := by
  rw [checkBetween, Requirement.betweenProblems]
  cases v.toNat? with
  | none => exact complain_eq_add ..
  | some n => by_cases h : least ≤ n ∧ n ≤ greatest <;> simp [h, add_nil, complain_eq_add]

theorem checkWord_eq_add (allowed : List String) :
    checkWord path allowed v i = i.add [] (Requirement.wordProblems path allowed v) := by
  rw [checkWord, Requirement.wordProblems]
  split
  · exact (add_nil i).symm
  · exact complain_eq_add ..

end

section

variable {resource : Json} {path : String}

theorem look_of_some {v : Json} (h : resource.present? path = some v) :
    i.look resource path = (i.add [(path, v)] [], some v) := by
  rw [look, h, add, List.append_nil]
  rfl

theorem look_of_none (h : resource.present? path = none) : i.look resource path = (i, none) := by
  rw [look, h]

theorem demand_of_some {v : Json} (h : resource.present? path = some v) :
    i.demand resource path = (i.add [(path, v)] [], some v) := by
  rw [demand, look_of_some i h]

theorem demand_of_none (h : resource.present? path = none) :
    i.demand resource path = (i.add [] [s!"missing {path}"], none) := by
  rw [demand, look_of_none i h]
  rfl

variable {check : Json → Inspection → Inspection} {problems : Json → List String}
  (hcheck : ∀ v i, check v i = i.add [] (problems v))
include hcheck

/-- What a requirement adds about a field that has to be there. -/
theorem examine_demand :
    examine check (i.demand resource path) =
      i.add ((resource.present? path).map fun v => (path, v)).toList
        (Requirement.demand resource path problems) := by
  cases h : resource.present? path with
  | none =>
    rw [demand_of_none i h, Requirement.demand, h]
    rfl
  | some v =>
    rw [demand_of_some i h, examine, hcheck, add_add, Requirement.demand, h]
    rfl

/-- What a requirement adds about a field that may be missing. -/
theorem examine_look :
    examine check (i.look resource path) =
      i.add ((resource.present? path).map fun v => (path, v)).toList
        (Requirement.permit resource path problems) := by
  cases h : resource.present? path with
  | none =>
    rw [look_of_none i h, Requirement.permit, h]
    exact (add_nil i).symm
  | some v =>
    rw [look_of_some i h, examine, hcheck, add_add, Requirement.permit, h]
    rfl

end

/-- What one requirement adds to the record: its field, if something is seen there, and its
complaints. What is there already has no part in it. -/
theorem step_eq (resource : Json) (r : Requirement) :
    i.step resource r = i.add (r.sight? resource).toList (r.problems resource) := by
  cases r with
  | present path =>
    have hnothing : (i.demand resource path).1 =
        examine (fun _ i => i) (i.demand resource path) := by
      rcases i.demand resource path with ⟨i, _ | v⟩ <;> rfl
    rw [step, hnothing]
    exact examine_demand i fun _ i => (add_nil i).symm
  | text path => exact examine_demand i fun v i => checkText_eq_add i path v
  | items path => exact examine_demand i fun v i => checkItems_eq_add i path v
  | atLeast path least => exact examine_demand i fun v i => checkAtLeast_eq_add i path v least
  | word path allowed => exact examine_demand i fun v i => checkWord_eq_add i path v allowed
  | textIfGiven path => exact examine_look i fun v i => checkText_eq_add i path v
  | atLeastIfGiven path least => exact examine_look i fun v i => checkAtLeast_eq_add i path v least
  | betweenIfGiven path least greatest =>
    exact examine_look i fun v i => checkBetween_eq_add i path v least greatest
  | wordIfGiven path allowed => exact examine_look i fun v i => checkWord_eq_add i path v allowed
  | problem message => rfl

/-- What several requirements add to the record. -/
theorem foldl_step (resource : Json) : (rs : List Requirement) → (i : Inspection) →
    rs.foldl (step resource) i =
      i.add (rs.filterMap (Requirement.sight? resource)) (Requirement.allProblems resource rs)
  | [], i => (add_nil i).symm
  | r :: rs, i => by
    rw [List.foldl_cons, foldl_step resource rs, step_eq, add_add]
    congr 1
    cases h : r.sight? resource with
    | none => rw [List.filterMap_cons_none h]; rfl
    | some pair => rw [List.filterMap_cons_some h]; rfl

end Inspection

namespace Requirement

/-- The inspection of a resource by a list of requirements, one after another. -/
def inspect (resource : Json) (rs : List Requirement) : Inspection :=
  rs.foldl (Inspection.step resource) .start

variable (resource : Json) (rs : List Requirement)

theorem inspect_eq :
    inspect resource rs = ⟨observed resource rs, allProblems resource rs⟩ :=
  Inspection.foldl_step resource rs .start

/-- The outcome of requirements is the outcome of their inspection. -/
theorem outcome_eq : outcome resource rs = (inspect resource rs).outcome := by
  rw [inspect_eq, outcome, Inspection.outcome]
  cases allProblems resource rs with
  | nil => rfl
  | cons => rfl

/-! ### What is seen -/

theorem setMember_eq_alterList (name : String) (v : Json) : (members : List (String × Json)) →
    setMember name v members = Table.alterList name (fun _ => v) members
  | [] => rfl
  | (key, old) :: rest => by
    rw [setMember, Table.alterList, setMember_eq_alterList name v rest]

theorem foldl_setMember_toList : (pairs : List (String × Json)) → (t : Table Json) →
    pairs.foldl (fun seen pair => setMember pair.1 pair.2 seen) t.toList =
      (pairs.foldl (fun t pair => t.alter pair.1 fun _ => pair.2) t).toList
  | [], _ => rfl
  | pair :: pairs, t => by
    rw [List.foldl_cons, List.foldl_cons, setMember_eq_alterList]
    exact foldl_setMember_toList pairs (t.alter pair.1 fun _ => pair.2)

/-- Members that are put in one after another make the table that grows out of them. -/
theorem foldl_setMember_eq_grow (pairs : List (String × Json)) :
    pairs.foldl (fun seen pair => setMember pair.1 pair.2 seen) [] =
      (Table.grow Prod.fst (fun _ pair => pair.2) .null pairs).toList :=
  foldl_setMember_toList pairs .empty

theorem mem_sights {pair : String × Json} (h : pair ∈ rs.filterMap (sight? resource)) :
    resource.present? pair.1 = some pair.2 := by
  obtain ⟨r, -, hsight⟩ := List.mem_filterMap.1 h
  obtain ⟨path, -, hpath⟩ := Option.bind_eq_some_iff.1 hsight
  obtain ⟨v, hv, rfl⟩ := Option.map_eq_some_iff.1 hpath
  exact hv

theorem map_fst_sights :
    (rs.filterMap (sight? resource)).map Prod.fst = (rs.filterMap path?).filter resource.has := by
  rw [List.map_filterMap, List.filter_filterMap]
  refine List.filterMap_congr fun r _ => ?_
  rw [sight?]
  cases r.path? with
  | none => rfl
  | some path =>
    rw [Option.filter_some, has]
    cases h : resource.present? path <;> simp [h]

/-- Where every value that comes is the same, the last one is this value. -/
private theorem foldl_last_eq {v start : Json} : {pairs : List (String × Json)} → pairs ≠ [] →
    (∀ pair ∈ pairs, pair.2 = v) → pairs.foldl (fun _ pair => pair.2) start = v
  | [], hne, _ => absurd rfl hne
  | [pair], _, h => h pair List.mem_cons_self
  | _ :: next :: pairs, _, h => by
    rw [List.foldl_cons]
    exact foldl_last_eq (List.cons_ne_nil next pairs) fun pair hpair => h pair (.tail _ hpair)

/-- What is seen: the paths that were looked at and lead to a value other than `null`, in the order
in which they were looked at first, each once and with the value there. -/
theorem observed_eq :
    observed resource rs =
      ((rs.filterMap path?).filter resource.has).eraseDups.filterMap fun path =>
        (resource.present? path).map fun v => (path, v) := by
  rw [observed, foldl_setMember_eq_grow, Table.toList_grow, map_fst_sights, ← List.filterMap_eq_map]
  refine List.filterMap_congr fun path hpath => ?_
  rw [List.mem_eraseDups, ← map_fst_sights] at hpath
  obtain ⟨⟨_, v⟩, hpair, rfl⟩ := List.mem_map.1 hpath
  have hv : resource.present? _ = some v := mem_sights resource rs hpair
  rw [hv, Function.comp_apply, foldl_last_eq (v := v)]
  · rfl
  · exact List.ne_nil_of_mem (List.mem_filter.2 ⟨hpair, decide_eq_true rfl⟩)
  · intro pair hmem
    obtain ⟨hmem, hkey⟩ := List.mem_filter.1 hmem
    have hother : resource.present? pair.1 = some pair.2 := mem_sights resource rs hmem
    rw [of_decide_eq_true hkey, hv] at hother
    exact (Option.some.inj hother).symm

/-! ### Inspections and their requirements -/

/-- The complaints of an inspection are those of its requirements, each with an empty record. -/
theorem complaints_inspect :
    (inspect resource rs).complaints = rs.flatMap fun r => (inspect resource [r]).complaints := by
  simp only [inspect_eq, allProblems, List.flatMap_singleton]

/-- The status of an inspection, from the requirements on their own. -/
theorem status_outcome :
    (outcome resource rs).1 =
      if ∀ r ∈ rs, (inspect resource [r]).complaints = [] then .success else .error := by
  rw [outcome_eq, Inspection.outcome, complaints_inspect]
  simp only [List.flatMap_eq_nil_iff]
  split <;> rfl

/-- An inspection is the conjunction of its requirements. Its complaints are those that the
requirements have on their own, one after another. It is a success exactly if each requirement is
without complaint on its own, and it then shows the paths that were looked at and lead to a value
other than `null`, in the order in which they were looked at first, each once and with the value
there; otherwise it is an error and shows the complaints. So its status does not change with the
order of the requirements, and no error becomes a success by more requirements. -/
theorem inspection_is_conjunction :
    (inspect resource rs).complaints =
        rs.flatMap (fun r => (inspect resource [r]).complaints) ∧
      outcome resource rs = (inspect resource rs).outcome ∧
      outcome resource rs =
        (if ∀ r ∈ rs, (inspect resource [r]).complaints = [] then
          (.success, .object
            (((rs.filterMap path?).filter resource.has).eraseDups.filterMap fun path =>
              (resource.present? path).map fun v => (path, v)))
        else (.error, .string (Text.joinWith "; " (inspect resource rs).complaints))) ∧
      (∀ other, rs.Perm other → (outcome resource other).1 = (outcome resource rs).1) ∧
      ∀ other, rs ⊆ other →
        (outcome resource rs).1 = .error → (outcome resource other).1 = .error := by
  refine ⟨complaints_inspect resource rs, outcome_eq resource rs, ?_, ?_, ?_⟩
  · rw [outcome_eq, Inspection.outcome, ← observed_eq, complaints_inspect]
    simp only [List.flatMap_eq_nil_iff]
    rw [inspect_eq resource rs]
  · intro other hperm
    simp only [status_outcome, hperm.mem_iff]
  · intro other hsub herror
    rw [status_outcome] at herror ⊢
    refine if_neg fun hclean => ?_
    rw [if_pos fun r hr => hclean r (hsub hr)] at herror
    exact Status.noConfusion herror

theorem inspection_is_conjunction_twice :
    outcome (.object [("a", .int 2)]) [.atLeast "a" 1, .present "a", .textIfGiven "b"] =
        (.success, .object [("a", .int 2)]) ∧
      (outcome (.object [("a", .int 2)]) [.textIfGiven "b", .atLeast "a" 1, .present "a"]).1 =
        .success ∧
      (outcome (.object [("a", .int 2)]) [.present "b", .atLeast "a" 1]).1 = .error := by
  have hmet := inspection_is_conjunction (.object [("a", .int 2)])
    [.atLeast "a" 1, .present "a", .textIfGiven "b"]
  have hunmet := inspection_is_conjunction (.object [("a", .int 2)]) [.present "b"]
  refine ⟨by decide +kernel, ?_, hunmet.2.2.2.2 _ (by simp) (by decide +kernel)⟩
  rw [hmet.2.2.2.1 _ (by decide)]
  decide +kernel

end Requirement

end EdgeHealth
