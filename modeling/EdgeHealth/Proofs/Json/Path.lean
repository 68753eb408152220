import EdgeHealth.Evaluate.Finding
import EdgeHealth.Proofs.Number.Decimals
import EdgeHealth.Proofs.Text.Pieces

/-!
# Paths that are put together

A path is written as a text and cut into its steps again where it is followed. A path below another
one leads to where the second leads from the end of the first. The place of an item is a step that
is written in digits; it leads to this item and to no other one. A name that is no number leads to
the member of an object with this name, and nowhere from an array.

## Main results

* `Json.walk?_append` : steps after others.
* `Json.lookup?_below` : a path below another one.
* `Json.step?_repr` : the step to a place of an array.
* `Json.present?_below_repr` : the field of an item of an array.
* `Json.lookup?_leads_on` : paths below others and places below arrays.
-/

namespace EdgeHealth

open Number

namespace Json

/-- Steps after others lead on from where these lead. -/
theorem walk?_append : (first second : List (List Char)) → (v : Json) →
    walk? (first ++ second) v = (walk? first v).bind (walk? second)
  | [], second, v => rfl
  | key :: first, second, v => by
    rw [List.cons_append, walk?, walk?, Option.bind_assoc]
    exact congrArg _ (funext fun w => walk?_append first second w)

theorem steps_of_ne {path : String} (h : path ≠ "") :
    steps path = Text.splitOn '.' path.toList := by
  rw [steps, if_neg]
  simpa using h

/-- A path below another one is written after it, with a dot between them. -/
theorem below_eq (base field : String) : Finding.below base field = base ++ "." ++ field := by
  simp [Finding.below, toString]

theorem below_ne (base field : String) : Finding.below base field ≠ "" := by
  intro h
  have hchars := congrArg String.toList h
  simp [below_eq] at hchars

/-- The steps of a path below another one come after those of the other one. -/
theorem steps_below {base field : String} (hbase : base ≠ "") (hfield : field ≠ "") :
    steps (Finding.below base field) = steps base ++ steps field := by
  have hchars : (Finding.below base field).toList = base.toList ++ '.' :: field.toList := by
    simp [below_eq]
  rw [steps_of_ne (below_ne base field), steps_of_ne hbase, steps_of_ne hfield, hchars,
    Text.splitOn_append_cons]

/-- A path below another one leads on from where that one leads. -/
theorem lookup?_below {base field : String} (hbase : base ≠ "") (hfield : field ≠ "") (v : Json) :
    v.lookup? (Finding.below base field) = (v.lookup? base).bind fun w => w.lookup? field := by
  rw [lookup?, steps_below hbase hfield, walk?_append]
  rfl

/-! ### Single steps -/

/-- A path without a dot is one step. -/
theorem lookup?_eq_step? {field : String} (hfield : field ≠ "") (hdot : '.' ∉ field.toList)
    (v : Json) : v.lookup? field = v.step? field.toList := by
  rw [lookup?, steps_of_ne hfield, Text.splitOn_eq_singleton hdot, walk?]
  exact Option.bind_fun_some _

/-- A name that is no number leads to a member of an object, and nowhere from anything else. -/
theorem step?_eq_get? {key : List Char} (h : natural? maxUInt64 key = none) (v : Json) :
    v.step? key = v.get? (String.ofList key) := by
  cases v with
  | array items => rw [step?, h]; rfl
  | _ => rfl

/-- A number written in digits is read again, if it is not too great. -/
theorem natural?_repr (bound n : Nat) :
    natural? bound (Nat.repr n).toList = if n ≤ bound then some n else none := by
  have hdigits : digits? (Nat.repr n).toList = some n :=
    digits?_eq_some_iff.2 ⟨fun _ => isDigit_of_mem_repr, toList_repr_ne_nil n, digitsValue_repr n⟩
  rw [natural?]
  · simp only [hdigits, Option.filter_some, decide_eq_true_eq]
  · intro rest hsign
    have hplus : '+'.isDigit := isDigit_of_mem_repr (n := n) (hsign ▸ List.mem_cons_self)
    exact absurd hplus (by decide)

/-- A place from the end of an array on leads nowhere. -/
theorem step?_repr_eq_none {items : List Json} {i : Nat} (h : items.length ≤ i) :
    (Json.array items).step? (Nat.repr i).toList = none := by
  rw [step?, natural?_repr]
  split
  · exact List.getElem?_eq_none h
  · rfl

/-- The step to a place of an array. No list is so long that the places of its items could not be
counted with 64 bits. -/
theorem step?_repr {items : List Json} (h : items.length ≤ UInt64.size) (i : Nat) :
    (Json.array items).step? (Nat.repr i).toList = items[i]? := by
  by_cases hi : i < items.length
  · have hle : i ≤ maxUInt64 := Nat.le_sub_one_of_lt (Nat.lt_of_lt_of_le hi h)
    rw [step?, natural?_repr, if_pos hle]
    rfl
  · have hlength : items.length ≤ i := Nat.not_lt.1 hi
    rw [step?_repr_eq_none hlength, List.getElem?_eq_none hlength]

/-! ### Places in arrays -/

section

variable {v item : Json} {items : List Json} {base field : String} {i : Nat}

/-- A place below the path of an array is a step from this array on. -/
theorem lookup?_below_repr (hbase : base ≠ "") (hitems : v.lookup? base = some (.array items))
    (i : Nat) :
    v.lookup? (Finding.below base (Nat.repr i)) =
      (Json.array items).step? (Nat.repr i).toList := by
  have hne : Nat.repr i ≠ "" := fun h => toList_repr_ne_nil i (by rw [h]; rfl)
  have hdot : '.' ∉ (Nat.repr i).toList := fun h => absurd (isDigit_of_mem_repr h) (by decide)
  rw [lookup?_below hbase hne, hitems, Option.bind_some, lookup?_eq_step? hne hdot]

/-- A name below the path of an item leads to the field of the item with this name. -/
theorem present?_below_repr (hbase : base ≠ "") (hitems : v.lookup? base = some (.array items))
    (hlength : items.length ≤ UInt64.size) (hitem : items[i]? = some item) (hfield : field ≠ "")
    (hdot : '.' ∉ field.toList) (hname : natural? maxUInt64 field.toList = none) :
    v.present? (Finding.below (Finding.below base (Nat.repr i)) field) = item.given? field := by
  rw [present?, lookup?_below (below_ne base _) hfield, lookup?_below_repr hbase hitems,
    step?_repr hlength, hitem, Option.bind_some, lookup?_eq_step? hfield hdot,
    step?_eq_get? hname, String.ofList_toList, given?]

end

/-- **A path leads on from where the path above it leads.** What stands at a path below another one
is what stands at this path in the value at the other one, and nothing if there is none. Below the
path of an array, the number of a place leads to the item at this place, and nowhere from the end of
the array on. No list that is held is so long that its places could not be counted with 64 bits. -/
theorem lookup?_leads_on (v : Json) {base : String} (hbase : base ≠ "") :
    (∀ field, field ≠ "" →
      v.lookup? (base ++ "." ++ field) = (v.lookup? base).bind fun w => w.lookup? field) ∧
    ∀ items, v.lookup? base = some (.array items) →
      (items.length ≤ UInt64.size → ∀ i (hi : i < items.length),
        v.lookup? (base ++ "." ++ Nat.repr i) = some items[i]) ∧
      ∀ i, items.length ≤ i → v.lookup? (base ++ "." ++ Nat.repr i) = none := by
  simp only [← below_eq]
  refine ⟨fun field hfield => lookup?_below hbase hfield v, fun items hitems => ⟨?_, ?_⟩⟩
  · intro hlength i hi
    rw [lookup?_below_repr hbase hitems, step?_repr hlength, List.getElem?_eq_getElem hi]
  · intro i hi
    rw [lookup?_below_repr hbase hitems, step?_repr_eq_none hi]

/-- Two methods, the second of which names a certificate. -/
private def twoMethods : List Json :=
  [.object [("sat", .null)], .object [("x509", .object [("secret", .string "ca")])]]

/-- A resource with these methods. -/
private def withMethods : Json := .object [("spec", .object [("methods", .array twoMethods)])]

/-- What stands in the second of two methods, this method, and the place after it. -/
theorem lookup?_leads_on_methods :
    "spec.methods" ≠ "" ∧ "1.x509.secret" ≠ "" ∧
      withMethods.lookup? "spec.methods" = some (.array twoMethods) ∧
      twoMethods.length ≤ UInt64.size ∧
      withMethods.lookup? ("spec.methods" ++ "." ++ "1.x509.secret") = some (.string "ca") ∧
      withMethods.lookup? ("spec.methods" ++ "." ++ Nat.repr 1) =
        some (.object [("x509", .object [("secret", .string "ca")])]) ∧
      withMethods.lookup? ("spec.methods" ++ "." ++ Nat.repr 2) = none := by
  have hbase : "spec.methods" ≠ "" := by decide
  have hfield : "1.x509.secret" ≠ "" := by decide
  obtain ⟨hbelow, hplaces⟩ := lookup?_leads_on withMethods hbase
  have hitems : withMethods.lookup? "spec.methods" = some (.array twoMethods) := by
    decide +kernel
  have hsecret : (Json.array twoMethods).lookup? "1.x509.secret" = some (.string "ca") := by
    decide +kernel
  obtain ⟨hinside, hbeyond⟩ := hplaces twoMethods hitems
  have hlength : twoMethods.length ≤ UInt64.size := by decide
  refine ⟨hbase, hfield, hitems, hlength, ?_, hinside hlength 1 (by decide),
    hbeyond 2 (by decide)⟩
  rw [hbelow "1.x509.secret" hfield, hitems, Option.bind_some, hsecret]

end Json

end EdgeHealth
