import EdgeHealth.Proofs.Check.Record
import EdgeHealth.Proofs.Json.Compact
import EdgeHealth.Proofs.Version.Spellings
import EdgeHealth.Settings.Document

/-!
# Policies written and read again

What the cluster has to offer is written as a record in which the kernel and the storage classes are
left out when there is nothing to check, and read again as what it was: what is left out stands for
what was not there. This is so for every policy that was read, from a record in JSON or from a
document; it is not so for all policies, since a version may have no number and a count more than
64 bits, and nothing that is read has.

Versions are read again as the same list of numbers, and not only as an equal version.

## Main definitions

* `Version.IsReadable` : a version that is read from its written form.
* `ReadinessPolicy.IsReadable` : what a policy has to hold in order to be read again.

## Main results

* `ReadinessPolicy.isReadable_of_ofJson?`, `ReadinessPolicy.isReadable_of_ofSubtree?` : policies
  that were read.
* `ReadinessPolicy.ofJson?_toJson`, `ReadinessPolicy.isExact_toJson` : the record and its text.
* `ReadinessPolicy.policies_round_trip` : versions and policies that were read.
-/

namespace EdgeHealth

open Json Yaml Number

/-! ### Fields -/

/-- What holds of the value that stands for a missing field and of all that is read holds of a
field. -/
theorem Json.of_fieldOr? {α : Type} (P : α → Prop) {v : Json} {place : Nat} {name : String}
    {missing a : α} {decode : Json → Option α} (hmissing : P missing)
    (hdecode : ∀ w a, decode w = some a → P a)
    (h : v.fieldOr? place name missing decode = some a) : P a := by
  rw [fieldOr?] at h
  split at h
  · rwa [← Option.some.inj h]
  · next w hw => exact hdecode w a h

theorem Yaml.Subtree.of_fieldOr? {α : Type} (P : α → Prop) {n : Subtree} {name : String}
    {missing a : α} {decode : Subtree → Option α} (hmissing : P missing)
    (hdecode : ∀ w a, decode w = some a → P a)
    (h : n.fieldOr? name missing decode = some a) : P a := by
  obtain ⟨field, -, h⟩ := Option.bind_eq_some_iff.1 h
  cases field with
  | none => rwa [← Option.some.inj h]
  | some w => exact hdecode w a h

theorem Json.mem_optionalMember {pair : String × Json} {name : String} {value : Option Json} :
    pair ∈ optionalMember name value ↔ ∃ w, value = some w ∧ pair = (name, w) := by
  cases value <;> simp [optionalMember]

theorem Json.fieldOr?_of_field? {α : Type} {v w : Json} {place : Nat} {name : String}
    (h : v.field? place name = some w) (missing : α) (decode : Json → Option α) :
    v.fieldOr? place name missing decode = decode w := by
  rw [fieldOr?, h]

/-- What holds of all that is read holds of a value that may be missing. -/
theorem Json.of_optional? {α : Type} (P : α → Prop) {decode : Json → Option α} {v : Json}
    {value : Option α} (hdecode : ∀ w a, decode w = some a → P a)
    (h : optional? decode v = some value) : ∀ a ∈ value, P a := by
  rintro a rfl
  rw [optional?.eq_def] at h
  split at h
  · cases h
  · obtain ⟨b, hb, hsome⟩ := Option.map_eq_some_iff.1 h
    obtain rfl := Option.some.inj hsome
    exact hdecode v b hb

theorem Yaml.Subtree.of_optional? {α : Type} (P : α → Prop) {decode : Subtree → Option α}
    {n : Subtree} {value : Option α} (hdecode : ∀ w a, decode w = some a → P a)
    (h : optional? decode n = some value) : ∀ a ∈ value, P a := by
  have hread (h : (decode n).map some = some value) : ∀ a ∈ value, P a := by
    rintro a rfl
    obtain ⟨b, hb, hsome⟩ := Option.map_eq_some_iff.1 h
    obtain rfl := Option.some.inj hsome
    exact hdecode n b hb
  rw [optional?] at h
  split at h
  · split_ifs at h
    · obtain rfl := Option.some.inj h
      exact fun a ha => by cases ha
    · exact hread h
  · split_ifs at h
    obtain rfl := Option.some.inj h
    exact fun a ha => by cases ha
  · exact hread h

/-! ### Policies that were read -/

/-- A version that is read from its written form. -/
def Version.IsReadable (v : Version) : Prop := read? v.text = some v

instance (v : Version) : Decidable v.IsReadable :=
  inferInstanceAs (Decidable (Version.read? v.text = some v))

namespace ReadinessPolicy

/-- What a policy has to hold in order to be read again from its record. -/
structure IsReadable (p : ReadinessPolicy) : Prop where
  /-- The oldest version is read from its written form. -/
  minVersion_read : p.minVersion.IsReadable
  /-- The least count of cores has 64 bits. -/
  minVcpu_le : p.minVcpu ≤ maxUInt64
  /-- The oldest kernel is read from its written form. -/
  minKernel_read : ∀ v ∈ p.minKernel, v.IsReadable

theorem isReadable_standard : standard.IsReadable where
  minVersion_read := by decide +kernel
  minVcpu_le := by decide
  minKernel_read _ hv := by cases hv

/-- A version in a text is read again from its written form. -/
theorem isReadable_of_bind {text : Option String} {v : Version}
    (h : text.bind Version.read? = some v) : v.IsReadable := by
  obtain ⟨s, -, hs⟩ := Option.bind_eq_some_iff.1 h
  exact Version.read?_text hs

theorem le_of_natUpTo? {bound n : Nat} {v : Json} (h : natUpTo? bound v = some n) : n ≤ bound := by
  rw [natUpTo?.eq_def] at h
  split at h
  · split_ifs at h with hbound
    obtain rfl := Option.some.inj h
    simp at hbound
    omega
  · cases h

theorem le_of_nat? {bound n : Nat} {t : Subtree} (h : t.nat? bound = some n) : n ≤ bound := by
  obtain ⟨s, -, hs⟩ := Option.bind_eq_some_iff.1 h
  have hfilter {digits : Option Nat} (h : digits.filter (· ≤ bound) = some n) : n ≤ bound := by
    simpa using (Option.filter_eq_some_iff.1 h).2
  rw [Yaml.unsigned?.eq_def] at hs
  rcases Option.or_eq_some_iff.1 hs with hs | ⟨-, hs⟩
  · exact hfilter hs
  · split_ifs at hs
    exact hfilter hs

/-- A policy that was read from a JSON value is read again. -/
theorem isReadable_of_ofJson? {v : Json} {p : ReadinessPolicy} (h : ofJson? v = some p) :
    p.IsReadable := by
  rw [ofJson?] at h
  split_ifs at h
  obtain ⟨minVersion, hversion, h⟩ := Option.bind_eq_some_iff.1 h
  obtain ⟨architectures, -, h⟩ := Option.bind_eq_some_iff.1 h
  obtain ⟨minVcpu, hvcpu, h⟩ := Option.bind_eq_some_iff.1 h
  obtain ⟨minMemory, -, h⟩ := Option.bind_eq_some_iff.1 h
  obtain ⟨minKernel, hkernel, h⟩ := Option.bind_eq_some_iff.1 h
  obtain ⟨storageClasses, -, h⟩ := Option.bind_eq_some_iff.1 h
  obtain ⟨strict, -, h⟩ := Option.bind_eq_some_iff.1 h
  obtain rfl := Option.some.inj h
  exact
    { minVersion_read := of_fieldOr? Version.IsReadable isReadable_standard.minVersion_read
        (fun _ _ => isReadable_of_bind) hversion
      minVcpu_le := of_fieldOr? (· ≤ maxUInt64) isReadable_standard.minVcpu_le
        (fun _ _ => le_of_natUpTo?) hvcpu
      minKernel_read := of_fieldOr? (∀ v ∈ ·, Version.IsReadable v)
        isReadable_standard.minKernel_read
        (fun _ _ => of_optional? Version.IsReadable fun _ _ => isReadable_of_bind) hkernel }

/-- A policy that was read from a document is read again. -/
theorem isReadable_of_ofSubtree? {n : Subtree} {p : ReadinessPolicy} (h : ofSubtree? n = some p) :
    p.IsReadable := by
  obtain ⟨minVersion, hversion, h⟩ := Option.bind_eq_some_iff.1 h
  obtain ⟨architectures, -, h⟩ := Option.bind_eq_some_iff.1 h
  obtain ⟨minVcpu, hvcpu, h⟩ := Option.bind_eq_some_iff.1 h
  obtain ⟨minMemory, -, h⟩ := Option.bind_eq_some_iff.1 h
  obtain ⟨minKernel, hkernel, h⟩ := Option.bind_eq_some_iff.1 h
  obtain ⟨storageClasses, -, h⟩ := Option.bind_eq_some_iff.1 h
  obtain ⟨strict, -, h⟩ := Option.bind_eq_some_iff.1 h
  obtain rfl := Option.some.inj h
  exact
    { minVersion_read := Subtree.of_fieldOr? Version.IsReadable isReadable_standard.minVersion_read
        (fun _ _ => isReadable_of_bind) hversion
      minVcpu_le := Subtree.of_fieldOr? (· ≤ maxUInt64) isReadable_standard.minVcpu_le
        (fun _ _ => le_of_nat?) hvcpu
      minKernel_read := Subtree.of_fieldOr? (∀ v ∈ ·, Version.IsReadable v)
        isReadable_standard.minKernel_read
        (fun _ _ => Subtree.of_optional? Version.IsReadable fun _ _ => isReadable_of_bind) hkernel }

/-! ### The record of a policy -/

/-- A version is read from the text in its record. -/
theorem version?_string {v : Version} (h : v.IsReadable) : version? (.string v.text) = some v :=
  h

/-- **A policy is read from its record as what it was.** -/
theorem ofJson?_toJson {p : ReadinessPolicy} (h : p.IsReadable) : ofJson? p.toJson = some p := by
  have hrecord : p.toJson.isRecord 7 = true := rfl
  have hversion : p.toJson.field? 0 "minK8sVersion" = some (.string p.minVersion.text) := by
    simp [toJson, field?, findMember?]
  have harchitectures :
      p.toJson.field? 1 "allowedArchitectures" = some (ofTexts p.architectures) := by
    simp [toJson, field?, findMember?]
  have hvcpu : p.toJson.field? 2 "minVcpu" = some (ofNat p.minVcpu) := by
    simp [toJson, field?, findMember?]
  have hmemory : p.toJson.field? 3 "minMemory" = some (.string p.minMemory) := by
    simp [toJson, field?, findMember?]
  have hkernel : p.toJson.field? 4 "minKernelVersion" =
      p.minKernel.map fun v => .string v.text := by
    simp [toJson, field?, findMember?]
  have hclasses : p.toJson.field? 5 "storageClasses" =
      if p.storageClasses.isEmpty then none else some (ofTexts p.storageClasses) := by
    simp [toJson, field?, findMember?]
  have hstrict : p.toJson.field? 6 "strict" = some (.bool p.strict) := by
    simp [toJson, field?, findMember?]
  -- What is left out stands for no kernel and for no classes.
  have hkernel' : p.toJson.fieldOr? 4 "minKernelVersion" none (optional? version?) =
      some p.minKernel := by
    rw [fieldOr?, hkernel]
    cases hminKernel : p.minKernel with
    | none => rfl
    | some v => simp [optional?, version?_string (h.minKernel_read v hminKernel)]
  have hclasses' : p.toJson.fieldOr? 5 "storageClasses" [] (list? text?) =
      some p.storageClasses := by
    rw [fieldOr?, hclasses]
    cases hempty : p.storageClasses.isEmpty with
    | true => exact congrArg some (List.isEmpty_iff.1 hempty).symm
    | false => exact list?_ofTexts p.storageClasses
  have hvcpu' : natUpTo? maxUInt64 (ofNat p.minVcpu) = some p.minVcpu := by
    simp [natUpTo?, ofNat, h.minVcpu_le]
  simp [ofJson?, hrecord, fieldOr?_of_field? hversion, version?_string h.minVersion_read,
    fieldOr?_of_field? harchitectures, list?_ofTexts, fieldOr?_of_field? hvcpu, hvcpu',
    fieldOr?_of_field? hmemory, text?, hkernel', hclasses', fieldOr?_of_field? hstrict, bool?]

/-- The record of a policy is held exactly by its text. -/
theorem isExact_toJson {p : ReadinessPolicy} (h : p.IsReadable) : p.toJson.IsExact 2 := by
  have htexts (texts : List String) : (ofTexts texts).IsExact 1 := by
    refine .array fun v hv => ?_
    obtain ⟨s, -, rfl⟩ := List.mem_map.1 hv
    exact .string s
  have hvcpu : (ofNat p.minVcpu).IsExact 1 := by
    have hmax : maxUInt64 = 2 ^ 64 - 1 := rfl
    have hle := h.minVcpu_le
    exact .int (by omega) (by omega)
  refine .object ?_ ?_
  · cases p.minKernel <;> cases p.storageClasses <;> simp [optionalMember]
  · simp only [List.mem_append, mem_optionalMember, List.mem_cons, List.not_mem_nil, or_false]
    rintro pair ((((rfl | rfl | rfl | rfl) | ⟨w, hw, rfl⟩) | ⟨w, hw, rfl⟩) | rfl)
    · exact .string _
    · exact htexts _
    · exact hvcpu
    · exact .string _
    · obtain ⟨v, -, rfl⟩ := Option.map_eq_some_iff.1 hw
      exact .string _
    · split_ifs at hw
      obtain rfl := Option.some.inj hw
      exact htexts _
    · exact .bool _

/-! ### Round trips -/

/-- A policy that was read. -/
inductive IsRead : ReadinessPolicy → Prop
  /-- From a JSON value. -/
  | value {v : Json} {p : ReadinessPolicy} (h : ofJson? v = some p) : IsRead p
  /-- From a node of a document. -/
  | node {n : Subtree} {p : ReadinessPolicy} (h : ofSubtree? n = some p) : IsRead p
  /-- With the settings of a text. -/
  | settings {text : String} {s : Settings} (h : Settings.ofYaml text = .ok s) : IsRead s.readiness

/-- Every policy that was read is read again. -/
theorem IsRead.isReadable {p : ReadinessPolicy} (h : p.IsRead) : p.IsReadable := by
  cases h with
  | value h => exact isReadable_of_ofJson? h
  | node h => exact isReadable_of_ofSubtree? h
  | @settings text s h =>
    rw [Settings.ofYaml] at h
    split at h
    · cases h
    · next settings hread =>
      obtain ⟨tree, -, hread⟩ := Option.bind_eq_some_iff.1 hread
      obtain ⟨readiness, hreadiness, hread⟩ := Option.bind_eq_some_iff.1 hread
      obtain ⟨timeout, -, hread⟩ := Option.bind_eq_some_iff.1 hread
      obtain ⟨port, -, hread⟩ := Option.bind_eq_some_iff.1 hread
      obtain rfl := Option.some.inj hread
      have hsame : (⟨readiness, timeout, port⟩ : Settings) = s := by
        cases hvalid : readiness.validate with
        | error e => simp [hvalid, Except.map] at h
        | ok u => simpa [hvalid, Except.map] using h
      rw [← hsame]
      exact Subtree.of_fieldOr? IsReadable isReadable_standard
        (fun _ _ => isReadable_of_ofSubtree?) hreadiness

/-- **What was read is written and read again.** A version that was read is read from its written
form, and from the text of that form in JSON, as the same list of numbers. A policy that was read,
from a JSON value, from a document or with the settings of a text, is read as the same policy from
its record, and from the text of that record. -/
theorem policies_round_trip :
    (∀ {text : String} {v : Version}, Version.read? text = some v →
      Version.read? v.text = some v ∧
      (Json.read (string v.text).compact).toOption.bind version? = some v) ∧
    ∀ {p : ReadinessPolicy}, p.IsRead →
      ofJson? p.toJson = some p ∧ (Json.read p.toJson.compact).toOption.bind ofJson? = some p := by
  refine ⟨fun {text v} h => ?_, fun {p} h => ?_⟩
  · have hread : v.IsReadable := Version.read?_text h
    have htext : Json.read (string v.text).compact = .ok (.string v.text) :=
      read_compact (.string v.text : IsExact 0 _) (by decide)
    refine ⟨hread, ?_⟩
    rw [htext]
    exact version?_string hread
  · have hrecord := ofJson?_toJson h.isReadable
    refine ⟨hrecord, ?_⟩
    rw [read_compact (isExact_toJson h.isReadable) (by decide)]
    exact hrecord

/-- A policy with versions that are written in another way, in JSON and in a document. -/
theorem policies_round_trip_vendor :
    let v : Version := ⟨[5, 15, 0]⟩
    let p : ReadinessPolicy := { standard with minKernel := some v, minMemory := "8 \"Gi\"" }
    let record : Json := .object
      [("minKernelVersion", .string " v5.015.0-1051.4"), ("minMemory", .string "8 \"Gi\"")]
    let document := "preDeployment: \x7bminKernelVersion: v5.15.00-1051.4\x7d"
    Version.read? " v5.015.0-1051.4" = some v ∧ Version.read? v.text = some v ∧
    ofJson? record = some p ∧ ofJson? p.toJson = some p ∧
    ∃ s, Settings.ofYaml document = .ok s ∧ s.readiness.minKernel = some v ∧
      (Json.read s.readiness.toJson.compact).toOption.bind ofJson? = some s.readiness := by
  intro v p record document
  have hversion : Version.read? " v5.015.0-1051.4" = some v := by decide +kernel
  have hrecord : ofJson? record = some p := by decide +kernel
  have hdocument : Settings.ofYaml document =
      .ok { Settings.standard with readiness := { standard with minKernel := some v } } := by
    decide +kernel
  exact ⟨hversion, (policies_round_trip.1 hversion).1, hrecord,
    (policies_round_trip.2 (.value hrecord)).1, _, hdocument, rfl,
    (policies_round_trip.2 (.settings hdocument)).2⟩

end ReadinessPolicy

end EdgeHealth
