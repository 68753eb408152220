import EdgeHealth.Bundle.Build
import EdgeHealth.Proofs.Bundle.Written

/-!
# What an archive holds

The entries of a collection have distinct paths, so its archive is always written, and the text that
it holds under a path is that of the artifact with this path, unless that is empty.

## Main results

* `Collection.mem_entries_iff`, `Collection.nodup_entries` : the entries of a collection.
* `Collection.exists_write_entries` : the archive of a collection.
* `Bundle.exists_store_eq`, `Bundle.exists_eq_of_ok` : a bundle that was built.
-/

namespace EdgeHealth

namespace Collection

/-- The entries of an archive are the artifacts that are not empty. -/
theorem mem_entries_iff {c : Collection} {path contents : String} :
    (path, contents) ∈ c.entries ↔
      ∃ p, c.artifacts.get? path = some p ∧ p.contents? = some contents := by
  simp only [entries, List.mem_filterMap, Prod.exists, Option.map_eq_some_iff, Prod.mk.injEq,
    Table.mem_toList_iff]
  constructor
  · rintro ⟨_, p, hp, _, hcontents, rfl, rfl⟩
    exact ⟨p, hp, hcontents⟩
  · rintro ⟨p, hp, hcontents⟩
    exact ⟨path, p, hp, contents, hcontents, rfl, rfl⟩

/-- The paths of the entries are those of artifacts, in order. -/
theorem map_fst_entries_sublist (c : Collection) :
    (c.entries.map Prod.fst).Sublist c.artifacts.keys := by
  unfold entries Table.keys
  induction c.artifacts.toList with
  | nil => exact .slnil
  | cons pair l ih =>
    obtain ⟨path, p⟩ := pair
    cases hp : p.contents? with
    | none =>
      simp only [List.filterMap_cons, hp, Option.map_none]
      exact ih.cons _
    | some contents =>
      simp only [List.filterMap_cons, hp, Option.map_some, List.map_cons]
      exact ih.cons_cons _

/-- The entries of an archive have distinct paths. -/
theorem nodup_entries (c : Collection) : (c.entries.map Prod.fst).Nodup :=
  c.artifacts.distinct.sublist c.map_fst_entries_sublist

/-- The archive of a collection is written. Under each path it holds the text of the artifact with
that path, unless that is empty. -/
theorem exists_write_entries (c : Collection) (d : Directory) (name : String) :
    ∃ (d' : Directory) (a : Archive), d.write name c.entries = (true, d') ∧
      d'.get? name = some a ∧
      ∀ path, Table.get? a path = (c.artifacts.get? path).bind Payload.contents? := by
  obtain ⟨d', a, hwrite, ha, hall⟩ := d.exists_write_eq name c.nodup_entries
  refine ⟨d', a, hwrite, ha, fun path => Option.ext fun contents => ?_⟩
  rw [← Table.mem_toList_iff, hall, mem_entries_iff, Option.bind_eq_some_iff]

end Collection

namespace Bundle

/-- A collection is always stored, in an archive that holds its entries. -/
theorem exists_store_eq (q : BundleRequest) (d : Directory) (survey : Survey) (c : Collection) :
    ∃ (d' : Directory) (archive : Archive),
      store q d survey c = ⟨.ok ⟨survey.services, c.warnings⟩, some d', c.calls⟩ ∧
        d'.get? q.fileName = some archive ∧ archive.toList = c.entries := by
  obtain ⟨d', archive, hwrite, harchive, hentries⟩ := d.exists_write_eq q.fileName c.nodup_entries
  exact ⟨d', archive, by simp [store, hwrite], harchive, hentries⟩

/-- A bundle that was built is that of a collection. -/
theorem exists_eq_of_ok {cluster : Cluster} {workers : Nat} {conduct : Conductor}
    {directory : Option Directory} {q : BundleRequest} {bundle : Bundle}
    (h : (build cluster workers conduct directory q).result = .ok bundle) :
    ∃ (survey : Survey) (calls : List Call) (d : Directory) (archive : Archive),
      let c := Collection.run workers conduct q.logAge survey calls
      build cluster workers conduct directory q =
          ⟨.ok ⟨survey.services, c.warnings⟩, some d, c.calls⟩ ∧
        d.get? q.fileName = some archive ∧ archive.toList = c.entries := by
  cases directory with
  | none => cases h
  | some before =>
    simp only [build, buildBy] at h ⊢
    split at h
    · next survey _ => exact ⟨survey, _, exists_store_eq q before survey _⟩
    · cases h
    · cases h

end Bundle

end EdgeHealth
