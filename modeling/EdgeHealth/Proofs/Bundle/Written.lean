import EdgeHealth.Bundle.Archive
import EdgeHealth.Proofs.Data.Lookup

/-!
# An archive is written whole or not at all

The entries of an archive are added one after another to a file with a name of its own, so whatever
becomes of them, all other files of the directory stay as they are. Where two entries have one path,
the second of them is refused, the file is removed, and the directory is as it was before. Otherwise
the file takes its final name; a file that had this name is replaced.

## Main definitions

* `Archive.Takes` : an archive takes entries up to the first one that it refuses.

## Main results

* `Directory.freshName_notMem` : the file of the entries is a new one.
* `Directory.exists_addEntries_insert` : the entries that were added, wherever the loop ends.
* `Directory.exists_write` : what is written, or that nothing is.
* `Directory.write_all_or_nothing` : the same, for what can be seen of a directory.
-/

namespace EdgeHealth

variable {α : Type}

/-! ### Files that come and go -/

namespace Table

/-- A value that is given twice is the one that was given last. -/
theorem insert_insert (t : Table α) (key : String) (a b : α) :
    (t.insert key a).insert key b = t.insert key b :=
  alter_alter t key _ _

/-- A new key that is erased again. -/
theorem erase_insert {t : Table α} {key : String} (h : key ∉ t.keys) (a : α) :
    (t.insert key a).erase key = t := by
  have hkept : t.toList.filter (fun pair => pair.1 != key) = t.toList :=
    List.filter_eq_self.2 fun pair hpair => bne_iff_ne.2 fun heq =>
      h (heq ▸ List.mem_map_of_mem hpair)
  have hinsert : (t.insert key a).toList = t.toList ++ [(key, a)] := toList_alter_of_notMem h _
  have hlist : ((t.insert key a).erase key).toList = t.toList := by
    change (t.insert key a).toList.filter (fun pair => pair.1 != key) = t.toList
    rw [hinsert, List.filter_append, hkept]
    simp
  generalize (t.insert key a).erase key = t' at hlist
  cases t
  cases t'
  cases hlist
  rfl

end Table

/-! ### Entries one after another -/

/-- Of a list of entries an archive takes some and leaves the others: those that it takes come after
the ones that it has, and the path of the first that it leaves stands in it already. -/
structure Archive.Takes (a : Archive α) (taken left : List (String × α)) (a' : Archive α) :
    Prop where
  /-- The entries that are taken. -/
  toList_eq : a'.toList = a.toList ++ taken
  /-- The first entry that is left. -/
  refused : ∀ entry ∈ left.head?, entry.1 ∈ a'.keys

/-- No entry is left if and only if no path comes twice. -/
theorem Archive.Takes.left_eq_nil_iff {a a' : Archive α} {taken left : List (String × α)}
    (h : a.Takes taken left a') :
    left = [] ↔ (a.keys ++ (taken ++ left).map Prod.fst).Nodup := by
  have hkeys : a'.keys = a.keys ++ taken.map Prod.fst := by
    rw [Table.keys, h.toList_eq, List.map_append]
    rfl
  rw [List.map_append, ← List.append_assoc, ← hkeys]
  constructor
  · rintro rfl
    rw [List.map_nil, List.append_nil]
    exact a'.distinct
  · intro hnodup
    cases left with
    | nil => rfl
    | cons entry rest =>
      have hmem := h.refused entry rfl
      exact absurd rfl ((List.nodup_append.1 hnodup).2.2 _ hmem _ List.mem_cons_self)

namespace Directory

/-- A file in a directory takes one more entry, unless it has its path. -/
theorem addEntry?_insert (d : Directory α) (file path : String) (contents : α) (a : Archive α) :
    addEntry? (d.insert file a) file path contents =
      if path ∈ a.keys then none else some (d.insert file (Table.insert a path contents)) := by
  unfold addEntry? Archive.add?
  rw [Table.get?_insert_self, Option.getD_some]
  by_cases hold : path ∈ a.keys
  · obtain ⟨before, hbefore⟩ :=
      Option.ne_none_iff_exists'.1 fun hnone => Table.get?_eq_none_iff.1 hnone hold
    rw [hbefore, if_pos hold]
  · rw [Table.get?_eq_none_iff.2 hold, if_neg hold]
    exact congrArg some (Table.insert_insert d file a _)

/-- Wherever the loop over the entries ends, only the file to which they are added has changed, and
it holds those before that place. -/
theorem exists_addEntries_insert (d : Directory α) (file : String) :
    (entries : List (String × α)) → (a : Archive α) →
    ∃ (taken left : List (String × α)) (a' : Archive α), entries = taken ++ left ∧
      a.Takes taken left a' ∧
      addEntries file entries (d.insert file a) = (left.isEmpty, d.insert file a')
  | [], a => ⟨[], [], a, rfl, ⟨(List.append_nil _).symm, nofun⟩, rfl⟩
  | (path, contents) :: rest, a => by
    by_cases hold : path ∈ a.keys
    · refine ⟨[], (path, contents) :: rest, a, rfl, ⟨(List.append_nil _).symm, ?_⟩, ?_⟩
      · rintro entry ⟨⟩
        exact hold
      · rw [addEntries, addEntry?_insert, if_pos hold]
        rfl
    · have hlist : (Table.insert a path contents).toList = a.toList ++ [(path, contents)] :=
        Table.toList_alter_of_notMem hold _
      obtain ⟨taken, left, a', rfl, htakes, hadd⟩ :=
        exists_addEntries_insert d file rest (Table.insert a path contents)
      refine ⟨(path, contents) :: taken, left, a', rfl, ⟨?_, htakes.refused⟩, ?_⟩
      · rw [htakes.toList_eq, hlist, List.append_assoc]
        rfl
      · rw [addEntries, addEntry?_insert, if_neg hold]
        exact hadd

/-! ### The file of the entries -/

/-- The greatest of some numbers is at least as great as each of them. -/
private theorem le_foldl_max : (l : List Nat) → (start : Nat) →
    start ≤ l.foldl max start ∧ ∀ n ∈ l, n ≤ l.foldl max start
  | [], start => ⟨Nat.le_refl start, nofun⟩
  | n :: l, start => by
    obtain ⟨hstart, hl⟩ := le_foldl_max l (max start n)
    refine ⟨Nat.le_trans (Nat.le_max_left start n) hstart, List.forall_mem_cons.2 ⟨?_, hl⟩⟩
    exact Nat.le_trans (Nat.le_max_right start n) hstart

/-- No file has the name that is fresh, since it is longer than the name of each. -/
theorem freshName_notMem (d : Directory α) (name : String) : d.freshName name ∉ d.keys := by
  intro hmem
  have hlength : (d.freshName name).length =
      (d.keys.map String.length).foldl max name.length + 1 := by
    simp [freshName, Text.repeated]
  have hle := (le_foldl_max (d.keys.map String.length) name.length).2 _ (List.mem_map_of_mem hmem)
  omega

/-- A new file that is given another name. -/
theorem rename_insert {d : Directory α} {file : String} (h : file ∉ d.keys) (a : Archive α)
    (name : String) : rename (d.insert file a) file name = d.insert name a := by
  rw [rename, Table.get?_insert_self]
  simp only [Table.erase_insert h]

/-- The file of an archive holds all entries, or the directory is as it was before. -/
theorem exists_write (d : Directory α) (name : String) (entries : List (String × α)) :
    ∃ (taken left : List (String × α)) (a : Archive α), entries = taken ++ left ∧
      Archive.Takes Table.empty taken left a ∧
      d.write name entries = if left = [] then (true, d.insert name a) else (false, d) := by
  have hfresh := d.freshName_notMem name
  obtain ⟨taken, left, a, hentries, htakes, hadd⟩ :=
    exists_addEntries_insert d (d.freshName name) entries Table.empty
  refine ⟨taken, left, a, hentries, htakes, ?_⟩
  rw [write, hadd]
  cases left with
  | nil => simp only [List.isEmpty_nil, if_true, rename_insert hfresh]
  | cons entry rest => simp [Table.erase_insert hfresh]

/-- An archive whose paths are distinct is written, and holds the entries that it was given. -/
theorem exists_write_eq (d : Directory α) (name : String) {entries : List (String × α)}
    (h : (entries.map Prod.fst).Nodup) :
    ∃ (d' : Directory α) (a : Archive α), d.write name entries = (true, d') ∧
      d'.get? name = some a ∧ a.toList = entries := by
  obtain ⟨taken, left, a, rfl, htakes, hwrite⟩ := d.exists_write name entries
  obtain rfl : left = [] := htakes.left_eq_nil_iff.2 h
  refine ⟨d.insert name a, a, hwrite, Table.get?_insert_self d name a, ?_⟩
  rw [htakes.toList_eq, List.append_nil]
  rfl

/-- **An archive is written whole or not at all.** It is written if and only if the paths of its
entries are distinct. Then its file holds the entries in their order, and every other file is as it
was before; a file that had its name is replaced. Otherwise, whichever entry it is that repeats a
path, the directory is as it was before. -/
theorem write_all_or_nothing (d : Directory α) (name : String) (entries : List (String × α)) :
    let written := (d.write name entries).1
    let after := (d.write name entries).2
    (written ↔ (entries.map Prod.fst).Nodup) ∧
    (written → ∃ archive : Archive α, archive.toList = entries ∧
      after = d.insert name archive ∧ after.get? name = some archive ∧
      ∀ other ≠ name, after.get? other = d.get? other) ∧
    (written = false → after = d) := by
  intro written after
  obtain ⟨taken, left, a, rfl, htakes, hwrite⟩ := d.exists_write name entries
  have hnodup : left = [] ↔ ((taken ++ left).map Prod.fst).Nodup := htakes.left_eq_nil_iff
  by_cases hleft : left = []
  · rw [if_pos hleft] at hwrite
    have hwritten : written = true := congrArg Prod.fst hwrite
    have hafter : after = d.insert name a := congrArg Prod.snd hwrite
    refine ⟨iff_of_true hwritten (hnodup.1 hleft), fun _ => ⟨a, ?_, hafter, ?_, ?_⟩, ?_⟩
    · rw [htakes.toList_eq, hleft, List.append_nil]
      rfl
    · rw [hafter, Table.get?_insert_self]
    · intro other hother
      rw [hafter, Table.insert, Table.get?_alter, if_neg hother]
    · intro hfailed
      cases hwritten.symm.trans hfailed
  · rw [if_neg hleft] at hwrite
    have hwritten : written = false := congrArg Prod.fst hwrite
    have hafter : after = d := congrArg Prod.snd hwrite
    have hnot : ¬ written = true := fun h => Bool.false_ne_true (hwritten.symm.trans h)
    exact ⟨iff_of_false hnot (mt hnodup.2 hleft), fun h => absurd h hnot, fun _ => hafter⟩

/-- A directory with an archive of bytes. -/
private def shelf : Directory (List UInt8) :=
  .ofList [("support.zip", .ofList [("nodes.yaml", [0x5B, 0x5D, 0x0A])])]

/-- An archive takes the place of another one, and fails to do so where its last entry repeats a
path. -/
theorem write_all_or_nothing_shelf :
    (∃ archive : Archive (List UInt8),
      archive.toList = [("edge/pod.a.log", [0xFF]), ("nodes.yaml", [])] ∧
        (shelf.write "support.zip" [("edge/pod.a.log", [0xFF]), ("nodes.yaml", [])]).2.get?
          "support.zip" = some archive) ∧
      (shelf.write "support.zip"
        [("edge/pod.a.log", [0xFF]), ("nodes.yaml", []), ("edge/pod.a.log", [])]).2 = shelf := by
  obtain ⟨-, hwritten, -⟩ := write_all_or_nothing shelf "support.zip"
    [("edge/pod.a.log", [0xFF]), ("nodes.yaml", [])]
  obtain ⟨-, -, hfailed⟩ := write_all_or_nothing shelf "support.zip"
    [("edge/pod.a.log", [0xFF]), ("nodes.yaml", []), ("edge/pod.a.log", [])]
  obtain ⟨archive, hentries, -, hget, -⟩ := hwritten (by decide)
  exact ⟨⟨archive, hentries, hget⟩, hfailed (by decide)⟩

end Directory

end EdgeHealth
