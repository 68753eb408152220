import EdgeHealth.Data.Table
import EdgeHealth.Text.Pieces

/-!
# Archives in a directory

An archive holds texts, or other contents, under distinct paths, in the order in which they were
added. It is written into a directory through a temporary file, which takes its final name only when
the archive is complete.

## Main definitions

* `Archive` : the entries of an archive.
* `Directory` : archives by the names of their files.
* `Directory.write` : an archive written into a directory.
-/

namespace EdgeHealth

/-- The entries of an archive, in order. -/
abbrev Archive (α : Type := String) : Type := Table α

/-- The archive with one more entry; none if it has an entry with that path. -/
def Archive.add? {α : Type} (a : Archive α) (path : String) (contents : α) : Option (Archive α) :=
  match Table.get? a path with
  | some _ => none
  | none => some (Table.insert a path contents)

/-- The files of a directory. -/
abbrev Directory (α : Type := String) : Type := Table (Archive α)

namespace Directory

variable {α : Type}

/-- A name that no file has, and that is not `name` either. -/
def freshName (d : Directory α) (name : String) : String :=
  let longest := (d.keys.map String.length).foldl max name.length
  Text.repeated '~' (longest + 1)

/-- The directory with one more entry in a file; none if that has an entry with that path. -/
def addEntry? (d : Directory α) (file path : String) (contents : α) : Option (Directory α) :=
  match Archive.add? ((d.get? file).getD Table.empty) path contents with
  | none => none
  | some archive => some (d.insert file archive)

/-- The directory with entries added to a file up to the first one that cannot be added, and whether
there is none such. -/
def addEntries (file : String) : List (String × α) → Directory α → Bool × Directory α
  | [], d => (true, d)
  | (path, contents) :: rest, d =>
    match d.addEntry? file path contents with
    | none => (false, d)
    | some next => addEntries file rest next

/-- The directory in which a file has another name. A file that had this name is replaced. -/
def rename (d : Directory α) (file name : String) : Directory α :=
  match d.get? file with
  | none => d
  | some archive => (d.erase file).insert name archive

/-- The directory after an archive was written into it, and whether it was. -/
def write (d : Directory α) (name : String) (entries : List (String × α)) :
    Bool × Directory α :=
  let file := d.freshName name
  let (complete, filled) := addEntries file entries (d.insert file Table.empty)
  if complete then (true, filled.rename file name) else (false, filled.erase file)

end Directory

end EdgeHealth
