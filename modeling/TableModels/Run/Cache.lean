import TableModels.Json.Printer
import TableModels.Run.Files
import TableModels.Schema.Digest
import TableModels.Schema.Stored

/-! The cache: the digests of the tables whose models were written, the last schema and its enumerated
types, each in a file of its own. A file that is missing, damaged or not to be read counts as empty. -/

namespace TableModels.Run

open Schema

structure Cache where
  directory : Path
  /-- How deep the text of a file can be nested. -/
  room : Nat := Json.usualRoom
  /-- There is room for what is stored here: the columns of a table lie five deep. -/
  roomy : 5 ≤ room := by exact Json.five_le_usualRoom
  deriving Repr

namespace Cache

def digestsPath (cache : Cache) : Path := cache.directory.join "table_hashes.json"
def snapshotPath (cache : Cache) : Path := cache.directory.join "schema_cache.json"
def enumsPath (cache : Cache) : Path := cache.directory.join "enum_cache.json"

def paths (cache : Cache) : List Path := [cache.digestsPath, cache.snapshotPath, cache.enumsPath]

def readText (room : Nat) (path : Path) (text : String) : Act (Option Value) := do
  if (Text.strip text).isEmpty then return none
  match Json.read room text with
  | .ok .null => return none
  | .ok value => return some value
  | .error .malformed =>
    Act.note (Log.warning s!"Ignoring corrupt cache file {path.text}")
    return none
  | .error (.tooManyDigits count) => throw (.tooManyDigits ⟨count⟩)
  | .error (.tooDeep nest) => throw (.tooDeep nest)

def readEntry (room : Nat) (path : Path) (entry : Entry) : Act (Option Value) := do
  match entry.content? with
  | none =>
    Act.note (Log.warning s!"Could not read cache file {path.text}")
    return none
  | some (.bytes _ fault) => throw (.undecodable fault)
  | some (.text text) => readText room path text

/-- The data in a file, if there is any. -/
def readData (room : Nat) (path : Path) : Act (Option Value) := do
  match ← Act.find path with
  | none => return none
  | some entry => readEntry room path entry

def writeData (path : Path) (data : Value) : Act Unit := writeText path (Json.indented data ++ "\n")

abbrev Digests := Keyed String

/-- Digests by table, if the data has that form. -/
def digestsOf? : Value → Option Digests
  | .object fields => fields.mapM fun (name, value) =>
    match value with
    | .text digest => some (name, digest)
    | _ => none
  | _ => none

def digestsData (digests : Digests) : Value := .object (digests.map fun (name, digest) => (name, .text digest))

def loadDigests (cache : Cache) : Act Digests := do
  match ← readData cache.room cache.digestsPath with
  | none => return []
  | some data =>
    match digestsOf? data with
    | some digests => return digests
    | none =>
      Act.note (Log.warning s!"Ignoring malformed digest cache: {cache.digestsPath.text}")
      return []

/-- The digests with those of some tables brought up to date. -/
def withTables (digests : Digests) (tables : List Table) : Digests :=
  tables.foldl (fun digests table => Keyed.set digests table.name table.digest) digests

/-- Records the digests of some tables and leaves those of others as they are. -/
def commit (cache : Cache) (tables : List Table) : Act Unit := do
  let digests ← cache.loadDigests
  writeData cache.digestsPath (digestsData (withTables digests tables))

def removeEntry (cache : Cache) (table : String) : Act Unit := do
  let digests ← cache.loadDigests
  if Keyed.contains digests table then writeData cache.digestsPath (digestsData (Keyed.erase digests table))

def clearDigests (cache : Cache) : Act Unit := do
  if (← Act.find cache.digestsPath).isSome then Act.change (.removeFile cache.digestsPath)

/-- What there is to do: models to generate and names to remove. -/
structure Diff where
  generate : List Table
  remove : List String
  deriving Repr

namespace Diff

def hasChanges (diff : Diff) : Bool := !diff.generate.isEmpty || !diff.remove.isEmpty

/-- The tables whose digest is new or has changed, and the names of which there is no table any more. -/
def between (digests : Digests) (tables : List Table) : Diff where
  generate := tables.filter fun table => Keyed.get? digests table.name != some table.digest
  remove := sortedNames ((Keyed.names digests).filter fun name => !(tables.map Table.name).contains name)

end Diff

def diff (cache : Cache) (tables : List Table) : Act Diff := do
  let diff := Diff.between (← cache.loadDigests) tables
  Act.note (Log.debug (s!"Schema diff: {diff.generate.length} to generate, {diff.remove.length} to remove, "
    ++ s!"{tables.length - diff.generate.length} unchanged"))
  return diff

def persistSnapshot (cache : Cache) (tables : List Table) : Act Unit :=
  writeData cache.snapshotPath (Snapshot.storedTables tables)

def loadSnapshot (cache : Cache) : Act (Option Snapshot) := do
  match ← readData cache.room cache.snapshotPath with
  | none => return none
  | some data =>
    match Snapshot.ofStored data with
    | .ok snapshot => return some snapshot
    | .error _ =>
      Act.note (Log.warning s!"Ignoring malformed schema snapshot {cache.snapshotPath.text}")
      return none

def enumsData (enums : Keyed (List String)) : Value :=
  .object (enums.map fun (name, values) => (name, .list (values.map .text)))

/-- The values of enumerated types, read as they print, if the data has that form. -/
def enumsOf? : Value → Option (Keyed (List String))
  | .object fields => fields.mapM fun (name, value) =>
    match value with
    | .list values => some (name, values.map Value.toText)
    | _ => none
  | _ => none

def persistEnums (cache : Cache) (enums : Keyed (List String)) : Act Unit :=
  writeData cache.enumsPath (enumsData enums)

def loadEnums (cache : Cache) : Act (Keyed (List String)) := do
  match ← readData cache.room cache.enumsPath with
  | none => return []
  | some data =>
    match enumsOf? data with
    | some enums => return enums
    | none =>
      Act.note (Log.warning s!"Ignoring malformed enum cache: {cache.enumsPath.text}")
      return []

/-- Deletes the cache with its directory. -/
def clear (cache : Cache) : Act Unit := do
  if (← Act.find cache.directory).isSome then
    Act.change (.emptyDirectory cache.directory)
    Act.change (.removeDirectory cache.directory)
    Act.note (Log.info s!"Cleared cache directory {cache.directory.text}")

end Cache

end TableModels.Run
