import TableModels.Disk.Path
import TableModels.Keyed
import TableModels.Text.Utf8

/-! A tree of files and directories, and the changes that can be made to it one at a time. The run may
go through every directory, but there can be files that it may not read. -/

namespace TableModels

/-- What a file holds: text, or bytes that are no text. -/
inductive FileContent where
  | text (value : String)
  | bytes (value : List UInt8) (fault : Text.DecodeFault)
  deriving DecidableEq, Repr

def FileContent.ofBytes (value : List UInt8) : FileContent :=
  match Text.decode value with
  | .ok decoded => .text decoded
  | .error fault => .bytes value fault

structure File where
  content : FileContent
  /-- Whether the run may read it. -/
  readable : Bool := true
  deriving DecidableEq, Repr

inductive Entry where
  | file (file : File)
  | directory
  deriving DecidableEq, Repr

/-- What the run can read of an entry. -/
def Entry.content? : Entry → Option FileContent
  | .file ⟨content, true⟩ => some content
  | _ => none

/-- The entries below the top, by path. -/
structure Disk where
  entries : List (Path × Entry) := []
  deriving Repr

inductive DiskFault where
  | missing (path : Path)
  | denied (path : Path)
  | exists (path : Path)
  | notADirectory (path : Path)
  | isADirectory (path : Path)
  | nameTooLong (path : Path)
  | notEmpty (path : Path)
  /-- The directory of the run cannot remove itself. -/
  | isTop (path : Path)
  deriving DecidableEq, Repr

private def errnoText (number : Nat) (text : String) (path : Path) : String :=
  s!"[Errno {number}] {text}: '{path.text}'"

def DiskFault.message : DiskFault → String
  | .missing path => errnoText 2 "No such file or directory" path
  | .denied path => errnoText 13 "Permission denied" path
  | .exists path => errnoText 17 "File exists" path
  | .notADirectory path => errnoText 20 "Not a directory" path
  | .isADirectory path => errnoText 21 "Is a directory" path
  | .nameTooLong path => errnoText 36 "File name too long" path
  | .notEmpty path => errnoText 39 "Directory not empty" path
  | .isTop path => errnoText 22 "Invalid argument" path

namespace Disk

def get? (disk : Disk) (path : Path) : Option Entry :=
  if path.isTop then some .directory else disk.entries.lookup path

def isDirectory (disk : Disk) (path : Path) : Bool := disk.get? path == some .directory

/-- Whether there is a file that the run may not read. -/
def isClosed (disk : Disk) (path : Path) : Bool :=
  match disk.get? path with
  | some (.file file) => !file.readable
  | _ => false

def setEntry (path : Path) (entry : Entry) : List (Path × Entry) → List (Path × Entry)
  | [] => [(path, entry)]
  | first :: rest => if first.1 = path then (path, entry) :: rest else first :: setEntry path entry rest

def put (disk : Disk) (path : Path) (entry : Entry) : Disk := ⟨setEntry path entry disk.entries⟩

def drop (disk : Disk) (path : Path) : Disk := ⟨disk.entries.filter fun entry => entry.1 != path⟩

/-- Drops all that is below a path. -/
def dropBelow (disk : Disk) (path : Path) : Disk :=
  ⟨disk.entries.filter fun entry => !path.isPrefixOf entry.1 || entry.1 == path⟩

/-- The names in a directory. -/
def namesIn (disk : Disk) (directory : Path) : List String :=
  disk.entries.filterMap fun entry => if entry.1.parent = directory then some entry.1.lastName else none

def nameLimit : Nat := 255

def hasLongName (path : Path) : Bool := nameLimit < path.lastName.utf8ByteSize

/-- The first place on the way to a path where it ends, if not at the path. -/
def walk (disk : Disk) (path : Path) : List Path → Except DiskFault Unit
  | [] => if hasLongName path then .error (.nameTooLong path) else .ok ()
  | ancestor :: rest =>
    if hasLongName ancestor then .error (.nameTooLong path)
    else match disk.get? ancestor with
      | some .directory => walk disk path rest
      | some (.file _) => .error (.notADirectory path)
      | none => .error (.missing path)

/-- The way to a path must lead through directories. -/
def checkWay (disk : Disk) (path : Path) : Except DiskFault Unit := walk disk path path.ancestors

/-- The entry at a path, if its way leads there. -/
def locate (disk : Disk) (path : Path) : Except DiskFault Entry := do
  disk.checkWay path
  match disk.get? path with
  | some entry => .ok entry
  | none => .error (.missing path)

/-- The entry at a path, if there is one. -/
def find (disk : Disk) (path : Path) : Except DiskFault (Option Entry) :=
  match disk.locate path with
  | .ok entry => .ok (some entry)
  | .error (.missing _) | .error (.notADirectory _) => .ok none
  | .error fault => .error fault

/-- The file at a path. -/
def fileAt (disk : Disk) (path : Path) : Except DiskFault File := do
  match ← disk.locate path with
  | .file file => .ok file
  | .directory => .error (.isADirectory path)

inductive Change where
  | makeDirectory (path : Path)
  /-- Makes an empty file where there is nothing. -/
  | createFile (path : Path)
  | writeFile (path : Path) (content : String)
  /-- Lets the run read a file, unless there is a file at the target that it may not read. -/
  | setMode (path target : Path)
  /-- Moves a file to a path, in the place of a file that may be there. -/
  | moveFile (source target : Path)
  | removeFile (path : Path)
  /-- Removes all that is in a directory. -/
  | emptyDirectory (path : Path)
  /-- Removes an empty directory. -/
  | removeDirectory (path : Path)
  deriving Repr

def requireFree (disk : Disk) (path : Path) : Except DiskFault Unit := do
  disk.checkWay path
  if (disk.get? path).isSome then .error (.exists path)

def requireDirectory (disk : Disk) (path : Path) : Except DiskFault Unit := do
  match ← disk.locate path with
  | .file _ => .error (.notADirectory path)
  | .directory => .ok ()

def apply (disk : Disk) : Change → Except DiskFault Disk
  | .makeDirectory path => do
    requireFree disk path
    return disk.put path .directory
  | .createFile path => do
    requireFree disk path
    return disk.put path (.file { content := .text "" })
  | .writeFile path content => do
    let file ← disk.fileAt path
    return disk.put path (.file { file with content := .text content })
  | .setMode path target => do
    let file ← disk.fileAt path
    return disk.put path (.file { file with readable := !disk.isClosed target })
  | .moveFile source target => do
    let file ← disk.fileAt source
    disk.checkWay target
    if disk.isDirectory target then .error (.isADirectory target)
    return (disk.drop source).put target (.file file)
  | .removeFile path => do
    let _ ← disk.fileAt path
    return disk.drop path
  | .emptyDirectory path => do
    requireDirectory disk path
    return disk.dropBelow path
  | .removeDirectory path => do
    if path.isTop then .error (.isTop path)
    requireDirectory disk path
    if disk.namesIn path = [] then return disk.drop path else .error (.notEmpty path)

end Disk

end TableModels
