import TableModels.Naming.Fresh
import TableModels.Run.World

/-! Writing and deleting files. A file is written under another name next to its place and moved there
when it is complete, so its place never holds half a text. -/

namespace TableModels.Run

open Disk

/-- Makes the directories on the way to a path that are missing, and the path itself. -/
def makeWay : List Path → Act Unit
  | [] => pure ()
  | path :: rest => do
    if !(← Act.disk).isDirectory path then Act.change (.makeDirectory path)
    makeWay rest

/-- Makes a directory with all that lead to it. -/
def makeDirectories (path : Path) : Act Unit := do
  match (← Act.disk).checkWay path with
  | .error (.notADirectory path) => throw (.disk (.notADirectory path))
  | _ => makeWay (path.ancestors ++ [path])

/-- A path in the directory of the target that is not in use. -/
def besidePath (disk : Disk) (target : Path) : Path :=
  target.parent.join (Naming.fresh "~" (disk.namesIn target.parent) ("." ++ target.lastName ++ ".tmp"))

/-- Writes to a path that is not in use and moves the file to the target. -/
def writeThrough (beside target : Path) (content : String) : Act Unit := do
  Act.change (.writeFile beside content)
  Act.change (.setMode beside target)
  Act.change (.moveFile beside target)

/-- The random letters in the name of a temporary file, with the dots around. -/
def besideLetters : Nat := 14

/-- Writes a file, or leaves all files as they are. -/
def writeText (target : Path) (content : String) : Act Unit := do
  makeDirectories target.parent
  if nameLimit < target.lastName.utf8ByteSize + besideLetters then throw (.disk (.nameTooLong target))
  let beside := besidePath (← Act.disk) target
  Act.change (.createFile beside)
  tryCatch (writeThrough beside target content) fun failure => do
    Act.perform (.removeFile beside)
    throw failure

/-- Writes pieces of a text to a file that holds what was `written` before. -/
def writePieces (path : Path) (written : String) : List String → Act Unit
  | [] => pure ()
  | piece :: rest => do
    Act.change (.writeFile path (written ++ piece))
    writePieces path (written ++ piece) rest

/-- Writes to a path that is not in use, in pieces, and moves the file to the target. -/
def writePiecesThrough (beside target : Path) (pieces : List String) : Act Unit := do
  writePieces beside "" pieces
  Act.change (.setMode beside target)
  Act.change (.moveFile beside target)

/-- Writes a file in pieces, under a name that is chosen on the disk as it is then, or leaves all files as they are. -/
def writeInPieces (choose : Disk → Path) (target : Path) (pieces : List String) : Act Unit := do
  makeDirectories target.parent
  if nameLimit < target.lastName.utf8ByteSize + besideLetters then throw (.disk (.nameTooLong target))
  let beside := choose (← Act.disk)
  Act.change (.createFile beside)
  tryCatch (writePiecesThrough beside target pieces) fun failure => do
    Act.perform (.removeFile beside)
    throw failure

/-- Deletes a file and says whether there was one. -/
def delete (path : Path) : Act Bool := do
  match (← Act.disk).locate path with
  | .error (.missing _) => return false
  | _ =>
    Act.change (.removeFile path)
    return true

def saveFile (target : Path) (content : String) : Act Unit := do
  writeText target content
  Act.note (Log.debug s!"Wrote {target.text}")

def deleteFile (path : Path) : Act Bool := do
  let deleted ← delete path
  if deleted then Act.note (Log.debug s!"Deleted {path.text}")
  return deleted

end TableModels.Run
