import TableModels.CommandLine.Run
import TableModels.Log.Color

/-! The program. It looks up the files that a command can need, lets the command run on what it found,
makes the changes of that run on the real disk and shows the log. No server can be reached from here, so
a run works from the stored schema. -/

namespace TableModels

open CommandLine Run

private def isDirectoryCode (code : UInt32) : Bool := code == 21

private def entryAt (path : Path) : IO (Option Entry) := do
  try return some (.file { content := .ofBytes (← IO.FS.readBinFile path.text).toList })
  catch
    | .inappropriateType _ code _ => return if isDirectoryCode code then some .directory else none
    | .permissionDenied .. => return some (.file { content := .text "", readable := false })
    | _ => return none

private def lookUp (disk : Disk) (path : Path) : IO Disk := do
  if path.isTop then return disk
  match ← entryAt path with
  | some entry => return disk.put path entry
  | none => return disk

/-- Looks up a path and all that lead to it. -/
private def explore (disk : Disk) (path : Path) : IO Disk := (path.ancestors ++ [path]).foldlM lookUp disk

private def textAt (disk : Disk) (path : Path) : String :=
  match (disk.get? path).bind Entry.content? with
  | some (.text text) => text
  | _ => ""

/-- The variables of the environment to which some texts may refer. -/
private def environmentFor (texts : List String) : IO (Keyed String) := do
  let names := Settings.urlVariable :: Settings.keyVariable :: texts.flatMap Settings.Variables.mentioned
  names.eraseDups.foldlM (fun known name => do
    return match ← IO.getEnv name with
      | some value => known ++ [(name, value)]
      | none => known) []

/-- The models that the cache knows. -/
private def modelPaths (settings : Settings) (cache : Cache) (disk : Disk) : List Path :=
  match (cache.loadDigests.runIn { disk }).1 with
  | .ok digests => (Keyed.names digests).flatMap (artifactPaths settings)
  | .error _ => []

private def exploreFor (settings : Settings) (disk : Disk) : IO Disk := do
  let cache := cacheOf settings
  let disk ← (Path.ofText settings.output :: cache.paths).foldlM explore disk
  (modelPaths settings cache disk).foldlM explore disk

private def make (disk : Disk) : Disk.Change → IO Unit
  | .makeDirectory path => IO.FS.createDir path.text
  | .createFile path => IO.FS.writeFile path.text ""
  | .writeFile path content => IO.FS.writeFile path.text content
  | .setMode path target =>
    if disk.isClosed target then IO.setAccessRights path.text { user := { write := true } } else pure ()
  | .moveFile source target => IO.FS.rename source.text target.text
  | .removeFile path => IO.FS.removeFile path.text
  | .emptyDirectory path => do
    IO.FS.removeDirAll path.text
    IO.FS.createDir path.text
  | .removeDirectory path => IO.FS.removeDir path.text

private def display (colored : Bool) (line : Log.Line) : IO Unit :=
  IO.eprintln (if colored then line.colored else line.plain)

private def runCommand (arguments : Arguments) : IO UInt32 := do
  let config := Path.ofText arguments.config
  let envFile := Path.ofText arguments.envFile
  let disk ← [config, envFile].foldlM explore {}
  let environment ← environmentFor [textAt disk config, textAt disk envFile]
  let disk ← match ((load (originsOf arguments environment)).runIn { disk }).1 with
    | .ok settings => exploreFor settings disk
    | .error _ => pure disk
  let (code, world) := (run arguments environment).runIn { disk }
  world.journal.forM (make disk)
  let colored := !arguments.noColor && (← (← IO.getStderr).isTty)
  (shown arguments world.log).forM (display colored)
  return match code with
    | .ok code => code.toUInt32
    | .error _ => 1

end TableModels

def main (args : List String) : IO UInt32 :=
  match TableModels.CommandLine.parse args with
  | .ok arguments => TableModels.runCommand arguments
  | .error stop => return stop.exitCode.toUInt32
