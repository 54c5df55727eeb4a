import TableModels.Run.World
import TableModels.Settings.VariablesFile
import TableModels.Yaml.Reader

/-! Loading the settings from their file, with the variables of another file and of the environment. -/

namespace TableModels.Run

open Settings

/-- The text of a file, with line feeds at the ends of its lines. -/
private def textOf : FileContent → Act String
  | .text value => return String.ofList (Text.unifyLineEnds value.toList)
  | .bytes _ fault => throw (.undecodable fault)

private def fileText? (path : Path) (denied : Failure) : Act (Option String) := do
  match ← Act.find path with
  | some (.file file) => if file.readable then return some (← textOf file.content) else throw denied
  | _ => return none

private def ofYamlFault (path : Path) : Yaml.Fault → Failure
  | .malformed => .settingsFile s!"Error parsing YAML file {path.text}" path
  | .tooManyDigits count => .tooManyDigits ⟨count⟩
  | .noDigits base => .badScalar s!"invalid literal for int() with base {base}: ''"
  | .timestamp fault => .badScalar fault.message

/-- The fields of the file of settings. An empty file has none. -/
def readFields (path : Path) : Act Fields := do
  let denied := s!"Error reading config file {path.text}: {(DiskFault.denied path).message}"
  match ← fileText? path (.settingsFile denied path) with
  | none => throw (.settingsFile s!"Config file not found: {path.text}" path)
  | some text =>
    match Yaml.read text with
    | .error fault => throw (ofYamlFault path fault)
    | .ok .null => return []
    | .ok (.object fields) => return fields
    | .ok _ => throw (.settingsFile s!"Content in config file {path.text} is not a mapping" path)

/-- The variables of a file, which need not be there. -/
def readVariables (path : Path) (outer : Keyed String) : Act (Keyed String) := do
  match ← fileText? path (.disk (.denied path)) with
  | none => return []
  | some text =>
    let file := VariablesFile.ofText outer text
    Act.notes file.complaints
    Act.notes (file.notes path.text)
    return file.values

/-- Settings from their fields. -/
def readSettings (scope : Variables) (fields : Fields) (file : Option String) : Act Settings := do
  Act.notes (Settings.readNotes scope fields)
  match Settings.read scope fields with
  | .error issues => throw (.settings file issues)
  | .ok settings =>
    Act.note (Log.debug "Configuration parsed and validated successfully against schema.")
    return settings

/-- Where settings come from. -/
structure Origins where
  settingsFile : Path
  variablesFile : Path
  /-- The environment to which settings refer. -/
  environment : Keyed String := []
  /-- The environment to which variables refer. -/
  outer : Keyed String := []
  deriving Repr

def load (origins : Origins) : Act Settings := do
  let fields ← readFields origins.settingsFile
  let file ← readVariables origins.variablesFile origins.outer
  let settings ← readSettings { environment := origins.environment, file } fields (some origins.settingsFile.text)
  Act.note (Log.debug s!"Loaded configuration from {origins.settingsFile.text}")
  return settings

end TableModels.Run
