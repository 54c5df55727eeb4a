import TableModels.CommandLine.Arguments
import TableModels.Run.Load
import TableModels.Run.Sync

/-! What the commands do. A failure is reported in the log. -/

namespace TableModels.CommandLine

open Run

/-- Where the arguments say that settings come from. -/
def originsOf (arguments : Arguments) (environment : Keyed String) : Origins where
  settingsFile := Path.ofText arguments.config
  variablesFile := Path.ofText arguments.envFile
  environment := environment
  outer := environment

private def listLiteral (texts : Option (List String)) : String :=
  ((texts.map fun texts => Value.list (texts.map .text)).getD .null).literal

private def modeLiteral : Settings.FetchMode → String
  | .always => "ALWAYS"
  | .ifNoCache => "IF_NO_CACHE"
  | .never => "NEVER"

private def fetchLiteral (mode : Settings.FetchMode) : String :=
  "<FetchMode." ++ modeLiteral mode ++ ": " ++ Text.quoted mode.name ++ ">"

private def optionData (text : Option String) : Value := (text.map Value.text).getD .null

private def overrideData (override : Model.Override) : Value :=
  .object [("enabled", .bool override.enabled), ("table", optionData override.table),
    ("foreign_key", optionData override.foreignKey), ("referenced_column", optionData override.referencedColumn)]

private def overridesData (overrides : Model.Overrides) : Value :=
  .object (overrides.map fun (table, relations) =>
    (table, .object (relations.map fun (relation, override) => (relation, overrideData override))))

private def flagLiteral (flag : Bool) : String := (Value.bool flag).literal

/-- All settings but the secret key, with their values as code would spell them. -/
def settingsLiteral (settings : Settings) : String :=
  let fields := [
    ("url", (optionData settings.url).literal),
    ("output", Text.quoted settings.output),
    ("db_schema", Text.quoted settings.schema),
    ("include", listLiteral settings.included),
    ("exclude", listLiteral settings.excluded),
    ("fetch", fetchLiteral settings.fetch),
    ("generate_manifest", flagLiteral settings.manifest),
    ("embed_relations", flagLiteral settings.embedRelations),
    ("relations", (overridesData settings.overrides).literal),
    ("cache_dir", Text.quoted settings.cacheDir),
    ("singular_class_names", flagLiteral settings.singular)]
  "\x7b" ++ ", ".intercalate (fields.map fun (name, value) => Text.quoted name ++ ": " ++ value) ++ "\x7d"

/-- What a run has done, if it has done anything. -/
def summary (outcome : Outcome) : List Log.Line :=
  if !outcome.hasChanges then []
  else
    Log.heading "SUMMARY"
      ++ outcome.generated.map (fun name => Log.info s!"  + {name}")
      ++ outcome.removed.map (fun name => Log.info s!"  - {name}")
      ++ [Log.success (s!"Sync finished from {outcome.origin.name}: {outcome.generated.length} generated, "
        ++ s!"{outcome.removed.length} removed")]

private def runSync (arguments : Arguments) (environment : Keyed String) : Act Unit := do
  Act.note (Log.progress s!"Loading configuration from {arguments.config}")
  let settings ← load (originsOf arguments environment)
  Act.note (Log.debug s!"Effective configuration: {settingsLiteral settings}")
  Act.notes (summary (← sync settings arguments.force))

private def runClean (arguments : Arguments) (environment : Keyed String) : Act Unit := do
  let settings ← load (originsOf arguments environment)
  (cacheOf settings).clear
  Act.note (Log.success s!"Cache cleared: {settings.cacheDir}")

def failureLine (failure : Failure) : Log.Line :=
  match failure.report? with
  | some report => Log.error report.text
  | none => Log.error s!"An unexpected error occurred: {failure.message}"

/-- Carries out a command and gives the exit code. -/
def run (arguments : Arguments) (environment : Keyed String) : Act Nat := do
  if arguments.verbose then Act.note (Log.debug "Verbose mode enabled. DEBUG level logging activated.")
  let command := match arguments.command with
    | .sync => runSync arguments environment
    | .clean => runClean arguments environment
  tryCatch (do command; return 0) fun failure => do
    Act.note (failureLine failure)
    return 1

/-- The lines that are shown. -/
def shown (arguments : Arguments) (log : List Log.Line) : List Log.Line :=
  log.filter fun line => arguments.verbose || line.level != .debug

end TableModels.CommandLine
