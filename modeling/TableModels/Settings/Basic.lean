import TableModels.Report
import TableModels.Settings.FetchMode
import TableModels.Settings.Relations
import TableModels.Settings.Variables

/-! The settings of a run. -/

namespace TableModels

structure Settings where
  url : Option String := none
  secretKey : Option String := none
  output : String := "models"
  schema : String := "public"
  included : Option (List String) := none
  excluded : Option (List String) := none
  fetch : Settings.FetchMode := .always
  manifest : Bool := false
  embedRelations : Bool := false
  overrides : Model.Overrides := []
  cacheDir : String := ".supadantic"
  singular : Bool := false
  deriving DecidableEq, Repr

namespace Settings

/-- The settings whose texts may refer to variables. -/
def expandedKeys : List String := ["url", "secret_key", "output", "schema", "fetch", "cache_dir"]

/-- Replaces the references in one setting. A text of which nothing is left becomes null. -/
def expandKey (scope : Variables) (raw : Fields) (key : String) : Fields :=
  match Keyed.get? raw key with
  | some (.text text) => Keyed.set raw key (((scope.expand? text).map Value.text).getD .null)
  | _ => raw

/-- Puts a variable in the place of a setting that is missing or empty. -/
def fallBack (scope : Variables) (key substitute : String) (raw : Fields) : Fields :=
  if ((Keyed.get? raw key).map Value.isTruthy).getD false then raw
  else Keyed.set raw key (((scope.get? substitute).map Value.text).getD .null)

def urlVariable : String := "SUPABASE_DATA_API_URL"
def keyVariable : String := "SUPABASE_SECRET_KEY"

/-- The raw settings with variables in place. -/
def resolved (scope : Variables) (raw : Fields) : Fields :=
  fallBack scope "secret_key" keyVariable
    (fallBack scope "url" urlVariable (expandedKeys.foldl (expandKey scope) raw))

/-- The first of some keys that is there, with its value. -/
def find? (raw : Fields) (keys : List String) : Option (String × Value) :=
  keys.findSome? fun key => (Keyed.get? raw key).map fun value => (key, value)

/-- Reads the setting under the first of some keys that is there. -/
def setting {α : Type} (raw : Fields) (keys : List String) (fallback : α)
    (read : List String → Value → Checked α) : Checked α :=
  match find? raw keys with
  | some (key, value) => read [key] value
  | none => .ok fallback

/-- Reads settings in which no variables are left. All issues are gathered. -/
def ofFields (raw : Fields) : Checked Settings :=
  let url := setting raw ["url"] none readOptionalText
  let secretKey := setting raw ["secret_key"] none readOptionalText
  let output := setting raw ["output"] "models" readFilledText
  let schema := setting raw ["schema", "db_schema"] "public" readFilledText
  let included := setting raw ["include"] none readTableList
  let excluded := setting raw ["exclude"] none readTableList
  let fetch := setting raw ["fetch"] .always fun _ value => .ok (FetchMode.ofValue value)
  let manifest := setting raw ["generate_manifest", "generate_barrel"] false readFlag
  let embedRelations := setting raw ["embed_relations"] false readFlag
  let overrides := setting raw ["relations"] [] readOverrides
  let cacheDir := setting raw ["cache_dir"] ".supadantic" readFilledText
  let singular := setting raw ["singular_class_names"] false readFlag
  match url, secretKey, output, schema, included, excluded, fetch, manifest, embedRelations, overrides, cacheDir,
    singular with
  | .ok url, .ok secretKey, .ok output, .ok schema, .ok included, .ok excluded, .ok fetch, .ok manifest,
    .ok embedRelations, .ok overrides, .ok cacheDir, .ok singular =>
    .ok { url, secretKey, output, schema, included, excluded, fetch, manifest, embedRelations, overrides, cacheDir,
          singular }
  | _, _, _, _, _, _, _, _, _, _, _, _ =>
    .error (issuesOf url ++ issuesOf secretKey ++ issuesOf output ++ issuesOf schema ++ issuesOf included
      ++ issuesOf excluded ++ issuesOf fetch ++ issuesOf manifest ++ issuesOf embedRelations ++ issuesOf overrides
      ++ issuesOf cacheDir ++ issuesOf singular)

def read (scope : Variables) (raw : Fields) : Checked Settings := ofFields (resolved scope raw)

/-- What reading has to say, whether it succeeds or not. -/
def readNotes (scope : Variables) (raw : Fields) : List Log.Line :=
  match Keyed.get? (resolved scope raw) "fetch" with
  | some value => FetchMode.notes value
  | none => []

def requiresCredentials (settings : Settings) : Bool := settings.fetch != .never

private def filled? (text : Option String) : Option String := text.filter (· != "")

private def urlProblems (settings : Settings) : List String :=
  match filled? settings.url with
  | none => [s!"Data API URL is not configured. Set {urlVariable} in .env or environment."]
  | some url => if Text.hasPrefix "https://" url then [] else ["Data API URL should start with https://"]

private def keyProblems (settings : Settings) : List String :=
  match filled? settings.secretKey with
  | none => [s!"Secret key is not configured. Set {keyVariable} in .env or environment."]
  | some key =>
    if key.length < 20 then ["Secret key appears too short. Make sure you're using the service_role key."] else []

private def isFilled (tables : Option (List String)) : Bool := (tables.map fun names => !names.isEmpty).getD false

/-- What stands in the way of a run with these settings. -/
def problems (settings : Settings) (withCredentials : Bool) : List String :=
  (if withCredentials then settings.urlProblems ++ settings.keyProblems else [])
    ++ (if isFilled settings.included && isFilled settings.excluded then
        ["Both include and exclude lists are specified. Use only one."] else [])

/-- Whether a table is in scope. A list that is empty does not count. -/
def includes (settings : Settings) (table : String) : Bool :=
  let included := settings.included.getD []
  let excluded := settings.excluded.getD []
  if !included.isEmpty then included.contains table
  else if !excluded.isEmpty then !excluded.contains table
  else true

end Settings

/-- The failure of settings that cannot be read. -/
def Report.invalidSettings (file : Option String) (issues : List Settings.Issue) : Report :=
  .configuration "Configuration validation failed" file (issues.map Settings.Issue.text)

end TableModels
