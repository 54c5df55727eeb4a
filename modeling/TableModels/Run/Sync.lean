import TableModels.Model.Manifest
import TableModels.Run.Cache
import TableModels.Schema.Inference

/-! One run: take the schema from the server or the cache, work out references, and write the models
of the tables that have changed. Everything is rendered before anything is written, and the cache is
brought up to date last. -/

namespace TableModels.Run

open Schema Model

/-- Where the schema of a run came from. -/
inductive Origin where
  | fetched
  | cached
  /-- From the cache, because the fetch failed. -/
  | fallback
  deriving DecidableEq, Repr

def Origin.name : Origin → String
  | .fetched => "fetch"
  | _ => "cache"

structure Source where
  snapshot : Snapshot
  enums : Keyed (List String)
  origin : Origin
  deriving Repr

/-- What a run has done. -/
structure Outcome where
  generated : List String := []
  removed : List String := []
  origin : Origin
  written : List Path := []
  deleted : List Path := []
  deriving Repr

def Outcome.hasChanges (outcome : Outcome) : Bool := !outcome.generated.isEmpty || !outcome.removed.isEmpty

def serverOf (settings : Settings) : Document.Server where
  url := settings.url.getD ""
  secretKey := settings.secretKey.getD ""
  schema := settings.schema

def fromCache (cache : Cache) (snapshot : Snapshot) (origin : Origin) (line : Log.Line) : Act Source := do
  Act.note line
  return { snapshot, enums := ← cache.loadEnums, origin }

def fallBackOn (cache : Cache) (fault : Document.FetchFault) : Act Source := do
  Act.note (Log.warning s!"Schema fetch failed: {fault.message}")
  match ← cache.loadSnapshot with
  | none => throw (.fetch fault)
  | some snapshot =>
    fromCache cache snapshot .fallback
      (Log.warning "Falling back to the cached schema; dropped tables cannot be detected on this run")

def fetchSource (settings : Settings) (cache : Cache) : Act Source := do
  Act.note (Log.progress s!"Fetching schema '{settings.schema}' from the Data API")
  let server := serverOf settings
  let response ← Act.send server.request
  Act.notes (server.notes response)
  match server.contents response with
  | .ok contents => return { snapshot := contents.snapshot, enums := contents.enums, origin := .fetched }
  | .error (.fetch fault) => fallBackOn cache fault
  | .error (.tooDeep nest) => throw (.tooDeep nest)
  | .error (.document fault) => throw (.document fault)

/-- The schema, from where the settings want it. -/
def source (settings : Settings) (cache : Cache) : Act Source := do
  match settings.fetch with
  | .always => fetchSource settings cache
  | .never =>
    match ← cache.loadSnapshot with
    | none => throw (.noCache cache.directory)
    | some snapshot => fromCache cache snapshot .cached (Log.highlight "Using cached schema (fetch: never)")
  | .ifNoCache =>
    match ← cache.loadSnapshot with
    | none => fetchSource settings cache
    | some snapshot => fromCache cache snapshot .cached (Log.highlight "Using cached schema (fetch: if_no_cache)")

def convention : Convention := {}

/-- The tables in scope, with their references. -/
def inScope (settings : Settings) (snapshot : Snapshot) : Snapshot :=
  (convention.infer snapshot).filter settings.includes

/-- Nothing is removed when the server could not be asked what is left. -/
def adjusted (force : Bool) (origin : Origin) (scope : Snapshot) (diff : Cache.Diff) : Cache.Diff :=
  if origin == .fallback then ⟨scope.tables, []⟩ else if force then ⟨scope.tables, diff.remove⟩ else diff

def diffFor (cache : Cache) (force : Bool) (origin : Origin) (scope : Snapshot) : Act Cache.Diff := do
  let diff ← if origin == .fallback then pure ⟨[], []⟩ else cache.diff scope.tables
  return adjusted force origin scope diff

def styleOf (settings : Settings) : Style where
  embedRelations := settings.embedRelations
  overrides := settings.overrides
  singular := settings.singular

/-- A file to be written. -/
structure Payload where
  path : Path
  text : String
  deriving DecidableEq, Repr

def modelPath (settings : Settings) (table : String) : Path := (Path.ofText settings.output).join (fileName table)

def modelPayload (settings : Settings) (enums : Typing.Enums) (scope : Snapshot) (table : Table) :
    Except EmitFault Payload :=
  (render (styleOf settings) enums scope.names table).map fun text => ⟨modelPath settings table.name, text⟩

def manifestPayload (settings : Settings) (scope : Snapshot) : Except EmitFault Payload :=
  ((manifest settings.singular scope.names).mapError .noWord).map fun text =>
    ⟨(Path.ofText settings.output).join manifestFile, text⟩

/-- All files of a run, in the order in which they are written. -/
def payloads (settings : Settings) (enums : Typing.Enums) (scope : Snapshot) (tables : List Table) :
    Except EmitFault (List Payload) := do
  let models ← tables.mapM (modelPayload settings enums scope)
  if settings.manifest then return models ++ [← manifestPayload settings scope] else return models

/-- What rendering has to say, up to a table that cannot be rendered. -/
def renderLines (settings : Settings) (enums : Typing.Enums) (scope : Snapshot) : List Table → List Log.Line
  | [] => if settings.manifest then manifestNotes scope.names else []
  | table :: rest =>
    Log.debug s!"Rendering model for table '{table.name}'"
      :: renderNotes (styleOf settings) enums scope.names table
      ++ match modelPayload settings enums scope table with
        | .ok _ => renderLines settings enums scope rest
        | .error _ => []

def renderAll (settings : Settings) (enums : Typing.Enums) (scope : Snapshot) (tables : List Table) :
    Act (List Payload) := do
  Act.notes (renderLines settings enums scope tables)
  match payloads settings enums scope tables with
  | .ok files => return files
  | .error fault => throw (.emit fault)

def writeAll : List Payload → Act Unit
  | [] => pure ()
  | payload :: rest => do
    saveFile payload.path payload.text
    writeAll rest

def deleteAll : List Path → Act (List Path)
  | [] => return []
  | path :: rest => do
    let deleted ← deleteFile path
    let others ← deleteAll rest
    return if deleted then path :: others else others

/-- The files of a dropped table. -/
def artifactPaths (settings : Settings) (table : String) : List Path :=
  (artifacts table).map (Path.ofText settings.output).join

def removeModels (settings : Settings) : List String → Act (List Path)
  | [] => return []
  | table :: rest => do
    let deleted ← deleteAll (artifactPaths settings table)
    Act.note (Log.highlight s!"Removed model for dropped table '{table}'")
    return deleted ++ (← removeModels settings rest)

def removeEntries (cache : Cache) : List String → Act Unit
  | [] => pure ()
  | table :: rest => do
    cache.removeEntry table
    removeEntries cache rest

/-- Brings the cache up to date. Only a fetched schema replaces the stored one. -/
def record (cache : Cache) (source : Source) (diff : Cache.Diff) : Act Unit := do
  cache.commit diff.generate
  removeEntries cache diff.remove
  if source.origin == .fetched then
    cache.persistSnapshot source.snapshot.tables
    cache.persistEnums source.enums

/-- Writes and removes models, and then the cache. -/
def execute (settings : Settings) (cache : Cache) (source : Source) (diff : Cache.Diff) (files : List Payload) :
    Act Outcome := do
  writeAll files
  let deleted ← removeModels settings diff.remove
  record cache source diff
  Act.note (Log.success s!"Generated {diff.generate.length} models into {(Path.ofText settings.output).text}")
  return {
    generated := diff.generate.map Table.name
    removed := diff.remove
    origin := source.origin
    written := files.map Payload.path
    deleted }

def checkSettings (settings : Settings) : Act Unit := do
  let problems := settings.problems settings.requiresCredentials
  if !problems.isEmpty then throw (.unusable problems)

/-- What a run works on and what there is to do. -/
structure Plan where
  source : Source
  diff : Cache.Diff
  deriving Repr

def scopeLines (snapshot scope : Snapshot) : List Log.Line :=
  if scope.size != snapshot.size then
    [Log.highlight s!"{snapshot.size - scope.size} tables excluded by configuration"] else []

/-- Finds the schema and compares it with the cache. -/
def plan (settings : Settings) (cache : Cache) (force : Bool) : Act Plan := do
  let source ← source settings cache
  let scope := inScope settings source.snapshot
  Act.notes (convention.notes source.snapshot ++ scopeLines source.snapshot scope)
  return { source, diff := ← diffFor cache force source.origin scope }

/-- Renders everything and then carries it out. -/
def complete (settings : Settings) (cache : Cache) (plan : Plan) : Act Outcome := do
  let scope := inScope settings plan.source.snapshot
  if !plan.diff.hasChanges then
    Act.note (Log.success s!"All {scope.size} models are up to date")
    return { origin := plan.source.origin }
  Act.note (Log.progress s!"Generating {plan.diff.generate.length} models, removing {plan.diff.remove.length}")
  let files ← renderAll settings (Typing.Enums.ofDeclared plan.source.enums) scope plan.diff.generate
  execute settings cache plan.source plan.diff files

def cacheOf (settings : Settings) : Cache := { directory := Path.ofText settings.cacheDir }

/-- One run. With `force` every table in scope is generated anew. -/
def sync (settings : Settings) (force : Bool) : Act Outcome := do
  Act.notes (Log.heading "SCHEMA SYNC")
  checkSettings settings
  let plan ← plan settings (cacheOf settings) force
  complete settings (cacheOf settings) plan

end TableModels.Run
