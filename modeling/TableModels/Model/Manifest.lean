import TableModels.Model.Emit

/-! The file that makes a package of the models: it imports and exports every class, and completes
each one when all are there. -/

namespace TableModels.Model

open Code

def manifestFile : String := "__init__.py"

structure ManifestEntry where
  module : String
  className : String
  deriving DecidableEq, Repr

def manifestEntry (singular : Bool) (table : String) : Except Naming.NoWord ManifestEntry :=
  (Naming.className singular table).map fun className => ⟨Naming.moduleName table, className⟩

def manifestModule (entries : List ManifestEntry) : Module where
  header := [generatedMark]
  blocks :=
    entries.map (fun entry => .statement (.importFrom 1 entry.module [entry.className]))
      ++ entries.map (fun entry =>
        .statement (.evaluate (.call (.attribute (.name entry.className) "model_rebuild") [] [])))
      ++ [.statement (.assign "__all__" (.list (entries.map fun entry => .text entry.className)))]

/-- The manifest of the given tables, in that order. -/
def manifest (singular : Bool) (tables : List String) : Except Naming.NoWord String :=
  (tables.mapM (manifestEntry singular)).map fun entries => (manifestModule entries).text

def manifestNotes (tables : List String) : List Log.Line :=
  [Log.debug s!"Rendered manifest with {tables.length} models",
    Log.debug s!"Formatted code using Black: {manifestFile}"]

end TableModels.Model
