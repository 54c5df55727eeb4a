import TableModels.Proofs.Footprint
import TableModels.Proofs.Identifiers
import TableModels.Proofs.Payloads

/-! Where a run writes and deletes. Names of tables come from outside, and those of dropped tables from a file that
anybody may have edited, but a name never leads out of the directory of the models nor to the manifest. -/

namespace TableModels.Run

open Act World Schema Model

variable {settings : Settings}

/-- The name of a model or of the stub that once went with it. -/
def IsModelFile (name : String) : Prop :=
  ∃ stem, Naming.IsPlainName stem ∧ (name = stem ++ ".py" ∨ name = stem ++ ".pyi")

private theorem manifestFile_not_model : ¬ IsModelFile manifestFile := by
  rintro ⟨stem, ⟨c, rest, chars, lower, _⟩, same | same⟩
  all_goals
    have first := congrArg (fun name => name.toList.head?) same
    simp only [String.toList_append, chars, List.cons_append, List.head?_cons, manifestFile] at first
    obtain rfl : '_' = c := Option.some.inj first
    exact absurd lower (by decide)

/-- What is written goes to the manifest, to a model or to the cache, and only what is named as a model is deleted. -/
def Confined (settings : Settings) : Deed → Prop
  | .save path => ∃ name, path = (Path.ofText settings.output).join name ∧ (name = manifestFile ∨ IsModelFile name)
  | .store path => path ∈ (cacheOf settings).paths
  | .delete path => ∃ name, path = (Path.ofText settings.output).join name ∧ IsModelFile name
  | .ask _ => True
  | .fail _ => True

private theorem Confined.save_of_delete {path : Path} (deletes : Confined settings (.delete path)) :
    Confined settings (.save path) := by
  obtain ⟨name, same, model⟩ := deletes
  exact ⟨name, same, .inr model⟩

private theorem confined_model (settings : Settings) (table : String) :
    Confined settings (.delete (modelPath settings table)) :=
  ⟨fileName table, rfl, _, Naming.isPlainName_moduleName table, .inl rfl⟩

private theorem confined_artifact {table : String} {path : Path} (member : path ∈ artifactPaths settings table) :
    Confined settings (.delete path) := by
  rcases mem_artifactPaths.mp member with rfl | rfl
  · exact confined_model settings table
  · exact ⟨_, rfl, _, Naming.isPlainName_moduleName table, .inr rfl⟩

private theorem manifest_not_deleted : ¬ Confined settings (.delete (manifestPath settings)) := by
  rintro ⟨name, same, model⟩
  obtain rfl := (Path.join_inj).mp same
  exact manifestFile_not_model model

private theorem confined_permits (settings : Settings) (plan : Plan) : Permits settings (Confined settings) plan where
  fails := fun _ => trivial
  saves := by
    intro files rendered file member
    rcases (path_of_payload rendered).mp (List.mem_map_of_mem member) with ⟨table, _, same⟩ | ⟨_, same⟩
    · rw [same]
      exact (confined_model settings table.name).save_of_delete
    · exact ⟨manifestFile, same, .inl rfl⟩
  deletes := fun _ _ _ member => confined_artifact member
  digests := by simp [Confined, Cache.paths]
  schema := fun _ => ⟨by simp [Confined, Cache.paths], by simp [Confined, Cache.paths]⟩

/-- Whatever tables, settings and digests there are, a run writes and deletes only in its two directories and under
names of its own. No other file changes, however it ends, and the manifest is never deleted or taken for a model. -/
theorem sync_confined (settings : Settings) (force : Bool) :
    Within (Confined settings) (sync settings force) ∧
      (∀ world path, path ∉ (cacheOf settings).paths → ¬ Confined settings (.save path) →
        (runIn (sync settings force) world).2.disk.file? path = world.disk.file? path) ∧
      (∀ world, (world.disk.file? (manifestPath settings)).isSome →
        ((runIn (sync settings force) world).2.disk.file? (manifestPath settings)).isSome) ∧
      ∀ enums scope table file, modelPayload settings enums scope table = .ok file →
        file.path ≠ manifestPath settings := by
  have within : Within (Confined settings) (sync settings force) :=
    within_sync (fun _ => trivial) (confined_permits settings) force
  refine ⟨within, fun world path uncached outside => ?_, fun world stands => ?_, fun enums scope table file made => ?_⟩
  · exact (within.footprint world).kept path outside uncached fun deletes => outside deletes.save_of_delete
  · exact (within.footprint world).standing _ manifest_not_deleted stands
  · rw [(modelPayload_ok made).1]
    exact modelPath_ne_manifestPath table.name

/-- A name that asks for another directory and for the manifest gets neither. -/
example : modelPath { output := "models" } "../__init__" = ["models", "init__.py"] := by decide +kernel

end TableModels.Run
