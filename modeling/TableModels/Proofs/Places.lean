import TableModels.Proofs.Disk
import TableModels.Run.Sync

/-! Where the files of a run are. The files of models, the manifest and the cache never meet, whatever the
directories, because their names end or begin in different ways. -/

namespace TableModels

namespace Naming

theorem head?_fieldChars (name : String) : (fieldChars name).head? ≠ some '_' := by
  intro first
  have dropped := List.head?_dropWhile_not (· == '_') ((snakeChars name.toList).filter isFieldChar)
  rw [fieldChars] at first
  simp [first] at dropped

private theorem head?_moduleName (table : String) : (moduleName table).toList.head? ≠ some '_' := by
  have first := head?_fieldChars table
  rw [moduleName, fieldName]
  split
  · decide
  · rename_i c rest chars
    rw [chars] at first
    cases Text.isAsciiDigit c with
    | true =>
      simp only [if_true]
      split <;> simp
    | false =>
      simp only [Bool.false_eq_true, if_false]
      split <;> simpa using first

end Naming

namespace Model

theorem fileName_inj {first second : String} :
    fileName first = fileName second ↔ Naming.moduleName first = Naming.moduleName second := by
  rw [fileName, fileName]
  exact ⟨fun same => by simpa using same, fun same => by rw [same]⟩

theorem fileName_ne_manifestFile (table : String) : fileName table ≠ manifestFile := by
  intro same
  have first := Naming.head?_moduleName table
  have chars := congrArg (fun name => name.toList.head?) same
  rw [fileName, String.toList_append] at chars
  cases opens : (Naming.moduleName table).toList with
  | nil => simp [opens, manifestFile] at chars
  | cons c rest =>
    rw [opens] at first chars
    exact first (by simpa [manifestFile] using chars)

private theorem stub_ne_fileName (first second : String) : Naming.moduleName first ++ ".pyi" ≠ fileName second := by
  intro same
  have last := congrArg (fun name => name.toList.getLast?) same
  simp [fileName] at last

end Model

namespace Run

open Model

variable {settings : Settings}

def manifestPath (settings : Settings) : Path := (Path.ofText settings.output).join manifestFile

private theorem not_mem_paths {path : Path} (last : path.lastName.toList.getLast? ≠ some 'n') (cache : Cache) :
    path ∉ cache.paths := by
  intro member
  simp only [Cache.paths, List.mem_cons, List.not_mem_nil, or_false] at member
  rcases member with rfl | rfl | rfl
  · exact last (by simp [Cache.digestsPath])
  · exact last (by simp [Cache.snapshotPath])
  · exact last (by simp [Cache.enumsPath])

theorem modelPath_not_cached (cache : Cache) (table : String) : modelPath settings table ∉ cache.paths :=
  not_mem_paths (by simp [modelPath, fileName]) cache

theorem manifestPath_not_cached (cache : Cache) : manifestPath settings ∉ cache.paths :=
  not_mem_paths (by simp [manifestPath, manifestFile]) cache

theorem modelPath_inj {first second : String} :
    modelPath settings first = modelPath settings second ↔ Naming.moduleName first = Naming.moduleName second := by
  rw [modelPath, modelPath, Path.join_inj, fileName_inj]

theorem modelPath_ne_manifestPath (table : String) : modelPath settings table ≠ manifestPath settings := by
  rw [modelPath, manifestPath, ne_eq, Path.join_inj]
  exact fileName_ne_manifestFile table

theorem mem_artifactPaths {table : String} {path : Path} :
    path ∈ artifactPaths settings table ↔
      path = modelPath settings table ∨
        path = (Path.ofText settings.output).join (Naming.moduleName table ++ ".pyi") := by
  simp [artifactPaths, artifacts, modelPath, fileName]

theorem artifactPaths_not_cached (cache : Cache) {table : String} {path : Path}
    (member : path ∈ artifactPaths settings table) :
    path ∉ cache.paths := by
  rcases mem_artifactPaths.mp member with rfl | rfl
  · exact modelPath_not_cached cache table
  · exact not_mem_paths (by simp) cache

/-- Of the files of a dropped table, one can be the model of another. -/
theorem modelPath_mem_artifactPaths {table dropped : String} :
    modelPath settings table ∈ artifactPaths settings dropped ↔ Naming.moduleName table =
      Naming.moduleName dropped := by
  rw [mem_artifactPaths, modelPath_inj, modelPath, Path.join_inj]
  exact ⟨fun either => either.resolve_right fun stub => stub_ne_fileName _ _ stub.symm, .inl⟩

theorem manifestPath_not_artifact {dropped : String} : manifestPath settings ∉ artifactPaths settings dropped := by
  intro member
  rcases mem_artifactPaths.mp member with same | same
  · exact modelPath_ne_manifestPath dropped same.symm
  · rw [manifestPath, Path.join_inj] at same
    have last := congrArg (fun name => name.toList.getLast?) same
    simp [manifestFile] at last

end Run

end TableModels
