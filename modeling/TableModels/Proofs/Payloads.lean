import TableModels.Proofs.Places
import TableModels.Proofs.Steps

/-! The files that a run has rendered: one for each table to generate and, if it is wanted, the manifest. -/

namespace TableModels.Run

open Schema Model

variable {settings : Settings} {enums : Typing.Enums} {scope : Snapshot} {tables : List Table} {files : List Payload}

/-- What `payloads` gives, table by table, with the manifest last. -/
theorem payloads_ok (done : payloads settings enums scope tables = .ok files) :
    ∃ models last, files = models ++ last ∧
      List.Forall₂ (fun table file => modelPayload settings enums scope table = .ok file) tables models ∧
      (settings.manifest = false ∧ last = [] ∨
        settings.manifest = true ∧ ∃ file, manifestPayload settings scope = .ok file ∧ last = [file]) := by
  obtain ⟨models, ready, done⟩ := bind_ok.mp done
  refine ⟨models, ?_⟩
  cases wanted : settings.manifest with
  | false =>
    rw [wanted] at done
    obtain rfl : models = files := Except.ok.inj done
    exact ⟨[], by simp, mapM_ok_iff.mp ready, .inl ⟨rfl, rfl⟩⟩
  | true =>
    rw [if_pos wanted] at done
    obtain ⟨file, manifest, done⟩ := bind_ok.mp done
    obtain rfl : models ++ [file] = files := Except.ok.inj done
    exact ⟨[file], rfl, mapM_ok_iff.mp ready, .inr ⟨rfl, file, manifest, rfl⟩⟩

theorem modelPayload_ok {table : Table} {file : Payload} (done : modelPayload settings enums scope table = .ok file) :
    file.path = modelPath settings table.name ∧ render (styleOf settings) enums scope.names table = .ok file.text := by
  obtain ⟨text, rendered, rfl⟩ := map_ok.mp done
  exact ⟨rfl, rendered⟩

theorem manifestPayload_ok {file : Payload} (done : manifestPayload settings scope = .ok file) :
    file.path = manifestPath settings ∧ manifest settings.singular scope.names = .ok file.text := by
  obtain ⟨text, made, rfl⟩ := map_ok.mp done
  exact ⟨rfl, mapError_ok.mp made⟩

/-- Every table has its file, and the file holds what was rendered of it. -/
theorem payload_of_mem (done : payloads settings enums scope tables = .ok files) {table : Table}
    (member : table ∈ tables) :
    ∃ file ∈ files, file.path = modelPath settings table.name ∧
      render (styleOf settings) enums scope.names table = .ok file.text := by
  obtain ⟨models, last, rfl, each, _⟩ := payloads_ok done
  obtain ⟨file, known, rendered⟩ := exists_of_mem each member
  exact ⟨file, List.mem_append_left _ known, modelPayload_ok rendered⟩

/-- Every file is the manifest, or it holds what was rendered of a table. -/
theorem table_of_payload (done : payloads settings enums scope tables = .ok files) {file : Payload}
    (member : file ∈ files) :
    (∃ table ∈ tables, file.path = modelPath settings table.name ∧
      render (styleOf settings) enums scope.names table = .ok file.text) ∨ file.path = manifestPath settings := by
  obtain ⟨models, last, rfl, each, manifest⟩ := payloads_ok done
  rcases List.mem_append.mp member with model | ending
  · obtain ⟨table, known, rendered⟩ := exists_of_mem each.flip model
    exact .inl ⟨table, known, modelPayload_ok rendered⟩
  · rcases manifest with ⟨_, rfl⟩ | ⟨_, other, made, rfl⟩
    · cases ending
    · obtain rfl := List.mem_singleton.mp ending
      exact .inr (manifestPayload_ok made).1

theorem payload_of_manifest (done : payloads settings enums scope tables = .ok files)
    (wanted : settings.manifest = true) :
    ∃ file ∈ files, file.path = manifestPath settings ∧ manifest settings.singular scope.names = .ok file.text := by
  obtain ⟨models, last, rfl, _, ⟨unwanted, _⟩ | ⟨_, file, made, rfl⟩⟩ := payloads_ok done
  · simp [wanted] at unwanted
  · exact ⟨file, by simp, manifestPayload_ok made⟩

theorem payloads_ends (models : ∀ table ∈ tables, ∃ text, render (styleOf settings) enums scope.names table = .ok text)
    (last : settings.manifest = true → ∃ text, manifest settings.singular scope.names = .ok text) :
    ∃ files, payloads settings enums scope tables = .ok files := by
  have each : ∀ table ∈ tables, ∃ file, modelPayload settings enums scope table = .ok file := by
    intro table member
    obtain ⟨text, rendered⟩ := models table member
    exact ⟨_, map_ok.mpr ⟨text, rendered, rfl⟩⟩
  obtain ⟨files, ready⟩ := mapM_ends_iff.mpr each
  cases wanted : settings.manifest with
  | false => exact ⟨files, bind_ok.mpr ⟨files, ready, by rw [wanted]; rfl⟩⟩
  | true =>
    obtain ⟨text, made⟩ := last wanted
    have ending : ∃ file, manifestPayload settings scope = .ok file := ⟨_, map_ok.mpr ⟨text, mapError_ok.mpr made, rfl⟩⟩
    obtain ⟨file, ending⟩ := ending
    exact ⟨files ++ [file], bind_ok.mpr ⟨files, ready, by rw [if_pos wanted]; exact bind_ok.mpr ⟨file, ending, rfl⟩⟩⟩

theorem paths_of_payloads (done : payloads settings enums scope tables = .ok files) :
    files.map Payload.path =
      tables.map (fun table => modelPath settings table.name) ++ if settings.manifest then
        [manifestPath settings] else [] := by
  obtain ⟨models, last, rfl, each, manifest⟩ := payloads_ok done
  have same : models.map Payload.path = tables.map fun table => modelPath settings table.name :=
    map_eq_of_each each fun own => (modelPayload_ok own).1
  rw [List.map_append, same]
  rcases manifest with ⟨unwanted, rfl⟩ | ⟨wanted, file, made, rfl⟩
  · simp [unwanted]
  · simp [wanted, (manifestPayload_ok made).1]

theorem path_of_payload (done : payloads settings enums scope tables = .ok files) {path : Path} :
    path ∈ files.map Payload.path ↔
      (∃ table ∈ tables, path = modelPath settings table.name) ∨ settings.manifest = true ∧
        path = manifestPath settings := by
  rw [paths_of_payloads done, List.mem_append, List.mem_map]
  cases settings.manifest <;> simp [eq_comm]

theorem paths_nodup (done : payloads settings enums scope tables = .ok files)
    (apart : (tables.map fun table => Naming.moduleName table.name).Nodup) : (files.map Payload.path).Nodup := by
  rw [paths_of_payloads done]
  have models : (tables.map fun table => modelPath settings table.name).Nodup := by
    refine List.pairwise_map.mpr ((List.pairwise_map.mp apart).imp fun different same => different ?_)
    exact modelPath_inj.mp same
  have manifest : manifestPath settings ∉ tables.map fun table => modelPath settings table.name := by
    intro member
    obtain ⟨table, _, same⟩ := List.mem_map.mp member
    exact modelPath_ne_manifestPath table.name same
  cases settings.manifest with
  | false => simpa using models
  | true =>
    refine List.nodup_append.mpr ⟨models, by simp, ?_⟩
    rintro path member _ last rfl
    rw [if_pos rfl, List.mem_singleton] at last
    exact manifest (last ▸ member)

theorem payload_not_cached (done : payloads settings enums scope tables = .ok files) (cache : Cache) :
    ∀ file ∈ files, file.path ∉ cache.paths := by
  intro file member
  rcases (path_of_payload done).mp (List.mem_map_of_mem member) with ⟨table, _, same⟩ | ⟨_, same⟩
  · exact same ▸ modelPath_not_cached cache table.name
  · exact same ▸ manifestPath_not_cached cache

end TableModels.Run
