import TableModels.Proofs.History

/-! What a run deletes. Names that differ can have modules of one name, and files are removed after they are written,
so a model goes with a table of another name. -/

namespace TableModels.Run

open Act World Schema Model

variable {settings : Settings} {world after : World}

/-- Exactly the names are removed that have a digest and are not in scope, and none when the schema is the stored
one. -/
theorem Planned.removed {force : Bool} {plan : Plan} (planned : Planned settings force world plan) :
    (plan.source.origin = .fallback → plan.diff.remove = []) ∧
      (plan.source.origin ≠ .fallback → ∃ digests, (runIn (cacheOf settings).loadDigests world).1 = .ok digests ∧
        ∀ name, name ∈ plan.diff.remove ↔ name ∈ Keyed.names digests ∧ name ∉ (plan.scope settings).names) := by
  refine ⟨fun fallback => by rw [planned.fallback fallback], fun fetched => ?_⟩
  obtain ⟨digests, loaded, made⟩ := planned.compared fetched
  refine ⟨digests, loaded, fun name => ?_⟩
  rw [made]
  exact mem_remove fetched

/-- A model is deleted when it is there and a name is removed that has a module of the same name. -/
theorem Completed.deleted {plan : Plan} {outcome : Outcome} (completed : Completed settings plan world outcome after)
    (name : String) :
    modelPath settings name ∈ outcome.deleted ↔
      (∃ other ∈ outcome.removed, Naming.moduleName other = Naming.moduleName name) ∧
        (modelPath settings name ∈ outcome.written ∨ (world.disk.file? (modelPath settings name)).isSome) := by
  cases completed with
  | unchanged _ said _ => simp [said]
  | changed files some rendered said executed =>
    rw [executed.deleted, modelPath_mem_artifactsOf, isSome_contentAfter, said]

/-- What is generated is written, and is there afterwards unless it was deleted again. -/
theorem Completed.generated {plan : Plan} {outcome : Outcome}
    (completed : Completed settings plan world outcome after) {name : String}
    (generated : name ∈ outcome.generated) : modelPath settings name ∈ outcome.written ∧
      ((after.disk.file? (modelPath settings name)).isSome ↔
        ∀ other ∈ outcome.removed, Naming.moduleName other ≠ Naming.moduleName name) := by
  cases completed with
  | unchanged _ said _ => simp [said] at generated
  | changed files some rendered said executed =>
    have names : name ∈ plan.diff.generate.map Table.name := by rwa [said] at generated
    obtain ⟨table, member, rfl⟩ := List.mem_map.mp names
    have written : modelPath settings table.name ∈ files.map Payload.path :=
      (path_of_payload rendered).mpr (.inl ⟨table, member, rfl⟩)
    have removed : outcome.removed = plan.diff.remove := by rw [said]
    refine ⟨by rw [said]; exact written, ?_⟩
    rw [executed.files _ (modelPath_not_cached _ _), removed]
    by_cases artifact : modelPath settings table.name ∈ artifactsOf settings plan.diff.remove
    · rw [if_pos artifact]
      obtain ⟨other, dropped, same⟩ := modelPath_mem_artifactsOf.mp artifact
      exact ⟨fun file => by simp at file, fun apart => absurd same (apart other dropped)⟩
    · rw [if_neg artifact, isSome_contentAfter]
      exact ⟨fun _ other dropped same => artifact (modelPath_mem_artifactsOf.mpr ⟨other, dropped, same⟩),
        fun _ => .inl written⟩

/-- A run deletes the model of a table in scope exactly when a name that is stored and no longer in scope has a module
of the same name, and then it is gone even if it was only just written. -/
theorem live_model_deleted_iff {force : Bool} {outcome : Outcome} (rooted : world.disk.Rooted)
    (ends : runIn (sync settings force) world = (.ok outcome, after)) :
    ∃ source, (runIn (Run.source settings (cacheOf settings)) world).1 = .ok source ∧
      (source.origin = .fallback → outcome.removed = []) ∧
      (source.origin ≠ .fallback → ∃ digests, (runIn (cacheOf settings).loadDigests world).1 = .ok digests ∧
        ∀ name, name ∈ outcome.removed ↔ name ∈ Keyed.names digests ∧ name ∉ (inScope settings source.snapshot).names) ∧
      ∀ table ∈ (inScope settings source.snapshot).tables,
        (modelPath settings table.name ∈ outcome.deleted ↔
          (∃ name ∈ outcome.removed, Naming.moduleName name = Naming.moduleName table.name) ∧
            (modelPath settings table.name ∈ outcome.written ∨
              (world.disk.file? (modelPath settings table.name)).isSome)) ∧
        (table.name ∈ outcome.generated → modelPath settings table.name ∈ outcome.written ∧
          ((after.disk.file? (modelPath settings table.name)).isSome ↔
            ∀ name ∈ outcome.removed, Naming.moduleName name ≠ Naming.moduleName table.name)) := by
  obtain ⟨_, plan, planned, completed⟩ := sync_ok rooted ends
  obtain ⟨fallback, compared⟩ := planned.removed
  rw [← completed.outcome.2.1] at fallback compared
  exact ⟨plan.source, planned.found, fallback, compared,
    fun table _ => ⟨completed.deleted table.name, completed.generated⟩⟩

namespace Rename

def contents (name : String) : Document.Contents where
  snapshot :=
    ⟨[⟨name, [{ name := "id", sourceType := "int4" }], List.nodup_singleton "id"⟩], List.pairwise_singleton _ _⟩
  enums := []
  foreignKeys := []

def answer (name : String) : Document.Response := .answer 200
  ("\x7b\"definitions\":\x7b\"" ++ name ++
    "\":\x7b\"properties\":\x7b\"id\":\x7b\"type\":\"integer\"\x7d\x7d\x7d\x7d\x7d")

private theorem contents_upper (settings : Settings) :
    (serverOf settings).contents (answer "Users") = .ok (contents "Users") := by cbv

private theorem contents_lower (settings : Settings) :
    (serverOf settings).contents (answer "users") = .ok (contents "users") := by cbv

theorem feasible : ∀ name ∈ ["Users", "users"], Feasible (Blog.options false) (fetched (contents name)) := by
  intro name member
  refine feasible_of_plain (by simp [fetched]) ?_ ?_ (by simp [Blog.options])
  · revert name
    decide +kernel
  · revert name
    decide +kernel

theorem names :
    ∀ name ∈ ["Users", "users"], (inScope (Blog.options false) (contents name).snapshot).names = [name] := by
  decide +kernel

end Rename

theorem renamed_model_deleted : ∃ world outcome after, world.disk.Rooted ∧
    runIn (sync (Blog.options false) false) world = (.ok outcome, after) ∧ "users" ∈ outcome.generated ∧
      modelPath (Blog.options false) "users" ∈ outcome.deleted ∧
      after.disk.file? (modelPath (Blog.options false) "users") = none := by
  obtain ⟨first, middle, _, early, calm⟩ := (Runs.start (fresh_empty (Blog.options false))).continues
    (Blog.calm false (Rename.answer "Users")) (Blog.laid false) (Blog.usable false)
    (Blog.source_of_answer false Rename.contents_upper { response := Rename.answer "Users" } rfl)
    (Rename.feasible "Users" (by decide)) (by simp [latest, Snapshot.empty, Snapshot.names]) false
  have between : Runs (Blog.options false) [⟨false, fetched (Rename.contents "Users"), first⟩]
    { middle with response := Rename.answer "users" }.disk := early
  have before : (latest (Blog.options false) [⟨false, fetched (Rename.contents "Users"), first⟩]).names = ["Users"] :=
    Rename.names "Users" (by decide)
  have found := Blog.source_of_answer false Rename.contents_lower { middle with response := Rename.answer "users" } rfl
  obtain ⟨second, after, ends, late, _⟩ :=
    between.continues (calm.answered (Rename.answer "users")) (Blog.laid false) (Blog.usable false)
    found (Rename.feasible "users" (by decide)) (by rw [before]; decide +kernel) false
  have after' : (inScope (Blog.options false) (Rename.contents "users").snapshot).names = ["users"] :=
    Rename.names "users" (by decide)
  obtain ⟨table, member, name⟩ := Snapshot.mem_names.mp (after' ▸ List.mem_singleton_self "users")
  have generated : "users" ∈ second.generated := by
    cases late with
    | next runs carried =>
      obtain ⟨rooted, tallies⟩ := runs.tallies
      obtain ⟨_, _, _, _, _, _, compared, _⟩ := carried.plan rooted tallies
      by_contra left
      obtain ⟨former, inside, same, _⟩ := compared.kept table member (name ▸ left)
      have known := Snapshot.mem_names.mpr ⟨former, inside, same.trans name⟩
      rw [before] at known
      simp at known
  obtain ⟨rooted, _, stored, tallied, every⟩ := between.tallies
  obtain ⟨source, given, _, removed, each⟩ := live_model_deleted_iff rooted ends
  obtain rfl : fetched (Rename.contents "users") = source := Except.ok.inj (found.symm.trans given)
  obtain ⟨digests, loaded, known⟩ := removed (by simp [fetched])
  obtain rfl : stored = digests :=
    Except.ok.inj (tallied.symm.trans (Cache.loadDigests_ok rooted (Prod.ext loaded rfl)))
  have dropped : "Users" ∈ second.removed := by
    refine (known "Users").mpr ⟨(Tallies.mem_names every).mpr ?_, ?_⟩
    · rw [before]
      exact List.mem_singleton_self _
    · rw [fetched, after']
      decide
  have same : Naming.moduleName "Users" = Naming.moduleName "users" := by decide +kernel
  obtain ⟨deleted, kept⟩ := each table member
  rw [name] at deleted kept
  obtain ⟨written, remains⟩ := kept generated
  have gone : ¬ (after.disk.file? (modelPath (Blog.options false) "users")).isSome :=
    fun file => remains.mp file "Users" dropped same
  exact ⟨_, second, after, rooted, ends, generated,
    deleted.mpr ⟨⟨"Users", dropped, same⟩, .inl written⟩, by simpa using gone⟩

end TableModels.Run
