import Mathlib
import TableModels.Proofs.Progress
import TableModels.Proofs.Rendering

/-! Runs that fetch the schema from a server that answers. On an empty disk, or after other runs, nothing stands in
their way. -/

namespace TableModels.Run

open Act World Schema Model

variable {settings : Settings} {world : World}

def fetched (contents : Document.Contents) : Source := ⟨contents.snapshot, contents.enums, .fetched⟩

private theorem runIn_source_of_contents (always : settings.fetch = .always) {contents : Document.Contents}
    (holds : (serverOf settings).contents world.response = .ok contents) (cache : Cache) :
    runIn (source settings cache) world = (.ok (fetched contents), { world with
      requests := world.requests ++ [(serverOf settings).request]
      log := world.log ++ [Log.progress s!"Fetching schema '{settings.schema}' from the Data API"]
        ++ (serverOf settings).notes world.response }) := by
  simp only [source, always, fetchSource, runIn_bind, runIn_note, runIn_send, runIn_notes, holds]
  rfl

theorem source_of_contents (always : settings.fetch = .always) {contents : Document.Contents}
    (holds : (serverOf settings).contents world.response = .ok contents) (cache : Cache) :
    (runIn (source settings cache) world).1 = .ok (fetched contents) := by
  rw [runIn_source_of_contents always holds]

private theorem runIn_sync_of_contents (always : settings.fetch = .always)
    (usable : settings.problems settings.requiresCredentials = [])
    {contents : Document.Contents} (holds : (serverOf settings).contents world.response = .ok contents) (force : Bool) :
    runIn (sync settings force) world = runIn (do
      let diff ← diffFor (cacheOf settings) force .fetched (inScope settings contents.snapshot)
      complete settings (cacheOf settings) ⟨fetched contents, diff⟩) { world with
        requests := world.requests ++ [(serverOf settings).request]
        log := world.log ++ Log.heading "SCHEMA SYNC" ++
          [Log.progress s!"Fetching schema '{settings.schema}' from the Data API"]
          ++ (serverOf settings).notes world.response
          ++ (convention.notes contents.snapshot ++
              scopeLines contents.snapshot (inScope settings contents.snapshot)) } := by
  have titled : (serverOf settings).contents { world with log := world.log ++ Log.heading "SCHEMA SYNC" }.response =
    .ok contents := holds
  have found := runIn_source_of_contents always titled (cacheOf settings)
  simp only [sync, plan, checkSettings, usable, List.isEmpty_nil, Bool.not_true, Bool.false_eq_true, if_false,
    bind_assoc, pure_bind, runIn_bind, runIn_notes, found]
  rfl

/-- Everything can be rendered when there are no defaults to read and every table has a name that is not too long. -/
theorem feasible_of_plain {source : Source} (origin : source.origin ≠ .fallback)
    (plain : ∀ table ∈ (inScope settings source.snapshot).tables, ∀ column ∈ table.columns, column.default = none)
    (brief : ∀ name ∈ (inScope settings source.snapshot).names, Brief name)
    (named : settings.singular = true → "" ∉ (inScope settings source.snapshot).names) : Feasible settings source := by
  refine ⟨origin, fun table member => ?_, fun _ => ?_⟩
  · have known := Snapshot.mem_names.mpr ⟨table, member, rfl⟩
    exact ⟨brief table.name known, render_ends (plain table member) known named⟩
  · have entries : ∀ name ∈ (inScope settings source.snapshot).names, ∃ entry,
        manifestEntry settings.singular name = .ok entry := by
      intro name member
      have filled : settings.singular = true → name ≠ "" := fun singular same => named singular (same ▸ member)
      obtain ⟨className, made⟩ := className_ends filled
      exact ⟨_, by rw [manifestEntry, made]; rfl⟩
    obtain ⟨all, made⟩ := mapM_ends_iff.mpr entries
    exact ⟨_, by rw [Model.manifest, made]; rfl⟩

private theorem laid_of_length {directories : List Path} (length : Nat)
    (same : ∀ directory ∈ directories, directory.length = length)
    (short : ∀ directory ∈ directories, ∀ path ∈ directory.ancestors ++ [directory], Disk.hasLongName path = false) :
    Laid directories := by
  refine ⟨short, fun directory member other inside name between => ?_⟩
  have long : (other.join name).length = directory.length + 1 := by
    rw [same directory member, ← same other inside]
    simp [Path.join]
  rcases List.mem_append.mp between with above | here
  · have shorter := Path.length_lt_of_mem_ancestors above
    omega
  · have equal := congrArg List.length (List.mem_singleton.mp here)
    omega

theorem rooted_of_entries {disk : Disk} (led : disk.entries.all fun entry => (disk.checkWay entry.1).toBool) :
    disk.Rooted := by
  intro path found
  cases top : path.isTop with
  | true =>
    rcases Path.isTop_iff.mp top with rfl | rfl
    · rfl
    · exact Disk.checkWay_ok.mpr ⟨by simp [Path.ancestors, Disk.hasLongName, Path.lastName, Disk.get?, Path.isTop], rfl⟩
  | false =>
    obtain ⟨entry, here⟩ := Option.isSome_iff_exists.mp found
    have way := List.all_eq_true.mp led _ (Disk.mem_entries_of_get? here top)
    cases led : disk.checkWay path with
    | ok => rfl
    | error fault => simp [led, Except.toBool] at way

/-- What has a path of two names is a file, and no temporary one. -/
def flatAtTwo (disk : Disk) : Bool :=
  disk.entries.all fun entry => entry.1.length != 2 || entry.2 != .directory && entry.1.lastName.toList.getLast? !=
    some 'p'

/-- In directories directly below the top, all that matters is what has a path of two names. -/
theorem orderly_of_entries {directories : List Path} {disk : Disk}
    (clear : ∀ directory ∈ directories, ∀ path ∈ directory.ancestors ++ [directory], disk.file? path = none)
    (single : ∀ directory ∈ directories, directory.length = 1 ∧ directory.isTop = false)
    (flat : flatAtTwo disk = true) : Orderly directories disk := by
  have inside : ∀ directory ∈ directories, ∀ name entry, disk.get? (directory.join name) = some entry →
      entry ≠ .directory ∧ name.toList.getLast? ≠ some 'p' := by
    intro directory member name entry found
    obtain ⟨one, below⟩ := single directory member
    have checked := List.all_eq_true.mp flat _ (Disk.mem_entries_of_get? found (Path.isTop_join name below))
    have two : (directory.join name).length = 2 := by simp [Path.join, one]
    simpa [two] using checked
  refine ⟨clear, fun directory member name found => (inside directory member name _ found).1 rfl,
    fun directory member name => ?_⟩
  by_contra present
  obtain ⟨entry, found⟩ := Option.ne_none_iff_exists'.mp present
  refine (inside directory member _ entry found).2 ?_
  rw [temporaryName, String.toList_append, List.getLast?_append]
  rfl

private theorem calm_empty (below : ∀ directory ∈ directoriesOf settings, directory.isTop = false)
    (response : Document.Response) :
    Calm settings { response := response } := by
  have nothing : ∀ path, path.isTop = false → ({} : Disk).get? path = none := by
    intro path below
    simp [Disk.get?, below]
  have inside : ∀ directory ∈ directoriesOf settings, ∀ name, ({} : Disk).get? (directory.join name) = none :=
    fun directory member name => nothing _ (Path.isTop_join name (below directory member))
  refine ⟨rfl, Disk.rooted_empty,
    ⟨fun _ _ path _ => Disk.file?_empty path, fun directory member name => ?_, fun directory member name => ?_⟩,
    [], Cache.digestsOn_of_missing (Disk.file?_empty _)⟩
  · simp [inside directory member]
  · exact inside directory member _

theorem Calm.answered (calm : Calm settings world) (response : Document.Response) :
    Calm settings { world with response := response } := ⟨calm.untroubled, calm.rooted, calm.orderly, calm.digests⟩

namespace Blog

def options (embedRelations : Bool) : Settings where
  url := some "https://api.example"
  secretKey := some "0123456789abcdefghij"
  manifest := true
  embedRelations := embedRelations

def users : Table := ⟨"users", [{ name := "id", sourceType := "int4" }], List.pairwise_singleton _ _⟩

def posts : Table := ⟨"posts", [{ name := "user_id", sourceType := "int4" }], by decide⟩

def full : Document.Contents where
  snapshot := ⟨[posts, users], by decide⟩
  enums := []
  foreignKeys := []

def bare : Document.Contents where
  snapshot := ⟨[posts], by decide⟩
  enums := []
  foreignKeys := []

def fullAnswer : Document.Response := .answer 200
  ("\x7b\"definitions\":\x7b\"users\":\x7b\"properties\":\x7b\"id\":\x7b\"type\":\"integer\"\x7d\x7d\x7d,\"posts\":"
    ++ "\x7b\"properties\":\x7b\"user_id\":\x7b\"type\":\"integer\"\x7d\x7d\x7d\x7d\x7d")

def bareAnswer : Document.Response := .answer 200
  ("\x7b\"definitions\":\x7b\"posts\":"
    ++ "\x7b\"properties\":\x7b\"user_id\":\x7b\"type\":\"integer\"\x7d\x7d\x7d\x7d\x7d")

theorem contents_full (settings : Settings) : (serverOf settings).contents fullAnswer = .ok full := by cbv

theorem contents_bare (settings : Settings) : (serverOf settings).contents bareAnswer = .ok bare := by cbv

theorem runIn_source (embed : Bool) {answer : Document.Response} {contents : Document.Contents}
    (holds : ∀ settings, (serverOf settings).contents answer = .ok contents) (world : World)
    (given : world.response = answer) :
    runIn (source (options embed) (cacheOf (options embed))) world = (.ok (fetched contents), { world with
      requests := world.requests ++ [(serverOf (options embed)).request]
      log := world.log ++ [Log.progress s!"Fetching schema '{(options embed).schema}' from the Data API"]
        ++ (serverOf (options embed)).notes world.response }) :=
  runIn_source_of_contents rfl (given ▸ holds (options embed)) _

theorem source_of_answer (embed : Bool) {answer : Document.Response} {contents : Document.Contents}
    (holds : ∀ settings, (serverOf settings).contents answer = .ok contents) (world : World)
    (given : world.response = answer) :
    (runIn (source (options embed) (cacheOf (options embed))) world).1 = .ok (fetched contents) := by
  rw [runIn_source embed holds world given]

theorem usable (embed : Bool) : (options embed).problems (options embed).requiresCredentials = [] := by
  cases embed <;> decide +kernel

theorem runIn_sync (embed : Bool) {answer : Document.Response} {contents : Document.Contents}
    (holds : ∀ settings, (serverOf settings).contents answer = .ok contents) (world : World)
    (given : world.response = answer)
    (force : Bool) : runIn (sync (options embed) force) world = runIn (do
      let diff ← diffFor (cacheOf (options embed)) force .fetched (inScope (options embed) contents.snapshot)
      complete (options embed) (cacheOf (options embed)) ⟨fetched contents, diff⟩) { world with
        requests := world.requests ++ [(serverOf (options embed)).request]
        log := world.log ++ Log.heading "SCHEMA SYNC" ++
          [Log.progress s!"Fetching schema '{(options embed).schema}' from the Data API"]
          ++ (serverOf (options embed)).notes world.response
          ++ (convention.notes contents.snapshot ++
              scopeLines contents.snapshot (inScope (options embed) contents.snapshot)) } :=
  runIn_sync_of_contents rfl (usable embed) (given ▸ holds (options embed)) force

theorem directories (embed : Bool) : directoriesOf (options embed) = [["models"], [".supadantic"]] := by
  cases embed <;> decide +kernel

theorem laid (embed : Bool) : Laid (directoriesOf (options embed)) := by
  rw [directories]
  exact laid_of_length 1 (by decide) (by decide)

theorem feasible_full (embed : Bool) : Feasible (options embed) (fetched full) := by
  refine feasible_of_plain (by decide) ?_ ?_ (by simp [options])
  · cases embed <;> decide +kernel
  · cases embed <;> decide +kernel

theorem feasible_bare (embed : Bool) : Feasible (options embed) (fetched bare) := by
  refine feasible_of_plain (by decide) ?_ ?_ (by simp [options])
  · cases embed <;> decide +kernel
  · cases embed <;> decide +kernel

theorem calm (embed : Bool) (response : Document.Response) : Calm (options embed) { response := response } := by
  refine calm_empty ?_ response
  rw [directories]
  decide

end Blog

end TableModels.Run
