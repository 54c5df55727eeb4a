import TableModels.Proofs.Digests
import TableModels.Proofs.Payloads

/-! Writing, removing and recording. A run that got so far says what every file holds afterwards, which files
it has deleted, and which digests are stored. -/

namespace TableModels.Run

open Act World Schema

variable {settings : Settings} {world after : World}

/-- Where each hit replaces the one before. -/
def lastHit {ρ γ : Type} (hit : ρ → Prop) [DecidablePred hit] (content : ρ → γ) (results : List ρ) (old : Option γ) :
    Option γ :=
  results.foldl (fun found result => if hit result then some (content result) else found) old

theorem lastHit_of_missed {ρ γ : Type} {hit : ρ → Prop} [DecidablePred hit] {content : ρ → γ} {results : List ρ}
    (missed : ∀ result ∈ results, ¬ hit result) (old : Option γ) : lastHit hit content results old = old := by
  unfold lastHit
  induction results generalizing old with
  | nil => rfl
  | cons first rest ih =>
    rw [List.foldl_cons, if_neg (missed first List.mem_cons_self)]
    exact ih (fun result member => missed result (List.mem_cons_of_mem _ member)) old

/-- What stands at a path when all the files have been written. -/
def contentAfter (files : List Payload) (path : Path) (old : Option FileContent) : Option FileContent :=
  files.foldl (fun content file => if path = file.path then some (.text file.text) else content) old

theorem contentAfter_of_not_mem {files : List Payload} {path : Path} (absent : path ∉ files.map Payload.path)
    (old : Option FileContent) : contentAfter files path old = old := by
  have missed : ∀ file ∈ files, ¬ path = file.path := by
    rintro file member rfl
    exact absent (List.mem_map_of_mem member)
  exact lastHit_of_missed missed old

/-- What is written to a path is there if all that is written there is the same. -/
theorem contentAfter_of_same {files : List Payload} {path : Path} {text : String}
    (written : path ∈ files.map Payload.path)
    (same : ∀ file ∈ files, file.path = path → file.text = text) (old : Option FileContent) :
    contentAfter files path old = some (.text text) := by
  induction files generalizing old with
  | nil => cases written
  | cons first rest ih =>
    have step : contentAfter (first :: rest) path old =
        contentAfter rest path (if path = first.path then some (.text first.text) else old) := rfl
    rw [step]
    by_cases later : path ∈ rest.map Payload.path
    · exact ih later (fun file inside => same file (List.mem_cons_of_mem _ inside)) _
    · have here : path = first.path := (List.mem_cons.mp written).resolve_right later
      rw [contentAfter_of_not_mem later, if_pos here, same first List.mem_cons_self here.symm]

theorem contentAfter_congr {files : List Payload} {path : Path} (member : path ∈ files.map Payload.path)
    (first second : Option FileContent) : contentAfter files path first = contentAfter files path second := by
  unfold contentAfter
  induction files generalizing first second with
  | nil => cases member
  | cons file rest ih =>
    rw [List.foldl_cons, List.foldl_cons]
    by_cases here : path = file.path
    · rw [if_pos here, if_pos here]
    · rw [if_neg here, if_neg here]
      exact ih ((List.mem_cons.mp member).resolve_left here) first second

theorem contentAfter_of_mem {files : List Payload} (distinct : (files.map Payload.path).Nodup) {file : Payload}
    (member : file ∈ files) (old : Option FileContent) : contentAfter files file.path old = some (.text file.text) := by
  refine contentAfter_of_same (List.mem_map_of_mem member) (fun other inside same => ?_) old
  rw [List.inj_on_of_nodup_map distinct inside member same]

/-- The manifest is written last. -/
theorem contentAfter_manifest {enums : Typing.Enums} {scope : Snapshot} {tables : List Table} {files : List Payload}
    (rendered : payloads settings enums scope tables = .ok files) (wanted : settings.manifest = true)
    (old : Option FileContent) :
    ∃ text, Model.manifest settings.singular scope.names = .ok text ∧
      contentAfter files (manifestPath settings) old = some (.text text) := by
  obtain ⟨models, last, rfl, _, ⟨unwanted, _⟩ | ⟨_, file, made, rfl⟩⟩ := payloads_ok rendered
  · simp [wanted] at unwanted
  · obtain ⟨path, text⟩ := manifestPayload_ok made
    exact ⟨file.text, text, by simp [contentAfter, List.foldl_append, path]⟩

theorem isSome_contentAfter {files : List Payload} {path : Path} {old : Option FileContent} :
    (contentAfter files path old).isSome ↔ path ∈ files.map Payload.path ∨ old.isSome := by
  unfold contentAfter
  induction files generalizing old with
  | nil => simp
  | cons file rest ih =>
    rw [List.foldl_cons, ih, List.map_cons, List.mem_cons]
    by_cases here : path = file.path <;> simp [here]

theorem writeAll_ok {files : List Payload} (ends : runIn (writeAll files) world = (.ok (), after)) :
    (∀ path, after.disk.file? path = contentAfter files path (world.disk.file? path)) ∧
      ∀ path, after.disk.isClosed path = world.disk.isClosed path := by
  induction files generalizing world with
  | nil =>
    obtain ⟨_, rfl⟩ := Prod.mk.inj ends
    exact ⟨fun _ => rfl, fun _ => rfl⟩
  | cons file rest ih =>
    obtain ⟨⟨⟩, written, wrote, ends⟩ := runIn_bind_ok ends
    have first := saveFile_ok wrote
    obtain ⟨contents, closed⟩ := ih ends
    refine ⟨fun path => ?_, fun path => (closed path).trans (first.isClosed path)⟩
    rw [contents, first.file? path]
    rfl

theorem advances_writeAll (files : List Payload) : Advances (writeAll files) :=
  (within_writeAll fun _ _ => trivial : Within Deed.any _).advances

/-- Of some files, those that were there have been deleted. -/
structure Deleted (paths deleted : List Path) (before after : Disk) : Prop where
  said : ∀ path, path ∈ deleted ↔ path ∈ paths ∧ (before.file? path).isSome
  gone : ∀ path, after.file? path = if path ∈ paths then none else before.file? path
  closed : ∀ path, path ∉ paths → after.isClosed path = before.isClosed path

theorem Deleted.append {first second others more : List Path} {before middle after : Disk}
    (early : Deleted first others before middle) (late : Deleted second more middle after) :
    Deleted (first ++ second) (others ++ more) before after := by
  constructor
  · intro path
    rw [List.mem_append, early.said, late.said, early.gone, List.mem_append]
    by_cases inside : path ∈ first <;> simp [inside]
  · intro path
    rw [late.gone, early.gone]
    by_cases inside : path ∈ first <;> by_cases later : path ∈ second <;> simp [inside, later]
  · intro path apart
    rw [List.mem_append, not_or] at apart
    exact (late.closed path apart.2).trans (early.closed path apart.1)

private theorem deleteAll_ok {paths deleted : List Path} (rooted : world.disk.Rooted)
    (ends : runIn (deleteAll paths) world = (.ok deleted, after)) : Deleted paths deleted world.disk after.disk := by
  induction paths generalizing world deleted with
  | nil =>
    obtain ⟨result, rfl⟩ := Prod.mk.inj ends
    cases result
    exact ⟨by simp, by simp, fun _ _ => rfl⟩
  | cons path rest ih =>
    obtain ⟨gone, removed, ran, ends⟩ := runIn_bind_ok ends
    obtain ⟨others, last, later, ends⟩ := runIn_bind_ok ends
    obtain ⟨result, rfl⟩ := Prod.mk.inj ends
    have onward := (Within.delete trivial : Within Deed.any (deleteFile path)).advances.onward ran
    obtain ⟨said, spec⟩ := deleteFile_ok rooted ran
    have first : Deleted [path] (if gone then [path] else []) world.disk removed.disk := by
      refine ⟨fun other => ?_, fun other => by simpa using spec.file? other,
        fun other apart => spec.isClosed (by simpa using apart)⟩
      cases gone <;> by_cases same : other = path <;> simp [same, ← said]
    have both := first.append (ih (onward.rooted rooted) later)
    cases result
    cases gone <;> exact both

private theorem advances_deleteAll (paths : List Path) : Advances (deleteAll paths) :=
  (within_deleteAll fun _ _ => trivial : Within Deed.any _).advances

def artifactsOf (settings : Settings) (tables : List String) : List Path := tables.flatMap (artifactPaths settings)

theorem modelPath_mem_artifactsOf {tables : List String} {name : String} :
    modelPath settings name ∈ artifactsOf settings tables ↔ ∃ table ∈ tables, Naming.moduleName table =
      Naming.moduleName name := by
  simp only [artifactsOf, List.mem_flatMap, modelPath_mem_artifactPaths, eq_comm]

theorem artifactsOf_not_cached (cache : Cache) {tables : List String} {path : Path}
    (member : path ∈ artifactsOf settings tables) :
    path ∉ cache.paths := by
  obtain ⟨table, _, artifact⟩ := List.mem_flatMap.mp member
  exact artifactPaths_not_cached cache artifact

theorem manifestPath_not_mem_artifactsOf (tables : List String) :
    manifestPath settings ∉ artifactsOf settings tables := by
  intro member
  obtain ⟨table, _, artifact⟩ := List.mem_flatMap.mp member
  exact manifestPath_not_artifact artifact

theorem removeModels_ok {tables : List String} {deleted : List Path} (rooted : world.disk.Rooted)
    (ends : runIn (removeModels settings tables) world = (.ok deleted, after)) :
    Deleted (artifactsOf settings tables) deleted world.disk after.disk := by
  induction tables generalizing world deleted with
  | nil =>
    obtain ⟨result, rfl⟩ := Prod.mk.inj ends
    cases result
    exact ⟨by simp [artifactsOf], by simp [artifactsOf], fun _ _ => rfl⟩
  | cons table rest ih =>
    obtain ⟨gone, removed, ran, ends⟩ := runIn_bind_ok ends
    obtain ⟨⟨⟩, noted, note, ends⟩ := runIn_bind_ok ends
    obtain ⟨others, last, later, ends⟩ := runIn_bind_ok ends
    obtain ⟨result, rfl⟩ := Prod.mk.inj ends
    have onward := (advances_deleteAll (artifactPaths settings table)).onward ran
    have same := ((Observes.note _).looked note).disk
    have rest := ih (same ▸ onward.rooted rooted) later
    rw [same] at rest
    cases result
    exact (deleteAll_ok rooted ran).append rest

theorem advances_removeModels (settings : Settings) (tables : List String) : Advances (removeModels settings tables) :=
  (within_removeModels fun _ _ _ _ => trivial : Within Deed.any _).advances

/-- The digests without those of some tables, at every name. -/
def without (known : Cache.Digests) (tables : List String) (name : String) : Option String :=
  if name ∈ tables then none else Keyed.get? known name

/-- What taking digests out of their file has done. A file that may not be read stays as it is. -/
structure Emptied (cache : Cache) (known : Cache.Digests) (tables : List String) (before after : Disk) : Prop where
  stored : ∃ kept, cache.digestsIn after = .ok kept ∧ ∀ name, Keyed.get? kept name =
    if before.isClosed cache.digestsPath then Keyed.get? known name else without known tables name
  present : (after.file? cache.digestsPath).isSome
  others : ∀ path, path ≠ cache.digestsPath → after.file? path = before.file? path
  closed : ∀ path, after.isClosed path = before.isClosed path

private theorem removeEntries_of_closed {cache : Cache} {tables : List String} (rooted : world.disk.Rooted)
    (closed : world.disk.isClosed cache.digestsPath = true)
    (ends : runIn (removeEntries cache tables) world = (.ok (), after)) : after.disk = world.disk := by
  induction tables generalizing world with
  | nil =>
    obtain ⟨_, rfl⟩ := Prod.mk.inj ends
    rfl
  | cons table rest ih =>
    obtain ⟨⟨⟩, removed, ran, ends⟩ := runIn_bind_ok ends
    have same := Cache.removeEntry_of_closed rooted closed ran
    rw [ih (same ▸ rooted) (same ▸ closed) ends, same]

private theorem removeEntries_of_open {cache : Cache} {tables : List String} (rooted : world.disk.Rooted)
    (opened : world.disk.isClosed cache.digestsPath = false) (present : (world.disk.file? cache.digestsPath).isSome)
    {known : Cache.Digests} (found : cache.digestsIn world.disk = .ok known)
    (ends : runIn (removeEntries cache tables) world = (.ok (), after)) :
    Emptied cache known tables world.disk after.disk := by
  induction tables generalizing world known with
  | nil =>
    obtain ⟨_, rfl⟩ := Prod.mk.inj ends
    exact ⟨⟨known, found, fun name => by simp [without]⟩, present, fun _ _ => rfl, fun _ => rfl⟩
  | cons table rest ih =>
    obtain ⟨⟨⟩, removed, ran, ends⟩ := runIn_bind_ok ends
    have onward := (Cache.advances_removeEntry cache table).onward ran
    obtain ⟨same, again, stores⟩ := Cache.removeEntry_ok rooted opened present ran
    obtain rfl : known = same := Except.ok.inj (found.symm.trans again)
    obtain ⟨kept, stored, erased⟩ := stores.stored
    have still : removed.disk.isClosed cache.digestsPath = false := (stores.closed _).trans opened
    have later := ih (onward.rooted rooted) still stores.present stored ends
    obtain ⟨last, lastStored, lacking⟩ := later.stored
    refine ⟨⟨last, lastStored, fun name => ?_⟩, later.present,
      fun path apart => (later.others path apart).trans (stores.others path apart),
      fun path => (later.closed path).trans (stores.closed path)⟩
    rw [lacking, still, opened]
    simp only [Bool.false_eq_true, if_false, without, erased, Keyed.get?_erase]
    by_cases here : name = table <;> by_cases later : name ∈ rest <;> simp [here, later]

private theorem removeEntries_ok {cache : Cache} {tables : List String} (rooted : world.disk.Rooted)
    (present : (world.disk.file? cache.digestsPath).isSome) {known : Cache.Digests}
    (found : cache.digestsIn world.disk = .ok known)
    (ends : runIn (removeEntries cache tables) world = (.ok (), after)) :
    Emptied cache known tables world.disk after.disk := by
  cases closed : world.disk.isClosed cache.digestsPath with
  | true =>
    rw [removeEntries_of_closed rooted closed ends]
    exact ⟨⟨known, found, fun name => by simp [closed]⟩, present, fun _ _ => rfl, fun _ => rfl⟩
  | false => exact removeEntries_of_open rooted closed present found ends

/-- What is stored after a run that generated some tables and removed others, at every name. -/
def recorded (known : Cache.Digests) (diff : Cache.Diff) : String → Option String :=
  without (Cache.withTables known diff.generate) diff.remove

private theorem writeData_ok {path : Path} {data : Value}
    (ends : runIn (Cache.writeData path data) world = (.ok (), after)) :
    (∀ other, other ≠ path → after.disk.file? other = world.disk.file? other) ∧
      ∀ other, after.disk.isClosed other = world.disk.isClosed other := by
  have wrote := writeText_ok ends
  exact ⟨fun other apart => by rw [wrote.file? other, if_neg apart], wrote.isClosed⟩

private theorem recorded_of_closed {diff : Cache.Diff} (apart : ∀ table ∈ diff.generate, table.name ∉ diff.remove)
    (name : String) : recorded [] diff name = Keyed.get? (Cache.withTables [] diff.generate) name := by
  rw [recorded, without]
  split
  · rename_i removed
    rw [Cache.get?_withTables_of_not_mem]
    · rfl
    · intro member
      obtain ⟨table, generated, rfl⟩ := List.mem_map.mp member
      exact apart table generated removed
  · rfl

structure Recorded (cache : Cache) (diff : Cache.Diff) (before after : Disk) : Prop where
  digests : ∃ known kept, cache.digestsOn before = .ok known ∧ cache.digestsIn after = .ok kept ∧
    ∀ name, Keyed.get? kept name = recorded known diff name
  present : (after.file? cache.digestsPath).isSome
  others : ∀ path, path ∉ cache.paths → after.file? path = before.file? path
  closed : ∀ path, after.isClosed path = before.isClosed path

private theorem record_ok {cache : Cache} {source : Source} {diff : Cache.Diff} (rooted : world.disk.Rooted)
    (apart : ∀ table ∈ diff.generate, table.name ∉ diff.remove)
    (ends : runIn (record cache source diff) world = (.ok (), after)) : Recorded cache diff world.disk after.disk := by
  obtain ⟨⟨⟩, committed, commit, ends⟩ := runIn_bind_ok ends
  obtain ⟨⟨⟩, removed, remove, ends⟩ := runIn_bind_ok ends
  have onward := (Cache.advances_commit cache diff.generate).onward commit
  obtain ⟨known, found, stores⟩ := Cache.commit_ok rooted commit
  obtain ⟨brought, stored, same⟩ := stores.stored
  have emptied := removeEntries_ok (onward.rooted rooted) stores.present stored remove
  obtain ⟨kept, keptStored, lacking⟩ := emptied.stored
  have brings : ∀ name, Keyed.get? kept name = recorded known diff name := by
    intro name
    rw [lacking, stores.closed]
    cases closed : world.disk.isClosed cache.digestsPath with
    | true =>
      obtain rfl := Except.ok.inj ((Cache.digestsOn_of_closed closed).symm.trans found)
      rw [if_pos rfl, same, recorded_of_closed apart]
    | false => rw [if_neg Bool.false_ne_true, recorded, without, without, same]
  -- the schema and the enumerated types go to files of their own
  have late : (∀ path, path ≠ cache.snapshotPath → path ≠ cache.enumsPath →
        after.disk.file? path = removed.disk.file? path) ∧
      ∀ path, after.disk.isClosed path = removed.disk.isClosed path := by
    by_cases fetched : source.origin == .fetched
    · rw [if_pos fetched] at ends
      obtain ⟨⟨⟩, persisted, persist, ends⟩ := runIn_bind_ok ends
      obtain ⟨first, firstClosed⟩ := writeData_ok persist
      obtain ⟨second, secondClosed⟩ := writeData_ok ends
      exact ⟨fun path snapshot enums => (second path enums).trans (first path snapshot),
        fun path => (secondClosed path).trans (firstClosed path)⟩
    · rw [if_neg fetched] at ends
      obtain ⟨_, rfl⟩ := Prod.mk.inj ends
      exact ⟨fun _ _ _ => rfl, fun _ => rfl⟩
  have digests := late.1 cache.digestsPath (by simp [Cache.digestsPath, Cache.snapshotPath])
    (by simp [Cache.digestsPath, Cache.enumsPath])
  refine ⟨⟨known, kept, found, (Cache.digestsIn_congr digests).trans keptStored, brings⟩, digests ▸ emptied.present,
    fun path apart => ?_, fun path => ((late.2 path).trans (emptied.closed path)).trans (stores.closed path)⟩
  simp only [Cache.paths, List.mem_cons, List.not_mem_nil, or_false, not_or] at apart
  exact (late.1 path apart.2.1 apart.2.2).trans ((emptied.others path apart.1).trans (stores.others path apart.1))

/-- What a run has done once it is through with writing, removing and recording. -/
structure Executed (settings : Settings) (diff : Cache.Diff) (files : List Payload) (before after : Disk)
    (deleted : List Path) : Prop where
  deleted : ∀ path, path ∈ deleted ↔
    path ∈ artifactsOf settings diff.remove ∧ (contentAfter files path (before.file? path)).isSome
  files : ∀ path, path ∉ (cacheOf settings).paths → after.file? path =
    if path ∈ artifactsOf settings diff.remove then none else contentAfter files path (before.file? path)
  digests : ∃ known kept, (cacheOf settings).digestsOn before = .ok known ∧
    (cacheOf settings).digestsIn after = .ok kept ∧
    ∀ name, Keyed.get? kept name = recorded known diff name
  present : (after.file? (cacheOf settings).digestsPath).isSome
  closed : ∀ path ∈ (cacheOf settings).paths, after.isClosed path = before.isClosed path

theorem execute_ok {source : Source} {diff : Cache.Diff} {files : List Payload} {outcome : Outcome}
    (rooted : world.disk.Rooted) (apart : ∀ file ∈ files, file.path ∉ (cacheOf settings).paths)
    (unremoved : ∀ table ∈ diff.generate, table.name ∉ diff.remove)
    (ends : runIn (execute settings (cacheOf settings) source diff files) world = (.ok outcome, after)) :
    outcome = {
      generated := diff.generate.map Table.name
      removed := diff.remove
      origin := source.origin
      written := files.map Payload.path
      deleted := outcome.deleted } ∧
    Executed settings diff files world.disk after.disk outcome.deleted := by
  obtain ⟨⟨⟩, written, write, ends⟩ := runIn_bind_ok ends
  obtain ⟨deleted, removed, remove, ends⟩ := runIn_bind_ok ends
  obtain ⟨⟨⟩, stored, record, ends⟩ := runIn_bind_ok ends
  obtain ⟨⟨⟩, noted, note, ends⟩ := runIn_bind_ok ends
  obtain ⟨result, rfl⟩ := Prod.mk.inj ends
  obtain ⟨_, rfl⟩ := Prod.mk.inj note
  cases result
  have writtenOnward := (advances_writeAll files).onward write
  have writtenRooted := writtenOnward.rooted rooted
  have removedOnward := (advances_removeModels settings diff.remove).onward remove
  obtain ⟨wrote, wroteClosed⟩ := writeAll_ok write
  have gone := removeModels_ok writtenRooted remove
  have recorded := record_ok (removedOnward.rooted writtenRooted) unremoved record
  -- neither the models nor the files that go with them are in the cache
  have notArtifact : ∀ path ∈ (cacheOf settings).paths, path ∉ artifactsOf settings diff.remove :=
    fun path inCache member => artifactsOf_not_cached _ member inCache
  have closed : ∀ path ∈ (cacheOf settings).paths, removed.disk.isClosed path = world.disk.isClosed path :=
    fun path inCache => (gone.closed path (notArtifact path inCache)).trans (wroteClosed path)
  have inCache : (cacheOf settings).digestsPath ∈ (cacheOf settings).paths := by simp [Cache.paths]
  have same : removed.disk.file? (cacheOf settings).digestsPath = world.disk.file? (cacheOf settings).digestsPath := by
    have notWritten : (cacheOf settings).digestsPath ∉ files.map Payload.path := by
      intro member
      obtain ⟨file, inside, same⟩ := List.mem_map.mp member
      exact apart file inside (same ▸ inCache)
    rw [gone.gone, if_neg (notArtifact _ inCache), wrote, contentAfter_of_not_mem notWritten]
  refine ⟨rfl, ⟨fun path => ?_, fun path outside => ?_, ?_, recorded.present,
    fun path inCache => (recorded.closed path).trans (closed path inCache)⟩⟩
  · rw [gone.said, wrote]
  · exact (recorded.others path outside).trans (by rw [gone.gone, wrote])
  · rw [← Cache.digestsOn_congr same (closed _ inCache)]
    exact recorded.digests

end TableModels.Run
