import TableModels.Proofs.EnumTypes
import TableModels.Proofs.Persistence
import TableModels.Proofs.Retry
import TableModels.Proofs.Rewriting

/-! Runs without the server. A forced run that has to take the stored schema writes the models that the run has written
which fetched and stored it. Only references that the schema declares are not stored, so a model is the same as far as
its table embeds the same relations by the naming convention alone. -/

namespace TableModels.Run

open Act World Schema Model

variable {settings : Settings} {world after : World} {contents : Document.Contents}

/-- The same settings, with another choice of when the schema is fetched. -/
def fetching (settings : Settings) (mode : Settings.FetchMode) : Settings := { settings with fetch := mode }

private theorem usable_fetching (usable : settings.problems settings.requiresCredentials = [])
    (asks : settings.fetch ≠ .never)
    (mode : Settings.FetchMode) :
    (fetching settings mode).problems (fetching settings mode).requiresCredentials = [] := by
  have required : settings.requiresCredentials = true := by simpa [Settings.requiresCredentials] using asks
  rw [required] at usable
  cases (fetching settings mode).requiresCredentials with
  | true => exact usable
  | false => exact (List.append_eq_nil_iff.mp usable).2

private theorem asks_of_fetched {source : Source}
    (found : (runIn (Run.source settings (cacheOf settings)) world).1 = .ok source)
    (origin : source.origin = .fetched) : settings.fetch ≠ .never := by
  intro never
  obtain ⟨found, ends⟩ := runIn_of_result found
  simp only [Run.source, never] at ends
  obtain ⟨stored, _, _, ends⟩ := runIn_bind_ok ends
  split at ends
  · cases (Prod.mk.inj ends).1
  · rw [fromCache_ok ends] at origin
    cases origin

private theorem fromCache_yields {cache : Cache} {enums : Keyed (List String)} (snapshot : Snapshot)
    (origin : Origin) (line : Log.Line)
    (stored : (runIn cache.loadEnums world).1 = .ok enums) :
    Yields (fromCache cache snapshot origin line) world ⟨snapshot, enums, origin⟩ :=
  (Yields.note _ _).bind fun _ untouched =>
    ((observes_loadEnums cache).yields_again untouched stored).bind fun _ _ => .pure _ _

private theorem source_offline {cache : Cache} {mode : Settings.FetchMode} {snapshot : Snapshot}
    {enums : Keyed (List String)}
    (schema : (runIn cache.loadSnapshot world).1 = .ok (some snapshot))
    (stored : (runIn cache.loadEnums world).1 = .ok enums)
    (cut : mode = .always → ∃ fault, (serverOf settings).contents world.response = .error (.fetch fault)) :
    ∃ origin, origin ≠ .fetched ∧
      Yields (Run.source (fetching settings mode) cache) world ⟨snapshot, enums, origin⟩ := by
  -- what is stored can still be loaded after looking
  have loaded : ∀ middle, Untouched world middle → Yields cache.loadSnapshot middle (some snapshot) :=
      fun middle untouched =>
    (observes_loadSnapshot cache).yields_again untouched schema
  have taken : ∀ origin line middle, Untouched world middle →
      Yields (fromCache cache snapshot origin line) middle ⟨snapshot, enums, origin⟩ :=
          fun origin line middle untouched =>
    fromCache_yields snapshot origin line ((observes_loadEnums cache).yields_again untouched stored).result
  cases mode with
  | always =>
    obtain ⟨fault, fails⟩ := cut rfl
    refine ⟨.fallback, by simp, ?_⟩
    refine (Yields.note _ _).bind fun noted first => (Yields.send _ _).bind fun sent second => (Yields.notes _ _).bind
      fun told third => ?_
    have fails : (serverOf (fetching settings .always)).contents noted.response = .error (.fetch fault) :=
      first.response ▸ fails
    rw [fails]
    refine (Yields.note _ _).bind fun warned fourth => ?_
    have untouched := ((first.trans second).trans third).trans fourth
    exact (loaded _ untouched).bind fun found fifth => taken _ _ _ (untouched.trans fifth)
  | never => exact ⟨.cached, by simp, (loaded world (.refl world)).bind fun found first => taken _ _ _ first⟩
  | ifNoCache => exact ⟨.cached, by simp, (loaded world (.refl world)).bind fun found first => taken _ _ _ first⟩

private theorem inScope_tables (settings : Settings) (snapshot : Snapshot) : (inScope settings snapshot).tables =
    (snapshot.tables.filter fun table => settings.includes table.name).map (convention.inferTable snapshot.names) := by
  have tables : (inScope settings snapshot).tables =
    (snapshot.tables.map (convention.inferTable snapshot.names)).filter fun table => settings.includes table.name := rfl
  rw [tables, List.filter_map]
  rfl

def rederived (snapshot : Snapshot) (table : Table) : Table := convention.inferTable snapshot.names table.declared

private theorem declared_alike (snapshot : Snapshot) (table : Table) :
    (rederived snapshot table).declared = (convention.inferTable snapshot.names table).declared := by
  rw [rederived, Convention.inferTable, Convention.inferTable, Table.declared_withForeignKeys,
    Table.declared_withForeignKeys]
  exact table.declared_withForeignKeys _

private theorem inScope_declared_tables (settings : Settings) (snapshot : Snapshot) :
    (inScope settings snapshot.declared).tables =
    (snapshot.tables.filter fun table => settings.includes table.name).map (rederived snapshot) := by
  have tables : snapshot.declared.tables = snapshot.tables.map Table.declared := rfl
  have names : snapshot.declared.names = snapshot.names := Snapshot.names_withForeignKeys _ _
  rw [inScope_tables, tables, names, List.filter_map, List.map_map]
  rfl

private theorem inScope_declared_names (settings : Settings) (snapshot : Snapshot) :
    (inScope settings snapshot.declared).names = (inScope settings snapshot).names := by
  rw [Snapshot.names, Snapshot.names, inScope_declared_tables, inScope_tables, List.map_map, List.map_map]
  rfl

/-- The model of a table can be made from the stored schema as it was made from the fetched one: what it embeds does not
depend on references that are declared. -/
def Restorable (settings : Settings) (snapshot : Snapshot) (table : Table) : Prop :=
  (styleOf settings).links (inScope settings snapshot).names (rederived snapshot table) =
    (styleOf settings).links (inScope settings snapshot).names (convention.inferTable snapshot.names table)

private theorem restorable_of_undeclared (settings : Settings) (snapshot : Snapshot) {table : Table}
    (undeclared : table.declared = table) :
    Restorable settings snapshot table := by
  rw [Restorable, rederived, undeclared]

private theorem fieldType_inOrder (declared : Keyed (List String)) :
    Typing.Enums.fieldType (.ofDeclared (Json.inOrder declared)) = Typing.Enums.fieldType (.ofDeclared declared) := by
  apply fieldType_congr
  intro name
  rw [Typing.Enums.mem_names_ofDeclared, Typing.Enums.mem_names_ofDeclared]
  simp [(Json.inOrder_perm declared).mem_iff]

/-- A table of which nothing is lost is rendered as before. -/
theorem Restorable.render {table : Table} (restorable : Restorable settings contents.snapshot table) :
    render (styleOf settings) (.ofDeclared (Json.inOrder contents.enums)) (inScope settings contents.snapshot).names
        (rederived contents.snapshot table) =
      render (styleOf settings) (.ofDeclared contents.enums) (inScope settings contents.snapshot).names
        (convention.inferTable contents.snapshot.names table) :=
  render_alike (fieldType_inOrder _) (declared_alike _ _) restorable

private theorem forall₂_join {ι α β : Type} {First : ι → α → Prop} {Second : ι → β → Prop} {Joined : α → β → Prop}
    {items : List ι}
    {results : List α} {others : List β} (left : List.Forall₂ First items results)
    (right : List.Forall₂ Second items others)
    (join : ∀ item ∈ items, ∀ result other, First item result → Second item other → Joined result other) :
    List.Forall₂ Joined results others := by
  induction left generalizing others with
  | nil =>
    cases right
    exact .nil
  | cons first _ ih =>
    cases right with
    | cons second later =>
      exact .cons (join _ List.mem_cons_self _ _ first second)
        (ih later fun item inside => join item (List.mem_cons_of_mem _ inside))

/-- Two files go to one place, and if it is this one then they hold the same. -/
def Alike (path : Path) (file other : Payload) : Prop :=
  other.path = file.path ∧ (file.path = path → other.text = file.text)

private theorem contentAfter_alike {path : Path} {files others : List Payload}
    (alike : List.Forall₂ (Alike path) files others)
    (old : Option FileContent) : contentAfter others path old = contentAfter files path old := by
  unfold contentAfter
  induction alike generalizing old with
  | nil => rfl
  | cons first _ ih =>
    obtain ⟨place, text⟩ := first
    rw [List.foldl_cons, List.foldl_cons, place, ih]
    split
    · rename_i here
      rw [text here.symm]
    · rfl

private theorem payloads_alike {kept : List Table} {first second : Table → Table} {enums more : Typing.Enums}
    {scope other : Snapshot}
    {files others : List Payload} {path : Path} (done : payloads settings enums scope (kept.map first) = .ok files)
    (again : payloads settings more other (kept.map second) = .ok others) (names : other.names = scope.names)
    (named : ∀ table, (second table).name = (first table).name)
    (same : ∀ table ∈ kept, modelPath settings (first table).name = path →
      render (styleOf settings) more other.names (second table) =
        render (styleOf settings) enums scope.names (first table)) :
    List.Forall₂ (Alike path) files others := by
  obtain ⟨models, last, rfl, each, manifest⟩ := payloads_ok done
  obtain ⟨moreModels, moreLast, rfl, every, moreManifest⟩ := payloads_ok again
  rw [List.forall₂_map_left_iff] at each every
  have joined : List.Forall₂ (Alike path) models moreModels := by
    refine forall₂_join each every fun table member file twin made remade => ?_
    obtain ⟨place, text⟩ := modelPayload_ok made
    obtain ⟨twinPlace, twinText⟩ := modelPayload_ok remade
    refine ⟨by rw [place, twinPlace, named], fun here => ?_⟩
    rw [same table member (place ▸ here), text] at twinText
    exact (Except.ok.inj twinText).symm
  have ending : List.Forall₂ (Alike path) last moreLast := by
    rcases manifest with ⟨unwanted, rfl⟩ | ⟨wanted, file, made, rfl⟩
    · rcases moreManifest with ⟨_, rfl⟩ | ⟨wanted, _⟩
      · exact .nil
      · simp [wanted] at unwanted
    · rcases moreManifest with ⟨unwanted, _⟩ | ⟨_, twin, remade, rfl⟩
      · simp [wanted] at unwanted
      · have equal : manifestPayload settings other = manifestPayload settings scope := by
          rw [manifestPayload, manifestPayload, names]
        rw [equal, made] at remade
        obtain rfl := Except.ok.inj remade
        exact .cons ⟨rfl, fun _ => rfl⟩ .nil
  exact List.rel_append joined ending

private theorem contentAfter_model {enums : Typing.Enums} {scope : Snapshot} {tables : List Table}
    {files : List Payload}
    (rendered : payloads settings enums scope tables = .ok files) {table : Table} (member : table ∈ tables)
    (alone : ∀ other ∈ tables, Naming.moduleName other.name = Naming.moduleName table.name → other = table)
    (old : Option FileContent) :
    ∃ text, render (styleOf settings) enums scope.names table = .ok text ∧
      contentAfter files (modelPath settings table.name) old = some (.text text) := by
  obtain ⟨file, written, place, text⟩ := payload_of_mem rendered member
  refine ⟨file.text, text, contentAfter_of_same (place ▸ List.mem_map_of_mem written) (fun other inside same => ?_) old⟩
  rcases table_of_payload rendered inside with ⟨twin, known, there, again⟩ | manifest
  · obtain rfl := alone twin known (modelPath_inj.mp (there.symm.trans same))
    exact Except.ok.inj (again.symm.trans text)
  · exact absurd (same.symm.trans manifest) (modelPath_ne_manifestPath _)

/-- The run may read what is stored of the schema. -/
def SchemaOpen (cache : Cache) (disk : Disk) : Prop :=
  disk.isClosed cache.snapshotPath = false ∧ disk.isClosed cache.enumsPath = false

/-- What a run has left that fetched the schema when there were no digests, and had something to do. -/
structure Founded (settings : Settings) (contents : Document.Contents) (files : List Payload) (before after : World) :
    Prop where
  usable : settings.problems settings.requiresCredentials = []
  asks : settings.fetch ≠ .never
  rooted : after.disk.Rooted
  some : (inScope settings contents.snapshot).tables ≠ []
  rendered : payloads settings (.ofDeclared contents.enums) (inScope settings contents.snapshot)
    (inScope settings contents.snapshot).tables = .ok files
  models : ∀ path, path ∉ (cacheOf settings).paths → after.disk.file? path =
    contentAfter files path (before.disk.file? path)
  present : (after.disk.file? (cacheOf settings).digestsPath).isSome
  loads : ∃ digests, (runIn (cacheOf settings).loadDigests after).1 = .ok digests ∧
    ∀ name ∈ Keyed.names digests, name ∈ (inScope settings contents.snapshot).names
  opened : SchemaOpen (cacheOf settings) after.disk
  schema : Cache.dataIn (cacheOf settings).room after.disk (cacheOf settings).snapshotPath =
    .ok (Option.some (Json.sorted (Snapshot.storedTables contents.snapshot.tables)))
  enums : Cache.dataIn (cacheOf settings).room after.disk (cacheOf settings).enumsPath =
    .ok (Option.some (Json.sorted (Cache.enumsData contents.enums)))

private theorem loads_of_completed {force : Bool} {plan : Plan} {outcome : Outcome} (rooted : world.disk.Rooted)
    (rootedAfter : after.disk.Rooted) (fetched : plan.source.origin ≠ .fallback)
    (planned : Planned settings force world plan)
    (completed : Completed settings plan world outcome after) :
    ∃ digests, (runIn (cacheOf settings).loadDigests after).1 = .ok digests ∧
      ∀ name ∈ Keyed.names digests, name ∈ (plan.scope settings).names := by
  cases closed : world.disk.isClosed (cacheOf settings).digestsPath with
  | true =>
    have same := isClosed_of_completed completed _ (digestsPath_mem_paths _)
    exact ⟨[], loads_of_closed rootedAfter (same.trans closed), by simp [Keyed.names]⟩
  | false =>
    obtain ⟨digests, loaded, _, each⟩ := settled_of_completed rooted rootedAfter closed fetched planned completed
    refine ⟨digests, loaded, fun name member => ?_⟩
    rw [Keyed.mem_names, each, Option.isSome_map] at member
    by_contra outside
    simp [Snapshot.get?_eq_none.mpr outside] at member

private theorem sync_founds {force : Bool} {outcome : Outcome} (rooted : world.disk.Rooted)
    (opened : SchemaOpen (cacheOf settings) world.disk) (fresh : (cacheOf settings).digestsOn world.disk = .ok [])
    (ends : runIn (sync settings force) world = (.ok outcome, after)) (origin : outcome.origin = .fetched)
    (changes : outcome.hasChanges = true) :
    ∃ contents files, (serverOf settings).contents world.response = .ok contents ∧
      outcome.written = files.map Payload.path ∧
      Founded settings contents files world after := by
  obtain ⟨contents, holds, snapshot, enums⟩ := sync_stores ends origin changes
  obtain ⟨usable, plan, planned, completed⟩ := sync_ok rooted ends
  have onward := (advances_sync settings force).onward ends
  have rootedAfter := onward.rooted rooted
  have fetch := completed.outcome.2.2.symm.trans origin
  obtain ⟨others, same, source⟩ := contents_of_fetched planned.found fetch
  obtain rfl : contents = others := Except.ok.inj (holds.symm.trans same)
  have fresher : plan.source.origin ≠ .fallback := by simp [fetch]
  have loads := loads_of_completed rooted rootedAfter fresher planned completed
  have same := isClosed_of_completed completed
  have still : SchemaOpen (cacheOf settings) after.disk :=
    ⟨(same _ (by simp [Cache.paths])).trans opened.1, (same _ (by simp [Cache.paths])).trans opened.2⟩
  obtain ⟨digests, loaded, diff⟩ := planned.compared fresher
  obtain rfl : [] = digests := Except.ok.inj (fresh.symm.trans (Cache.loadDigests_ok rooted (Prod.ext loaded rfl)))
  rw [adjusted_of_empty] at diff
  rw [completed.hasChanges] at changes
  have asks := asks_of_fetched planned.found fetch
  obtain ⟨given, work⟩ := plan
  obtain rfl : given = fetched contents := source
  obtain rfl : work = ⟨(inScope settings contents.snapshot).tables, []⟩ := diff
  cases completed with
  | unchanged nothing _ _ => simp [nothing] at changes
  | changed files some rendered said executed =>
    refine ⟨contents, files, holds, by rw [said], usable, asks, rootedAfter, ?_, rendered, fun path outside => ?_,
      executed.present, loads, still, snapshot, enums⟩
    · simpa [Cache.Diff.hasChanges] using some
    · simpa [artifactsOf] using executed.files path outside

private theorem diffFor_forced {cache : Cache} {origin : Origin} {scope : Snapshot} {digests : Cache.Digests}
    (loaded : (runIn cache.loadDigests world).1 = .ok digests)
    (known : ∀ name ∈ Keyed.names digests, name ∈ scope.names) :
    Yields (diffFor cache true origin scope) world ⟨scope.tables, []⟩ := by
  by_cases fallback : origin = .fallback
  · subst fallback
    exact .pure _ _
  · have nothing : (adjusted true origin scope (.between digests scope.tables)).remove = [] := by
      refine List.eq_nil_iff_forall_not_mem.mpr fun name member => ?_
      obtain ⟨stored, outside⟩ := (mem_remove fallback).mp member
      exact outside (known name stored)
    have all : adjusted true origin scope (.between digests scope.tables) = ⟨scope.tables, []⟩ := by
      simp only [adjusted, beq_iff_eq, fallback, if_false, if_true] at nothing ⊢
      rw [nothing]
    exact all ▸ diffFor_yields fallback loaded

private theorem complete_executes {plan : Plan} {files : List Payload} (some : plan.diff.hasChanges = true)
    (rendered : payloads settings (.ofDeclared plan.source.enums) (plan.scope settings) plan.diff.generate =
      .ok files) (world : World) :
    ∃ middle, Untouched world middle ∧ runIn (complete settings (cacheOf settings) plan) world =
      runIn (execute settings (cacheOf settings) plan.source plan.diff files) middle := by
  obtain ⟨noted, note, first⟩ :=
    Yields.note (Log.progress s!"Generating {plan.diff.generate.length} models, removing {plan.diff.remove.length}")
      world
  obtain ⟨ready, render, second⟩ := renderAll_yields rendered noted
  refine ⟨ready, first.trans second, ?_⟩
  simp only [complete, some, Bool.not_true, Bool.false_eq_true, if_false]
  rw [runIn_bind_of_ok note]
  exact runIn_bind_of_ok render

/-- What was rendered of the fetched schema can be rendered of the stored one. -/
theorem Founded.renders {files : List Payload} {before : World}
    (founded : Founded settings contents files before after) :
    ∃ others,
      payloads settings (.ofDeclared (Json.inOrder contents.enums)) (inScope settings contents.snapshot.declared)
      (inScope settings contents.snapshot.declared).tables = .ok others := by
  have names := inScope_declared_names settings contents.snapshot
  have rendered : ∀ table ∈ (inScope settings contents.snapshot).tables, ∃ text,
      render (styleOf settings) (.ofDeclared contents.enums) (inScope settings contents.snapshot).names table =
          .ok text := by
    intro table member
    obtain ⟨file, _, _, text⟩ := payload_of_mem founded.rendered member
    exact ⟨file.text, text⟩
  have named : (styleOf settings).singular = true → "" ∉ (inScope settings contents.snapshot).names := by
    intro singular member
    obtain ⟨table, inside, nameless⟩ := Snapshot.mem_names.mp member
    obtain ⟨text, made⟩ := rendered table inside
    exact named_of_render made singular nameless
  refine payloads_ends (fun table member => ?_) fun wanted => ?_
  · have known := Snapshot.mem_names.mpr ⟨table, member, rfl⟩
    rw [inScope_declared_tables] at member
    obtain ⟨origin, kept, rfl⟩ := List.mem_map.mp member
    have first : convention.inferTable contents.snapshot.names origin ∈ (inScope settings contents.snapshot).tables :=
      inScope_tables settings contents.snapshot ▸ List.mem_map_of_mem kept
    obtain ⟨text, made⟩ := rendered _ first
    rw [names] at known ⊢
    exact render_ends_alike (fieldType_inOrder _) (declared_alike contents.snapshot origin) made known named
  · obtain ⟨file, _, _, made⟩ := payload_of_manifest founded.rendered wanted
    exact ⟨file.text, names ▸ made⟩

/-- What a forced run without the server has to do. -/
theorem Founded.plans {files : List Payload} {before next : World}
    (founded : Founded settings contents files before after)
    (disk : next.disk = after.disk) {mode : Settings.FetchMode}
    (cut : mode = .always → ∃ fault, (serverOf settings).contents next.response = .error (.fetch fault)) :
    ∃ origin, origin ≠ .fetched ∧ Yields (plan (fetching settings mode) (cacheOf settings) true) next
      ⟨⟨contents.snapshot.declared, Json.inOrder contents.enums, origin⟩,
        ⟨(inScope settings contents.snapshot.declared).tables, []⟩⟩ := by
  have rooted : next.disk.Rooted := disk ▸ founded.rooted
  obtain ⟨digests, found, known⟩ := founded.loads
  have loaded := (Cache.loadDigests_congr disk).trans found
  rw [← inScope_declared_names] at known
  obtain ⟨openSchema, openEnums⟩ : SchemaOpen (cacheOf settings) next.disk := disk ▸ founded.opened
  obtain ⟨origin, stale, sourced⟩ :=
    source_offline (Cache.loadSnapshot_of_stored rooted openSchema (disk ▸ founded.schema))
    (Cache.loadEnums_of_stored rooted openEnums (disk ▸ founded.enums)) cut
  refine ⟨origin, stale, sourced.bind fun found first => (Yields.notes _ _).bind fun noted second => ?_⟩
  have still := ((Cache.observes_loadDigests _).yields_again (first.trans second) loaded).result
  exact (diffFor_forced still known).bind fun _ _ => .pure _ _

private theorem Founded.executes {files : List Payload} {before next : World}
    (founded : Founded settings contents files before after)
    (disk : next.disk = after.disk) {mode : Settings.FetchMode}
    (cut : mode = .always → ∃ fault, (serverOf settings).contents next.response = .error (.fetch fault)) :
    ∃ origin others middle, origin ≠ .fetched ∧
      payloads settings (.ofDeclared (Json.inOrder contents.enums)) (inScope settings contents.snapshot.declared)
        (inScope settings contents.snapshot.declared).tables = .ok others ∧
      Untouched next middle ∧ runIn (sync (fetching settings mode) true) next =
        runIn (execute (fetching settings mode) (cacheOf settings) ⟨contents.snapshot.declared,
          Json.inOrder contents.enums, origin⟩
          ⟨(inScope settings contents.snapshot.declared).tables, []⟩ others) middle := by
  obtain ⟨others, rendered⟩ := founded.renders
  have usable := usable_fetching founded.usable founded.asks mode
  obtain ⟨origin, stale, plans⟩ := founded.plans disk cut
  obtain ⟨planned, first, run⟩ := runIn_sync_of_plan usable plans
  have some : (inScope settings contents.snapshot.declared).tables ≠ [] := by
    have names := inScope_declared_names settings contents.snapshot
    intro nothing
    rw [Snapshot.names, Snapshot.names, nothing] at names
    exact founded.some (List.map_eq_nil_iff.mp names.symm)
  have changes : Cache.Diff.hasChanges ⟨(inScope settings contents.snapshot.declared).tables, []⟩ = true := by
    simpa [Cache.Diff.hasChanges] using some
  obtain ⟨middle, second, work⟩ := @complete_executes (fetching settings mode)
    ⟨⟨contents.snapshot.declared, Json.inOrder contents.enums, origin⟩,
      ⟨(inScope settings contents.snapshot.declared).tables, []⟩⟩
    others changes rendered planned
  exact ⟨origin, others, middle, stale, rendered, first.trans second, run.trans work⟩

/-- Where this run has written, writing can go on. -/
theorem Founded.rewriting {files : List Payload} {before next : World}
    (founded : Founded settings contents files before after)
    (disk : next.disk = after.disk) (untroubled : Untroubled next)
    (brief : ∀ path ∈ files.map Payload.path, path.lastName.utf8ByteSize + besideLetters ≤ Disk.nameLimit)
    (tidy : ∀ path ∈ (cacheOf settings).digestsPath :: files.map Payload.path,
      next.disk.get? (path.parent.join (temporaryName path.lastName)) = none) :
    Rewriting (cacheOf settings) (files.map Payload.path) next := by
  obtain ⟨digests, loaded, _⟩ := founded.loads
  have stored := (Cache.loadDigests_of_file founded.rooted founded.present).symm.trans loaded
  refine ⟨untroubled, disk ▸ founded.rooted, fun path member => ⟨?_, ?_, tidy path member⟩, digests, disk ▸ stored⟩
  · rw [disk]
    rcases List.mem_cons.mp member with rfl | written
    · exact founded.present
    · obtain ⟨payload, inside, rfl⟩ := List.mem_map.mp written
      rw [founded.models _ (payload_not_cached founded.rendered _ payload inside), isSome_contentAfter]
      exact .inl written
  · rcases List.mem_cons.mp member with rfl | written
    · simp only [Cache.digestsPath, Path.lastName_join]
      decide
    · exact brief path written

/-- In order, a disk has no temporary files where this run has written. -/
theorem Founded.tidy {files : List Payload} {before : World} (founded : Founded settings contents files before after)
    {disk : Disk}
    (orderly : Orderly (directoriesOf settings) disk) :
    ∀ path ∈ (cacheOf settings).digestsPath :: files.map Payload.path,
      disk.get? (path.parent.join (temporaryName path.lastName)) = none := by
  have inside : ∀ directory ∈ directoriesOf settings, ∀ name : String,
      disk.get? ((directory.join name).parent.join (temporaryName (directory.join name).lastName)) = none := by
    intro directory member name
    rw [Path.parent_join, Path.lastName_join]
    exact orderly.tidy directory member name
  have output : Path.ofText settings.output ∈ directoriesOf settings := by simp [directoriesOf]
  intro path member
  rcases List.mem_cons.mp member with rfl | written
  · exact inside _ (by simp [directoriesOf]) _
  · rcases (path_of_payload founded.rendered).mp written with ⟨table, _, rfl⟩ | ⟨_, rfl⟩
    · exact inside _ output _
    · exact inside _ output _

/-- What is written when nothing is fetched. -/
structure Followed (settings : Settings) (contents : Document.Contents) (others : List Payload) (again : Outcome)
    (before after : World) : Prop where
  rendered : payloads settings (.ofDeclared (Json.inOrder contents.enums)) (inScope settings contents.snapshot.declared)
    (inScope settings contents.snapshot.declared).tables = .ok others
  origin : again.origin ≠ .fetched
  written : again.written = others.map Payload.path
  deleted : again.deleted = []
  models : ∀ path, path ∉ (cacheOf settings).paths → after.disk.file? path =
    contentAfter others path (before.disk.file? path)

/-- The model of a table of which no other has the module is what was rendered of it. -/
theorem Followed.model {others : List Payload} {again : Outcome} {before : World}
    (followed : Followed settings contents others again before after)
    {table : Table} (member : table ∈ contents.snapshot.tables) (included : settings.includes table.name = true)
    (single : ∀ other ∈ contents.snapshot.tables, settings.includes other.name →
      Naming.moduleName other.name = Naming.moduleName table.name → other = table) :
    ∃ text, render (styleOf settings) (.ofDeclared contents.enums) (inScope settings contents.snapshot).names
        (rederived contents.snapshot table) = .ok text ∧
      after.disk.file? (modelPath settings table.name) = some (.text text) := by
  have here : rederived contents.snapshot table ∈ (inScope settings contents.snapshot.declared).tables := by
    rw [inScope_declared_tables]
    exact List.mem_map_of_mem (List.mem_filter.mpr ⟨member, included⟩)
  have alone : ∀ other ∈ (inScope settings contents.snapshot.declared).tables,
      Naming.moduleName other.name = Naming.moduleName (rederived contents.snapshot table).name →
          other = rederived contents.snapshot table := by
    intro other known same
    rw [inScope_declared_tables] at known
    obtain ⟨original, kept, rfl⟩ := List.mem_map.mp known
    obtain ⟨known, within⟩ := List.mem_filter.mp kept
    rw [single original known within same]
  obtain ⟨text, renders, file⟩ :=
    contentAfter_model followed.rendered here alone (before.disk.file? (modelPath settings table.name))
  refine ⟨text, ?_, (followed.models _ (modelPath_not_cached _ _)).trans file⟩
  rw [← renders, inScope_declared_names]
  exact (render_alike (fieldType_inOrder _) rfl rfl).symm

section Following

variable {files : List Payload} {before next : World} {mode : Settings.FetchMode}

private theorem Founded.same_places (founded : Founded settings contents files before after) {others : List Payload}
    (rendered :
      payloads settings (.ofDeclared (Json.inOrder contents.enums)) (inScope settings contents.snapshot.declared)
      (inScope settings contents.snapshot.declared).tables = .ok others) :
      others.map Payload.path = files.map Payload.path := by
  have named : ∀ scope : Snapshot, (scope.tables.map fun table => modelPath settings table.name) =
      scope.names.map (modelPath settings) :=
    fun scope => by simp [Snapshot.names]
  rw [paths_of_payloads rendered, paths_of_payloads founded.rendered, named, named, inScope_declared_names]

theorem Founded.ends (founded : Founded settings contents files before after) (disk : next.disk = after.disk)
    (cut : mode = .always → ∃ fault, (serverOf settings).contents next.response = .error (.fetch fault))
    (rewriting : Rewriting (cacheOf settings) (files.map Payload.path) next) :
    ∃ again last, runIn (sync (fetching settings mode) true) next = (.ok again, last) := by
  obtain ⟨origin, others, middle, stale, rendered, untouched, work⟩ := founded.executes disk cut
  have known : ∀ file ∈ others, file.path ∈ files.map Payload.path ∧ file.path ≠ (cacheOf settings).digestsPath := by
    intro file member
    refine ⟨founded.same_places rendered ▸ List.mem_map_of_mem member, fun same => ?_⟩
    exact payload_not_cached rendered (cacheOf settings) file member (by simp [same, Cache.paths])
  have thrives : Thrives (Rewriting (cacheOf settings) (files.map Payload.path))
      (execute (fetching settings mode) (cacheOf settings)
      ⟨contents.snapshot.declared, Json.inOrder contents.enums, origin⟩
          ⟨(inScope settings contents.snapshot.declared).tables, []⟩ others) :=
    rewrites_execute stale rfl known
  obtain ⟨again, last, ran, _⟩ := thrives middle (rewriting.untouched untouched)
  exact ⟨again, last, work.trans ran⟩

private theorem Founded.followed (founded : Founded settings contents files before after)
    (disk : next.disk = after.disk)
    (cut : mode = .always → ∃ fault, (serverOf settings).contents next.response = .error (.fetch fault))
    {again : Outcome} {last : World} (ran : runIn (sync (fetching settings mode) true) next = (.ok again, last)) :
    ∃ others, Followed settings contents others again after last := by
  obtain ⟨origin, others, middle, stale, rendered, untouched, work⟩ := founded.executes disk cut
  rw [work] at ran
  have still : middle.disk = after.disk := untouched.disk.trans disk
  obtain ⟨said, executed⟩ :=
    execute_ok (still ▸ founded.rooted) (payload_not_cached rendered _) (fun _ _ => List.not_mem_nil) ran
  refine ⟨others, rendered, by rw [said]; exact stale, by rw [said], ?_, fun path outside => ?_⟩
  · refine List.eq_nil_iff_forall_not_mem.mpr fun path member => ?_
    simpa [artifactsOf] using (executed.deleted path).mp member
  · simpa [artifactsOf, still] using executed.files path outside

/-- Both runs render the same tables, each with references of its own. -/
theorem Founded.alike (founded : Founded settings contents files before after) {others : List Payload}
    (rendered :
      payloads settings (.ofDeclared (Json.inOrder contents.enums)) (inScope settings contents.snapshot.declared)
      (inScope settings contents.snapshot.declared).tables = .ok others) {path : Path}
    (restorable : ∀ table ∈ contents.snapshot.tables, settings.includes table.name →
      modelPath settings table.name = path →
      Restorable settings contents.snapshot table) : List.Forall₂ (Alike path) files others := by
  have names := inScope_declared_names settings contents.snapshot
  have first := founded.rendered
  rw [inScope_tables] at first
  rw [inScope_declared_tables] at rendered
  refine payloads_alike first rendered names (fun _ => rfl) fun table member here => ?_
  obtain ⟨known, included⟩ := List.mem_filter.mp member
  rw [names]
  exact (restorable table known included here).render

end Following

/-- A run that fetched the schema when there were no digests is followed by a forced run that takes the stored schema
instead, and may read it. If no change is kept from being made, and no temporary file is left over where it writes,
this run ends normally. It writes all the files of the first one and deletes none. The model of a table is now
rendered with the references that follow from names alone, so it is the same as before unless the table embeds
relations by declared references that do not. -/
theorem offline_run_renders_alike {force : Bool} {outcome : Outcome} (rooted : world.disk.Rooted)
    (opened : SchemaOpen (cacheOf settings) world.disk) (fresh : (cacheOf settings).digestsOn world.disk = .ok [])
    (ends : runIn (sync settings force) world = (.ok outcome, after))
    (origin : outcome.origin = .fetched) (changes : outcome.hasChanges = true) {mode : Settings.FetchMode}
    {next : World}
    (disk : next.disk = after.disk)
    (cut : mode = .always → ∃ fault, (serverOf settings).contents next.response = .error (.fetch fault)) :
    ∃ contents, (serverOf settings).contents world.response = .ok contents ∧
      (Untroubled next →
        (∀ path ∈ (cacheOf settings).digestsPath :: outcome.written,
          next.disk.get? (path.parent.join (temporaryName path.lastName)) = none) →
        ∃ again last, runIn (sync (fetching settings mode) true) next = (.ok again, last)) ∧
      ∀ again last, runIn (sync (fetching settings mode) true) next = (.ok again, last) →
        again.origin ≠ .fetched ∧ again.written = outcome.written ∧ again.deleted = [] ∧
        (∀ table ∈ contents.snapshot.tables, settings.includes table.name →
          (∀ other ∈ contents.snapshot.tables, settings.includes other.name →
            Naming.moduleName other.name = Naming.moduleName table.name → other = table) →
          ∃ text, render (styleOf settings) (.ofDeclared contents.enums) (inScope settings contents.snapshot).names
              (rederived contents.snapshot table) = .ok text ∧
            last.disk.file? (modelPath settings table.name) = some (.text text)) ∧
        ∀ path, path ∉ (cacheOf settings).paths →
          (∀ table ∈ contents.snapshot.tables, settings.includes table.name → modelPath settings table.name = path →
            Restorable settings contents.snapshot table) →
          last.disk.file? path = after.disk.file? path := by
  obtain ⟨contents, files, holds, written, founded⟩ := sync_founds rooted opened fresh ends origin changes
  refine ⟨contents, holds, fun untroubled tidy => ?_, fun again last ran => ?_⟩
  · exact founded.ends disk cut (founded.rewriting disk untroubled (written ▸ sync_brief ends) (written ▸ tidy))
  · obtain ⟨others, followed⟩ := founded.followed disk cut ran
    refine ⟨followed.origin, ?_, followed.deleted,
      fun table member included single => followed.model member included single, fun path outside restorable => ?_⟩
    · rw [followed.written, founded.same_places followed.rendered, written]
    · rw [followed.models path outside, contentAfter_alike (founded.alike followed.rendered restorable)]
      by_cases wrote : path ∈ files.map Payload.path
      · rw [founded.models path outside]
        exact contentAfter_congr wrote _ _
      · exact contentAfter_of_not_mem wrote _

namespace Letters

def letters : Table :=
  ⟨"letters", [{ name := "author", sourceType := "int4", foreignKey := some ⟨"author", "users", "id", false⟩ }],
  List.nodup_singleton _⟩

/-- A schema with a reference that does not follow from names. -/
def schema : Document.Contents where
  snapshot := ⟨[letters, Blog.users], by decide⟩
  enums := []
  foreignKeys := [("letters.author", ⟨"author", "users", "id", false⟩)]

def answer : Document.Response := .answer 200
  ("\x7b\"definitions\":\x7b\"letters\":\x7b\"properties\":\x7b\"author\":\x7b\"type\":\"integer\","
    ++ "\"description\":\"<fk table='users' column='id'/>\"\x7d\x7d\x7d,"
    ++ "\"users\":\x7b\"properties\":\x7b\"id\":\x7b\"type\":\"integer\"\x7d\x7d\x7d\x7d\x7d")

theorem contents_answer (settings : Settings) : (serverOf settings).contents answer = .ok schema := by cbv

theorem feasible : Feasible (Blog.options true) (fetched schema) := by
  refine feasible_of_plain (by simp [fetched]) ?_ ?_ (by simp [Blog.options])
  · decide +kernel
  · decide +kernel

def rendering (table : Table) : Except EmitFault String :=
  render (styleOf (Blog.options true)) (.ofDeclared schema.enums)
    (inScope (Blog.options true) schema.snapshot).names table

theorem rendering_differs : rendering (rederived schema.snapshot letters) ≠
    rendering (convention.inferTable schema.snapshot.names letters) := by
  decide +kernel

theorem founds :
    ∃ outcome after files, runIn (sync (Blog.options true) false) { response := answer } = (.ok outcome, after) ∧
    outcome.origin = .fetched ∧ outcome.hasChanges = true ∧ outcome.written = files.map Payload.path ∧
    Calm (Blog.options true) after ∧ Founded (Blog.options true) schema files { response := answer } after ∧
    ∃ text, rendering (convention.inferTable schema.snapshot.names letters) = .ok text ∧
      after.disk.file? (modelPath (Blog.options true) "letters") = some (.text text) := by
  have found := Blog.source_of_answer true contents_answer { response := answer } rfl
  have fresh := Cache.digestsOn_of_missing (Disk.file?_empty (cacheOf (Blog.options true)).digestsPath)
  obtain ⟨outcome, after, ends, origin, calm⟩ :=
    sync_ends (Blog.laid true) (Blog.calm true answer) (Blog.usable true) found feasible
    fresh (by simp [Keyed.names]) false
  have changes : outcome.hasChanges = true := by
    rw [hasChanges_of_fresh Disk.rooted_empty fresh ends found (by simp [fetched])]
    decide +kernel
  obtain ⟨contents, files, given, written, founded⟩ :=
    sync_founds Disk.rooted_empty ⟨rfl, rfl⟩ fresh ends origin changes
  obtain rfl : schema = contents := Except.ok.inj ((contents_answer _).symm.trans given)
  have alone : ∀ table ∈ (inScope (Blog.options true) schema.snapshot).tables,
      Naming.moduleName table.name = Naming.moduleName "letters" →
          table = convention.inferTable schema.snapshot.names letters := by
    decide +kernel
  obtain ⟨text, renders, file⟩ := contentAfter_model founded.rendered
    (show convention.inferTable schema.snapshot.names letters ∈ _ by decide +kernel) alone none
  exact ⟨outcome, after, files, ends, origin, changes, written, calm, founded, text, renders,
    (founded.models _ (modelPath_not_cached _ _)).trans file⟩

end Letters

/-- A model loses a relation that is declared when it is written from the cache. The models of other tables stay. -/
theorem declared_relation_lost : ∃ outcome again : Outcome, ∃ after last : World,
    runIn (sync (Blog.options true) false) { response := Letters.answer } = (.ok outcome, after) ∧
      outcome.origin = .fetched ∧
      runIn (sync (fetching (Blog.options true) .never) true) after = (.ok again, last) ∧
        again.written = outcome.written ∧
      last.disk.file? (modelPath (Blog.options true) "letters") ≠
        after.disk.file? (modelPath (Blog.options true) "letters") ∧
      last.disk.file? (modelPath (Blog.options true) "users") =
        after.disk.file? (modelPath (Blog.options true) "users") := by
  obtain ⟨outcome, after, files, ends, origin, changes, written, calm, founded, text, rendered, file⟩ := Letters.founds
  have fresh := Cache.digestsOn_of_missing (Disk.file?_empty (cacheOf (Blog.options true)).digestsPath)
  have cut : Settings.FetchMode.never = .always →
      ∃ fault, (serverOf (Blog.options true)).contents after.response = .error (.fetch fault) := by simp
  obtain ⟨contents, holds, goes, does⟩ :=
    offline_run_renders_alike Disk.rooted_empty ⟨rfl, rfl⟩ fresh ends origin changes rfl cut
  obtain rfl : Letters.schema = contents := Except.ok.inj ((Letters.contents_answer _).symm.trans holds)
  obtain ⟨again, last, ran⟩ := goes calm.untroubled (written ▸ founded.tidy calm.orderly)
  obtain ⟨_, places, _, models, others⟩ := does again last ran
  refine ⟨outcome, again, after, last, ends, origin, ran, places, fun same => ?_, ?_⟩
  · have alone : ∀ table ∈ Letters.schema.snapshot.tables, (Blog.options true).includes table.name →
        Naming.moduleName table.name = Naming.moduleName Letters.letters.name → table = Letters.letters := by
      decide +kernel
    obtain ⟨other, rerendered, refile⟩ := models Letters.letters (by decide) rfl alone
    have equal : some (FileContent.text other) = some (.text text) := refile.symm.trans (same.trans file)
    obtain rfl : other = text := by simpa using equal
    exact Letters.rendering_differs (rerendered.trans rendered.symm)
  · refine others _ (modelPath_not_cached _ _) fun table member _ place => restorable_of_undeclared _ _ ?_
    have apart : ∀ table ∈ Letters.schema.snapshot.tables, Naming.moduleName table.name = Naming.moduleName "users" →
        table.declared = table := by decide +kernel
    exact apart table member (modelPath_inj.mp place)

end TableModels.Run
