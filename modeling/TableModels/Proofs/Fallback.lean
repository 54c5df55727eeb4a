import TableModels.Proofs.Footprint
import TableModels.Proofs.Offline
import TableModels.Proofs.Retry

/-! Runs that take their schema from the cache, because they are not to fetch it, need not, or cannot. They leave the
stored schema alone. A run that could not fetch also removes nothing, for it cannot know what is left. -/

namespace TableModels.Run

open Act World Schema Model

variable {α β : Type} {settings : Settings} {world after : World} {origin : Origin}

/-- The run takes its schema from the cache, and this is why. -/
inductive Standby (settings : Settings) (world : World) : Origin → Prop where
  | never (mode : settings.fetch = .never) : Standby settings world .cached
  | stored (mode : settings.fetch = .ifNoCache) {snapshot : Snapshot}
    (loads : (runIn (cacheOf settings).loadSnapshot world).1 = .ok (some snapshot)) : Standby settings world .cached
  | fallback (asks : settings.fetch = .always ∨
      settings.fetch = .ifNoCache ∧ (runIn (cacheOf settings).loadSnapshot world).1 = .ok none)
    {fault : Document.FetchFault} (fails : (serverOf settings).contents world.response = .error (.fetch fault)) :
    Standby settings world .fallback

theorem Standby.stale (standby : Standby settings world origin) : origin ≠ .fetched := by cases standby <;> simp

private theorem fetchSource_falls {source : Source} {fault : Document.FetchFault}
    (fails : (serverOf settings).contents world.response = .error (.fetch fault))
    (ends : runIn (fetchSource settings (cacheOf settings)) world = (.ok source, after)) :
    source.origin = .fallback ∧ (runIn (cacheOf settings).loadSnapshot world).1 = .ok (some source.snapshot) := by
  obtain ⟨⟨⟩, noted, note, ends⟩ := runIn_bind_ok ends
  obtain ⟨response, sent, send, ends⟩ := runIn_bind_ok ends
  obtain ⟨⟨⟩, told, tell, ends⟩ := runIn_bind_ok ends
  have first := (Observes.note _).looked note
  obtain ⟨given, _⟩ := Prod.mk.inj send
  obtain rfl : noted.response = response := Except.ok.inj given
  rw [first.response, fails] at ends
  obtain ⟨⟨⟩, warned, warn, ends⟩ := runIn_bind_ok ends
  obtain ⟨found, loaded, load, ends⟩ := runIn_bind_ok ends
  have untouched := ((first.trans ((Observes.send _).looked send)).trans ((Observes.notes _).looked tell)).trans
    ((Observes.note _).looked warn)
  cases found with
  | none => cases (Prod.mk.inj ends).1
  | some snapshot =>
    obtain ⟨same, fallback⟩ := fromCache_source ends
    refine ⟨fallback, ?_⟩
    rw [← (observes_loadSnapshot _).again untouched, load, same]

/-- The schema of such a run is the one that is stored. -/
theorem Standby.source (standby : Standby settings world origin) {source : Source}
    (found : (runIn (Run.source settings (cacheOf settings)) world).1 = .ok source) :
    source.origin = origin ∧ (runIn (cacheOf settings).loadSnapshot world).1 = .ok (some source.snapshot) := by
  obtain ⟨after, ends⟩ := runIn_of_result found
  cases standby with
  | never mode =>
    simp only [Run.source, mode] at ends
    obtain ⟨stored, loaded, load, ends⟩ := runIn_bind_ok ends
    cases stored with
    | none => cases (Prod.mk.inj ends).1
    | some snapshot =>
      obtain ⟨same, origin⟩ := fromCache_source ends
      exact ⟨origin, by rw [load, same]⟩
  | @stored mode snapshot loads =>
    simp only [Run.source, mode] at ends
    obtain ⟨stored, loaded, load, ends⟩ := runIn_bind_ok ends
    rw [load] at loads
    obtain rfl : stored = some snapshot := Except.ok.inj loads
    obtain ⟨same, origin⟩ := fromCache_source ends
    exact ⟨origin, by rw [load, same]⟩
  | @fallback asks fault fails =>
    rcases asks with mode | ⟨mode, missing⟩
    · simp only [Run.source, mode] at ends
      exact fetchSource_falls fails ends
    · simp only [Run.source, mode] at ends
      obtain ⟨stored, loaded, load, ends⟩ := runIn_bind_ok ends
      rw [load] at missing
      obtain rfl : stored = none := Except.ok.inj missing
      have untouched := (observes_loadSnapshot (cacheOf settings)).looked load
      obtain ⟨fallback, again⟩ := fetchSource_falls (untouched.response ▸ fails) ends
      exact ⟨fallback, ((observes_loadSnapshot _).again untouched).symm.trans again⟩

private theorem requests_bind {action : Act α} {next : α → Act β}
    (first : (runIn action world).2.requests = world.requests)
    (rest : ∀ value middle, runIn action world = (.ok value, middle) → (runIn (next value) middle).2.requests =
      middle.requests) :
    (runIn (action >>= next) world).2.requests = world.requests := by
  rw [runIn_bind]
  rcases ran : runIn action world with ⟨failure | value, middle⟩
  · rwa [ran] at first
  · rw [ran] at first
    exact (rest value middle ran).trans first

def Quiet : Deed → Prop
  | .ask _ => False
  | _ => True

private theorem Within.quiet {action : Act α} (within : Within Quiet action) (world : World) :
    (runIn action world).2.requests = world.requests := (within.footprint world).silent fun _ => id

private theorem quiet_permits (settings : Settings) (plan : Plan) : Permits settings Quiet plan :=
  ⟨fun _ => trivial, fun _ _ _ _ => trivial, fun _ _ _ _ => trivial, trivial, fun _ => ⟨trivial, trivial⟩⟩

/-- A run that is not to fetch, or need not, asks nobody. -/
theorem Standby.silent (standby : Standby settings world .cached) (force : Bool) :
    (runIn (sync settings force) world).2.requests = world.requests := by
  have unprepared : ∀ failure : Failure, failure.report? = none → Quiet (.fail failure) := fun _ _ => trivial
  have sourced : ∀ noted, Untouched world noted →
      (runIn (Run.source settings (cacheOf settings)) noted).2.requests = noted.requests := by
    intro noted untouched
    cases standby with
    | never mode => exact (within_source (fun _ => trivial) (fun asks => absurd mode asks) _).quiet noted
    | @stored mode snapshot loads =>
      simp only [Run.source, mode]
      refine requests_bind ((within_loadSnapshot unprepared _).quiet noted) fun stored middle ran => ?_
      have again := ((observes_loadSnapshot _).again untouched).trans loads
      rw [ran] at again
      obtain rfl : stored = some snapshot := Except.ok.inj again
      exact (within_fromCache unprepared _ _ _ _).quiet middle
  refine requests_bind ((Within.notes _).quiet world) fun _ titled title => ?_
  have first := (Observes.notes _).looked title
  refine requests_bind ((within_checkSettings (fun _ => trivial) settings).quiet titled) fun _ checked check => ?_
  have second := (observes_checkSettings settings).looked check
  refine requests_bind (requests_bind (sourced checked (first.trans second)) fun source found _ => ?_)
    fun plan planned _ => ?_
  · exact (Within.bind (.notes _) fun _ => .bind (within_diffFor unprepared _ _ _ _) fun _ => .pure _).quiet found
  · exact (within_complete (quiet_permits settings plan)).quiet planned

/-- A run has only looked when it fails, or it has come to carry out its plan. -/
theorem sync_planned {force : Bool} {result : Except Failure Outcome}
    (ends : runIn (sync settings force) world = (result, after)) :
    (∃ failure, result = .error failure ∧ Untouched world after) ∨
      ∃ plan middle, Planned settings force world plan ∧ Untouched world middle ∧
        runIn (complete settings (cacheOf settings) plan) middle = (result, after) := by
  have stops : ∀ {γ : Type} {action : Act γ} {next : γ → Act Outcome} {before : World}, Observes action →
      runIn (action >>= next) before = (result, after) →
      (∃ failure, result = .error failure ∧ Untouched before after) ∨
        ∃ value middle, runIn action before = (.ok value, middle) ∧ Untouched before middle ∧
            runIn (next value) middle = (result, after) := by
    intro γ action next before observes ends
    have untouched := observes.untouched before
    rw [runIn_bind] at ends
    rcases ran : runIn action before with ⟨failure | value, middle⟩
    · rw [ran] at ends untouched
      obtain ⟨rfl, rfl⟩ := Prod.mk.inj ends
      exact .inl ⟨failure, rfl, untouched⟩
    · rw [ran] at ends untouched
      exact .inr ⟨value, middle, rfl, untouched, ends⟩
  rcases stops (.notes _) ends with failed | ⟨_, titled, _, first, ends⟩
  · exact .inl failed
  rcases stops (observes_checkSettings _) ends with ⟨failure, same, late⟩ | ⟨_, checked, _, second, ends⟩
  · exact .inl ⟨failure, same, first.trans late⟩
  rcases stops (observes_plan _ _ _) ends with ⟨failure, same, late⟩ | ⟨plan, planned, plans, third, ends⟩
  · exact .inl ⟨failure, same, (first.trans second).trans late⟩
  · exact .inr ⟨plan, planned, (plan_ok plans).before (first.trans second), (first.trans second).trans third, ends⟩

/-- What carrying out a plan may do to the disk when the schema was not fetched. -/
def Spares (settings : Settings) (origin : Origin) : Deed → Prop
  | .ask _ => False
  | .fail _ => True
  | .save path => path ∉ (cacheOf settings).paths
  | .store path => path = (cacheOf settings).digestsPath
  | .delete path => origin ≠ .fallback ∧ path ∉ (cacheOf settings).paths

private theorem spares_permits {force : Bool} {plan : Plan} (planned : Planned settings force world plan)
    (stale : plan.source.origin ≠ .fetched) :
    Permits settings (Spares settings plan.source.origin) plan where
  fails := fun _ => trivial
  saves := fun _ rendered file member => payload_not_cached rendered (cacheOf settings) file member
  deletes := by
    intro table removed path artifact
    refine ⟨fun fallback => ?_, artifactPaths_not_cached _ artifact⟩
    simp [planned.fallback fallback] at removed
  digests := rfl
  schema := fun fetched => absurd fetched stale

/-- Where the schema was not fetched, what is stored of it stays, and after a fetch that failed every file stays. -/
theorem Standby.spares {force : Bool} {result : Except Failure Outcome} (standby : Standby settings world origin)
    (ends : runIn (sync settings force) world = (result, after)) :
    (∀ path ∈ [(cacheOf settings).snapshotPath, (cacheOf settings).enumsPath], after.disk.file? path =
      world.disk.file? path) ∧
      (origin = .fallback → ∀ path, (world.disk.file? path).isSome → (after.disk.file? path).isSome) := by
  rcases sync_planned ends with ⟨_, _, untouched⟩ | ⟨plan, middle, planned, untouched, ends⟩
  · rw [untouched.disk]
    exact ⟨fun _ _ => rfl, fun _ _ => id⟩
  have same := (standby.source planned.found).1
  obtain rfl : plan.source.origin = origin := same
  have footprint := (within_complete (spares_permits planned standby.stale)).ran ends
  rw [← untouched.disk]
  refine ⟨fun path member => footprint.kept path ?_ ?_ ?_, fun fallback path => footprint.standing path
    fun deletes => deletes.1 fallback⟩
  · exact fun saves => saves (by simp_all [Cache.paths])
  · intro stores
    obtain rfl : path = (cacheOf settings).digestsPath := stores
    simp [Cache.digestsPath, Cache.snapshotPath, Cache.enumsPath] at member
  · exact fun deletes => deletes.2 (by simp_all [Cache.paths])

private theorem isClosed_of_sync {force : Bool} {result : Except Failure Outcome}
    (ends : runIn (sync settings force) world = (result, after)) :
    after.disk.isClosed (cacheOf settings).digestsPath = world.disk.isClosed (cacheOf settings).digestsPath := by
  have closed := sync_closed settings force world (digestsPath_mem_paths _)
  rwa [ends] at closed

/-- After a fetch that failed, a run has not come to its commit, or it has stored the digests of all tables in scope
with those of other tables that it could load. -/
theorem Standby.digests {force : Bool} {result : Except Failure Outcome} (standby : Standby settings world .fallback)
    (rooted : world.disk.Rooted) (ends : runIn (sync settings force) world = (result, after)) :
    (cacheOf settings).digestsIn after.disk = (cacheOf settings).digestsIn world.disk ∨
      ∃ known kept, (cacheOf settings).digestsOn world.disk = .ok known ∧
        (cacheOf settings).digestsIn after.disk = .ok kept ∧
        ∃ tables, ∀ name, Keyed.get? kept name = Keyed.get? (Cache.withTables known tables) name := by
  cases result with
  | ok outcome =>
    obtain ⟨_, plan, planned, completed⟩ := sync_ok rooted ends
    have work := planned.fallback (standby.source planned.found).1
    cases completed with
    | unchanged _ _ untouched => exact .inl (by rw [untouched.disk])
    | changed files _ _ _ executed =>
      obtain ⟨known, kept, found, stored, each⟩ := executed.digests
      exact .inr ⟨known, kept, found, stored, plan.diff.generate, fun name => by simp [each, recorded, without, work]⟩
  | error failure =>
    rcases sync_halted rooted ends with same | ⟨ready, files, sound, some, halted⟩
    · exact .inl (by rw [same])
    have work := sound.planned.fallback (standby.source sound.planned.found).1
    cases halted with
    | early others =>
      obtain ⟨unwritten, kept⟩ := cached_not_delivered (sound.rendered files some).2 ready.plan.diff.remove
        (digestsPath_mem_paths (cacheOf settings))
      exact .inl (Cache.digestsIn_congr (others _ unwritten kept))
    | late models digests =>
      obtain ⟨known, kept, found, stored, each⟩ := digests
      refine .inr ⟨known, kept, found, stored, ready.plan.diff.generate,
        fun name => (each name).resolve_right fun gone => ?_⟩
      simp [work] at gone

private theorem mem_names_of_updated {known kept : Cache.Digests} {tables : List Table}
    (each : ∀ name, Keyed.get? kept name = Keyed.get? (Cache.withTables known tables) name) {name : String}
    (member : name ∈ Keyed.names known) : name ∈ Keyed.names kept := by
  rw [Keyed.mem_names, each, ← Keyed.mem_names]
  unfold Cache.withTables
  clear each
  induction tables generalizing known with
  | nil => exact member
  | cons table rest ih =>
    refine ih ?_
    rw [Keyed.mem_names] at member ⊢
    rw [Keyed.get?_set]
    split
    · rfl
    · exact member

private theorem Standby.keeps_digests {force : Bool} {result : Except Failure Outcome}
    (standby : Standby settings world .fallback)
    (rooted : world.disk.Rooted) (ends : runIn (sync settings force) world = (result, after)) {known : Cache.Digests}
    (found : (cacheOf settings).digestsOn world.disk = .ok known) :
    ∃ kept, (cacheOf settings).digestsOn after.disk = .ok kept ∧ ∀ name ∈ Keyed.names known,
      name ∈ Keyed.names kept := by
  have same := isClosed_of_sync ends
  cases closed : world.disk.isClosed (cacheOf settings).digestsPath with
  | true =>
    obtain rfl := Except.ok.inj ((Cache.digestsOn_of_closed closed).symm.trans found)
    exact ⟨[], Cache.digestsOn_of_closed (same.trans closed), fun _ => id⟩
  | false =>
    rw [Cache.digestsOn_of_open (same.trans closed)]
    rcases standby.digests rooted ends with still | ⟨others, kept, again, stored, tables, each⟩
    · exact ⟨known, (still.trans (Cache.digestsOn_of_open closed).symm).trans found, fun _ => id⟩
    · obtain rfl : known = others := Except.ok.inj (found.symm.trans again)
      exact ⟨kept, stored, fun name member => mem_names_of_updated each member⟩

private theorem exists_of_contentAfter {files : List Payload} {path : Path} (written : path ∈ files.map Payload.path)
    (old : Option FileContent) :
    ∃ file ∈ files, file.path = path ∧ contentAfter files path old = some (.text file.text) := by
  induction files generalizing old with
  | nil => cases written
  | cons first rest ih =>
    by_cases later : path ∈ rest.map Payload.path
    · obtain ⟨file, member, same, content⟩ := ih later (if path = first.path then some (.text first.text) else old)
      exact ⟨file, List.mem_cons_of_mem _ member, same, content⟩
    · have here : path = first.path := (List.mem_cons.mp written).resolve_right later
      refine ⟨first, List.mem_cons_self, here.symm, ?_⟩
      have step : contentAfter (first :: rest) path old =
          contentAfter rest path (if path = first.path then some (.text first.text) else old) := rfl
      rw [step, contentAfter_of_not_mem later, if_pos here]

/-- The file of a model holds what was rendered of its table, or of another one with the same module. -/
private theorem content_of_model {enums : Typing.Enums} {scope : Snapshot} {tables : List Table} {files : List Payload}
    (rendered : payloads settings enums scope tables = .ok files) {table : Table} (member : table ∈ tables)
    (old : Option FileContent) :
    ∃ other ∈ tables, ∃ text, Naming.moduleName other.name = Naming.moduleName table.name ∧
      render (styleOf settings) enums scope.names other = .ok text ∧
      contentAfter files (modelPath settings table.name) old = some (.text text) := by
  have place : modelPath settings table.name ∈ files.map Payload.path :=
    (path_of_payload rendered).mpr (.inl ⟨table, member, rfl⟩)
  obtain ⟨file, inside, here, content⟩ := exists_of_contentAfter place old
  rcases table_of_payload rendered inside with ⟨other, known, there, text⟩ | manifest
  · exact ⟨other, known, file.text, modelPath_inj.mp (there.symm.trans here), text, content⟩
  · exact absurd (here.symm.trans manifest) (modelPath_ne_manifestPath _)

private theorem get?_withTables_nil (scope : Snapshot) (name : String) :
    Keyed.get? (Cache.withTables [] scope.tables) name = (scope.get? name).map Table.digest := by
  cases found : scope.get? name with
  | none =>
    rw [Cache.get?_withTables_of_not_mem [] (Snapshot.get?_eq_none.mp found)]
    rfl
  | some table =>
    obtain ⟨member, rfl⟩ := Snapshot.get?_eq_some.mp found
    exact Cache.get?_withTables_of_mem [] scope.names_nodup member

/-- What a run has done with a table that it took from the cache: its model is written and its digest is in the file of
digests. Where several tables have one module, it holds what was rendered of one of them. -/
structure Refreshed (settings : Settings) (source : Source) (outcome : Outcome) (disk : Disk) (table : Table) :
    Prop where
  written : modelPath settings table.name ∈ outcome.written
  model : ∃ other ∈ (inScope settings source.snapshot).tables, ∃ text, Naming.moduleName other.name =
    Naming.moduleName table.name ∧
    render (styleOf settings) (.ofDeclared source.enums) (inScope settings source.snapshot).names other = .ok text ∧
    disk.file? (modelPath settings table.name) = some (.text text)
  digest : ∃ kept, (cacheOf settings).digestsIn disk = .ok kept ∧ Keyed.get? kept table.name = some table.digest

/-- A run has put together digests that it loaded with those of the tables that it took from the cache. A file that it
may not read is left with the latter alone. -/
structure Recommitted (settings : Settings) (source : Source) (before after : Disk) : Prop where
  loads : ∃ known, (cacheOf settings).digestsOn before = .ok known
  closed : before.isClosed (cacheOf settings).digestsPath = true → ∃ kept,
    (cacheOf settings).digestsIn after = .ok kept ∧
    ∀ name, Keyed.get? kept name = ((inScope settings source.snapshot).get? name).map Table.digest

private theorem Standby.refreshes {force : Bool} {outcome : Outcome} (standby : Standby settings world .fallback)
    (rooted : world.disk.Rooted)
    (ends : runIn (sync settings force) world = (.ok outcome, after)) :
    outcome.removed = [] ∧ outcome.deleted = [] ∧ ∃ source, (runIn (Run.source settings (cacheOf settings)) world).1 =
      .ok source ∧
      (∀ table ∈ (inScope settings source.snapshot).tables, Refreshed settings source outcome after.disk table) ∧
      ((inScope settings source.snapshot).tables ≠ [] → Recommitted settings source world.disk after.disk) := by
  obtain ⟨_, plan, planned, completed⟩ := sync_ok rooted ends
  have work := planned.fallback (standby.source planned.found).1
  have removed : outcome.removed = [] := by rw [completed.outcome.2.1, work]
  cases completed with
  | unchanged same said _ =>
    have none : (plan.scope settings).tables = [] := by simpa [work] using (hasChanges_eq_false.mp same).1
    rw [Plan.scope] at none
    exact ⟨removed, by rw [said], plan.source, planned.found, by simp [none], fun some => absurd none some⟩
  | changed files _ rendered said executed =>
    obtain ⟨known, kept, loads, stored, each⟩ := executed.digests
    have digests : ∀ name, Keyed.get? kept name =
        Keyed.get? (Cache.withTables known (inScope settings plan.source.snapshot).tables) name := by
      intro name
      rw [each, recorded, without, work, if_neg List.not_mem_nil]
      rfl
    refine ⟨removed, ?_, plan.source, planned.found, fun table member => ?_, fun _ =>
      ⟨⟨known, loads⟩, fun closed => ⟨kept, stored, fun name => ?_⟩⟩⟩
    · refine List.eq_nil_iff_forall_not_mem.mpr fun path gone => ?_
      simpa [work, artifactsOf] using (executed.deleted path).mp gone
    · have generated : table ∈ plan.diff.generate := by
        rw [work]
        exact member
      refine ⟨?_, ?_, kept, stored, ?_⟩
      · rw [said]
        exact (path_of_payload rendered).mpr (.inl ⟨table, generated, rfl⟩)
      · have stands := executed.files (modelPath settings table.name) (modelPath_not_cached _ _)
        obtain ⟨other, known, text, same, made, content⟩ :=
          content_of_model rendered generated (world.disk.file? (modelPath settings table.name))
        rw [work] at stands known
        exact ⟨other, known, text, same, made, by simpa [artifactsOf, content] using stands⟩
      · rw [digests]
        exact Cache.get?_withTables_of_mem known (inScope settings plan.source.snapshot).names_nodup member
    · obtain rfl := Except.ok.inj ((Cache.digestsOn_of_closed closed).symm.trans loads)
      rw [digests]
      exact get?_withTables_nil (inScope settings plan.source.snapshot) name

/-- A table in scope has to be recorded, and that needs the other digests. -/
private theorem Standby.stopped {force : Bool} {failure : Failure} (standby : Standby settings world .fallback)
    (rooted : world.disk.Rooted) {snapshot : Snapshot}
    (loads : (runIn (cacheOf settings).loadSnapshot world).1 = .ok (some snapshot))
    (some : (inScope settings snapshot).tables ≠ [])
    (unloadable : (cacheOf settings).digestsOn world.disk = .error failure) :
    ∃ stop last, runIn (sync settings force) world = (.error stop, last) := by
  rcases ran : runIn (sync settings force) world with ⟨stop | outcome, last⟩
  · exact ⟨stop, last, rfl⟩
  · obtain ⟨_, _, source, found, _, commits⟩ := standby.refreshes rooted ran
    obtain rfl : source.snapshot = snapshot :=
      Option.some.inj (Except.ok.inj ((standby.source found).2.symm.trans loads))
    obtain ⟨known, readable⟩ := (commits some).loads
    exact nomatch readable.symm.trans unloadable

/-- Where nothing stands in the way, and everything in scope can be rendered, a run goes on after a fetch that
failed. -/
theorem Standby.ends (standby : Standby settings world .fallback) (laid : Laid (directoriesOf settings))
    (calm : Calm settings world)
    (usable : settings.problems settings.requiresCredentials = []) {source : Source}
    (found : (runIn (Run.source settings (cacheOf settings)) world).1 = .ok source)
    (renderable : Renderable settings source)
    (force : Bool) : ∃ outcome after, runIn (sync settings force) world = (.ok outcome, after) := by
  have plans : Yields (plan settings (cacheOf settings) force) world ⟨source,
      ⟨(inScope settings source.snapshot).tables, []⟩⟩ := by
    refine ((observes_source _ _).yields found).bind fun _ _ => (Yields.notes _ _).bind fun _ _ => ?_
    rw [(standby.source found).1]
    exact (Yields.pure _ _).bind fun _ _ => .pure _ _
  obtain ⟨middle, untouched, run⟩ := runIn_sync_of_plan usable plans
  rw [run]
  obtain ⟨outcome, after, ran, _⟩ : ∃ outcome after, runIn (complete settings (cacheOf settings)
      ⟨source, ⟨(inScope settings source.snapshot).tables, []⟩⟩) middle = (.ok outcome, after) ∧ Calm settings after :=
    complete_ends laid (calm.untouched untouched) renderable (List.Subset.refl _) (by simp)
  exact ⟨outcome, after, ran⟩

/-- However it ends, a run that takes its schema from the cache leaves the stored schema and enumerated types alone.
If it is not to fetch, or need not, it asks nobody. If the fetch failed, every file that was there is still there, and
every table of which a digest could be loaded still has one. Unless such a run is stopped, the model of every table in
scope of the stored schema is written and its digest is in the file of digests, and where nothing stands in the way it
is not stopped. But a run with a table in scope is stopped at digests that cannot be loaded, and it loses those of
other tables that it may not read. -/
theorem cached_run_keeps {force : Bool} {result : Except Failure Outcome} (rooted : world.disk.Rooted)
    (standby : Standby settings world origin) (ends : runIn (sync settings force) world = (result, after)) :
    (∀ path ∈ [(cacheOf settings).snapshotPath, (cacheOf settings).enumsPath], after.disk.file? path =
      world.disk.file? path) ∧
      (origin = .cached → after.requests = world.requests) ∧
      (origin = .fallback →
        (∀ path, (world.disk.file? path).isSome → (after.disk.file? path).isSome) ∧
        (∀ known, (cacheOf settings).digestsOn world.disk = .ok known →
          ∃ kept, (cacheOf settings).digestsOn after.disk = .ok kept ∧ ∀ name ∈ Keyed.names known,
            name ∈ Keyed.names kept) ∧
        (∀ outcome, result = .ok outcome → outcome.removed = [] ∧ outcome.deleted = [] ∧
          ∃ source, (runIn (cacheOf settings).loadSnapshot world).1 = .ok (some source.snapshot) ∧
            (∀ table ∈ (inScope settings source.snapshot).tables, Refreshed settings source outcome after.disk table) ∧
            ((inScope settings source.snapshot).tables ≠ [] → Recommitted settings source world.disk after.disk)) ∧
        (∀ source, (runIn (Run.source settings (cacheOf settings)) world).1 = .ok source → Renderable settings source →
          Laid (directoriesOf settings) → Calm settings world → settings.problems settings.requiresCredentials = [] →
          ∃ outcome, result = .ok outcome)) ∧
      ∀ outcome, result = .ok outcome → outcome.origin = origin := by
  obtain ⟨schema, standing⟩ := standby.spares ends
  refine ⟨schema, ?_, ?_, ?_⟩
  · rintro rfl
    have silent := standby.silent force
    rwa [ends] at silent
  · rintro rfl
    refine ⟨standing rfl, fun known found => ?_, ?_, fun source found renderable laid calm usable => ?_⟩
    · exact standby.keeps_digests rooted ends found
    · rintro outcome rfl
      obtain ⟨removed, deleted, source, found, each, commits⟩ := standby.refreshes rooted ends
      exact ⟨removed, deleted, source, (standby.source found).2, each, commits⟩
    · obtain ⟨outcome, last, ran⟩ := standby.ends laid calm usable found renderable force
      exact ⟨outcome, (Prod.mk.inj (ends.symm.trans ran)).1⟩
  · rintro outcome rfl
    obtain ⟨_, plan, planned, completed⟩ := sync_ok rooted ends
    exact completed.outcome.2.2.trans (standby.source planned.found).1

namespace Letters

/-- The digests have become a byte that is no text. -/
def spoilt (world : World) : World :=
  { world with disk := world.disk.put (cacheOf (Blog.options true)).digestsPath (.file { content := .ofBytes [0xFF] }) }

private theorem spoilt_digests (world : World) : (spoilt world).disk.get? (cacheOf (Blog.options true)).digestsPath =
    some (.file { content := .ofBytes [0xFF] }) := Disk.get?_put_self _ _ rfl

private theorem spoilt_unloadable (world : World) :
    ∃ failure, (cacheOf (Blog.options true)).digestsOn (spoilt world).disk = .error failure := by
  have bytes : (cacheOf (Blog.options true)).digestsOn (spoilt world).disk =
      (Cache.dataOfContent (cacheOf (Blog.options true)).room (.ofBytes [0xFF])).map Cache.digestsOfData := by
    rw [Cache.digestsOn_of_open (Disk.isClosed_of_file (spoilt_digests world)), Cache.digestsIn, Cache.dataIn,
      Disk.file?, spoilt_digests]
  exact ⟨_, bytes⟩

private theorem rooted_spoilt {world : World} (rooted : world.disk.Rooted)
    (there : (world.disk.file? (cacheOf (Blog.options true)).digestsPath).isSome) : (spoilt world).disk.Rooted := by
  obtain ⟨content, holds⟩ := Option.isSome_iff_exists.mp there
  exact rooted.put (rooted.way (Disk.file?_eq_some.mp holds)) rfl (.inl (Disk.not_directory_of_file there))

end Letters

/-- The server cannot be reached any more, and the models of the stored tables are written again. But a run that finds
digests that are no text is stopped. -/
theorem letters_fall_back : ∃ world after : World, ∃ outcome : Outcome, ∃ source : Source,
    runIn (sync (fetching (Blog.options true) .always) true) world = (.ok outcome, after) ∧ outcome.origin = .fallback ∧
      (runIn (cacheOf (Blog.options true)).loadSnapshot world).1 = .ok (some source.snapshot) ∧
      outcome.deleted = [] ∧ (world.disk.file? (modelPath (Blog.options true) "letters")).isSome ∧
      (∃ table, table.name = "letters" ∧
        Refreshed (fetching (Blog.options true) .always) source outcome after.disk table) ∧
      ∃ failure last, runIn (sync (fetching (Blog.options true) .always) true) (Letters.spoilt world) =
        (.error failure, last) := by
  obtain ⟨first, stored, files, fetches, _, _, written, calm, founded, text, _, file⟩ := Letters.founds
  obtain ⟨world, made⟩ : ∃ world : World, world = { stored with response := .unreachable "timed out" } := ⟨_, rfl⟩
  have disk : world.disk = stored.disk := by rw [made]
  obtain ⟨fault, fails⟩ : ∃ fault, (serverOf (Blog.options true)).contents world.response = .error (.fetch fault) :=
    ⟨_, by rw [made]; rfl⟩
  have untroubled : Untroubled world := by
    rw [made]
    exact calm.untroubled
  obtain ⟨outcome, after, ran⟩ := founded.ends disk (fun _ => ⟨_, fails⟩)
    (founded.rewriting disk untroubled (written ▸ sync_brief fetches) (disk ▸ founded.tidy calm.orderly))
  have rooted : world.disk.Rooted := disk ▸ founded.rooted
  obtain ⟨_, _, falls, origin⟩ := cached_run_keeps rooted (.fallback (.inl rfl) fails) ran
  obtain ⟨_, _, refreshes, _⟩ := falls rfl
  obtain ⟨_, deleted, source, loads, each, _⟩ := refreshes outcome rfl
  have opened : world.disk.isClosed (cacheOf (Blog.options true)).snapshotPath = false := disk ▸ founded.opened.1
  have schema := disk ▸ founded.schema
  have snapshot : source.snapshot = Letters.schema.snapshot.declared :=
    Option.some.inj (Except.ok.inj (loads.symm.trans (Cache.loadSnapshot_of_stored rooted opened schema)))
  obtain ⟨table, member, name⟩ :
      ∃ table ∈ (inScope (fetching (Blog.options true) .always) Letters.schema.snapshot.declared).tables,
      table.name = "letters" := by decide +kernel
  refine ⟨world, after, outcome, source, ran, origin outcome rfl, loads, deleted, by simp [disk, file],
    ⟨table, name, each table (snapshot ▸ member)⟩, ?_⟩
  have apart : (Letters.spoilt world).disk.get? (cacheOf (Blog.options true)).snapshotPath =
      world.disk.get? (cacheOf (Blog.options true)).snapshotPath := Disk.get?_put_of_ne _ _ (by decide)
  have rootedAgain := Letters.rooted_spoilt rooted (disk ▸ founded.present)
  have loadsAgain := Cache.loadSnapshot_of_stored rootedAgain ((Disk.isClosed_congr apart).trans opened)
    ((Cache.dataIn_congr (Disk.file?_congr apart)).trans schema)
  obtain ⟨failure, unloadable⟩ := Letters.spoilt_unloadable world
  exact Standby.stopped (.fallback (.inl rfl) fails) rootedAgain loadsAgain (List.ne_nil_of_mem member) unloadable

end TableModels.Run
