import TableModels.Proofs.Steady
import TableModels.Proofs.Stopped

/-! Starting again after a failure. A run that stops before its commit leaves the digests alone, so the next one makes
the same plan and does it all. One that stops later has delivered its models, so the next one only removes what is
left to remove. -/

namespace TableModels.Run

open Act World Schema Model

variable {α β : Type} {settings : Settings} {cache : Cache} {world after : World}

/-- However the action ends, the digests of other tables are still in their file, and those of these tables if they are
not gone. -/
structure Fades (cache : Cache) (tables : List String) (action : Act α) : Prop where
  digests : ∀ world known, world.disk.Rooted → (world.disk.file? cache.digestsPath).isSome →
    cache.digestsIn world.disk = .ok known →
      ((runIn action world).2.disk.file? cache.digestsPath).isSome ∧
        ∃ kept, cache.digestsIn (runIn action world).2.disk = .ok kept ∧
          ∀ name, Keyed.get? kept name = Keyed.get? known name ∨ name ∈ tables ∧ Keyed.get? kept name = none
  advances : Advances action

namespace Fades

variable {tables more : List String}

theorem mono {action : Act α} (fades : Fades cache tables action) (subset : tables ⊆ more) :
    Fades cache more action := by
  refine ⟨fun world known rooted present found => ?_, fades.advances⟩
  obtain ⟨still, kept, stored, each⟩ := fades.digests world known rooted present found
  exact ⟨still, kept, stored, fun name => (each name).imp_right fun gone => ⟨subset gone.1, gone.2⟩⟩

/-- An action that is about other files does nothing to the digests. -/
theorem of_within {paths : List Path} {action : Act α} (within : Within (Deed.about paths) action)
    (apart : cache.digestsPath ∉ paths) :
    Fades cache tables action := by
  refine ⟨fun world known _ present found => ?_, within.advances⟩
  have same := (Touches.of_within within).others world cache.digestsPath apart
  exact ⟨same ▸ present, known, (Cache.digestsIn_congr same).trans found, fun name => .inl rfl⟩

theorem pure (value : α) : Fades cache tables (Pure.pure value) := of_within (.pure value) List.not_mem_nil

theorem bind {action : Act α} {next : α → Act β} (first : Fades cache tables action)
    (rest : ∀ value, Fades cache tables (next value)) : Fades cache tables (action >>= next) := by
  refine ⟨fun world known rooted present found => ?_, first.advances.bind fun value => (rest value).advances⟩
  have early := first.digests world known rooted present found
  have onward := first.advances world
  rw [runIn_bind]
  rcases ran : runIn action world with ⟨failure | value, middle⟩
  · rwa [ran] at early
  · rw [ran] at early onward
    obtain ⟨still, kept, stored, each⟩ := early
    obtain ⟨last, less, brought, fewer⟩ := (rest value).digests middle kept (onward.rooted rooted) still stored
    refine ⟨last, less, brought, fun name => ?_⟩
    rcases fewer name with same | gone
    · rw [same]
      exact each name
    · exact .inr gone

end Fades

private theorem writeText_error {target : Path} {content : String} {failure : Failure}
    (ends : runIn (writeText target content) world = (.error failure, after)) (path : Path) :
    after.disk.file? path = world.disk.file? path := by
  rcases writeText_cases ends with ⟨done, _⟩ | ⟨_, grown⟩
  · cases done
  · exact grown.file? path

private theorem updateDigests_error {change : Cache.Digests → Act Unit} {failure : Failure}
    (writes : ∀ digests world after, runIn (change digests) world = (.error failure, after) →
      ∀ path, after.disk.file? path = world.disk.file? path)
    (ends : runIn (cache.loadDigests >>= change) world = (.error failure, after)) (path : Path) :
    after.disk.file? path = world.disk.file? path := by
  have looked := ((Cache.observes_loadDigests cache).untouched world).disk
  rcases runIn_bind_error ends with stops | ⟨digests, middle, ran, late⟩
  · rw [stops] at looked
    rw [looked]
  · rw [ran] at looked
    rw [writes digests middle after late path, looked]

private theorem commit_error {tables : List Table} {failure : Failure}
    (ends : runIn (cache.commit tables) world = (.error failure, after)) (path : Path) :
    after.disk.file? path = world.disk.file? path :=
  updateDigests_error (fun _ _ _ ends => writeText_error ends) ends path

private theorem removeEntry_error {table : String} {failure : Failure}
    (ends : runIn (cache.removeEntry table) world = (.error failure, after)) (path : Path) :
    after.disk.file? path = world.disk.file? path := by
  refine updateDigests_error (fun digests middle after ends => ?_) ends path
  split at ends
  · exact writeText_error ends
  · cases (Prod.mk.inj ends).1

private theorem fades_removeEntry (cache : Cache) (table : String) : Fades cache [table] (cache.removeEntry table) := by
  refine ⟨fun world known rooted present found => ?_, Cache.advances_removeEntry cache table⟩
  rcases ran : runIn (cache.removeEntry table) world with ⟨failure | ⟨⟨⟩⟩, after⟩
  · have same := removeEntry_error ran cache.digestsPath
    exact ⟨same ▸ present, known, (Cache.digestsIn_congr same).trans found, fun name => .inl rfl⟩
  · cases closed : world.disk.isClosed cache.digestsPath with
    | true =>
      have same := Cache.removeEntry_of_closed rooted closed ran
      rw [same]
      exact ⟨present, known, found, fun name => .inl rfl⟩
    | false =>
      obtain ⟨digests, again, stores⟩ := Cache.removeEntry_ok rooted closed present ran
      obtain rfl : known = digests := Except.ok.inj (found.symm.trans again)
      obtain ⟨kept, stored, erased⟩ := stores.stored
      refine ⟨stores.present, kept, stored, fun name => ?_⟩
      rw [erased, Keyed.get?_erase]
      by_cases here : name = table <;> simp [here]

private theorem fades_removeEntries (cache : Cache) (tables : List String) :
    Fades cache tables (removeEntries cache tables) := by
  induction tables with
  | nil => exact .pure ()
  | cons table rest ih => exact ((fades_removeEntry cache table).mono (by simp)).bind fun _ => ih.mono (by simp)

/-- Recording that fails has left all files alone, or it has stored the digests of what was generated. -/
private theorem record_halted {source : Source} {diff : Cache.Diff} {failure : Failure} (rooted : world.disk.Rooted)
    (ends : runIn (record cache source diff) world = (.error failure, after)) :
    (∀ path, after.disk.file? path = world.disk.file? path) ∨
      ∃ known kept, cache.digestsOn world.disk = .ok known ∧ cache.digestsIn after.disk = .ok kept ∧
        ∀ name, Keyed.get? kept name = Keyed.get? (Cache.withTables known diff.generate) name ∨
          name ∈ diff.remove ∧ Keyed.get? kept name = none := by
  rcases runIn_bind_error ends with stops | ⟨⟨⟩, committed, commit, late⟩
  · exact .inl (commit_error stops)
  · right
    obtain ⟨known, found, stores⟩ := Cache.commit_ok rooted commit
    obtain ⟨brought, stored, same⟩ := stores.stored
    have onward := (Cache.advances_commit cache diff.generate).onward commit
    have persists : ∀ path ≠ cache.digestsPath, ∀ data, Fades cache diff.remove (Cache.writeData path data) :=
        fun path apart data =>
      have within : Within (Deed.about [path]) (Cache.writeData path data) := .store _ List.mem_cons_self
      .of_within within (by simpa using apart.symm)
    have rest : Fades cache diff.remove (do
        removeEntries cache diff.remove
        if source.origin == .fetched then
          cache.persistSnapshot source.snapshot.tables
          cache.persistEnums source.enums) := by
      refine (fades_removeEntries cache diff.remove).bind fun _ => ?_
      split
      · exact (persists _ (by simp [Cache.digestsPath, Cache.snapshotPath]) _).bind fun _ =>
          persists _ (by simp [Cache.digestsPath, Cache.enumsPath]) _
      · exact .pure ()
    have faded := rest.digests committed brought (onward.rooted rooted) stores.present stored
    rw [late] at faded
    obtain ⟨_, kept, still, each⟩ := faded
    exact ⟨known, kept, found, still, fun name => same name ▸ each name⟩

/-- What a run has left that was stopped over this work. -/
inductive Halted (settings : Settings) (diff : Cache.Diff) (files : List Payload) (before after : Disk) : Prop where
  /-- Before the commit, none but the files that it is about have changed. -/
  | early (others : ∀ path, path ∉ files.map Payload.path → path ∉ artifactsOf settings diff.remove →
      after.file? path = before.file? path)
  /-- After the commit, all models are as they should be, and only digests of removed tables can be left over. -/
  | late (models : ∀ path, path ∉ (cacheOf settings).paths → after.file? path =
        if path ∈ artifactsOf settings diff.remove then none else contentAfter files path (before.file? path))
      (digests : ∃ known kept, (cacheOf settings).digestsOn before = .ok known ∧
        (cacheOf settings).digestsIn after = .ok kept ∧
        ∀ name, Keyed.get? kept name = Keyed.get? (Cache.withTables known diff.generate) name ∨
          name ∈ diff.remove ∧ Keyed.get? kept name = none)

private theorem deliver_ok {ready : Ready} {files : List Payload} {deleted : List Path} (rooted : world.disk.Rooted)
    (found : ready.files = some files) (ends : runIn (deliver settings ready) world = (.ok deleted, after)) :
    after.disk.Rooted ∧
      (∀ path, after.disk.file? path = if path ∈ artifactsOf settings ready.plan.diff.remove then none
        else contentAfter files path (world.disk.file? path)) ∧
      ∀ path ∈ (cacheOf settings).paths, after.disk.isClosed path = world.disk.isClosed path := by
  simp only [deliver, found] at ends
  obtain ⟨⟨⟩, written, write, ends⟩ := runIn_bind_ok ends
  have early := (advances_writeAll files).onward write
  have late := (advances_removeModels settings ready.plan.diff.remove).onward ends
  have between := early.rooted rooted
  obtain ⟨contents, closed⟩ := writeAll_ok write
  have deleted := removeModels_ok between ends
  refine ⟨late.rooted between, fun path => by rw [deleted.gone, contents], fun path inCache => ?_⟩
  exact (deleted.closed path fun artifact => artifactsOf_not_cached _ artifact inCache).trans (closed path)

/-- However a run ends, it opens and closes no file of the cache. -/
theorem sync_closed (settings : Settings) (force : Bool) (world : World) {path : Path}
    (member : path ∈ (cacheOf settings).paths) :
    (runIn (sync settings force) world).2.disk.isClosed path = world.disk.isClosed path := by
  have permits : ∀ plan, Permits settings (fun deed => deed ≠ .delete path) plan := by
    intro plan
    refine ⟨fun _ => by simp, fun _ _ _ _ => by simp, fun table _ other artifact => ?_, by simp, fun _ => by simp⟩
    rintro ⟨⟩
    exact artifactPaths_not_cached _ artifact member
  exact ((within_sync (fun _ => by simp) permits force).footprint world).closed path (by simp)

/-- A run that fails has changed nothing, or it was stopped over the work that it had planned. -/
theorem sync_halted {force : Bool} {failure : Failure} (rooted : world.disk.Rooted)
    (ends : runIn (sync settings force) world = (.error failure, after)) :
    after.disk = world.disk ∨ ∃ (ready : Ready) (files : List Payload), ready.Sound settings force world ∧
      ready.files = some files ∧
      Halted settings ready.plan.diff files world.disk after.disk := by
  have looked := ((observes_prepare settings force).untouched world).disk
  rw [sync_eq, untilCommit, bind_assoc] at ends
  rcases runIn_bind_error ends with stops | ⟨ready, prepared, prepares, ends⟩
  · rw [stops] at looked
    exact .inl looked
  rw [prepares] at looked
  have sound := prepare_ok prepares
  cases found : ready.files with
  | none =>
    simp only [deliver, conclude, found, pure_bind] at ends
    cases (Prod.mk.inj ends).1
  | some files =>
    refine .inr ⟨ready, files, sound, found, ?_⟩
    rw [bind_assoc] at ends
    rw [← looked] at rooted ⊢
    rcases runIn_bind_error ends with stops | ⟨deleted, delivered, delivers, ends⟩
    · exact .early fun path written artifact =>
        (touches_deliver settings ready).kept stops (by simp [Ready.paths, found, written, artifact])
    · obtain ⟨still, models, closed⟩ := deliver_ok rooted found delivers
      have stops := record_error ends
      have apart : ∀ path, path ∉ (cacheOf settings).paths → after.disk.file? path = delivered.disk.file? path :=
        fun path => (touches_record _ _ _).kept stops
      have others : ∀ path, path ∉ ready.paths settings → delivered.disk.file? path = prepared.disk.file? path :=
        fun path => (touches_deliver settings ready).kept delivers
      have before : (cacheOf settings).digestsOn delivered.disk = (cacheOf settings).digestsOn prepared.disk :=
        Cache.digestsOn_congr (others _ (sound.apart (digestsPath_mem_paths _))) (closed _ (digestsPath_mem_paths _))
      rcases record_halted still stops with same | ⟨known, kept, knew, stored, each⟩
      · refine .early fun path written artifact => ?_
        rw [same, others path (by simp [Ready.paths, found, written, artifact])]
      · exact .late (fun path outside => by rw [apart path outside, models]) ⟨known, kept, before ▸ knew, stored, each⟩

private theorem executed_agree {diff : Cache.Diff} {files : List Payload} {before after start final : Disk}
    {deleted others : List Path}
    (first : Executed settings diff files before after deleted)
    (second : Executed settings diff files start final others)
    {path : Path} (outside : path ∉ (cacheOf settings).paths)
    (same : path ∉ files.map Payload.path → path ∉ artifactsOf settings diff.remove →
      start.file? path = before.file? path) :
    final.file? path = after.file? path := by
  rw [first.files path outside, second.files path outside]
  by_cases artifact : path ∈ artifactsOf settings diff.remove
  · rw [if_pos artifact, if_pos artifact]
  · rw [if_neg artifact, if_neg artifact]
    by_cases written : path ∈ files.map Payload.path
    · exact contentAfter_congr written _ _
    · rw [same written artifact]

/-- The same source and the same digests give the same plan. -/
theorem Planned.same {force : Bool} {first second : Plan} {other : World} (planned : Planned settings force world first)
    (again : Planned settings force other second) (rooted : world.disk.Rooted) (rootedOther : other.disk.Rooted)
    (source : second.source = first.source)
    (digests : (cacheOf settings).digestsOn other.disk = (cacheOf settings).digestsOn world.disk) : second = first := by
  obtain ⟨given, diff⟩ := first
  obtain ⟨others, more⟩ := second
  obtain rfl : others = given := source
  by_cases fallback : others.origin = .fallback
  · rw [Plan.mk.injEq]
    exact ⟨rfl, (again.fallback fallback).trans (planned.fallback fallback).symm⟩
  · obtain ⟨known, loaded, made⟩ := planned.compared fallback
    obtain ⟨found, reloaded, remade⟩ := again.compared fallback
    have before := Cache.loadDigests_ok rooted (Prod.ext loaded rfl)
    have after := Cache.loadDigests_ok rootedOther (Prod.ext reloaded rfl)
    obtain rfl : found = known := Except.ok.inj (after.symm.trans (digests.trans before))
    rw [Plan.mk.injEq]
    exact ⟨rfl, remade.trans made.symm⟩

/-- Once the digests are stored of what was generated, there is nothing to generate, and nothing else to remove. -/
private theorem between_left {force : Bool} {origin : Origin} {scope : Snapshot} {known kept : Cache.Digests}
    {diff : Cache.Diff}
    (fetched : origin ≠ .fallback) (made : diff = adjusted force origin scope (.between known scope.tables))
    (each : ∀ name, Keyed.get? kept name = Keyed.get? (Cache.withTables known diff.generate) name ∨
      name ∈ diff.remove ∧ Keyed.get? kept name = none) :
    (Cache.Diff.between kept scope.tables).generate = [] ∧ (Cache.Diff.between kept scope.tables).remove ⊆
      diff.remove := by
  have settled : ∀ name, recorded known diff name = (scope.get? name).map Table.digest :=
    made ▸ recorded_adjusted fetched
  have stays : ∀ name, name ∉ diff.remove → Keyed.get? kept name = (scope.get? name).map Table.digest := by
    intro name left
    rw [← settled, recorded, without, if_neg left]
    exact (each name).resolve_right fun gone => left gone.1
  constructor
  · refine List.filter_eq_nil_iff.mpr fun table member => ?_
    have left : table.name ∉ diff.remove := by
      rw [made, mem_remove fetched]
      exact fun gone => gone.2 (Snapshot.mem_names.mpr ⟨table, member, rfl⟩)
    simp [stays table.name left, Snapshot.get?_of_mem member]
  · intro name member
    have gone : name ∈ Keyed.names kept ∧ name ∉ scope.names := by
      simpa [Cache.Diff.between, Snapshot.names] using member
    by_contra left
    have known := Keyed.mem_names.mp gone.1
    simp [stays name left, Snapshot.get?_eq_none.mpr gone.2] at known

private theorem artifactsOf_mono {tables more : List String} (subset : tables ⊆ more) :
    artifactsOf settings tables ⊆ artifactsOf settings more := by
  intro path member
  obtain ⟨table, inside, artifact⟩ := List.mem_flatMap.mp member
  exact List.mem_flatMap.mpr ⟨table, subset inside, artifact⟩

/-- A run that ended normally, with what it found and planned. -/
structure Attempt (settings : Settings) (source : Source) (start : World) (plan : Plan) (outcome : Outcome)
    (final : World) : Prop where
  rooted : start.disk.Rooted
  still : final.disk.Rooted
  source : plan.source = source
  planned : Planned settings false start plan
  completed : Completed settings plan start outcome final

private theorem attempt_of_sync {source : Source} {outcome : Outcome} (rooted : world.disk.Rooted)
    (found : (runIn (Run.source settings (cacheOf settings)) world).1 = .ok source)
    (ends : runIn (sync settings false) world = (.ok outcome, after)) :
    ∃ plan, Attempt settings source world plan outcome after := by
  obtain ⟨_, plan, planned, completed⟩ := sync_ok rooted ends
  have onward := (advances_sync settings false).onward ends
  exact ⟨plan, rooted, onward.rooted rooted, Except.ok.inj (planned.found.symm.trans found), planned, completed⟩

namespace Attempt

variable {source : Source} {plan again : Plan} {ideal next done final : World} {expected outcome : Outcome}
    {files : List Payload}

theorem same (first : Attempt settings source ideal plan expected done)
    (second : Attempt settings source next again outcome final)
    (digests : (cacheOf settings).digestsOn next.disk = (cacheOf settings).digestsOn ideal.disk) : again = plan :=
  first.planned.same second.planned first.rooted second.rooted (second.source.trans first.source.symm) digests

private theorem agree (first : Attempt settings source ideal plan expected done)
    (second : Attempt settings source next plan outcome final)
    {path : Path} (outside : path ∉ (cacheOf settings).paths)
    (same : ∀ files, payloads settings (.ofDeclared plan.source.enums) (plan.scope settings) plan.diff.generate =
      .ok files →
      path ∉ files.map Payload.path → path ∉ artifactsOf settings plan.diff.remove →
        next.disk.file? path = ideal.disk.file? path)
    (rest : plan.diff.hasChanges = false → next.disk = ideal.disk) : final.disk.file? path = done.disk.file? path := by
  cases first.completed with
  | unchanged none _ untouched =>
    cases second.completed with
    | unchanged _ _ still => rw [still.disk, untouched.disk, rest none]
    | changed _ some _ _ _ => simp [none] at some
  | changed files some rendered _ executed =>
    cases second.completed with
    | unchanged none _ _ => simp [none] at some
    | changed others _ made _ repeated =>
      obtain rfl : files = others := Except.ok.inj (rendered.symm.trans made)
      exact executed_agree executed repeated outside (same files rendered)

/-- When all models are as they should be and only removed tables are left over, no file changes any more. -/
theorem rests (second : Attempt settings plan.source next again outcome final)
    (rendered : payloads settings (.ofDeclared plan.source.enums) (plan.scope settings) plan.diff.generate = .ok files)
    (nothing : again.diff.generate = []) (fewer : again.diff.remove ⊆ plan.diff.remove) {before : Disk}
    (models : ∀ path, path ∉ (cacheOf settings).paths → next.disk.file? path =
      if path ∈ artifactsOf settings plan.diff.remove then none else contentAfter files path (before.file? path))
    (path : Path) (outside : path ∉ (cacheOf settings).paths) : final.disk.file? path = next.disk.file? path := by
  cases second.completed with
  | unchanged _ _ still => rw [still.disk]
  | changed others _ made _ executed =>
    rw [executed.files path outside]
    split
    · rename_i artifact
      rw [models path outside, if_pos (artifactsOf_mono fewer artifact)]
    · by_cases written : path ∈ others.map Payload.path
      · -- only the manifest is written again, and it is of the same tables
        rw [nothing] at made
        obtain ⟨_, empty, _⟩ | ⟨wanted, rfl⟩ := (path_of_payload made).mp written
        · cases empty
        obtain ⟨text, manifest, content⟩ := contentAfter_manifest made wanted (next.disk.file? (manifestPath settings))
        obtain ⟨other, listed, stood⟩ := contentAfter_manifest rendered wanted (before.file? (manifestPath settings))
        have scope : again.scope settings = plan.scope settings := by rw [Plan.scope, second.source, Plan.scope]
        obtain rfl : text = other := Except.ok.inj (manifest.symm.trans (scope ▸ listed))
        rw [content, models _ outside, if_neg (manifestPath_not_mem_artifactsOf _), stood]
      · exact contentAfter_of_not_mem written _

/-- After a stop before the commit the next run makes the same plan. -/
private theorem agree_early (first : Attempt settings source ideal plan expected done)
    (second : Attempt settings source next again outcome final)
    (some : plan.diff.hasChanges = true)
    (rendered : payloads settings (.ofDeclared plan.source.enums) (plan.scope settings) plan.diff.generate = .ok files)
    (closed : next.disk.isClosed (cacheOf settings).digestsPath = ideal.disk.isClosed (cacheOf settings).digestsPath)
    (others : ∀ path, path ∉ files.map Payload.path → path ∉ artifactsOf settings plan.diff.remove →
      next.disk.file? path = ideal.disk.file? path)
    (path : Path) (outside : path ∉ (cacheOf settings).paths) : final.disk.file? path = done.disk.file? path := by
  obtain ⟨written, artifact⟩ :=
    cached_not_delivered rendered plan.diff.remove (digestsPath_mem_paths (cacheOf settings))
  obtain rfl := first.same second (Cache.digestsOn_congr (others _ written artifact) closed)
  refine first.agree second outside (fun made renders written artifact => ?_) fun none => by simp [none] at some
  obtain rfl : files = made := Except.ok.inj (rendered.symm.trans renders)
  exact others path written artifact

/-- After a stop behind the commit a run that may not read the digests makes the same plan. -/
private theorem agree_closed (first : Attempt settings source ideal plan expected done)
    (second : Attempt settings source next again outcome final)
    (some : plan.diff.hasChanges = true)
    (rendered : payloads settings (.ofDeclared plan.source.enums) (plan.scope settings) plan.diff.generate = .ok files)
    (models : ∀ path, path ∉ (cacheOf settings).paths → next.disk.file? path =
      if path ∈ artifactsOf settings plan.diff.remove then none else contentAfter files path (ideal.disk.file? path))
    (closed : ideal.disk.isClosed (cacheOf settings).digestsPath = true)
    (still : next.disk.isClosed (cacheOf settings).digestsPath = true)
    (path : Path) (outside : path ∉ (cacheOf settings).paths) : final.disk.file? path = done.disk.file? path := by
  obtain rfl := first.same second ((Cache.digestsOn_of_closed still).trans (Cache.digestsOn_of_closed closed).symm)
  refine first.agree second outside (fun made renders written artifact => ?_) fun none => by simp [none] at some
  obtain rfl : files = made := Except.ok.inj (rendered.symm.trans renders)
  rw [models path outside, if_neg artifact, contentAfter_of_not_mem written]

/-- After a stop behind the commit the next run has no more to do than to remove. -/
private theorem agree_late (first : Attempt settings source ideal plan expected done)
    (second : Attempt settings source next again outcome final)
    (fetched : source.origin ≠ .fallback) (some : plan.diff.hasChanges = true)
    (rendered : payloads settings (.ofDeclared plan.source.enums) (plan.scope settings) plan.diff.generate = .ok files)
    (models : ∀ path, path ∉ (cacheOf settings).paths → next.disk.file? path =
      if path ∈ artifactsOf settings plan.diff.remove then none else contentAfter files path (ideal.disk.file? path))
    {known kept : Cache.Digests} (knew : (cacheOf settings).digestsOn ideal.disk = .ok known)
    (stored : (cacheOf settings).digestsOn next.disk = .ok kept)
    (each : ∀ name, Keyed.get? kept name = Keyed.get? (Cache.withTables known plan.diff.generate) name ∨
      name ∈ plan.diff.remove ∧ Keyed.get? kept name = none)
    (path : Path) (outside : path ∉ (cacheOf settings).paths) : final.disk.file? path = done.disk.file? path := by
  have origin : plan.source.origin ≠ .fallback := first.source ▸ fetched
  have originAgain : again.source.origin ≠ .fallback := second.source ▸ fetched
  obtain ⟨loaded, loads, made⟩ := first.planned.compared origin
  obtain rfl : loaded = known :=
    Except.ok.inj ((Cache.loadDigests_ok first.rooted (Prod.ext loads rfl)).symm.trans knew)
  obtain ⟨left, reloads, remade⟩ := second.planned.compared originAgain
  obtain rfl : left = kept :=
    Except.ok.inj ((Cache.loadDigests_ok second.rooted (Prod.ext reloads rfl)).symm.trans stored)
  obtain ⟨nothing, fewer⟩ := between_left origin made each
  have scope : again.scope settings = plan.scope settings := by
    rw [Plan.scope, second.source, ← first.source, Plan.scope]
  rw [adjusted, if_neg (by simpa using originAgain), if_neg (by simp), scope] at remade
  obtain rfl := first.source
  rw [second.rests rendered (remade ▸ nothing) (remade ▸ fewer) models path outside, models path outside]
  cases first.completed with
  | unchanged none _ _ => simp [none] at some
  | changed others _ renders _ executed =>
    obtain rfl : files = others := Except.ok.inj (rendered.symm.trans renders)
    rw [executed.files path outside]

/-- What is loaded after a run that ends normally: nothing if the digests may not be read. -/
theorem loads (attempt : Attempt settings source next plan outcome final) (fetched : source.origin ≠ .fallback) :
    ∃ digests, (runIn (cacheOf settings).loadDigests final).1 = .ok digests ∧ ∀ name, Keyed.get? digests name =
      if next.disk.isClosed (cacheOf settings).digestsPath then none
      else ((inScope settings source.snapshot).get? name).map Table.digest := by
  obtain rfl := attempt.source
  cases closed : next.disk.isClosed (cacheOf settings).digestsPath with
  | true =>
    have still := isClosed_of_completed attempt.completed _ (digestsPath_mem_paths _)
    exact ⟨[], loads_of_closed attempt.still (still.trans closed), fun _ => rfl⟩
  | false =>
    obtain ⟨digests, loaded, _, each⟩ :=
      settled_of_completed attempt.rooted attempt.still closed fetched attempt.planned attempt.completed
    exact ⟨digests, loaded, each⟩

end Attempt

/-- When a run has failed, a second one that fetches the same schema and ends normally leaves the same files and the
same digests as one that was never disturbed. -/
theorem retry_converges (always : settings.fetch = .always) (rooted : world.disk.Rooted) {contents : Document.Contents}
    {failure : Failure} {crashed next final ideal done : World} {outcome expected : Outcome}
    (stops : runIn (sync settings false) world = (.error failure, crashed))
    (resumed : next.disk = crashed.disk) (retries : runIn (sync settings false) next = (.ok outcome, final))
    (afresh : ideal.disk = world.disk) (completes : runIn (sync settings false) ideal = (.ok expected, done))
    (same : ∀ start ∈ [world, next, ideal], (serverOf settings).contents start.response = .ok contents) :
    (∀ path, path ∉ (cacheOf settings).paths → final.disk.file? path = done.disk.file? path) ∧
      ∃ stored others, (runIn (cacheOf settings).loadDigests final).1 = .ok stored ∧
        (runIn (cacheOf settings).loadDigests done).1 = .ok others ∧
        ∀ name, Keyed.get? stored name = Keyed.get? others name := by
  have found : ∀ start ∈ [world, next, ideal], (runIn (source settings (cacheOf settings)) start).1 =
      .ok (fetched contents) :=
    fun start member => source_of_contents always (same start member) _
  have origin : (fetched contents).origin ≠ .fallback := by simp [fetched]
  have onward := (advances_sync settings false).onward stops
  have closed : next.disk.isClosed (cacheOf settings).digestsPath =
      ideal.disk.isClosed (cacheOf settings).digestsPath := by
    have kept := sync_closed settings false world (digestsPath_mem_paths _)
    rwa [stops, ← resumed, ← afresh] at kept
  obtain ⟨again, second⟩ := attempt_of_sync (resumed ▸ onward.rooted rooted) (found next (by simp)) retries
  obtain ⟨plan, first⟩ := attempt_of_sync (afresh ▸ rooted) (found ideal (by simp)) completes
  constructor
  · rcases sync_halted rooted stops with untouched | ⟨ready, files, sound, has, halted⟩
    · have disk : next.disk = ideal.disk := resumed.trans (untouched.trans afresh.symm)
      obtain rfl := first.same second (by rw [disk])
      exact fun path outside => first.agree second outside (fun _ _ _ _ => by rw [disk]) fun _ => disk
    · -- what was planned from the world that failed is planned from one with the same disk
      have source : ready.plan.source = plan.source :=
        (Except.ok.inj (sound.planned.found.symm.trans (found world (by simp)))).trans first.source.symm
      have plans := first.planned.same sound.planned first.rooted rooted source (by rw [afresh])
      obtain ⟨some, rendered⟩ := sound.rendered files has
      rw [← resumed, ← afresh, plans] at halted
      rw [plans] at some rendered
      cases halted with
      | early others => exact first.agree_early second some rendered closed others
      | late models digests =>
        obtain ⟨known, kept, knew, stored, each⟩ := digests
        cases shut : ideal.disk.isClosed (cacheOf settings).digestsPath with
        | true => exact first.agree_closed second some rendered models shut (closed.trans shut)
        | false =>
          rw [← Cache.digestsOn_of_open (closed.trans shut)] at stored
          exact first.agree_late second origin some rendered models knew stored each
  · obtain ⟨stored, loads, each⟩ := second.loads origin
    obtain ⟨others, reloads, every⟩ := first.loads origin
    exact ⟨stored, others, loads, reloads, fun name => by rw [each, every, closed]⟩

namespace Blog

/-- A disk with the model of a table that the server does not know any more. -/
def former : Disk :=
  ⟨[(["models"], .directory), (["models", "old.py"], .file { content := .text "" }), ([".supadantic"], .directory),
  ([".supadantic", "table_hashes.json"], .file { content := .text "\x7b\"old\": \"\"\x7d" })]⟩

def aged (trouble : Nat → Bool) : World := { disk := former, response := bareAnswer, trouble := trouble }

/-- These digests are stored on a disk. -/
def keeps (digests : Cache.Digests) (disk : Disk) : Bool :=
  match (cacheOf (options false)).digestsOn disk with
  | .ok found => found == digests
  | .error _ => false

private theorem digestsOn_of_check {disk : Disk} {digests : Cache.Digests} (seen : keeps digests disk = true) :
    (cacheOf (options false)).digestsOn disk = .ok digests := by
  rw [keeps] at seen
  split at seen
  · rename_i found
    rw [found, eq_of_beq seen]
  · cases seen

private theorem rooted_former : former.Rooted := rooted_of_entries (by decide +kernel)

private theorem calm_of_entries {disk : Disk} (rooted : disk.Rooted) {digests : Cache.Digests}
    (clear : ∀ path ∈ [[], ["models"], [".supadantic"]], disk.file? path = none)
    (flat : flatAtTwo disk = true)
    (stored : (cacheOf (options false)).digestsOn disk = .ok digests) (response : Document.Response) :
    Calm (options false) { disk := disk, response := response } := by
  refine ⟨rfl, rooted, orderly_of_entries ?_ ?_ flat, digests, stored⟩
  · have within : ∀ directory ∈ [["models"], [".supadantic"]], ∀ path ∈ Path.ancestors directory ++ [directory],
        path ∈ ([[], ["models"], [".supadantic"]] : List Path) := by decide
    rw [directories]
    exact fun directory member path between => clear path (within directory member path between)
  · rw [directories]
    decide

/-- The run writes the new model and deletes the old one. Then it cannot move the new digests to their place. -/
private theorem stops_former : ∃ failure crashed,
    runIn (sync (options false) false) (aged (· == 12)) = (.error failure, crashed) ∧
      ((crashed.disk.file? (modelPath (options false) "posts")).isSome ∧
        crashed.disk.file? (modelPath (options false) "old") = none) ∧
      (∀ path ∈ [[], ["models"], [".supadantic"]], crashed.disk.file? path = none) ∧
      flatAtTwo crashed.disk = true ∧
      (cacheOf (options false)).digestsOn crashed.disk = .ok [("old", "")] := by
  have seen : stopsWith (fun after => decide (((after.disk.file? (modelPath (options false) "posts")).isSome ∧
        after.disk.file? (modelPath (options false) "old") = none) ∧
      (∀ path ∈ [[], ["models"], [".supadantic"]], after.disk.file? path = none) ∧ flatAtTwo after.disk = true) &&
      keeps [("old", "")] after.disk) (runIn (sync (options false) false) (aged (· == 12))) = true := by
    rw [runIn_sync false contents_bare (aged (· == 12)) rfl]
    decide +kernel
  obtain ⟨failure, crashed, ran, left⟩ := stops_of_check seen
  simp only [Bool.and_eq_true, decide_eq_true_eq] at left
  obtain ⟨⟨models, clear, flat⟩, stored⟩ := left
  exact ⟨failure, crashed, ran, models, clear, flat, digestsOn_of_check stored⟩

private theorem ends_aged {disk : Disk} (calm : Calm (options false) { disk := disk, response := bareAnswer })
    (digests : (cacheOf (options false)).digestsOn disk = .ok [("old", "")]) :
    ∃ outcome after, runIn (sync (options false) false) { disk := disk, response := bareAnswer } =
      (.ok outcome, after) := by
  have brief : ∀ name ∈ Keyed.names [("old", "")], Brief name := by decide +kernel
  have found := source_of_answer false contents_bare { disk := disk, response := bareAnswer } rfl
  obtain ⟨outcome, after, ran, _⟩ :=
    sync_ends (laid false) calm (usable false) found (feasible_bare false) digests brief false
  exact ⟨outcome, after, ran⟩

end Blog

theorem blog_retry_converges : ∃ (failure : Failure) (crashed next final done : World) (outcome expected : Outcome),
    runIn (sync (Blog.options false) false) (Blog.aged (· == 12)) = (.error failure, crashed) ∧
      next.disk = crashed.disk ∧ runIn (sync (Blog.options false) false) next = (.ok outcome, final) ∧
      runIn (sync (Blog.options false) false) { disk := Blog.former, response := Blog.bareAnswer } =
        (.ok expected, done) ∧
      ∀ path, path ∉ (cacheOf (Blog.options false)).paths → final.disk.file? path = done.disk.file? path := by
  obtain ⟨failure, crashed, stops, _, clear, flat, stored⟩ := Blog.stops_former
  have onward := (advances_sync (Blog.options false) false).onward stops
  have before : (cacheOf (Blog.options false)).digestsOn Blog.former = .ok [("old", "")] :=
    Blog.digestsOn_of_check (by decide +kernel)
  obtain ⟨outcome, final, retries⟩ := Blog.ends_aged
    (Blog.calm_of_entries (onward.rooted Blog.rooted_former) clear flat stored Blog.bareAnswer) stored
  obtain ⟨expected, done, completes⟩ := Blog.ends_aged
    (Blog.calm_of_entries Blog.rooted_former (by decide +kernel) (by decide +kernel) before Blog.bareAnswer) before
  have same : ∀ start ∈ [Blog.aged (· == 12), { disk := crashed.disk, response := Blog.bareAnswer },
      { disk := Blog.former, response := Blog.bareAnswer }],
      (serverOf (Blog.options false)).contents start.response = .ok Blog.bare := by
    simp only [List.mem_cons, List.not_mem_nil, or_false, forall_eq_or_imp, forall_eq, Blog.aged,
      Blog.contents_bare, and_self]
  have converges :=
    @retry_converges (Blog.options false) (Blog.aged (· == 12)) rfl Blog.rooted_former Blog.bare failure crashed
      { disk := crashed.disk, response := Blog.bareAnswer } final { disk := Blog.former, response := Blog.bareAnswer }
      done outcome expected stops rfl retries rfl completes same
  exact ⟨failure, crashed, { disk := crashed.disk, response := Blog.bareAnswer }, final, done, outcome, expected,
    stops, rfl, retries, completes, converges.1⟩

end TableModels.Run
