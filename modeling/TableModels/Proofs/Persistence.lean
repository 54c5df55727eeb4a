import TableModels.Proofs.Documents
import TableModels.Proofs.Steady
import TableModels.Proofs.Stopped
import TableModels.Proofs.Stored

/-! The stored schema. A run that fetches and has something to do stores the schema with the enumerated types, for
runs that cannot fetch. A run that finds nothing to do leaves what was stored before. -/

namespace TableModels.Run

open Act World Schema

variable {settings : Settings} {cache : Cache} {world after : World}

namespace Cache

def snapshotOfData (data : Option Value) : Option Snapshot :=
  data.bind fun stored => (Snapshot.ofStored stored).toOption

def enumsOfData (data : Option Value) : Keyed (List String) := (data.bind enumsOf?).getD []

theorem runIn_loadSnapshot (cache : Cache) (world : World) :
    (runIn cache.loadSnapshot world).1 =
      (runIn (readData cache.room cache.snapshotPath) world).1.map snapshotOfData := by
  refine runIn_load (fun data world => ?_) world
  cases data with
  | none => rfl
  | some value =>
    simp only [snapshotOfData, Option.bind_some]
    cases Snapshot.ofStored value <;> rfl

theorem runIn_loadEnums (cache : Cache) (world : World) :
    (runIn cache.loadEnums world).1 = (runIn (readData cache.room cache.enumsPath) world).1.map enumsOfData := by
  refine runIn_load (fun data world => ?_) world
  cases data with
  | none => rfl
  | some value =>
    simp only [enumsOfData, Option.bind_some]
    cases enumsOf? value <;> rfl

theorem loadSnapshot_of_closed (rooted : world.disk.Rooted) (closed : world.disk.isClosed cache.snapshotPath = true) :
    (runIn cache.loadSnapshot world).1 = .ok none := by
  rw [runIn_loadSnapshot, readData_of_closed rooted closed]
  rfl

theorem loadEnums_of_closed (rooted : world.disk.Rooted) (closed : world.disk.isClosed cache.enumsPath = true) :
    (runIn cache.loadEnums world).1 = .ok [] := by
  rw [runIn_loadEnums, readData_of_closed rooted closed]
  rfl

theorem loadSnapshot_of_stored (rooted : world.disk.Rooted) (opened : world.disk.isClosed cache.snapshotPath = false)
    {snapshot : Snapshot}
    (stands : dataIn cache.room world.disk cache.snapshotPath =
      .ok (some (Json.sorted (Snapshot.storedTables snapshot.tables)))) :
    (runIn cache.loadSnapshot world).1 = .ok (some snapshot.declared) := by
  rw [runIn_loadSnapshot, readData_of_dataIn rooted opened stands]
  simp [Except.map, snapshotOfData, Snapshot.ofStored_stored, Except.toOption]

theorem loadEnums_of_stored (rooted : world.disk.Rooted) (opened : world.disk.isClosed cache.enumsPath = false)
    {enums : Keyed (List String)}
    (stands : dataIn cache.room world.disk cache.enumsPath = .ok (some (Json.sorted (enumsData enums)))) :
    (runIn cache.loadEnums world).1 = .ok (Json.inOrder enums) := by
  rw [runIn_loadEnums, readData_of_dataIn rooted opened stands, sorted_enumsData]
  simp [Except.map, enumsOfData, enumsOf?_enumsData]

theorem persistSnapshot_ok {tables : List Table} (ends : runIn (cache.persistSnapshot tables) world = (.ok (), after)) :
    dataIn cache.room after.disk cache.snapshotPath = .ok (some (Json.sorted (Snapshot.storedTables tables))) :=
  dataIn_of_wrote (isPlain_storedTables cache.roomy tables) (by simp [Snapshot.storedTables, Json.sorted])
    (writeText_ok ends)

theorem persistEnums_ok {enums : Keyed (List String)} (distinct : (Keyed.names enums).Nodup)
    (ends : runIn (cache.persistEnums enums) world = (.ok (), after)) :
    dataIn cache.room after.disk cache.enumsPath = .ok (some (Json.sorted (enumsData enums))) :=
  dataIn_of_wrote (isPlain_enumsData cache.roomy distinct) (by simp [enumsData, Json.sorted]) (writeText_ok ends)

end Cache

private theorem enums_nodup_of_contents {server : Document.Server} {response : Document.Response}
    {contents : Document.Contents}
    (holds : server.contents response = .ok contents) : (Keyed.names contents.enums).Nodup := by
  obtain ⟨document, _, read⟩ := bind_ok.mp holds
  obtain ⟨_, _, _, _, _, _, _, _, _, _, rfl⟩ := Document.read_ok.mp (mapError_ok.mp read)
  exact Keyed.nodup_ofList _

theorem fromCache_source {snapshot : Snapshot} {origin : Origin} {line : Log.Line} {source : Source}
    (ends : runIn (fromCache cache snapshot origin line) world = (.ok source, after)) :
    source.snapshot = snapshot ∧ source.origin = origin := by
  obtain ⟨_, _, _, ends⟩ := runIn_bind_ok ends
  obtain ⟨enums, _, _, ends⟩ := runIn_bind_ok ends
  obtain rfl := Except.ok.inj (Prod.mk.inj ends).1
  exact ⟨rfl, rfl⟩

theorem fromCache_ok {snapshot : Snapshot} {origin : Origin} {line : Log.Line} {source : Source}
    (ends : runIn (fromCache cache snapshot origin line) world = (.ok source, after)) : source.origin = origin :=
  (fromCache_source ends).2

private theorem fetchSource_ok {source : Source} (ends : runIn (fetchSource settings cache) world = (.ok source, after))
    (origin : source.origin = .fetched) :
    ∃ contents, (serverOf settings).contents world.response = .ok contents ∧ source = fetched contents := by
  simp only [fetchSource, runIn_bind, runIn_note, runIn_send, runIn_notes] at ends
  split at ends
  · rename_i contents holds
    exact ⟨contents, holds, (Except.ok.inj (Prod.mk.inj ends).1).symm⟩
  · obtain ⟨_, _, _, ends⟩ := runIn_bind_ok ends
    obtain ⟨stored, _, _, ends⟩ := runIn_bind_ok ends
    split at ends
    · cases (Prod.mk.inj ends).1
    · rw [fromCache_ok ends] at origin
      cases origin
  · cases (Prod.mk.inj ends).1
  · cases (Prod.mk.inj ends).1

/-- A source that says that it was fetched is what the server answered. -/
theorem contents_of_fetched {source : Source} (found : (runIn (Run.source settings cache) world).1 = .ok source)
    (origin : source.origin = .fetched) :
    ∃ contents, (serverOf settings).contents world.response = .ok contents ∧ source = fetched contents := by
  obtain ⟨after, ends⟩ := runIn_of_result found
  unfold Run.source at ends
  split at ends
  · exact fetchSource_ok ends origin
  · obtain ⟨stored, loaded, load, ends⟩ := runIn_bind_ok ends
    split at ends
    · cases (Prod.mk.inj ends).1
    · rw [fromCache_ok ends] at origin
      cases origin
  · obtain ⟨stored, loaded, load, ends⟩ := runIn_bind_ok ends
    have looked := ((observes_loadSnapshot cache).looked load).response
    split at ends
    · rw [← looked]
      exact fetchSource_ok ends origin
    · rw [fromCache_ok ends] at origin
      cases origin

private theorem record_stores {source : Source} {diff : Cache.Diff} (origin : source.origin = .fetched)
    (distinct : (Keyed.names source.enums).Nodup) (ends : runIn (record cache source diff) world = (.ok (), after)) :
    Cache.dataIn cache.room after.disk cache.snapshotPath =
        .ok (some (Json.sorted (Snapshot.storedTables source.snapshot.tables))) ∧
      Cache.dataIn cache.room after.disk cache.enumsPath = .ok (some (Json.sorted (Cache.enumsData source.enums))) := by
  obtain ⟨_, committed, _, ends⟩ := runIn_bind_ok ends
  obtain ⟨_, removed, _, ends⟩ := runIn_bind_ok ends
  rw [if_pos (by simp [origin])] at ends
  obtain ⟨⟨⟩, persisted, persist, ends⟩ := runIn_bind_ok ends
  have snapshot := Cache.persistSnapshot_ok persist
  have enums := Cache.persistEnums_ok distinct ends
  have wrote := writeText_ok ends
  have apart : cache.snapshotPath ≠ cache.enumsPath := by simp [Cache.snapshotPath, Cache.enumsPath]
  exact ⟨(Cache.dataIn_congr (by rw [wrote.file?, if_neg apart])).trans snapshot, enums⟩

theorem Completed.hasChanges {plan : Plan} {outcome : Outcome}
    (completed : Completed settings plan world outcome after) :
    outcome.hasChanges = plan.diff.hasChanges := by
  obtain ⟨generated, removed, _⟩ := completed.outcome
  simp [Outcome.hasChanges, Cache.Diff.hasChanges, generated, removed]

/-- A run that fetched and had something to do has stored what it fetched. -/
theorem sync_stores {force : Bool} {outcome : Outcome} (ends : runIn (sync settings force) world = (.ok outcome, after))
    (origin : outcome.origin = .fetched) (changes : outcome.hasChanges = true) :
    ∃ contents, (serverOf settings).contents world.response = .ok contents ∧
      Cache.dataIn (cacheOf settings).room after.disk (cacheOf settings).snapshotPath =
        .ok (some (Json.sorted (Snapshot.storedTables contents.snapshot.tables))) ∧
      Cache.dataIn (cacheOf settings).room after.disk (cacheOf settings).enumsPath =
        .ok (some (Json.sorted (Cache.enumsData contents.enums))) := by
  obtain ⟨ready, deleted, prepared, delivered, sound, _, ends⟩ := sync_parts ends
  have found := sound.planned.found
  simp only [conclude] at ends
  cases files : ready.files with
  | none =>
    rw [files] at ends
    obtain rfl := Except.ok.inj (Prod.mk.inj ends).1
    simp [Outcome.hasChanges] at changes
  | some made =>
    rw [files] at ends
    obtain ⟨⟨⟩, stored, records, ends⟩ := runIn_bind_ok ends
    obtain ⟨_, noted, note, ends⟩ := runIn_bind_ok ends
    obtain ⟨result, rfl⟩ := Prod.mk.inj ends
    obtain ⟨_, rfl⟩ := Prod.mk.inj note
    obtain rfl := Except.ok.inj result
    obtain ⟨contents, holds, same⟩ := contents_of_fetched found origin
    have stores := record_stores origin (same ▸ enums_nodup_of_contents holds) records
    rw [same] at stores
    exact ⟨contents, holds, stores⟩

/-- A run has something to do if there are no digests, and tables in scope. -/
theorem hasChanges_of_fresh {force : Bool} {outcome : Outcome} (rooted : world.disk.Rooted)
    (fresh : (cacheOf settings).digestsOn world.disk = .ok [])
    (ends : runIn (sync settings force) world = (.ok outcome, after))
    {source : Source} (found : (runIn (Run.source settings (cacheOf settings)) world).1 = .ok source)
    (origin : source.origin ≠ .fallback) : outcome.hasChanges = !(inScope settings source.snapshot).tables.isEmpty := by
  obtain ⟨_, plan, planned, completed⟩ := sync_ok rooted ends
  obtain rfl : plan.source = source := Except.ok.inj (planned.found.symm.trans found)
  obtain ⟨digests, loaded, made⟩ := planned.compared origin
  obtain rfl : [] = digests := Except.ok.inj (fresh.symm.trans (Cache.loadDigests_ok rooted (Prod.ext loaded rfl)))
  rw [completed.hasChanges, made, adjusted_of_empty, Plan.scope]
  simp [Cache.Diff.hasChanges]

/-- The enumerated types that a run would load are these. -/
def EnumsLoad (cache : Cache) (enums : Keyed (List String)) (world : World) : Prop :=
  ∃ stored, (runIn cache.loadEnums world).1 = .ok stored ∧ ∀ name, Keyed.get? stored name = Keyed.get? enums name

/-- After a run that fetched, the stored schema is the one just fetched, with all its tables and without their
references, if the run had something to do or if this schema was stored before. The same goes for the enumerated
types. A run that finds all models up to date stores neither, and from a file that runs may not read nothing is
loaded. -/
theorem sync_stores_schema_iff {force : Bool} {outcome : Outcome} (rooted : world.disk.Rooted)
    (ends : runIn (sync settings force) world = (.ok outcome, after)) (origin : outcome.origin = .fetched) :
    ∃ contents, (serverOf settings).contents world.response = .ok contents ∧
      ((runIn (cacheOf settings).loadSnapshot after).1 = .ok (some contents.snapshot.declared) ↔
        outcome.hasChanges = true ∧ world.disk.isClosed (cacheOf settings).snapshotPath = false ∨
          (runIn (cacheOf settings).loadSnapshot world).1 = .ok (some contents.snapshot.declared)) ∧
      (EnumsLoad (cacheOf settings) contents.enums after ↔
        outcome.hasChanges = true ∧ world.disk.isClosed (cacheOf settings).enumsPath = false ∨
          EnumsLoad (cacheOf settings) contents.enums world) := by
  obtain ⟨_, plan, planned, completed⟩ := sync_ok rooted ends
  cases changes : outcome.hasChanges with
  | true =>
    obtain ⟨contents, holds, snapshot, enums⟩ := sync_stores ends origin changes
    have rootedAfter := ((advances_sync settings force).onward ends).rooted rooted
    have sameSnapshot := isClosed_of_completed completed (cacheOf settings).snapshotPath (by simp [Cache.paths])
    have sameEnums := isClosed_of_completed completed (cacheOf settings).enumsPath (by simp [Cache.paths])
    refine ⟨contents, holds, ?_, ?_⟩
    · cases closed : world.disk.isClosed (cacheOf settings).snapshotPath with
      | true =>
        rw [Cache.loadSnapshot_of_closed rootedAfter (sameSnapshot.trans closed),
          Cache.loadSnapshot_of_closed rooted closed]
        simp
      | false => simp [Cache.loadSnapshot_of_stored rootedAfter (sameSnapshot.trans closed) snapshot]
    · cases closed : world.disk.isClosed (cacheOf settings).enumsPath with
      | true =>
        rw [EnumsLoad, EnumsLoad, Cache.loadEnums_of_closed rootedAfter (sameEnums.trans closed),
          Cache.loadEnums_of_closed rooted closed]
        simp
      | false =>
        have loads := Cache.loadEnums_of_stored rootedAfter (sameEnums.trans closed) enums
        exact ⟨fun _ => .inl ⟨rfl, rfl⟩, fun _ => ⟨_, loads, Keyed.get?_perm (enums_nodup_of_contents holds)
          (Json.inOrder_perm contents.enums)⟩⟩
  | false =>
    obtain ⟨contents, holds, _⟩ := contents_of_fetched planned.found (completed.outcome.2.2.symm.trans origin)
    have nothing := completed.hasChanges.symm.trans changes
    cases completed with
    | changed _ some _ _ _ => simp [nothing] at some
    | unchanged _ _ untouched =>
      refine ⟨contents, holds, ?_, ?_⟩
      · rw [(observes_loadSnapshot _).again untouched]
        simp
      · rw [EnumsLoad, EnumsLoad, (observes_loadEnums _).again untouched]
        simp

namespace Roles

def contents (values : List String) : Document.Contents where
  snapshot :=
    ⟨[⟨"users", [{ name := "role", sourceType := "users_role" }], List.nodup_singleton _⟩], List.pairwise_singleton _ _⟩
  enums := [("users_role", values)]
  foreignKeys := []

def answer (values : String) : Document.Response := .answer 200
  ("\x7b\"definitions\":\x7b\"users\":\x7b\"properties\":\x7b\"role\":\x7b\"enum\":" ++ values ++
    "\x7d\x7d\x7d\x7d\x7d")

private theorem contents_one (settings : Settings) :
    (serverOf settings).contents (answer "[\"member\"]") = .ok (contents ["member"]) := by cbv

private theorem contents_two (settings : Settings) :
    (serverOf settings).contents (answer "[\"member\",\"owner\"]") = .ok (contents ["member", "owner"]) := by cbv

theorem feasible : Feasible (Blog.options false) (fetched (contents ["member"])) := by
  refine feasible_of_plain (by simp [fetched]) ?_ ?_ (by simp [Blog.options])
  · decide +kernel
  · decide +kernel

end Roles

/-- Another value of an enumerated type makes no table different, so the run that fetches it does not store it. -/
theorem roles_not_stored : ∃ world outcome after, runIn (sync (Blog.options false) false) world = (.ok outcome, after) ∧
    outcome.origin = .fetched ∧
    (serverOf (Blog.options false)).contents world.response = .ok (Roles.contents ["member", "owner"]) ∧
    ¬ EnumsLoad (cacheOf (Blog.options false)) (Roles.contents ["member", "owner"]).enums after := by
  have found := Blog.source_of_answer false Roles.contents_one { response := Roles.answer "[\"member\"]" } rfl
  have stored := Cache.digestsOn_of_missing (Disk.file?_empty (cacheOf (Blog.options false)).digestsPath)
  obtain ⟨first, middle, ends, origin, calm⟩ :=
    sync_ends (Blog.laid false) (Blog.calm false (Roles.answer "[\"member\"]"))
    (Blog.usable false) found Roles.feasible stored (by simp [Keyed.names]) false
  obtain ⟨_, plan, planned, completed⟩ := sync_ok Disk.rooted_empty ends
  obtain source : plan.source = fetched (Roles.contents ["member"]) := Except.ok.inj (planned.found.symm.trans found)
  have fresh : plan.source.origin ≠ .fallback := by simp [source, fetched]
  have changes : first.hasChanges = true := by
    rw [hasChanges_of_fresh Disk.rooted_empty stored ends found (by simp [fetched])]
    decide +kernel
  obtain ⟨contents, holds, _, enums⟩ := sync_stores ends origin changes
  obtain rfl : Roles.contents ["member"] = contents := Except.ok.inj ((Roles.contents_one _).symm.trans holds)
  have settled := settled_of_completed Disk.rooted_empty calm.rooted rfl fresh planned completed
  rw [Plan.scope, source] at settled
  -- the same tables are fetched again, with one more value
  obtain ⟨next, disk, response⟩ : ∃ next : World, next.disk = middle.disk ∧
      next.response = Roles.answer "[\"member\",\"owner\"]" :=
    ⟨{ middle with response := Roles.answer "[\"member\",\"owner\"]" }, rfl, rfl⟩
  have again :
      Settled (Blog.options false) (inScope (Blog.options false) (Roles.contents ["member", "owner"]).snapshot) next :=
    settled.congr disk rfl
  have refound := Blog.source_of_answer false Roles.contents_two next response
  have given : (serverOf (Blog.options false)).contents next.response = .ok (Roles.contents ["member", "owner"]) := by
    rw [response, Roles.contents_two]
  obtain ⟨after, rests, _⟩ := sync_yields_of_settled (Blog.usable false) (by simp [fetched]) refound again
  refine ⟨next, _, after, rests, rfl, given, fun loads => ?_⟩
  obtain ⟨others, holds, _, iff⟩ := sync_stores_schema_iff (disk ▸ calm.rooted) rests rfl
  obtain rfl := Except.ok.inj (given.symm.trans holds)
  rcases iff.mp loads with changed | ⟨kept, loaded, same⟩
  · cases changed.1
  · have opened : next.disk.isClosed (cacheOf (Blog.options false)).enumsPath = false := by
      rw [disk, isClosed_of_completed completed _ (by simp [Cache.paths])]
      rfl
    rw [Cache.loadEnums_of_stored (disk ▸ calm.rooted) opened (disk ▸ enums)] at loaded
    obtain rfl := Except.ok.inj loaded
    have values := same "users_role"
    simp [Roles.contents, Json.inOrder, Keyed.get?] at values

end TableModels.Run
