import TableModels.Proofs.CacheFiles

/-! A cache as a finite map. Whatever operations it goes through, what is loaded afterwards is what the same operations
make of what was loaded before. Digests are a map from the names of tables, next to a schema and enumerated types that
no operation on digests touches. Digests that cannot be read stay so until they are cleared. -/

namespace TableModels.Run.Cache

open Act World Schema

variable {cache : Cache} {world after : World}

/-- The digests of tables by name. -/
abbrev Marks := String → Option String

/-- What changes the files of a cache. -/
inductive Operation where
  | commit (tables : List Table)
  | removeEntry (table : String)
  | clearDigests
  | persistSnapshot (tables : List Table)
  | persistEnums (enums : Keyed (List String)) (distinct : (Keyed.names enums).Nodup)

structure Loaded where
  digests : Except Failure Marks
  snapshot : Except Failure (Option Snapshot)
  enums : Except Failure (Keyed (List String))

def loaded (cache : Cache) (world : World) : Loaded where
  digests := (runIn cache.loadDigests world).1.map Keyed.get?
  snapshot := (runIn cache.loadSnapshot world).1
  enums := (runIn cache.loadEnums world).1

namespace Operation

def run (cache : Cache) : Operation → Act Unit
  | commit tables => cache.commit tables
  | removeEntry table => cache.removeEntry table
  | clearDigests => cache.clearDigests
  | persistSnapshot tables => cache.persistSnapshot tables
  | persistEnums enums _ => cache.persistEnums enums

/-- What an operation makes of digests that can be read. -/
def mark : Operation → Marks → Marks
  | commit tables, marks => tables.foldl (fun marks table => Function.update marks table.name (some table.digest)) marks
  | removeEntry table, marks => Function.update marks table none
  | clearDigests, _ => fun _ => none
  | persistSnapshot _, marks => marks
  | persistEnums _ _, marks => marks

/-- What an operation makes of all that is loaded. -/
def step (operation : Operation) (loaded : Loaded) : Loaded where
  digests := match operation with
    | clearDigests => .ok fun _ => none
    | _ => loaded.digests.map operation.mark
  snapshot := match operation with
    | persistSnapshot tables => .ok (Snapshot.ofTables (tables.map Table.declared)).toOption
    | _ => loaded.snapshot
  enums := match operation with
    | persistEnums enums _ => .ok (Json.inOrder enums)
    | _ => loaded.enums

/-- How an operation ends. Those that begin by loading the digests fail where that fails. -/
def outcome (loaded : Loaded) : Operation → Except Failure Unit
  | commit _ => loaded.digests.map fun _ => ()
  | removeEntry _ => loaded.digests.map fun _ => ()
  | _ => .ok ()

end Operation

/-- The world after operations one after the other, whether they fail or not. -/
def perform (cache : Cache) (operations : List Operation) (world : World) : World :=
  operations.foldl (fun world operation => (runIn (operation.run cache) world).2) world

private theorem loaded_congr {first second : World} (same : first.disk = second.disk) :
    cache.loaded first = cache.loaded second := by
  simp only [loaded, runIn_loadDigests, runIn_loadSnapshot, runIn_loadEnums, readData_congr same]

/-- Nothing stands in the way of the files of a cache, and they may all be read. -/
structure Accessible (cache : Cache) (world : World) : Prop extends cache.Writable world where
  opened : ∀ name ∈ fileNames, world.disk.isClosed (cache.directory.join name) = false

theorem Accessible.untouched (accessible : cache.Accessible world) (untouched : Untouched world after) :
    cache.Accessible after := ⟨accessible.toWritable.untouched untouched, untouched.disk ▸ accessible.opened⟩

theorem Accessible.reads (accessible : cache.Accessible world) {name : String} (member : name ∈ fileNames) :
    (runIn (readData cache.room (cache.directory.join name)) world).1 =
      dataIn cache.room world.disk (cache.directory.join name) := by
  rw [accessible.toWritable.reads member, dataOn_of_open (accessible.opened name member)]

private theorem Accessible.reads_digests (accessible : cache.Accessible world) :
    (runIn cache.loadDigests world).1 = cache.digestsIn world.disk := by
  have read : (runIn (readData cache.room cache.digestsPath) world).1 =
      dataIn cache.room world.disk cache.digestsPath :=
    accessible.reads (by simp [fileNames])
  rw [runIn_loadDigests, read]
  rfl

private theorem Accessible.loaded_eq (accessible : cache.Accessible world) : cache.loaded world =
    ⟨(cache.digestsIn world.disk).map Keyed.get?,
      (dataIn cache.room world.disk cache.snapshotPath).map snapshotOfData,
      (dataIn cache.room world.disk cache.enumsPath).map enumsOfData⟩ := by
  have snapshot : (runIn (readData cache.room cache.snapshotPath) world).1 =
      dataIn cache.room world.disk cache.snapshotPath := accessible.reads (by simp [fileNames])
  have enums : (runIn (readData cache.room cache.enumsPath) world).1 =
      dataIn cache.room world.disk cache.enumsPath := accessible.reads (by simp [fileNames])
  rw [loaded, accessible.reads_digests, runIn_loadSnapshot, runIn_loadEnums, snapshot, enums]

private theorem get?_withTables (known : Digests) (tables : List Table) :
    Keyed.get? (withTables known tables) = (Operation.commit tables).mark (Keyed.get? known) := by
  simp only [withTables, Operation.mark]
  induction tables generalizing known with
  | nil => rfl
  | cons table rest ih =>
    have first : Keyed.get? (Keyed.set known table.name table.digest) =
        Function.update (Keyed.get? known) table.name (some table.digest) := by
      funext name
      rw [Keyed.get?_set, Function.update_apply]
    rw [List.foldl_cons, List.foldl_cons, ih, first]

private theorem get?_erased (known : Digests) (table : String) :
    Keyed.get? (Keyed.erase known table) = (Operation.removeEntry table).mark (Keyed.get? known) := by
  funext name
  rw [Keyed.get?_erase, Operation.mark, Function.update_apply]

/-- The operation ends as it should, and what is loaded afterwards follows from what was loaded before. -/
def Operation.Refines (cache : Cache) (operation : Operation) (world : World) : Prop :=
  ∃ after, runIn (operation.run cache) world = (operation.outcome (cache.loaded world), after) ∧
    cache.Accessible after ∧
    cache.loaded after = operation.step (cache.loaded world)

/-- Data that is written to a file of the cache is in it, and the other files are as they were. -/
theorem Accessible.keeps (accessible : cache.Accessible world) {name : String} (member : name ∈ fileNames)
    {data : Value}
    (plain : Json.IsPlain cache.room data) (filled : Json.sorted data ≠ .null) :
    ∃ after, runIn (writeData (cache.directory.join name) data) world = (.ok (), after) ∧ cache.Accessible after ∧
      dataIn cache.room after.disk (cache.directory.join name) = .ok (some (Json.sorted data)) ∧
      ∀ path, path ≠ cache.directory.join name →
        dataIn cache.room after.disk path = dataIn cache.room world.disk path := by
  obtain ⟨after, ran, wrote, still⟩ := accessible.writes member (Json.indented data ++ "\n")
  have opened :=
    fun other inside => (wrote.isClosed (cache.directory.join other)).trans (accessible.opened other inside)
  refine ⟨after, ran, ⟨still, opened⟩, dataIn_of_wrote plain filled wrote, ?_⟩
  intro path apart
  apply dataIn_congr
  rw [wrote.file?, if_neg apart]

private theorem snapshotPath_ne_digestsPath (cache : Cache) : cache.snapshotPath ≠ cache.digestsPath := by
  simp [snapshotPath, digestsPath]

private theorem enumsPath_ne_digestsPath (cache : Cache) : cache.enumsPath ≠ cache.digestsPath := by
  simp [enumsPath, digestsPath]

private theorem enumsPath_ne_snapshotPath (cache : Cache) : cache.enumsPath ≠ cache.snapshotPath := by
  simp [enumsPath, snapshotPath]

/-- Digests that are written are what is loaded from then on. -/
theorem Accessible.marks (accessible : cache.Accessible world) {digests : Digests}
    (distinct : (Keyed.names digests).Nodup) :
    ∃ after, runIn (writeData cache.digestsPath (digestsData digests)) world = (.ok (), after) ∧
      cache.Accessible after ∧
      cache.loaded after = { cache.loaded world with digests := .ok (Keyed.get? digests) } := by
  have filled : Json.sorted (digestsData digests) ≠ .null := by
    rw [sorted_digestsData]
    simp [digestsData]
  have member : "table_hashes.json" ∈ fileNames := by simp [fileNames]
  obtain ⟨after, ran, still, stored, others⟩ :=
    accessible.keeps member (isPlain_digestsData cache.roomy distinct) filled
  have digests : (cache.digestsIn after.disk).map Keyed.get? = .ok (Keyed.get? digests) := by
    obtain ⟨kept, found, same⟩ := (writeDigests_ok distinct ran).stored
    rw [found]
    exact congrArg Except.ok (funext same)
  refine ⟨after, ran, still, ?_⟩
  rw [still.loaded_eq, accessible.loaded_eq, digests, others _ cache.snapshotPath_ne_digestsPath,
    others _ cache.enumsPath_ne_digestsPath]

/-- What begins by loading digests that cannot be read fails, and changes nothing. -/
theorem Accessible.stops (accessible : cache.Accessible world) {failure : Failure}
    (unreadable : cache.digestsIn world.disk = .error failure)
    {next : Digests → Act Unit} : ∃ after, runIn (cache.loadDigests >>= next) world = (.error failure, after) ∧
      cache.Accessible after ∧
      cache.loaded after = cache.loaded world := by
  rcases ran : runIn cache.loadDigests world with ⟨result, after⟩
  have untouched := (observes_loadDigests cache).looked ran
  have result : result = .error failure := by
    have read := accessible.reads_digests
    rw [ran, unreadable] at read
    exact read
  subst result
  refine ⟨after, ?_, accessible.untouched untouched, loaded_congr untouched.disk⟩
  rw [runIn_bind, ran]

theorem Accessible.loads (accessible : cache.Accessible world) {digests : Digests}
    (found : cache.digestsIn world.disk = .ok digests) :
    ∃ after, runIn cache.loadDigests world = (.ok digests, after) ∧ cache.Accessible after ∧
      cache.loaded after = cache.loaded world := by
  obtain ⟨after, ran, untouched⟩ := (observes_loadDigests cache).yields (accessible.reads_digests.trans found)
  exact ⟨after, ran, accessible.untouched untouched, loaded_congr untouched.disk⟩

private theorem Accessible.refines_of_unreadable (accessible : cache.Accessible world) {failure : Failure}
    (unreadable : cache.digestsIn world.disk = .error failure) {operation : Operation} {next : Digests → Act Unit}
    (begins : operation.run cache = cache.loadDigests >>= next)
    (fails : ∀ loaded : Loaded, operation.outcome loaded = loaded.digests.map fun _ => ())
    (steps : ∀ loaded : Loaded, operation.step loaded = { loaded with digests := loaded.digests.map operation.mark }) :
    operation.Refines cache world := by
  have digests : (cache.loaded world).digests = .error failure := by
    rw [accessible.loaded_eq, unreadable]
    rfl
  obtain ⟨after, ran, still, same⟩ := accessible.stops unreadable
  refine ⟨after, ?_, still, ?_⟩
  · rw [begins, ran, fails, digests]
    rfl
  · rw [same, steps, digests, Except.map, ← digests]

private theorem refines_commit (accessible : cache.Accessible world) (tables : List Table) :
    (Operation.commit tables).Refines cache world := by
  cases found : cache.digestsIn world.disk with
  | error failure => exact accessible.refines_of_unreadable found rfl (fun _ => rfl) fun _ => rfl
  | ok known =>
    obtain ⟨middle, ran, early, same⟩ := accessible.loads found
    obtain ⟨after, wrote, still, marked⟩ := early.marks (withTables_nodup (digestsIn_nodup found) tables)
    refine ⟨after, (runIn_bind_of_ok ran).trans (wrote.trans ?_), still, ?_⟩
    · simp [Operation.outcome, accessible.loaded_eq, found, Except.map]
    · simp [marked, same, Operation.step, accessible.loaded_eq, found, Except.map, get?_withTables]

private theorem refines_removeEntry (accessible : cache.Accessible world) (table : String) :
    (Operation.removeEntry table).Refines cache world := by
  cases found : cache.digestsIn world.disk with
  | error failure => exact accessible.refines_of_unreadable found rfl (fun _ => rfl) fun _ => rfl
  | ok known =>
    obtain ⟨middle, ran, early, same⟩ := accessible.loads found
    have ends : (Operation.removeEntry table).outcome (cache.loaded world) = .ok () := by
      simp [Operation.outcome, accessible.loaded_eq, found, Except.map]
    have runs : runIn ((Operation.removeEntry table).run cache) world = runIn (if Keyed.contains known table then
        writeData cache.digestsPath (digestsData (Keyed.erase known table)) else pure ()) middle := runIn_bind_of_ok ran
    by_cases contained : Keyed.contains known table = true
    · obtain ⟨after, wrote, still, marked⟩ := early.marks (Keyed.nodup_erase (digestsIn_nodup found) table)
      rw [if_pos contained] at runs
      refine ⟨after, (runs.trans wrote).trans (by rw [ends]), still, ?_⟩
      simp [marked, same, Operation.step, accessible.loaded_eq, found, Except.map, get?_erased]
    · rw [if_neg contained] at runs
      refine ⟨middle, runs.trans (by rw [ends]; rfl), early, ?_⟩
      have absent : Keyed.get? known table = none := by simpa [Keyed.contains] using contained
      have erased : (Operation.removeEntry table).mark (Keyed.get? known) = Keyed.get? known := by
        rw [Operation.mark, ← absent, Function.update_eq_self]
      simp [same, Operation.step, accessible.loaded_eq, found, Except.map, erased]

private theorem refines_clearDigests (accessible : cache.Accessible world) :
    Operation.clearDigests.Refines cache world := by
  have member : "table_hashes.json" ∈ fileNames := by simp [fileNames]
  have found : runIn (find cache.digestsPath) world = (.ok ((world.disk.file? cache.digestsPath).map fun content =>
      .file ⟨content, !world.disk.isClosed cache.digestsPath⟩), world) := accessible.finds member
  have cleared : ∀ disk : Disk, disk.file? cache.digestsPath = none →
      (cache.digestsIn disk).map Keyed.get? = .ok fun _ => none := by
    intro disk missing
    rw [digestsIn, dataIn_of_missing missing]
    rfl
  cases file : world.disk.file? cache.digestsPath with
  | none =>
    rw [file] at found
    refine ⟨world, runIn_bind_of_ok found, accessible, ?_⟩
    rw [accessible.loaded_eq, cleared _ file]
    rfl
  | some content =>
    rw [file] at found
    obtain ⟨after, ran, still, gone, others⟩ := accessible.removes member (by rw [← digestsPath, file]; rfl)
    have accessibleAfter : cache.Accessible after := by
      refine ⟨still, fun name inside => ?_⟩
      by_cases same : cache.directory.join name = cache.digestsPath
      · rw [same]
        exact Disk.isClosed_of_none gone
      · rw [Disk.isClosed_congr (others _ same), accessible.opened name inside]
    refine ⟨after, (runIn_bind_of_ok found).trans ran, accessibleAfter, ?_⟩
    rw [accessibleAfter.loaded_eq, accessible.loaded_eq, cleared _ gone,
      dataIn_congr (Disk.file?_congr (others _ cache.snapshotPath_ne_digestsPath)),
      dataIn_congr (Disk.file?_congr (others _ cache.enumsPath_ne_digestsPath))]
    rfl

private theorem refines_persistSnapshot (accessible : cache.Accessible world) (tables : List Table) :
    (Operation.persistSnapshot tables).Refines cache world := by
  have member : "schema_cache.json" ∈ fileNames := by simp [fileNames]
  have filled : Json.sorted (Snapshot.storedTables tables) ≠ .null := by simp [Snapshot.storedTables, Json.sorted]
  obtain ⟨after, ran, still, stored, others⟩ := accessible.keeps member (isPlain_storedTables cache.roomy tables) filled
  have digests : cache.digestsIn after.disk = cache.digestsIn world.disk := by
    rw [digestsIn, digestsIn, others _ cache.snapshotPath_ne_digestsPath.symm]
  have snapshot : dataIn cache.room after.disk cache.snapshotPath =
      .ok (some (Json.sorted (Snapshot.storedTables tables))) := stored
  refine ⟨after, ran, still, ?_⟩
  rw [still.loaded_eq, accessible.loaded_eq, digests, snapshot, others _ cache.enumsPath_ne_snapshotPath]
  cases made : Snapshot.ofTables (tables.map Table.declared) <;>
    cases cache.digestsIn world.disk <;>
      simp [Operation.step, Operation.mark, snapshotOfData, Snapshot.ofStored_storedTables, made, Except.map,
        Except.mapError, Except.toOption]

private theorem refines_persistEnums (accessible : cache.Accessible world) (enums : Keyed (List String))
    (distinct : (Keyed.names enums).Nodup) :
    (Operation.persistEnums enums distinct).Refines cache world := by
  have member : "enum_cache.json" ∈ fileNames := by simp [fileNames]
  have filled : Json.sorted (enumsData enums) ≠ .null := by simp [enumsData, Json.sorted]
  obtain ⟨after, ran, still, stored, others⟩ := accessible.keeps member (isPlain_enumsData cache.roomy distinct) filled
  have digests : cache.digestsIn after.disk = cache.digestsIn world.disk := by
    rw [digestsIn, digestsIn, others _ cache.enumsPath_ne_digestsPath.symm]
  have kept : dataIn cache.room after.disk cache.enumsPath = .ok (some (Json.sorted (enumsData enums))) := stored
  refine ⟨after, ran, still, ?_⟩
  rw [still.loaded_eq, accessible.loaded_eq, digests, kept, others _ cache.enumsPath_ne_snapshotPath.symm,
    sorted_enumsData]
  cases cache.digestsIn world.disk <;>
    simp [Operation.step, Operation.mark, enumsOfData, enumsOf?_enumsData, Except.map]

private theorem refines (accessible : cache.Accessible world) (operation : Operation) :
    operation.Refines cache world := by
  cases operation with
  | commit tables => exact refines_commit accessible tables
  | removeEntry table => exact refines_removeEntry accessible table
  | clearDigests => exact refines_clearDigests accessible
  | persistSnapshot tables => exact refines_persistSnapshot accessible tables
  | persistEnums enums distinct => exact refines_persistEnums accessible enums distinct

private theorem perform_accessible (accessible : cache.Accessible world) (operations : List Operation) :
    cache.Accessible (perform cache operations world) ∧
      cache.loaded (perform cache operations world) =
        operations.foldl (fun loaded operation => operation.step loaded) (cache.loaded world) := by
  induction operations generalizing world with
  | nil => exact ⟨accessible, rfl⟩
  | cons operation rest ih =>
    obtain ⟨after, ran, still, same⟩ := refines accessible operation
    have next : perform cache (operation :: rest) world = perform cache rest after := by
      simp only [perform, List.foldl_cons, ran]
    rw [next, List.foldl_cons, ← same]
    exact ih still

private theorem digests_of_steps {marks : Marks} (operations : List Operation) {first : Loaded}
    (readable : first.digests = .ok marks) :
    (operations.foldl (fun loaded operation => operation.step loaded) first).digests =
      .ok (operations.foldl (fun marks operation => operation.mark marks) marks) := by
  induction operations generalizing first marks with
  | nil => exact readable
  | cons operation rest ih =>
    rw [List.foldl_cons, List.foldl_cons]
    apply ih
    cases operation <;> simp [Operation.step, Operation.mark, readable, Except.map]

/-- A text that the reader reads, or finds to be no JSON. -/
def Harmless (room : Nat) (text : String) : Prop := ∀ fault, Json.read room text = .error fault → fault = .malformed

private theorem dataOfText_of_harmless {room : Nat} {text : String} (harmless : Harmless room text) :
    ∃ data, dataOfText room text = .ok data := by
  rw [dataOfText]
  split
  · exact ⟨none, rfl⟩
  split
  · exact ⟨none, rfl⟩
  · exact ⟨_, rfl⟩
  · exact ⟨none, rfl⟩
  · rename_i count long
    cases harmless _ long
  · rename_i nest deep
    cases harmless _ deep

private theorem digestsIn_readable {disk : Disk} (legible : ∀ content, disk.file? cache.digestsPath = some content →
    ∃ text, content = .text text ∧ Harmless cache.room text) : ∃ digests, cache.digestsIn disk = .ok digests := by
  cases file : disk.file? cache.digestsPath with
  | none => exact ⟨[], by rw [digestsIn, dataIn_of_missing file]; rfl⟩
  | some content =>
    obtain ⟨text, rfl, harmless⟩ := legible content file
    obtain ⟨data, read⟩ := dataOfText_of_harmless harmless
    exact ⟨digestsOfData data, map_ok.mpr ⟨data, (dataIn_of_file file).trans read, rfl⟩⟩

private theorem diff_of_marks (accessible : cache.Accessible world) (tables : List Table) {marks : Marks}
    (readable : (cache.loaded world).digests = .ok marks) : ∃ diff, (runIn (cache.diff tables) world).1 = .ok diff ∧
      diff.generate = tables.filter (fun table => decide (marks table.name ≠ some table.digest)) ∧
      diff.remove.Pairwise (· < ·) ∧
      ∀ name, name ∈ diff.remove ↔ (marks name).isSome ∧ name ∉ tables.map Table.name := by
  rw [accessible.loaded_eq] at readable
  cases found : cache.digestsIn world.disk with
  | error failure => simp [found, Except.map] at readable
  | ok digests =>
    rw [found] at readable
    obtain rfl : Keyed.get? digests = marks := Except.ok.inj readable
    obtain ⟨middle, ran, _, _⟩ := accessible.loads found
    refine ⟨Diff.between digests tables, ?_, ?_, ?_, ?_⟩
    · rw [Cache.diff, runIn_bind_of_ok ran]
      rfl
    · rw [Diff.between]
      apply List.filter_congr
      intro table _
      rw [bne, Bool.eq_iff_iff]
      simp
    · exact ascending_sortedNames ((digestsIn_nodup found).filter _)
    · intro name
      simp [Diff.between, Keyed.mem_names]

/-- A cache refines a finite map. After any operations what is loaded is what they make, one after the other, of what
was loaded at first, and each ends as it should. Comparing tables with digests gives those of which there is no digest
or another one, and the names of which there is no table. Digests that have been read at first form a map that is
written over, loses names and is reset, and those of a missing file or of a text always are, unless the text has a
whole number too long to convert or is nested too deep. -/
theorem cache_refines_map (accessible : cache.Accessible world) (operations : List Operation) :
    cache.loaded (perform cache operations world) =
      operations.foldl (fun loaded operation => operation.step loaded) (cache.loaded world) ∧
    (∀ operation : Operation, (runIn (operation.run cache) (perform cache operations world)).1 =
      operation.outcome (cache.loaded (perform cache operations world))) ∧
    (∀ tables marks, (cache.loaded (perform cache operations world)).digests = .ok marks →
      ∃ diff, (runIn (cache.diff tables) (perform cache operations world)).1 = .ok diff ∧
        diff.generate = tables.filter (fun table => decide (marks table.name ≠ some table.digest)) ∧
        diff.remove.Pairwise (· < ·) ∧
        ∀ name, name ∈ diff.remove ↔ (marks name).isSome ∧ name ∉ tables.map Table.name) ∧
    ((∀ content, world.disk.file? cache.digestsPath = some content →
        ∃ text, content = .text text ∧ Harmless cache.room text) →
      ∃ start, (cache.loaded world).digests = .ok start ∧ (cache.loaded (perform cache operations world)).digests =
        .ok (operations.foldl (fun marks operation => operation.mark marks) start)) := by
  obtain ⟨still, same⟩ := perform_accessible accessible operations
  refine ⟨same, ?_, ?_, ?_⟩
  · intro operation
    obtain ⟨after, ran, _⟩ := refines still operation
    rw [ran]
  · intro tables marks readable
    exact diff_of_marks still tables readable
  · intro legible
    obtain ⟨digests, found⟩ := digestsIn_readable legible
    have readable : (cache.loaded world).digests = .ok (Keyed.get? digests) := by
      rw [accessible.loaded_eq, found]
      rfl
    exact ⟨Keyed.get? digests, readable, same ▸ digests_of_steps operations readable⟩

namespace Damaged

private theorem accessible (digests : String) : place.Accessible (found digests) := by
  refine ⟨writable digests, fun name member => ?_⟩
  simp only [fileNames, List.mem_cons, List.not_mem_nil, or_false] at member
  rcases member with rfl | rfl | rfl <;> rfl

private theorem digestsIn_found (digests : String) :
    place.digestsIn (found digests).disk = (dataOfText place.room digests).map digestsOfData := rfl

private theorem unlisted : place.digestsIn (found "[]").disk = .ok [] := by
  have solid : (Text.strip "[]").isEmpty = false := Json.strip_solid rfl rfl
  have read : Json.read place.room "[]" = .ok (.list []) := rfl
  rw [digestsIn_found, dataOfText, solid, read]
  rfl

def long : String := String.ofList ('1' :: List.replicate 4300 '1')

theorem unconverted : place.digestsIn (found long).disk = .error (.tooManyDigits ⟨4301⟩) := by
  have digits : ∀ c ∈ '1' :: List.replicate 4300 '1', Text.isAsciiDigit c = true := by
    intro c member
    rcases List.mem_cons.mp member with rfl | later
    · rfl
    · rw [List.eq_of_mem_replicate later]
      rfl
  have solid : (Text.strip long).isEmpty = false := Json.strip_solid String.toList_ofList rfl
  have read : Json.read place.room long = .error (.tooManyDigits 4301) := by
    have many : Json.digitLimit < (List.replicate 4300 '1').length + 1 := by
      rw [List.length_replicate]
      decide
    have fails : Json.read place.room (String.ofList ('1' :: List.replicate 4300 '1')) =
        .error (.tooManyDigits ((List.replicate 4300 '1').length + 1)) := Json.read_long digits (by decide) many
    rwa [List.length_replicate] at fails
  rw [digestsIn_found, dataOfText, solid, read]
  rfl

end Damaged

/-- Digests of another shape count as none. A number that is too long to convert stops whatever loads the digests, until
they are cleared. -/
theorem damaged_cache_refines :
    (Damaged.place.loaded (perform Damaged.place [.commit [Damaged.pages], .persistSnapshot [], .removeEntry "books"]
      (Damaged.found "[]"))).digests =
        .ok (Function.update (Function.update (fun _ => none) "pages" (some Damaged.pages.digest)) "books" none) ∧
    (runIn (Damaged.place.commit [Damaged.pages]) (Damaged.found Damaged.long)).1 = .error (.tooManyDigits ⟨4301⟩) ∧
    (Damaged.place.loaded (perform Damaged.place [.commit [Damaged.pages], .clearDigests, .commit [Damaged.pages]]
      (Damaged.found Damaged.long))).digests =
        .ok (Function.update (fun _ => none) "pages" (some Damaged.pages.digest)) := by
  have legible : (Damaged.place.loaded (Damaged.found "[]")).digests = .ok fun _ => none := by
    rw [(Damaged.accessible "[]").loaded_eq, Damaged.unlisted]
    rfl
  have refused : (Damaged.place.loaded (Damaged.found Damaged.long)).digests = .error (.tooManyDigits ⟨4301⟩) := by
    rw [(Damaged.accessible Damaged.long).loaded_eq, Damaged.unconverted]
    rfl
  refine ⟨?_, ?_, ?_⟩
  · rw [(cache_refines_map (Damaged.accessible "[]") _).1]
    exact digests_of_steps _ legible
  · have ends := (cache_refines_map (Damaged.accessible Damaged.long) []).2.1 (.commit [Damaged.pages])
    refine ends.trans ?_
    rw [Operation.outcome, perform, List.foldl_nil, refused]
    rfl
  · rw [(cache_refines_map (Damaged.accessible Damaged.long) _).1]
    rfl

end TableModels.Run.Cache
