import TableModels.Proofs.Persistence
import TableModels.Proofs.Answers

/-! The files of a cache. Where nothing stands in their way they are written and read, whatever they held before. What
was stored of a schema and of its enumerated types is then loaded again. -/

namespace TableModels.Run.Cache

open Act World Schema

variable {cache : Cache} {world after : World}

def fileNames : List String := ["table_hashes.json", "schema_cache.json", "enum_cache.json"]

private theorem fit_of_fileNames {name : String} (member : name ∈ fileNames) : Fit name := by
  simp only [fileNames, List.mem_cons, List.not_mem_nil, or_false] at member
  rcases member with rfl | rfl | rfl
  · exact fit_of_last (by decide) (by decide)
  · exact fit_of_last (by decide) (by decide)
  · exact fit_of_last (by decide) (by decide)

/-- Nothing stands in the way of the files of a cache. What they hold does not matter. -/
structure Writable (cache : Cache) (world : World) : Prop where
  untroubled : Untroubled world
  rooted : world.disk.Rooted
  passable : Passable world.disk cache.directory
  place : ∀ name ∈ fileNames, world.disk.get? (cache.directory.join name) ≠ some .directory
  free : ∀ name ∈ fileNames, world.disk.get? (cache.directory.join (temporaryName name)) = none

theorem Writable.untouched (writable : cache.Writable world) (untouched : Untouched world after) :
    cache.Writable after :=
  ⟨untouched.trouble.trans writable.untroubled, untouched.disk ▸ writable.rooted, untouched.disk ▸ writable.passable,
    untouched.disk ▸ writable.place, untouched.disk ▸ writable.free⟩

/-- A change of one file in the directory leaves the others as they can be written. -/
theorem Writable.changed (writable : cache.Writable world) (untroubled : Untroubled after) (rooted : after.disk.Rooted)
    {name : String} (fit : Fit name) (file : after.disk.get? (cache.directory.join name) ≠ some .directory)
    (files : ∀ path, path ≠ cache.directory.join name → after.disk.file? path = world.disk.file? path)
    (others : ∀ other, other ≠ name → after.disk.get? (cache.directory.join other) =
      world.disk.get? (cache.directory.join other)) :
    cache.Writable after := by
  refine ⟨untroubled, rooted, ⟨fun path between => ?_, writable.passable.short⟩, fun other member => ?_,
    fun other member => ?_⟩
  · rw [files path, writable.passable.clear path between]
    rintro rfl
    exact not_on_way cache.directory name between
  · by_cases same : other = name
    · rwa [same]
    · rw [others other same]
      exact writable.place other member
  · rw [others _ (Ne.symm (fit.lasting other)), writable.free other member]

theorem Writable.writes (writable : cache.Writable world) {name : String} (member : name ∈ fileNames)
    (content : String) :
    ∃ after, runIn (writeText (cache.directory.join name) content) world = (.ok (), after) ∧
      Wrote (cache.directory.join name) content world.disk after.disk ∧ cache.Writable after := by
  have fit := fit_of_fileNames member
  obtain ⟨after, ran, untroubled⟩ := writeText_ends content writable.untroubled writable.passable fit.brief
    (writable.place name member) (writable.free name member)
  have onward := (advances_writeText (cache.directory.join name) content).onward ran
  have wrote := writeText_ok ran
  refine ⟨after, ran, wrote, writable.changed untroubled (onward.rooted writable.rooted) fit ?_ ?_ ?_⟩
  · have file := wrote.file? (cache.directory.join name)
    rw [if_pos rfl] at file
    rw [Disk.file?_eq_some.mp file]
    simp
  · intro path apart
    rw [wrote.file?, if_neg apart]
  · intro other apart
    have elsewhere : cache.directory.join other ≠ cache.directory.join name := by simpa [Path.join_inj] using apart
    exact wrote.get?_apart elsewhere (by simpa using not_on_way cache.directory other)

private theorem brief_of_fileNames {name : String} (member : name ∈ fileNames) :
    name.utf8ByteSize ≤ Disk.nameLimit := by
  have := (fit_of_fileNames member).brief
  omega

theorem Writable.reads (writable : cache.Writable world) {name : String} (member : name ∈ fileNames) :
    (runIn (readData cache.room (cache.directory.join name)) world).1 =
      dataOn cache.room world.disk (cache.directory.join name) :=
  writable.passable.readData writable.rooted (brief_of_fileNames member) (writable.place name member) cache.room

/-- What is found of a file is what it holds, if it is there. -/
theorem Writable.finds (writable : cache.Writable world) {name : String} (member : name ∈ fileNames) :
    runIn (find (cache.directory.join name)) world =
      (.ok ((world.disk.file? (cache.directory.join name)).map fun content =>
        .file ⟨content, !world.disk.isClosed (cache.directory.join name)⟩), world) := by
  rw [runIn_find, Disk.find]
  cases file : world.disk.file? (cache.directory.join name) with
  | none =>
    rw [writable.passable.locate_join (brief_of_fileNames member) file (writable.place name member)]
    rfl
  | some content =>
    have here := Disk.file?_eq_some.mp file
    rw [Disk.locate_ok.mpr ⟨writable.rooted.way here, here⟩]
    rfl

theorem Writable.removes (writable : cache.Writable world) {name : String} (member : name ∈ fileNames)
    (present : (world.disk.file? (cache.directory.join name)).isSome) :
    ∃ after, runIn (change (.removeFile (cache.directory.join name))) world = (.ok (), after) ∧ cache.Writable after ∧
      after.disk.file? (cache.directory.join name) = none ∧
      ∀ path, path ≠ cache.directory.join name → after.disk.get? path = world.disk.get? path := by
  obtain ⟨content, file⟩ := Option.isSome_iff_exists.mp present
  have removed := Disk.apply_removeFile.mpr ⟨writable.rooted.way (Disk.file?_eq_some.mp file), present, rfl⟩
  obtain ⟨after, ran, dropped, untroubled⟩ := change_ends writable.untroubled removed
  have gone : after.disk.get? (cache.directory.join name) = none := by
    rw [dropped, Disk.get?_drop_self _ (Disk.not_isTop_of_file present)]
  have others : ∀ path, path ≠ cache.directory.join name → after.disk.get? path = world.disk.get? path := by
    intro path apart
    rw [dropped, Disk.get?_drop_of_ne _ apart]
  have files : ∀ path, path ≠ cache.directory.join name → after.disk.file? path = world.disk.file? path :=
    fun path apart => Disk.file?_congr (others path apart)
  refine ⟨after, ran, ?_, by simp [Disk.file?, gone], others⟩
  refine writable.changed untroubled (dropped ▸ writable.rooted.apply removed) (fit_of_fileNames member)
    (by simp [gone])
    files fun other apart => ?_
  exact others _ (by simpa [Path.join_inj] using apart)

/-- What was stored of a schema is loaded without the references, and all else of it as it was. What was stored of
enumerated types is loaded by name, with the values in their order. From a file that may not be read nothing is loaded.
Where nothing stands in the way, both can be stored. -/
theorem persisted_loads (cache : Cache) (rooted : world.disk.Rooted) (snapshot : Snapshot) {enums : Keyed (List String)}
    (distinct : (Keyed.names enums).Nodup) :
    (∀ after, runIn (cache.persistSnapshot snapshot.tables) world = (.ok (), after) →
      (runIn cache.loadSnapshot after).1 =
        .ok (if world.disk.isClosed cache.snapshotPath then none else some snapshot.declared)) ∧
    (∀ after, runIn (cache.persistEnums enums) world = (.ok (), after) →
      ∃ loaded, (runIn cache.loadEnums after).1 = .ok loaded ∧
        if world.disk.isClosed cache.enumsPath then loaded = []
        else loaded.Perm enums ∧ ∀ name, Keyed.get? loaded name = Keyed.get? enums name) ∧
    (cache.Writable world → (∃ after, runIn (cache.persistSnapshot snapshot.tables) world = (.ok (), after)) ∧
      ∃ after, runIn (cache.persistEnums enums) world = (.ok (), after)) := by
  refine ⟨fun after ends => ?_, fun after ends => ?_, fun writable => ?_⟩
  · have rootedAfter := ((advances_writeText _ _).onward ends).rooted rooted
    have same := (writeText_ok ends).isClosed cache.snapshotPath
    cases closed : world.disk.isClosed cache.snapshotPath with
    | true => exact loadSnapshot_of_closed rootedAfter (same.trans closed)
    | false => exact loadSnapshot_of_stored rootedAfter (same.trans closed) (persistSnapshot_ok ends)
  · have rootedAfter := ((advances_writeText _ _).onward ends).rooted rooted
    have same := (writeText_ok ends).isClosed cache.enumsPath
    cases closed : world.disk.isClosed cache.enumsPath with
    | true => exact ⟨[], loadEnums_of_closed rootedAfter (same.trans closed), rfl⟩
    | false =>
      have inOrder := Json.inOrder_perm enums
      exact ⟨_, loadEnums_of_stored rootedAfter (same.trans closed) (persistEnums_ok distinct ends), inOrder,
        Keyed.get?_perm distinct inOrder⟩
  · have schemaFile : "schema_cache.json" ∈ fileNames := by simp [fileNames]
    have enumsFile : "enum_cache.json" ∈ fileNames := by simp [fileNames]
    obtain ⟨first, stores, _⟩ := writable.writes schemaFile _
    obtain ⟨second, keeps, _⟩ := writable.writes enumsFile _
    exact ⟨⟨first, stores⟩, second, keeps⟩

namespace Damaged

/-- A cache of which no file can be read, but perhaps that of the digests. -/
def found (digests : String) : World where
  disk := ⟨[([".supadantic"], .directory), ([".supadantic", "table_hashes.json"], .file { content := .text digests }),
    ([".supadantic", "schema_cache.json"], .file { content := .ofBytes [255] }),
    ([".supadantic", "enum_cache.json"], .file { content := .text "[" })]⟩

def place : Cache := { directory := [".supadantic"] }

theorem writable (digests : String) : place.Writable (found digests) := by
  refine ⟨rfl, rooted_of_entries rfl, ⟨?_, by decide⟩, ?_, ?_⟩
  · intro path between
    have way : path = [] ∨ path = [".supadantic"] := by simpa [place, Path.ancestors, List.range_succ] using between
    rcases way with rfl | rfl <;> rfl
  · intro name member
    simp only [fileNames, List.mem_cons, List.not_mem_nil, or_false] at member
    rcases member with rfl | rfl | rfl <;> exact fun same => by cases same
  · intro name member
    simp only [fileNames, List.mem_cons, List.not_mem_nil, or_false] at member
    rcases member with rfl | rfl | rfl <;> rfl

def pages : Table where
  name := "pages"
  columns := [{ name := "id", sourceType := "int4", nullable := false, isPrimaryKey := true },
    { name := "title", sourceType := "text", default := some "" },
    { name := "book_id", sourceType := "int4", foreignKey := some ⟨"book_id", "books", "id", true⟩ }]
  distinct := by decide

def schema : Snapshot := ⟨[pages], by decide⟩

def sizes : Keyed (List String) := [("size", ["small", "large"]), ("color", [])]

end Damaged

/-- A page loses the reference to its book, and nothing else. -/
theorem damaged_cache_stores : ∃ (stored kept : World) (loaded : Keyed (List String)),
    runIn (Damaged.place.persistSnapshot Damaged.schema.tables) (Damaged.found "") = (.ok (), stored) ∧
    (runIn Damaged.place.loadSnapshot stored).1 = .ok (some Damaged.schema.declared) ∧
    Damaged.schema.declared ≠ Damaged.schema ∧
    runIn (Damaged.place.persistEnums Damaged.sizes) (Damaged.found "") = (.ok (), kept) ∧
    (runIn Damaged.place.loadEnums kept).1 = .ok loaded ∧ loaded.Perm Damaged.sizes := by
  have writable := Damaged.writable ""
  obtain ⟨snapshot, enums, stores⟩ := persisted_loads Damaged.place writable.rooted Damaged.schema
    (by decide : (Keyed.names Damaged.sizes).Nodup)
  obtain ⟨⟨stored, first⟩, kept, second⟩ := stores writable
  obtain ⟨loaded, reads, same, _⟩ := enums kept second
  exact ⟨stored, kept, loaded, first, snapshot stored first, by decide, second, reads, same⟩

end TableModels.Run.Cache
