import TableModels.Proofs.Footprint
import TableModels.Proofs.JsonText
import TableModels.Run.Cache

/-! The digests in the cache. What a run loads depends on the content of their file alone, what it stores it
can load again, and each step of bringing them up to date says what is then under every name. -/

namespace TableModels.Run.Cache

open Act World Schema

variable {cache : Cache} {world after : World}

/-- The data that a text stands for. -/
def dataOfText (room : Nat) (text : String) : Except Failure (Option Value) :=
  if (Text.strip text).isEmpty then .ok none
  else match Json.read room text with
    | .ok .null => .ok none
    | .ok value => .ok (some value)
    | .error .malformed => .ok none
    | .error (.tooManyDigits count) => .error (.tooManyDigits ⟨count⟩)
    | .error (.tooDeep nest) => .error (.tooDeep nest)

def dataOfContent (room : Nat) : FileContent → Except Failure (Option Value)
  | .bytes _ fault => .error (.undecodable fault)
  | .text text => dataOfText room text

/-- The data in a file on a disk, whether or not the run may read it. -/
def dataIn (room : Nat) (disk : Disk) (path : Path) : Except Failure (Option Value) :=
  match disk.file? path with
  | none => .ok none
  | some content => dataOfContent room content

/-- What a run gets of the data in a file: of a closed one nothing. -/
def dataOn (room : Nat) (disk : Disk) (path : Path) : Except Failure (Option Value) :=
  if disk.isClosed path then .ok none else dataIn room disk path

private theorem dataOn_of_closed {room : Nat} {disk : Disk} {path : Path} (closed : disk.isClosed path = true) :
    dataOn room disk path = .ok none := by
  rw [dataOn, if_pos closed]

theorem dataOn_of_open {room : Nat} {disk : Disk} {path : Path} (opened : disk.isClosed path = false) :
    dataOn room disk path = dataIn room disk path := by
  simp [dataOn, opened]

theorem dataIn_of_file {room : Nat} {disk : Disk} {path : Path} {content : FileContent}
    (file : disk.file? path = some content) : dataIn room disk path = dataOfContent room content := by
  rw [dataIn, file]

theorem dataIn_of_missing {room : Nat} {disk : Disk} {path : Path} (missing : disk.file? path = none) :
    dataIn room disk path = .ok none := by
  rw [dataIn, missing]

theorem dataOn_of_missing {room : Nat} {disk : Disk} {path : Path} (missing : disk.file? path = none) :
    dataOn room disk path = .ok none := by
  rw [dataOn_of_open (Disk.isClosed_of_none missing), dataIn_of_missing missing]

theorem dataIn_congr {room : Nat} {before after : Disk} {path : Path} (same : after.file? path = before.file? path) :
    dataIn room after path = dataIn room before path := by
  rw [dataIn, dataIn, same]

private theorem dataOn_congr {room : Nat} {before after : Disk} {path : Path}
    (same : after.file? path = before.file? path)
    (closed : after.isClosed path = before.isClosed path) : dataOn room after path = dataOn room before path := by
  rw [dataOn, dataOn, closed, dataIn_congr same]

private theorem runIn_readText (room : Nat) (path : Path) (text : String) (world : World) :
    (runIn (readText room path text) world).1 = dataOfText room text := by
  simp only [readText, dataOfText]
  by_cases blank : (Text.strip text).isEmpty
  · simp [blank]
  simp only [blank, Bool.false_eq_true, if_false]
  rcases Json.read room text with (_ | count | nest) | value
  · rfl
  · rfl
  · rfl
  · cases value <;> rfl

private theorem runIn_readEntry (room : Nat) (path : Path) (entry : Entry) (world : World) :
    (runIn (readEntry room path entry) world).1 = (entry.content?.map (dataOfContent room)).getD (.ok none) := by
  unfold readEntry
  rcases entry.content? with _ | (text | _)
  · rfl
  · simp only [runIn_readText, Option.map_some, Option.getD_some, dataOfContent]
  · rfl

/-- On a tree of files, the data in a file is what a run reads there. -/
theorem runIn_readData (rooted : world.disk.Rooted) {room : Nat} {path : Path} (file : (world.disk.file? path).isSome) :
    (runIn (readData room path) world).1 = dataOn room world.disk path := by
  obtain ⟨content, file⟩ := Option.isSome_iff_exists.mp file
  have found := Disk.file?_eq_some.mp file
  have here : runIn (Act.find path) world = (.ok (some (.file ⟨content, !world.disk.isClosed path⟩)), world) := by
    rw [runIn_find, Disk.find, Disk.locate_ok.mpr ⟨rooted.way found, found⟩]
    rfl
  rw [readData, runIn_bind_of_ok here, dataOn, dataIn_of_file file]
  refine (runIn_readEntry room path _ world).trans ?_
  cases world.disk.isClosed path <;> rfl

theorem readData_of_closed (rooted : world.disk.Rooted) {room : Nat} {path : Path}
    (closed : world.disk.isClosed path = true) :
    (runIn (readData room path) world).1 = .ok none := by
  have file : (world.disk.file? path).isSome := by
    by_contra missing
    simp [Disk.isClosed_of_none (Option.not_isSome_iff_eq_none.mp missing)] at closed
  rw [runIn_readData rooted file, dataOn_of_closed closed]

/-- On a tree of files, data that is in an open file is read. -/
theorem readData_of_dataIn (rooted : world.disk.Rooted) {room : Nat} {path : Path} {value : Value}
    (opened : world.disk.isClosed path = false) (stands : dataIn room world.disk path = .ok (some value)) :
    (runIn (readData room path) world).1 = .ok (some value) := by
  cases file : world.disk.file? path with
  | none => simp [dataIn_of_missing file] at stands
  | some content => rw [runIn_readData rooted (by simp [file]), dataOn_of_open opened, stands]

private theorem readData_ok (rooted : world.disk.Rooted) {room : Nat} {path : Path} {data : Option Value}
    (ends : runIn (readData room path) world = (.ok data, after)) : dataOn room world.disk path = .ok data := by
  cases file : world.disk.file? path with
  | some content => rw [← runIn_readData rooted (by simp [file]), ends]
  | none =>
    rw [dataOn_of_missing file]
    obtain ⟨found, looked, ran, read⟩ := runIn_bind_ok ends
    rcases found with _ | (held | _)
    · exact (Prod.mk.inj read).1
    · simp [Disk.file?, find_ok ran] at file
    · exact (Prod.mk.inj read).1

theorem readData_congr {first second : World} (same : first.disk = second.disk) (room : Nat) (path : Path) :
    (runIn (readData room path) first).1 = (runIn (readData room path) second).1 := by
  simp only [readData, runIn_bind, runIn_find, same]
  rcases second.disk.find path with fault | (_ | entry)
  · rfl
  · rfl
  · exact (runIn_readEntry room path entry first).trans (runIn_readEntry room path entry second).symm

/-- What is written of plain data is the data in the file. -/
theorem dataIn_of_wrote {room : Nat} {path : Path} {data : Value} {before after : Disk} (plain : Json.IsPlain room data)
    (some : Json.sorted data ≠ .null) (wrote : Wrote path (Json.indented data ++ "\n") before after) :
    dataIn room after path = .ok (Option.some (Json.sorted data)) := by
  rw [dataIn_of_file ((wrote.file? path).trans (if_pos rfl))]
  simp only [dataOfContent, dataOfText, Json.strip_indented plain, Json.read_indented plain,
    Bool.false_eq_true, if_false]

def digestsOfData (data : Option Value) : Digests := (data.bind digestsOf?).getD []

/-- The digests in their file on a disk, whether or not the run may read it. -/
def digestsIn (cache : Cache) (disk : Disk) : Except Failure Digests :=
  (dataIn cache.room disk cache.digestsPath).map digestsOfData

/-- What a run gets of the digests on a disk. -/
def digestsOn (cache : Cache) (disk : Disk) : Except Failure Digests :=
  (dataOn cache.room disk cache.digestsPath).map digestsOfData

theorem digestsOn_of_closed {disk : Disk} (closed : disk.isClosed cache.digestsPath = true) :
    cache.digestsOn disk = .ok [] := by
  rw [digestsOn, dataOn_of_closed closed]
  rfl

theorem digestsOn_of_open {disk : Disk} (opened : disk.isClosed cache.digestsPath = false) :
    cache.digestsOn disk = cache.digestsIn disk := by
  rw [digestsOn, dataOn_of_open opened, digestsIn]

theorem digestsIn_congr {before after : Disk} (same : after.file? cache.digestsPath = before.file? cache.digestsPath) :
    cache.digestsIn after = cache.digestsIn before := by
  rw [digestsIn, digestsIn, dataIn_congr same]

theorem digestsOn_congr {before after : Disk} (same : after.file? cache.digestsPath = before.file? cache.digestsPath)
    (closed : after.isClosed cache.digestsPath = before.isClosed cache.digestsPath) :
    cache.digestsOn after = cache.digestsOn before := by
  rw [digestsOn, digestsOn, dataOn_congr same closed]

theorem digestsOn_of_missing {disk : Disk} (missing : disk.file? cache.digestsPath = none) :
    cache.digestsOn disk = .ok [] := by
  rw [digestsOn, dataOn_of_missing missing]
  rfl

theorem observes_loadDigests (cache : Cache) : Observes cache.loadDigests :=
  (within_loadDigests (fun _ _ => trivial) cache).observes

/-- A loader that makes something of any data gives just that. -/
theorem runIn_load {β : Type} {room : Nat} {path : Path} {next : Option Value → Act β} {made : Option Value → β}
    (makes : ∀ data world, (runIn (next data) world).1 = .ok (made data)) (world : World) :
    (runIn (readData room path >>= next) world).1 = (runIn (readData room path) world).1.map made := by
  rw [runIn_bind]
  rcases runIn (readData room path) world with ⟨failure | data, middle⟩
  · rfl
  · exact makes data middle

theorem runIn_loadDigests (cache : Cache) (world : World) :
    (runIn cache.loadDigests world).1 = (runIn (readData cache.room cache.digestsPath) world).1.map digestsOfData := by
  refine runIn_load (fun data world => ?_) world
  cases data with
  | none => rfl
  | some value =>
    simp only [digestsOfData, Option.bind_some]
    cases digestsOf? value <;> rfl

theorem loadDigests_congr {first second : World} (same : first.disk = second.disk) :
    (runIn cache.loadDigests first).1 = (runIn cache.loadDigests second).1 := by
  rw [runIn_loadDigests, runIn_loadDigests, readData_congr same]

theorem loadDigests_ok (rooted : world.disk.Rooted) {digests : Digests}
    (ends : runIn cache.loadDigests world = (.ok digests, after)) : cache.digestsOn world.disk = .ok digests := by
  obtain ⟨data, middle, read, _⟩ := runIn_bind_ok ends
  have result := runIn_loadDigests cache world
  rw [ends, read] at result
  rw [digestsOn, readData_ok rooted read]
  exact result.symm

theorem loadDigests_of_file (rooted : world.disk.Rooted) (file : (world.disk.file? cache.digestsPath).isSome) :
    (runIn cache.loadDigests world).1 = cache.digestsOn world.disk := by
  rw [runIn_loadDigests, runIn_readData rooted file, digestsOn]

private theorem digestsOf?_object {value : Value} {digests : Digests} (formed : digestsOf? value = some digests) :
    ∃ fields, value = .object fields ∧ Keyed.names digests = Keyed.names fields := by
  cases value with
  | object fields =>
    refine ⟨fields, rfl, map_eq_of_each (mapM_some formed) ?_⟩
    rintro ⟨name, value⟩ entry stored
    cases value with
    | text digest =>
      obtain rfl := Option.some.inj stored
      rfl
    | _ => cases stored
  | _ => simp [digestsOf?] at formed

private theorem dataOfText_ok {room : Nat} {text : String} {value : Value}
    (found : dataOfText room text = .ok (some value)) :
    Json.read room text = .ok value := by
  rw [dataOfText] at found
  split at found
  · simp at found
  · split at found
    · simp at found
    · rename_i read
      obtain rfl := Option.some.inj (Except.ok.inj found)
      exact read
    · simp at found
    · simp at found
    · simp at found

private theorem nodup_digestsOfContent {room : Nat} {content : FileContent} {data : Option Value}
    (found : dataOfContent room content = .ok data) : (Keyed.names (digestsOfData data)).Nodup := by
  rcases data with _ | value
  · simp [digestsOfData, Keyed.names]
  cases content with
  | bytes _ _ => cases found
  | text text =>
    simp only [digestsOfData, Option.bind_some]
    cases formed : digestsOf? value with
    | none => simp [Keyed.names]
    | some digests =>
      obtain ⟨fields, rfl, same⟩ := digestsOf?_object formed
      rw [Option.getD_some, same]
      exact Json.read_nodup (dataOfText_ok found)

theorem digestsIn_nodup {disk : Disk} {digests : Digests} (found : cache.digestsIn disk = .ok digests) :
    (Keyed.names digests).Nodup := by
  obtain ⟨data, read, rfl⟩ := map_ok.mp found
  cases file : disk.file? cache.digestsPath with
  | none =>
    rw [dataIn_of_missing file] at read
    obtain rfl := Except.ok.inj read
    simp [digestsOfData, Keyed.names]
  | some content => exact nodup_digestsOfContent ((dataIn_of_file file).symm.trans read)

theorem digestsOn_nodup {disk : Disk} {digests : Digests} (found : cache.digestsOn disk = .ok digests) :
    (Keyed.names digests).Nodup := by
  cases closed : disk.isClosed cache.digestsPath with
  | true =>
    obtain rfl := Except.ok.inj ((digestsOn_of_closed closed).symm.trans found)
    simp [Keyed.names]
  | false => exact digestsIn_nodup ((digestsOn_of_open closed).symm.trans found)

theorem digestsOf?_digestsData (digests : Digests) : digestsOf? (digestsData digests) = some digests := by
  rw [digestsData, digestsOf?]
  induction digests with
  | nil => rfl
  | cons entry rest ih => simp [ih]

theorem isPlain_digestsData {room : Nat} (deep : 5 ≤ room) {digests : Digests}
    (distinct : (Keyed.names digests).Nodup) : Json.IsPlain room (digestsData digests) := by
  obtain ⟨room, rfl⟩ := Nat.exists_eq_add_of_le' deep
  refine ⟨by simpa [Keyed.names, Function.comp_def] using distinct, ?_⟩
  clear distinct
  induction digests with
  | nil => trivial
  | cons entry rest ih => exact ⟨trivial, ih⟩

theorem sorted_digestsData (digests : Digests) :
    Json.sorted (digestsData digests) = digestsData (Json.inOrder digests) := by
  have fields : Json.sortedFields (digests.map fun entry => (entry.1, Value.text entry.2)) =
      digests.map fun entry => (entry.1, Value.text entry.2) := by
    simp [Json.sortedFields_eq, Json.sorted]
  have data : ∀ digests : Digests,
    digestsData digests = .object (digests.map fun entry => (entry.1, .text entry.2)) := fun _ => rfl
  rw [data, data, Json.sorted, fields, Json.inOrder_map fun entry => Value.text entry.2]

private theorem digestsIn_of_wrote {digests : Digests} (distinct : (Keyed.names digests).Nodup) {before after : Disk}
    (wrote : Wrote cache.digestsPath (Json.indented (digestsData digests) ++ "\n") before after) :
    cache.digestsIn after = .ok (Json.inOrder digests) := by
  rw [digestsIn,
    dataIn_of_wrote (isPlain_digestsData cache.roomy distinct) (by rw [sorted_digestsData]; simp [digestsData]) wrote,
    sorted_digestsData]
  simp [Except.map, digestsOfData, digestsOf?_digestsData]

/-- The file of digests holds these, no other file has changed, and none has been opened or closed. -/
structure Stores (cache : Cache) (digests : Digests) (before after : Disk) : Prop where
  stored : ∃ kept, cache.digestsIn after = .ok kept ∧ ∀ name, Keyed.get? kept name = Keyed.get? digests name
  present : (after.file? cache.digestsPath).isSome
  others : ∀ path, path ≠ cache.digestsPath → after.file? path = before.file? path
  closed : ∀ path, after.isClosed path = before.isClosed path

theorem writeDigests_ok {digests : Digests} (distinct : (Keyed.names digests).Nodup)
    (ends : runIn (writeData cache.digestsPath (digestsData digests)) world = (.ok (), after)) :
    Stores cache digests world.disk after.disk := by
  have wrote := writeText_ok ends
  refine ⟨⟨_, digestsIn_of_wrote distinct wrote, ?_⟩, by simp [wrote.file?], fun path apart => ?_, wrote.isClosed⟩
  · exact Keyed.get?_perm distinct (Json.inOrder_perm digests)
  · rw [wrote.file?, if_neg apart]

/-- Stored digests can be loaded, or their file may not be read. -/
theorem Stores.loads {digests : Digests} {before after : Disk} (stores : Stores cache digests before after) :
    ∃ kept, cache.digestsOn after = .ok kept := by
  cases closed : after.isClosed cache.digestsPath with
  | true => exact ⟨[], digestsOn_of_closed closed⟩
  | false =>
    obtain ⟨kept, stored, _⟩ := stores.stored
    exact ⟨kept, (digestsOn_of_open closed).trans stored⟩

theorem withTables_nodup {known : Digests} (distinct : (Keyed.names known).Nodup) (tables : List Table) :
    (Keyed.names (withTables known tables)).Nodup := by
  unfold withTables
  induction tables generalizing known with
  | nil => exact distinct
  | cons table rest ih => exact ih (Keyed.nodup_set distinct _ _)

theorem get?_withTables_of_not_mem (known : Digests) {tables : List Table} {name : String}
    (absent : name ∉ tables.map Table.name) : Keyed.get? (withTables known tables) name = Keyed.get? known name := by
  unfold withTables
  induction tables generalizing known with
  | nil => rfl
  | cons table rest ih =>
    simp only [List.map_cons, List.mem_cons, not_or] at absent
    rw [List.foldl_cons, ih _ absent.2, Keyed.get?_set, if_neg absent.1]

theorem get?_withTables_of_mem (known : Digests) {tables : List Table} (distinct : (tables.map Table.name).Nodup)
    {table : Table} (member : table ∈ tables) :
    Keyed.get? (withTables known tables) table.name = some table.digest := by
  unfold withTables
  induction tables generalizing known with
  | nil => cases member
  | cons first rest ih =>
    obtain ⟨fresh, distinct⟩ := List.nodup_cons.mp distinct
    rw [List.foldl_cons]
    rcases List.mem_cons.mp member with rfl | inside
    · have later := get?_withTables_of_not_mem (Keyed.set known table.name table.digest) fresh
      rw [withTables] at later
      rw [later, Keyed.get?_set, if_pos rfl]
    · exact ih _ distinct inside

theorem commit_ok (rooted : world.disk.Rooted) {tables : List Table}
    (ends : runIn (cache.commit tables) world = (.ok (), after)) :
    ∃ known, cache.digestsOn world.disk = .ok known ∧ Stores cache (withTables known tables) world.disk after.disk := by
  obtain ⟨known, loaded, ran, ends⟩ := runIn_bind_ok ends
  have same := ((observes_loadDigests cache).looked ran).disk
  have found := loadDigests_ok rooted ran
  have stores := writeDigests_ok (withTables_nodup (digestsOn_nodup found) tables) ends
  exact ⟨known, found, same ▸ stores⟩

theorem removeEntry_of_closed (rooted : world.disk.Rooted) (closed : world.disk.isClosed cache.digestsPath = true)
    {table : String} (ends : runIn (cache.removeEntry table) world = (.ok (), after)) : after.disk = world.disk := by
  obtain ⟨known, loaded, ran, ends⟩ := runIn_bind_ok ends
  obtain rfl := Except.ok.inj ((digestsOn_of_closed closed).symm.trans (loadDigests_ok rooted ran))
  obtain ⟨_, rfl⟩ := Prod.mk.inj ends
  exact ((observes_loadDigests cache).looked ran).disk

theorem removeEntry_ok (rooted : world.disk.Rooted) (opened : world.disk.isClosed cache.digestsPath = false)
    (present : (world.disk.file? cache.digestsPath).isSome) {table : String}
    (ends : runIn (cache.removeEntry table) world = (.ok (), after)) :
    ∃ known, cache.digestsIn world.disk = .ok known ∧ Stores cache (Keyed.erase known table) world.disk after.disk := by
  obtain ⟨known, loaded, ran, ends⟩ := runIn_bind_ok ends
  have same := ((observes_loadDigests cache).looked ran).disk
  have found := (digestsOn_of_open opened).symm.trans (loadDigests_ok rooted ran)
  refine ⟨known, found, ?_⟩
  by_cases contained : Keyed.contains known table
  · rw [if_pos contained] at ends
    exact same ▸ writeDigests_ok (Keyed.nodup_erase (digestsIn_nodup found) table) ends
  · rw [if_neg contained] at ends
    obtain ⟨_, rfl⟩ := Prod.mk.inj ends
    rw [same]
    refine ⟨⟨known, found, fun name => ?_⟩, present, fun _ _ => rfl, fun _ => rfl⟩
    rw [Keyed.get?_erase]
    by_cases here : name = table
    · rw [if_pos here, here]
      simpa [Keyed.contains] using contained
    · rw [if_neg here]

theorem advances_commit (cache : Cache) (tables : List Table) : Advances (cache.commit tables) :=
  (within_commit (fun _ _ => trivial) trivial tables : Within Deed.any _).advances

theorem advances_removeEntry (cache : Cache) (table : String) : Advances (cache.removeEntry table) :=
  (within_removeEntry (fun _ _ => trivial) trivial table : Within Deed.any _).advances

end TableModels.Run.Cache
