import TableModels.Proofs.CacheRefinement
import TableModels.Proofs.Described
import TableModels.Proofs.Utf8

/-! What loading makes of bytes, whatever they are. Bytes are read as text, text as data, and data as digests, a
schema or enumerated types. Data of another form counts as none, and so does text that is no JSON. Bytes that encode
no text stop whatever loads them, and so does a number that is too long to convert. -/

namespace TableModels

namespace Json

private theorem blank_of_strip {text : String} (empty : (Text.strip text).isEmpty = true) :
    ∀ c ∈ text.toList, Text.isBlank c = true := by
  have none : Text.stripChars text.toList = [] := by simpa [Text.strip] using empty
  rw [Text.stripChars, Text.trimChars, Text.dropTrailing, List.reverse_eq_nil_iff, List.dropWhile_eq_nil_iff] at none
  intro c member
  rw [← List.takeWhile_append_dropWhile (p := Text.isBlank) (l := text.toList), List.mem_append] at member
  rcases member with leading | later
  · exact List.mem_takeWhile_imp leading
  · exact none c (List.mem_reverse.mpr later)

private theorem readValue_blank {limit fuel room : Nat} {first : Char} {others : List Char}
    (blank : Text.isBlank first = true) :
    readValue limit (fuel + 1) room (first :: others) = .error .malformed := by
  have apart : ∀ c, Text.isBlank c = false → first ≠ c := by
    rintro c solid rfl
    simp [blank] at solid
  have digit : Text.isAsciiDigit first = false := by
    rw [← Bool.not_eq_true]
    intro digit
    have low : 0x30 ≤ first.toNat ∧ first.toNat ≤ 0x39 := by
      simpa [Text.isAsciiDigit, Char.le_def, UInt32.le_iff_toNat_le] using digit
    simp only [Text.isBlank, Bool.and_eq_true, Bool.or_eq_true, decide_eq_true_eq, beq_iff_eq] at blank
    omega
  have word : readWord? (first :: others) = none := by
    simp [readWord?, words, List.isPrefixOf?, (apart 'n' rfl).symm, (apart 't' rfl).symm, (apart 'f' rfl).symm,
      (apart 'N' rfl).symm, (apart 'I' rfl).symm, (apart '-' rfl).symm]
  have number : readNumber limit (first :: others) = .error .malformed := by
    unfold readNumber
    simp [readWhole, apart '-' rfl, apart '0' rfl, digit]
  simp [readValue, apart '"' rfl, apart '[' rfl, apart '\x7b' rfl, word, number]

private theorem read_blank {room : Nat} {text : String} (empty : (Text.strip text).isEmpty = true) :
    read room text = .error .malformed := by
  have blank : ∀ c ∈ skipSpace text.toList, Text.isBlank c = true := fun c member =>
    blank_of_strip empty c ((List.dropWhile_sublist _).subset member)
  have value : readValue digitLimit (2 * text.toList.length + 2) room (skipSpace text.toList) = .error .malformed := by
    cases chars : skipSpace text.toList with
    | nil => rfl
    | cons first others =>
      rw [chars] at blank
      exact readValue_blank (blank first List.mem_cons_self)
  rw [read, readWith, value]
  rfl

end Json

namespace Run.Cache

open Act World Schema

variable {cache : Cache} {world : World}

private theorem digestsOf?_eq_some {data : Value} {digests : Digests} :
    digestsOf? data = some digests ↔ data = digestsData digests := by
  refine ⟨fun formed => ?_, fun same => same ▸ digestsOf?_digestsData digests⟩
  cases data with
  | object fields =>
    rw [digestsData, Value.object.injEq]
    refine (List.map_id fields).symm.trans (map_eq_of_each (mapM_some formed) ?_).symm
    rintro ⟨name, value⟩ entry stored
    cases value with
    | text digest =>
      obtain rfl := Option.some.inj stored
      rfl
    | _ => cases stored
  | _ => simp [digestsOf?] at formed

/-- Data that gives enumerated types: an object of lists. Their values may be of any kind and count as they print. -/
def DescribesEnums (data : Value) (enums : Keyed (List String)) : Prop :=
  ∃ lists : Keyed (List Value), data = .object (lists.map fun (name, items) => (name, .list items)) ∧
    enums = lists.map fun (name, items) => (name, items.map Value.toText)

private theorem enumsOf?_eq_some {data : Value} {enums : Keyed (List String)} :
    enumsOf? data = some enums ↔ DescribesEnums data enums := by
  constructor
  · intro formed
    cases data with
    | object fields =>
      rw [enumsOf?] at formed
      have each := mapM_some formed
      clear formed
      induction each with
      | nil => exact ⟨[], rfl, rfl⟩
      | @cons field _ _ _ first _ ih =>
        obtain ⟨lists, fields, rfl⟩ := ih
        rcases field with ⟨name, value⟩
        cases value with
        | list items =>
          obtain rfl := Option.some.inj first
          exact ⟨(name, items) :: lists, by simpa using fields, rfl⟩
        | _ => cases first
    | _ => simp [enumsOf?] at formed
  · rintro ⟨lists, rfl, rfl⟩
    rw [enumsOf?]
    induction lists with
    | nil => rfl
    | cons entry rest ih => simp [ih]

/-- Bytes that stand for data: JSON in UTF-8. -/
def Holds (room : Nat) (bytes : List UInt8) (data : Value) : Prop :=
  ∃ text : String, bytes = text.toUTF8.data.toList ∧ Json.read room text = .ok data

/-- Bytes of a text that the reader reads, or finds to be no JSON. -/
def Legible (room : Nat) (bytes : List UInt8) : Prop :=
  ∃ text : String, bytes = text.toUTF8.data.toList ∧ Harmless room text

/-- What loading comes to if the file holds these bytes: what data of the right form describes, and nothing of any
other. It stops at bytes that are no text, at a number that is too long to convert and at text that is nested too
deep, and only there. -/
structure Loads {α : Type} (room : Nat) (result : Except Failure α) (bytes : List UInt8) (Describes : Value → α → Prop)
    (nothing : α) : Prop where
  ends : (∃ loaded, result = .ok loaded) ↔ Legible room bytes
  described : ∀ data loaded, Holds room bytes data → Describes data loaded → result = .ok loaded
  damaged : Legible room bytes → (∀ data loaded, Holds room bytes data → ¬ Describes data loaded) → result = .ok nothing
  undecodable : (∀ text : String, bytes ≠ text.toUTF8.data.toList) → ∃ fault, result = .error (.undecodable fault)
  unconverted : ∀ (text : String) (count : Nat), bytes = text.toUTF8.data.toList →
    Json.read room text = .error (.tooManyDigits count) → result = .error (.tooManyDigits ⟨count⟩)
  tooDeep : ∀ (text : String) (nest : Json.Nest), bytes = text.toUTF8.data.toList →
    Json.read room text = .error (.tooDeep nest) → result = .error (.tooDeep nest)

/-- The data in a file that holds these bytes. -/
def dataOfBytes (room : Nat) (bytes : List UInt8) : Except Failure (Option Value) :=
  match Text.decode bytes with
  | .ok text => dataOfText room text
  | .error fault => .error (.undecodable fault)

private theorem dataOfText_eq (room : Nat) (text : String) : dataOfText room text = match Json.read room text with
    | .ok .null => .ok none
    | .ok data => .ok (some data)
    | .error .malformed => .ok none
    | .error (.tooManyDigits count) => .error (.tooManyDigits ⟨count⟩)
    | .error (.tooDeep nest) => .error (.tooDeep nest) := by
  rw [dataOfText]
  split
  · rename_i blank
    rw [Json.read_blank blank]
  · rfl

private theorem dataOfBytes_of_text {room : Nat} {bytes : List UInt8} {text : String}
    (encoded : bytes = text.toUTF8.data.toList) :
    dataOfBytes room bytes = dataOfText room text ∧ (∀ data, Holds room bytes data ↔ Json.read room text = .ok data) ∧
      (Legible room bytes ↔ Harmless room text) := by
  have decoded := Text.decode_eq_ok.mpr encoded
  have only : ∀ other : String, bytes = other.toUTF8.data.toList → other = text := fun other same =>
    Except.ok.inj ((Text.decode_eq_ok.mpr same).symm.trans decoded)
  refine ⟨by rw [dataOfBytes, decoded], fun data => ⟨?_, fun read => ⟨text, encoded, read⟩⟩, ?_,
    fun harmless => ⟨text, encoded, harmless⟩⟩
  · rintro ⟨other, same, read⟩
    rwa [only other same] at read
  · rintro ⟨other, same, harmless⟩
    rwa [only other same] at harmless

variable {room : Nat}

private theorem loads_of_undecodable {α : Type} {bytes : List UInt8}
    (none : ∀ text : String, bytes ≠ text.toUTF8.data.toList) (fault : Text.DecodeFault)
    (Describes : Value → α → Prop) (nothing : α) :
    Loads room (.error (.undecodable fault)) bytes Describes nothing where
  ends := by
    constructor
    · rintro ⟨loaded, ends⟩
      cases ends
    · rintro ⟨text, encoded, _⟩
      exact absurd encoded (none text)
  described := by
    rintro data loaded ⟨text, encoded, _⟩
    exact absurd encoded (none text)
  damaged := by
    rintro ⟨text, encoded, _⟩
    exact absurd encoded (none text)
  undecodable := fun _ => ⟨fault, rfl⟩
  unconverted := fun text _ encoded => absurd encoded (none text)
  tooDeep := fun text _ encoded => absurd encoded (none text)

private theorem loads_of_text {α : Type} {form? : Value → Option α} (null : form? .null = none) (nothing : α)
    {bytes : List UInt8} {text : String}
    (encoded : bytes = text.toUTF8.data.toList) :
    Loads room ((dataOfText room text).map fun data => (data.bind form?).getD nothing) bytes
      (fun data loaded => form? data = some loaded) nothing := by
  obtain ⟨_, holds, legible⟩ := dataOfBytes_of_text encoded
  have only : ∀ other : String, bytes = other.toUTF8.data.toList → text = other := fun other again =>
    Except.ok.inj ((Text.decode_eq_ok.mpr encoded).symm.trans (Text.decode_eq_ok.mpr again))
  rw [dataOfText_eq]
  refine ⟨?_, ?_, ?_, fun none => absurd encoded (none text), ?_, ?_⟩
  · rw [legible, Harmless]
    rcases Json.read room text with (_ | count | nest) | data
    · simp [Except.map]
    · simp [Except.map]
    · simp [Except.map]
    · cases data <;> simp [Except.map]
  · intro data loaded held described
    rw [(holds data).mp held]
    cases data with
    | null => simp [null] at described
    | _ => simp [Except.map, described]
  · intro harmless damaged
    cases read : Json.read room text with
    | error fault =>
      rw [legible.mp harmless fault read]
      rfl
    | ok data =>
      have none : form? data = none := Option.eq_none_iff_forall_ne_some.mpr (damaged data · ((holds data).mpr read))
      cases data <;> simp [Except.map, none]
  · intro other count again read
    obtain rfl := only other again
    rw [read]
    rfl
  · intro other nest again read
    obtain rfl := only other again
    rw [read]
    rfl

private theorem loads_of_form {α : Type} {form? : Value → Option α} (null : form? .null = none) (nothing : α)
    (bytes : List UInt8) :
    Loads room ((dataOfBytes room bytes).map fun data => (data.bind form?).getD nothing) bytes
      (fun data loaded => form? data = some loaded) nothing := by
  cases decoded : Text.decode bytes with
  | error fault =>
    rw [dataOfBytes, decoded]
    refine loads_of_undecodable (fun text encoded => ?_) fault _ nothing
    rw [Text.decode_eq_ok.mpr encoded] at decoded
    cases decoded
  | ok text =>
    have encoded := Text.decode_eq_ok.mp decoded
    rw [(dataOfBytes_of_text encoded).1]
    exact loads_of_text null nothing encoded

theorem Loads.congr {α : Type} {result : Except Failure α} {bytes : List UInt8} {Describes Others : Value → α → Prop}
    {nothing : α}
    (loads : Loads room result bytes Describes nothing)
    (same : ∀ data loaded, Describes data loaded ↔ Others data loaded) :
    Loads room result bytes Others nothing := by
  obtain rfl : Describes = Others := funext fun data => funext fun loaded => propext (same data loaded)
  exact loads

private theorem dataOn_of_bytes {disk : Disk} {path : Path} {bytes : List UInt8} (opened : disk.isClosed path = false)
    (file : disk.file? path = some (.ofBytes bytes)) : dataOn room disk path = dataOfBytes room bytes := by
  rw [dataOn_of_open opened, dataIn_of_file file, FileContent.ofBytes, dataOfBytes]
  cases Text.decode bytes <;> rfl

private theorem runIn_diff (cache : Cache) (tables : List Table) (world : World) :
    (runIn (cache.diff tables) world).1 = (runIn cache.loadDigests world).1.map
      fun digests => Diff.between digests tables := by
  rw [Cache.diff, runIn_bind]
  rcases runIn cache.loadDigests world with ⟨_ | _, _⟩ <;> rfl

private theorem between_nothing (tables : List Table) : Diff.between [] tables = ⟨tables, []⟩ := by
  have generate : tables.filter (fun table => Keyed.get? ([] : Digests) table.name != some table.digest) = tables :=
    List.filter_eq_self.mpr fun table _ => rfl
  simp [Diff.between, generate, Keyed.names, sortedNames]

private theorem digests_load (rooted : world.disk.Rooted) (opened : world.disk.isClosed cache.digestsPath = false)
    {bytes : List UInt8}
    (file : world.disk.file? cache.digestsPath = some (.ofBytes bytes)) :
    Loads cache.room (runIn cache.loadDigests world).1 bytes (fun data digests => data = digestsData digests) [] ∧
      ∀ tables, Loads cache.room (runIn (cache.diff tables) world).1 bytes
        (fun data diff => ∃ digests, data = digestsData digests ∧ diff = Diff.between digests tables) ⟨tables, []⟩ := by
  have digests : (runIn cache.loadDigests world).1 = (dataOfBytes cache.room bytes).map digestsOfData := by
    rw [runIn_loadDigests, runIn_readData rooted (by simp [file]), dataOn_of_bytes opened file]
  refine ⟨?_, fun tables => ?_⟩
  · rw [digests]
    exact (loads_of_form rfl [] bytes).congr fun data digests => digestsOf?_eq_some
  · have compared : (runIn (cache.diff tables) world).1 = (dataOfBytes cache.room bytes).map fun data =>
        (data.bind fun data => (digestsOf? data).map fun digests => Diff.between digests tables).getD ⟨tables, []⟩ := by
      rw [runIn_diff, digests]
      rcases dataOfBytes cache.room bytes with failure | (_ | data)
      · rfl
      · exact congrArg Except.ok (between_nothing tables)
      · simp only [Except.map, digestsOfData, Option.bind_some]
        cases digestsOf? data <;> simp [between_nothing]
    rw [compared]
    refine (loads_of_form rfl _ bytes).congr fun data diff => ?_
    rw [Option.map_eq_some_iff]
    exact exists_congr fun digests => and_congr digestsOf?_eq_some eq_comm

private theorem snapshot_loads (rooted : world.disk.Rooted) (opened : world.disk.isClosed cache.snapshotPath = false)
    {bytes : List UInt8}
    (file : world.disk.file? cache.snapshotPath = some (.ofBytes bytes)) :
    Loads cache.room (runIn cache.loadSnapshot world).1 bytes
      (fun data loaded => ∃ snapshot, loaded = some snapshot ∧ Snapshot.Described data snapshot) none := by
  rw [runIn_loadSnapshot, runIn_readData rooted (by simp [file]), dataOn_of_bytes opened file]
  have form : snapshotOfData =
      fun data => (data.bind fun data => (Snapshot.ofStored data).toOption.map some).getD none := by
    funext data
    cases data with
    | none => rfl
    | some data => cases whole : Snapshot.ofStored data <;> simp [snapshotOfData, whole, Except.toOption]
  rw [form]
  refine (loads_of_form rfl none bytes).congr fun data loaded => ?_
  simp only [← Snapshot.ofStored_ok]
  cases Snapshot.ofStored data <;> simp [Except.toOption, eq_comm]

private theorem enums_load (rooted : world.disk.Rooted) (opened : world.disk.isClosed cache.enumsPath = false)
    {bytes : List UInt8}
    (file : world.disk.file? cache.enumsPath = some (.ofBytes bytes)) :
    Loads cache.room (runIn cache.loadEnums world).1 bytes DescribesEnums [] := by
  rw [runIn_loadEnums, runIn_readData rooted (by simp [file]), dataOn_of_bytes opened file]
  exact (loads_of_form rfl [] bytes).congr fun data enums => enumsOf?_eq_some

private theorem loading_closed (rooted : world.disk.Rooted) :
    (world.disk.isClosed cache.digestsPath = true → (runIn cache.loadDigests world).1 = .ok [] ∧
      ∀ tables, (runIn (cache.diff tables) world).1 = .ok ⟨tables, []⟩) ∧
    (world.disk.isClosed cache.snapshotPath = true → (runIn cache.loadSnapshot world).1 = .ok none) ∧
    (world.disk.isClosed cache.enumsPath = true → (runIn cache.loadEnums world).1 = .ok []) := by
  refine ⟨fun closed => ?_, loadSnapshot_of_closed rooted, loadEnums_of_closed rooted⟩
  have nothing : (runIn cache.loadDigests world).1 = .ok [] := by
    rw [runIn_loadDigests, readData_of_closed rooted closed]
    rfl
  refine ⟨nothing, fun tables => ?_⟩
  rw [runIn_diff, nothing]
  exact congrArg Except.ok (between_nothing tables)

/-- Whatever bytes the files of a cache hold, what each loader gives is what data of the right form describes, and
nothing if the file does not hold such data or may not be read. A comparison with nothing generates every model and
removes none. Only bytes that are not UTF-8 stop a loader, numbers that are too long to convert, and text that is
nested too deep. -/
theorem loading_any_bytes (rooted : world.disk.Rooted) :
    (∀ bytes, world.disk.file? cache.digestsPath = some (.ofBytes bytes) →
      world.disk.isClosed cache.digestsPath = false →
      Loads cache.room (runIn cache.loadDigests world).1 bytes (fun data digests => data = digestsData digests) [] ∧
      ∀ tables, Loads cache.room (runIn (cache.diff tables) world).1 bytes
        (fun data diff => ∃ digests, data = digestsData digests ∧ diff = Diff.between digests tables) ⟨tables, []⟩) ∧
    (∀ bytes, world.disk.file? cache.snapshotPath = some (.ofBytes bytes) →
      world.disk.isClosed cache.snapshotPath = false →
      Loads cache.room (runIn cache.loadSnapshot world).1 bytes
        (fun data loaded => ∃ snapshot, loaded = some snapshot ∧ Snapshot.Described data snapshot) none) ∧
    (∀ bytes, world.disk.file? cache.enumsPath = some (.ofBytes bytes) → world.disk.isClosed cache.enumsPath = false →
      Loads cache.room (runIn cache.loadEnums world).1 bytes DescribesEnums []) ∧
    (world.disk.isClosed cache.digestsPath = true → (runIn cache.loadDigests world).1 = .ok [] ∧
      ∀ tables, (runIn (cache.diff tables) world).1 = .ok ⟨tables, []⟩) ∧
    (world.disk.isClosed cache.snapshotPath = true → (runIn cache.loadSnapshot world).1 = .ok none) ∧
    (world.disk.isClosed cache.enumsPath = true → (runIn cache.loadEnums world).1 = .ok []) :=
  ⟨fun _ file opened => digests_load rooted opened file, fun _ file opened => snapshot_loads rooted opened file,
    fun _ file opened => enums_load rooted opened file, loading_closed rooted⟩

namespace Damaged

def nested : String := String.ofList (List.replicate 986 '[')

private theorem read_nested : Json.read place.room nested = .error (.tooDeep .list) := by
  have deep := Json.read_deep (show place.room < 986 by decide) []
  rwa [List.append_nil] at deep

private theorem file_nested :
    (found nested).disk.file? place.digestsPath = some (.ofBytes nested.toUTF8.data.toList) := by
  rw [FileContent.ofBytes, Text.decode_eq_ok.mpr rfl]
  rfl

end Damaged

/-- Of damaged files the one that is no text stops the run that reads it, and so does one that is nested too deep. The
others count as empty. -/
theorem damaged_files_load :
    (runIn Damaged.place.loadDigests (Damaged.found "[]")).1 = .ok [] ∧
    (runIn (Damaged.place.diff [Damaged.pages]) (Damaged.found "[]")).1 = .ok ⟨[Damaged.pages], []⟩ ∧
    (runIn Damaged.place.loadEnums (Damaged.found "[]")).1 = .ok [] ∧
    (∃ fault, (runIn Damaged.place.loadSnapshot (Damaged.found "[]")).1 = .error (.undecodable fault)) ∧
    (runIn Damaged.place.loadDigests (Damaged.found Damaged.nested)).1 = .error (.tooDeep .list) := by
  obtain ⟨digests, snapshot, enums, _⟩ :=
    @loading_any_bytes Damaged.place (Damaged.found "[]") (Damaged.writable "[]").rooted
  obtain ⟨deep, _⟩ :=
    @loading_any_bytes Damaged.place (Damaged.found Damaged.nested) (Damaged.writable Damaged.nested).rooted
  obtain ⟨marks, compared⟩ := digests [0x5B, 0x5D] rfl rfl
  have list : Json.read Damaged.place.room "[]" = .ok (.list []) := rfl
  have opened : Json.read Damaged.place.room "[" = .error .malformed := rfl
  obtain ⟨_, holds, legible⟩ :=
    @dataOfBytes_of_text Damaged.place.room _ "[]" (by decide : [0x5B, 0x5D] = "[]".toUTF8.data.toList)
  obtain ⟨_, nothing, readable⟩ :=
    @dataOfBytes_of_text Damaged.place.room _ "[" (by decide : [0x5B] = "[".toUTF8.data.toList)
  have harmless := legible.mpr fun fault fails => by simp [list] at fails
  have broken := readable.mpr fun fault fails => Except.error.inj (fails.symm.trans opened)
  refine ⟨marks.damaged harmless fun data digests held same => ?_, (compared _).damaged harmless
    fun data diff held described => ?_, (enums [0x5B] rfl rfl).damaged broken fun data enums held => ?_,
    (snapshot [0xFF] rfl rfl).undecodable fun text encoded => ?_,
    (deep _ Damaged.file_nested rfl).1.tooDeep _ .list rfl Damaged.read_nested⟩
  · rw [holds, list, same] at held
    cases held
  · obtain ⟨digests, same, _⟩ := described
    rw [holds, list, same] at held
    cases held
  · rw [nothing, opened] at held
    cases held
  · have decoded := Text.decode_eq_ok.mpr encoded
    cases decoded

end Run.Cache

end TableModels
