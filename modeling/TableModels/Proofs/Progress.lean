import TableModels.Proofs.Sync

/-! When a run ends normally. If nothing keeps changes from being made, no file stands in the way of the
directories of the run, and there are only files in them, then whatever can be rendered is written. -/

namespace TableModels.Run

open Act World Schema Model

variable {world after : World}

/-- Nothing keeps a change from being made. -/
def Untroubled (world : World) : Prop := world.trouble = fun _ => false

theorem change_ends (untroubled : Untroubled world) {change : Disk.Change} {disk : Disk}
    (applied : world.disk.apply change = .ok disk) :
    ∃ after, runIn (Act.change change) world = (.ok (), after) ∧ after.disk = disk ∧ Untroubled after := by
  rw [runIn_change, untroubled]
  simp only [Bool.false_eq_true, if_false, runIn_perform, applied]
  exact ⟨_, rfl, rfl, rfl⟩

private theorem makeDirectory_ends {path : Path} (untroubled : Untroubled world) (clear : world.disk.file? path = none)
    (way : world.disk.checkWay path = .ok ()) :
    ∃ after, runIn (if !world.disk.isDirectory path then change (.makeDirectory path) else pure ()) world =
      (.ok (), after) ∧ Untroubled after ∧
      Disk.Grown [path] world.disk after.disk ∧ after.disk.get? path = some .directory := by
  by_cases made : world.disk.isDirectory path
  · rw [made]
    exact ⟨world, rfl, untroubled, .refl _ _, by simpa [Disk.isDirectory] using made⟩
  · have free : world.disk.get? path = none := by
      cases found : world.disk.get? path with
      | none => rfl
      | some entry =>
        cases entry with
        | file held => simp [Disk.file?, found] at clear
        | directory => simp [Disk.isDirectory, found] at made
    have applied := Disk.apply_makeDirectory.mpr ⟨way, free, rfl⟩
    obtain ⟨after, ran, disk, calm⟩ := change_ends untroubled applied
    rw [Bool.eq_false_iff.mpr made]
    exact ⟨after, ran, calm, disk ▸ .of_makeDirectory applied,
      disk ▸ world.disk.get?_put_self _ (Disk.not_isTop_of_free free)⟩

private theorem makeWay_cons (path : Path) (rest : List Path) : makeWay (path :: rest) = Act.disk >>= fun disk =>
    (if !disk.isDirectory path then change (.makeDirectory path) else pure ()) >>= fun _ => makeWay rest := by
  rw [makeWay]
  congr 1
  funext disk
  cases disk.isDirectory path <;> rfl

private theorem makeWay_ends {ways : List Path} (untroubled : Untroubled world)
    (clear : ∀ path ∈ ways, world.disk.file? path = none) (short : ∀ path ∈ ways, Disk.hasLongName path = false)
    (led : ∀ path ∈ ways, ∀ ancestor ∈ path.ancestors,
      Disk.hasLongName ancestor = false ∧ (world.disk.get? ancestor = some .directory ∨ ancestor ∈ ways))
    (ordered : ways.Pairwise fun path later => later ∉ path.ancestors) :
    ∃ after, runIn (makeWay ways) world = (.ok (), after) ∧ Untroubled after ∧
      ∀ path ∈ ways, after.disk.get? path = some .directory := by
  induction ways generalizing world with
  | nil => exact ⟨world, rfl, untroubled, by simp⟩
  | cons path rest ih =>
    obtain ⟨last, ordered⟩ := List.pairwise_cons.mp ordered
    obtain ⟨free, clear⟩ := List.forall_mem_cons.mp clear
    obtain ⟨brief, short⟩ := List.forall_mem_cons.mp short
    obtain ⟨above, led⟩ := List.forall_mem_cons.mp led
    have way : world.disk.checkWay path = .ok () := by
      refine Disk.checkWay_ok.mpr ⟨fun ancestor leads => ?_, brief⟩
      obtain ⟨name, found | inside⟩ := above ancestor leads
      · exact ⟨name, found⟩
      · rcases List.mem_cons.mp inside with rfl | later
        · exact absurd rfl (Path.ne_of_mem_ancestors leads)
        · exact absurd leads (last ancestor later)
    obtain ⟨made, first, calm, grown, directory⟩ := makeDirectory_ends untroubled free way
    have led : ∀ other ∈ rest, ∀ ancestor ∈ other.ancestors,
        Disk.hasLongName ancestor = false ∧ (made.disk.get? ancestor = some .directory ∨ ancestor ∈ rest) := by
      intro other member ancestor leads
      obtain ⟨name, found | inside⟩ := led other member ancestor leads
      · exact ⟨name, .inl (grown.directory found)⟩
      · rcases List.mem_cons.mp inside with rfl | later
        · exact ⟨name, .inl directory⟩
        · exact ⟨name, .inr later⟩
    obtain ⟨after, ran, still, all⟩ :=
      ih calm (fun other member => (grown.file? other).trans (clear other member)) short led ordered
    have kept := makeWay_grown rest made
    rw [ran] at kept
    refine ⟨after, ?_, still, List.forall_mem_cons.mpr ⟨kept.directory directory, all⟩⟩
    rw [makeWay_cons, runIn_bind_of_ok (runIn_disk world), runIn_bind_of_ok first, ran]

private theorem ordered_way (directory : Path) :
    (directory.ancestors ++ [directory]).Pairwise fun path later => later ∉ path.ancestors := by
  have all : directory.ancestors ++ [directory] = (List.range (directory.length + 1)).map directory.take := by
    simp [Path.ancestors, List.range_succ]
  rw [all, List.pairwise_map]
  refine List.pairwise_lt_range.imp fun {first second} before above => ?_
  have shorter := Path.length_lt_of_mem_ancestors above
  rw [List.length_take, List.length_take] at shorter
  omega

/-- No file stands on the way to a directory, and no name on it is too long. -/
structure Passable (disk : Disk) (directory : Path) : Prop where
  clear : ∀ path ∈ directory.ancestors ++ [directory], disk.file? path = none
  short : ∀ path ∈ directory.ancestors ++ [directory], Disk.hasLongName path = false

/-- What is neither a file nor a directory is missing. -/
theorem Passable.locate_join {disk : Disk} {directory : Path} (passable : Passable disk directory) {name : String}
    (brief : name.utf8ByteSize ≤ Disk.nameLimit) (file : disk.file? (directory.join name) = none)
    (place : disk.get? (directory.join name) ≠ some .directory) :
    disk.locate (directory.join name) = .error (.missing (directory.join name)) := by
  have absent : disk.get? (directory.join name) = none := by
    rcases found : disk.get? (directory.join name) with _ | (content | _)
    · rfl
    · simp [Disk.file?, found] at file
    · exact absurd found place
  have led : disk.checkWay (directory.join name) = .ok () ∨
      disk.checkWay (directory.join name) = .error (.missing (directory.join name)) := by
    refine Disk.checkWay_of_clear ?_ ?_ (by simpa [Disk.hasLongName] using brief)
    · rw [Path.ancestors_join]
      exact passable.clear
    · rw [Path.ancestors_join]
      exact passable.short
  rcases led with way | stops
  · simp [Disk.locate, way, absent, bind, Except.bind]
  · simp [Disk.locate, stops, bind, Except.bind]

/-- What is read at a place that is no directory is the data in the file there, if there is one. -/
theorem Passable.readData {directory : Path} (passable : Passable world.disk directory) (rooted : world.disk.Rooted)
    {name : String} (brief : name.utf8ByteSize ≤ Disk.nameLimit)
    (place : world.disk.get? (directory.join name) ≠ some .directory) (room : Nat) :
    (runIn (Cache.readData room (directory.join name)) world).1 =
      Cache.dataOn room world.disk (directory.join name) := by
  cases file : world.disk.file? (directory.join name) with
  | some content => exact Cache.runIn_readData rooted (by simp [file])
  | none =>
    have nothing : world.disk.find (directory.join name) = .ok none := by
      rw [Disk.find, passable.locate_join brief file place]
    rw [Cache.readData, runIn_bind, runIn_find, nothing, Cache.dataOn_of_missing file]
    rfl

private theorem makeDirectories_ends {directory : Path} (untroubled : Untroubled world)
    (passable : Passable world.disk directory) :
    ∃ after, runIn (makeDirectories directory) world = (.ok (), after) ∧ Untroubled after ∧
      ∀ path ∈ directory.ancestors ++ [directory], after.disk.get? path = some .directory := by
  have led : ∀ path ∈ directory.ancestors ++ [directory], ∀ ancestor ∈ path.ancestors,
      Disk.hasLongName ancestor = false ∧
        (world.disk.get? ancestor = some .directory ∨ ancestor ∈ directory.ancestors ++ [directory]) := by
    intro path member ancestor above
    have inside : ancestor ∈ directory.ancestors ++ [directory] := by
      rcases List.mem_append.mp member with between | last
      · exact List.mem_append_left _ (Path.ancestors_trans above between)
      · exact List.mem_append_left _ (List.mem_singleton.mp last ▸ above)
    exact ⟨passable.short ancestor inside, .inr inside⟩
  obtain ⟨after, ran, rest⟩ := makeWay_ends untroubled passable.clear passable.short led (ordered_way directory)
  refine ⟨after, ?_, rest⟩
  simp only [makeDirectories, runIn_bind, runIn_disk]
  split
  · rename_i place refused
    have led := Disk.checkWay_of_clear (fun path member => passable.clear path (List.mem_append_left _ member))
      (fun path member => passable.short path (List.mem_append_left _ member)) (passable.short directory (by simp))
    simp [refused] at led
  · exact ran

def temporaryName (name : String) : String := "." ++ name ++ ".tmp"

private theorem besidePath_of_free {disk : Disk} {directory : Path} {name : String}
    (free : disk.get? (directory.join (temporaryName name)) = none) :
    besidePath disk (directory.join name) = directory.join (temporaryName name) := by
  have unused : temporaryName name ∉ disk.namesIn directory := by
    intro used
    have present := Disk.isSome_get?_of_mem_namesIn (by simp [temporaryName]) used
    simp [free] at present
  have fresh : ∀ tries, Naming.freshWithin "~" tries (disk.namesIn directory) (temporaryName name) =
      temporaryName name := by
    intro tries
    cases tries with
    | zero => rfl
    | succ tries => simp [Naming.freshWithin, unused]
  rw [besidePath, Path.parent_join, Path.lastName_join]
  exact congrArg directory.join (fresh _)

private theorem writePieces_ends {path : Path} (written : String) (pieces : List String) (untroubled : Untroubled world)
    (way : world.disk.checkWay path = .ok ()) (file : (world.disk.file? path).isSome) :
    ∃ after, runIn (writePieces path written pieces) world = (.ok (), after) ∧ Untroubled after ∧
      ∀ other, world.disk.checkWay other = .ok () → after.disk.checkWay other = .ok () := by
  induction pieces generalizing written world with
  | nil => exact ⟨world, rfl, untroubled, fun _ => id⟩
  | cons piece rest ih =>
    obtain ⟨longer, write, disk, calm⟩ := change_ends untroubled (Disk.apply_writeFile.mpr ⟨way, file, rfl⟩)
    have kept : ∀ other, world.disk.checkWay other = .ok () → longer.disk.checkWay other = .ok () :=
      fun other led => disk ▸ Disk.checkWay_put _ (Disk.not_directory_of_file file) led
    have held : (longer.disk.file? path).isSome := by
      rw [disk, Disk.file?, world.disk.get?_put_self _ (Disk.not_isTop_of_file file)]
      rfl
    obtain ⟨after, ran, still, later⟩ := ih (written ++ piece) calm (kept path way) held
    refine ⟨after, ?_, still, fun other led => later other (kept other led)⟩
    rw [writePieces, runIn_bind_of_ok write, ran]

private theorem writePiecesThrough_ends {beside target : Path} (pieces : List String) (untroubled : Untroubled world)
    (way : world.disk.checkWay beside = .ok ()) (empty : world.disk.get? beside = some (.file ⟨.text "", true⟩))
    (targetWay : world.disk.checkWay target = .ok ()) (place : world.disk.get? target ≠ some .directory) :
    ∃ after, runIn (writePiecesThrough beside target pieces) world = (.ok (), after) ∧ Untroubled after := by
  obtain ⟨written, write, calm, kept⟩ := writePieces_ends "" pieces untroubled way (by simp [Disk.file?, empty])
  obtain ⟨⟨part, full, _⟩, others⟩ := writePieces_cases empty write
  have held : written.disk.file? beside = some (.text part) := by simp [Disk.file?, full]
  have file : (written.disk.file? beside).isSome := by simp [held]
  obtain ⟨moded, mode, put, calm⟩ := change_ends calm (Disk.apply_setMode.mpr ⟨kept beside way, _, held, rfl⟩)
  have now : moded.disk.get? beside = some (.file ⟨.text part, !written.disk.isClosed target⟩) := by
    rw [put, Disk.get?_put_self _ _ (Disk.not_isTop_of_file file)]
  have passes : ∀ path, world.disk.checkWay path = .ok () → moded.disk.checkWay path = .ok () :=
    fun path led => put ▸ Disk.checkWay_put _ (Disk.not_directory_of_file file) (kept path led)
  have notDirectory : moded.disk.isDirectory target = false := by
    rw [Disk.isDirectory]
    by_cases here : target = beside
    · simp [here, now]
    · rw [put, Disk.get?_put_of_ne _ _ here, others target here]
      simpa using place
  have found : moded.disk.file? beside = some (.text part) := by simp [Disk.file?, now]
  have moves := Disk.apply_moveFile.mpr ⟨_, passes beside way, found, passes target targetWay, notDirectory, rfl⟩
  obtain ⟨moved, move, _, calm⟩ := change_ends calm moves
  refine ⟨moved, ?_, calm⟩
  rw [writePiecesThrough, runIn_bind_of_ok write, runIn_bind_of_ok mode, move]

/-- What is in a directory is not on the way to it. -/
theorem not_on_way (directory : Path) (name : String) : directory.join name ∉ directory.ancestors ++ [directory] := by
  intro member
  have length : (directory.join name).length = directory.length + 1 := by simp [Path.join]
  rcases List.mem_append.mp member with above | last
  · have shorter := Path.length_lt_of_mem_ancestors above
    omega
  · have same := congrArg List.length (List.mem_singleton.mp last)
    omega

/-- A free name in a directory is chosen, whatever directories are made on the way there. -/
def ChoosesFree (choose : Disk → Path) (directory : Path) (before : Disk) : Prop :=
  ∀ disk, Disk.Grown (directory.ancestors ++ [directory]) before disk → ∃ name : String,
    choose disk = directory.join name ∧
    name.utf8ByteSize ≤ Disk.nameLimit ∧ disk.get? (directory.join name) = none

theorem writeInPieces_ends {choose : Disk → Path} {directory : Path} {name : String} (pieces : List String)
    (untroubled : Untroubled world)
    (passable : Passable world.disk directory) (brief : name.utf8ByteSize + besideLetters ≤ Disk.nameLimit)
    (place : world.disk.get? (directory.join name) ≠ some .directory)
    (chooses : ChoosesFree choose directory world.disk) :
    ∃ after, runIn (writeInPieces choose (directory.join name) pieces) world = (.ok (), after) ∧ Untroubled after := by
  obtain ⟨made, ran, calm, led⟩ := makeDirectories_ends untroubled passable
  have grown := makeDirectories_grown directory world
  rw [ran] at grown
  have same : ∀ other, made.disk.get? (directory.join other) = world.disk.get? (directory.join other) :=
    fun other => (grown _).resolve_right fun made => not_on_way directory other made.1
  have way : ∀ other : String, other.utf8ByteSize ≤ Disk.nameLimit → made.disk.checkWay (directory.join other) =
      .ok () := by
    intro other size
    refine Disk.checkWay_ok.mpr ⟨fun ancestor above => ?_, by simpa [Disk.hasLongName] using size⟩
    rw [Path.ancestors_join] at above
    exact ⟨passable.short ancestor above, led ancestor above⟩
  obtain ⟨temporary, chosen, short, fresh⟩ := chooses made.disk grown
  obtain ⟨created, create, disk, calm⟩ := change_ends calm (Disk.apply_createFile.mpr ⟨way _ short, fresh, rfl⟩)
  have empty : created.disk.get? (directory.join temporary) = some (.file ⟨.text "", true⟩) := by
    rw [disk]
    exact made.disk.get?_put_self _ (Disk.not_isTop_of_free fresh)
  have kept : ∀ other : String, other.utf8ByteSize ≤ Disk.nameLimit → created.disk.checkWay (directory.join other) =
      .ok () :=
    fun other size => disk ▸ Disk.checkWay_put _ (by simp [fresh]) (way other size)
  have target : created.disk.get? (directory.join name) ≠ some .directory := by
    rw [disk]
    by_cases here : directory.join name = directory.join temporary
    · rw [here, made.disk.get?_put_self _ (Disk.not_isTop_of_free fresh)]
      simp
    · rwa [made.disk.get?_put_of_ne _ here, same]
  obtain ⟨moved, through, calm⟩ :=
    writePiecesThrough_ends pieces calm (kept _ short) empty (kept name (by omega)) target
  refine ⟨moved, ?_, calm⟩
  have size : ¬ Disk.nameLimit < (directory.join name).lastName.utf8ByteSize + besideLetters := by
    rw [Path.lastName_join]
    omega
  simp only [writeInPieces, runIn_bind, Path.parent_join, ran, if_neg size, runIn_disk, chosen, create,
    runIn_tryCatch, through]

private theorem choosesFree_besidePath {directory : Path} {name : String} {disk : Disk}
    (brief : name.utf8ByteSize + besideLetters ≤ Disk.nameLimit)
    (free : disk.get? (directory.join (temporaryName name)) = none) :
    ChoosesFree (besidePath · (directory.join name)) directory disk := by
  intro made grown
  have fresh : made.get? (directory.join (temporaryName name)) = none :=
    ((grown _).resolve_right fun made => not_on_way directory _ made.1).trans free
  have short : (temporaryName name).utf8ByteSize ≤ Disk.nameLimit := by
    have dot : ".".utf8ByteSize = 1 := by decide
    have ending : ".tmp".utf8ByteSize = 4 := by decide
    simp only [temporaryName, besideLetters, String.utf8ByteSize_append] at brief ⊢
    omega
  exact ⟨temporaryName name, besidePath_of_free fresh, short, fresh⟩

theorem writeText_ends {directory : Path} {name : String} (content : String) (untroubled : Untroubled world)
    (passable : Passable world.disk directory) (brief : name.utf8ByteSize + besideLetters ≤ Disk.nameLimit)
    (place : world.disk.get? (directory.join name) ≠ some .directory)
    (free : world.disk.get? (directory.join (temporaryName name)) = none) :
    ∃ after, runIn (writeText (directory.join name) content) world = (.ok (), after) ∧ Untroubled after := by
  rw [writeText_eq]
  exact writeInPieces_ends [content] untroubled passable brief place (choosesFree_besidePath brief free)

private theorem delete_ends {directory : Path} {name : String} (untroubled : Untroubled world)
    (rooted : world.disk.Rooted)
    (passable : Passable world.disk directory) (brief : name.utf8ByteSize ≤ Disk.nameLimit)
    (place : world.disk.get? (directory.join name) ≠ some .directory) :
    ∃ deleted after, runIn (delete (directory.join name)) world = (.ok deleted, after) ∧ Untroubled after := by
  cases file : world.disk.file? (directory.join name) with
  | none =>
    refine ⟨false, world, ?_, untroubled⟩
    simp only [delete, runIn_bind, runIn_disk, passable.locate_join brief file place]
    rfl
  | some content =>
    have found := Disk.file?_eq_some.mp file
    have located := Disk.locate_ok.mpr ⟨rooted.way found, found⟩
    have removes := Disk.apply_removeFile.mpr ⟨rooted.way found, by simp [file], rfl⟩
    obtain ⟨removed, ran, _, calm⟩ := change_ends untroubled removes
    refine ⟨true, removed, ?_, calm⟩
    simp only [delete, runIn_bind, runIn_disk, located, ran]
    rfl

def directoriesOf (settings : Settings) : List Path := [Path.ofText settings.output, (cacheOf settings).directory]

/-- Names short enough for the file system, and none of the directories inside another. -/
structure Laid (directories : List Path) : Prop where
  short : ∀ directory ∈ directories, ∀ path ∈ directory.ancestors ++ [directory], Disk.hasLongName path = false
  apart : ∀ directory ∈ directories, ∀ other ∈ directories, ∀ name, other.join name ∉ directory.ancestors ++ [directory]

/-- No file in the way of the directories, and only files in them, none of them left over from writing. -/
structure Orderly (directories : List Path) (disk : Disk) : Prop where
  clear : ∀ directory ∈ directories, ∀ path ∈ directory.ancestors ++ [directory], disk.file? path = none
  flat : ∀ directory ∈ directories, ∀ name, disk.get? (directory.join name) ≠ some .directory
  tidy : ∀ directory ∈ directories, ∀ name, disk.get? (directory.join (temporaryName name)) = none

structure Fit (name : String) : Prop where
  brief : name.utf8ByteSize + besideLetters ≤ Disk.nameLimit
  lasting : ∀ base, name ≠ temporaryName base

theorem fit_of_last {name : String} (brief : name.utf8ByteSize + besideLetters ≤ Disk.nameLimit)
    (last : name.toList.getLast? ≠ some 'p') : Fit name := by
  refine ⟨brief, ?_⟩
  rintro base rfl
  refine last ?_
  rw [temporaryName, String.toList_append, List.getLast?_append]
  rfl

section Directories

variable {directories : List Path} {directory : Path} {name : String} {before disk : Disk}

theorem Orderly.passable (orderly : Orderly directories disk) (laid : Laid directories)
    (member : directory ∈ directories) :
    Passable disk directory := ⟨orderly.clear directory member, laid.short directory member⟩

theorem Orderly.wrote (orderly : Orderly directories before) (laid : Laid directories)
    (member : directory ∈ directories)
    (fit : Fit name) {content : String} (wrote : Wrote (directory.join name) content before disk) :
    Orderly directories disk := by
  have kept : ∀ other ∈ directories, ∀ last, other.join last ≠ directory.join name →
      disk.get? (other.join last) = before.get? (other.join last) := by
    intro other inside last apart
    apply wrote.get?_apart apart
    rw [Path.parent_join]
    exact laid.apart directory member other inside last
  refine ⟨fun other inside path between => ?_, fun other inside last => ?_, fun other inside last => ?_⟩
  · rw [wrote.file? path, if_neg, orderly.clear other inside path between]
    rintro rfl
    exact laid.apart other inside directory member name between
  · by_cases here : other.join last = directory.join name
    · have file := wrote.file? (other.join last)
      rw [if_pos here] at file
      rw [Disk.file?_eq_some.mp file]
      simp
    · rw [kept other inside last here]
      exact orderly.flat other inside last
  · rw [kept other inside (temporaryName last), orderly.tidy other inside last]
    intro same
    have names := congrArg Path.lastName same
    rw [Path.lastName_join, Path.lastName_join] at names
    exact fit.lasting last names.symm

theorem Orderly.removed (orderly : Orderly directories before) {path : Path} (removed : Removed path before disk) :
    Orderly directories disk := by
  refine ⟨fun other inside path between => ?_, fun other inside last => ?_, fun other inside last => ?_⟩
  · rw [removed.file?, orderly.clear other inside path between]
    simp
  · rw [removed]
    split
    · simp
    · exact orderly.flat other inside last
  · rw [removed, orderly.tidy other inside last]
    simp

end Directories

/-- Nothing stands in the way of a run. -/
structure Calm (settings : Settings) (world : World) : Prop where
  untroubled : Untroubled world
  rooted : world.disk.Rooted
  orderly : Orderly (directoriesOf settings) world.disk
  digests : ∃ digests, (cacheOf settings).digestsOn world.disk = .ok digests

/-- From any calm world the action ends normally, and leaves a calm one. -/
def Prospers (settings : Settings) {α : Type} (action : Act α) : Prop :=
  ∀ world, Calm settings world → ∃ value after, runIn action world = (.ok value, after) ∧ Calm settings after

namespace Prospers

variable {settings : Settings} {α β : Type}

theorem pure (value : α) : Prospers settings (Pure.pure value) := Thrives.pure value

theorem bind {action : Act α} {next : α → Act β} (first : Prospers settings action)
    (rest : ∀ value, Prospers settings (next value)) : Prospers settings (action >>= next) := Thrives.bind first rest

end Prospers

section Prospering

variable {settings : Settings}

theorem Calm.untouched (calm : Calm settings world) (untouched : Untouched world after) : Calm settings after :=
  ⟨untouched.trouble.trans calm.untroubled, untouched.disk ▸ calm.rooted, untouched.disk ▸ calm.orderly,
    untouched.disk ▸ calm.digests⟩

private theorem prospers_note (line : Log.Line) : Prospers settings (note line) :=
  fun _ calm => ⟨(), _, rfl, calm.untouched ⟨rfl, rfl, rfl, rfl, rfl⟩⟩

/-- In a calm world the digests can be loaded. -/
theorem Calm.loads (laid : Laid (directoriesOf settings)) (calm : Calm settings world) :
    ∃ digests, Yields (cacheOf settings).loadDigests world digests := by
  have member : (cacheOf settings).directory ∈ directoriesOf settings := by simp [directoriesOf]
  have read :=
    (calm.orderly.passable laid member).readData calm.rooted (by decide)
      (calm.orderly.flat _ member "table_hashes.json")
    (cacheOf settings).room
  obtain ⟨digests, found⟩ := calm.digests
  refine ⟨digests, (Cache.observes_loadDigests _).yields ?_⟩
  rw [Cache.runIn_loadDigests, Cache.digestsPath, read]
  exact found

/-- A file in a directory of the run can be written, and the world stays calm as far as it is not about digests. -/
theorem Calm.writes (laid : Laid (directoriesOf settings)) {directory : Path}
    (member : directory ∈ directoriesOf settings)
    {name : String} (fit : Fit name) (content : String) (calm : Calm settings world) :
    ∃ after, runIn (writeText (directory.join name) content) world = (.ok (), after) ∧ Untroubled after ∧
      after.disk.Rooted ∧
      Orderly (directoriesOf settings) after.disk ∧ Wrote (directory.join name) content world.disk after.disk := by
  obtain ⟨after, ran, untroubled⟩ :=
    writeText_ends content calm.untroubled (calm.orderly.passable laid member) fit.brief
    (calm.orderly.flat directory member name) (calm.orderly.tidy directory member name)
  have onward := (advances_writeText (directory.join name) content).onward ran
  have wrote := writeText_ok ran
  exact ⟨after, ran, untroubled, onward.rooted calm.rooted, calm.orderly.wrote laid member fit wrote, wrote⟩

private theorem prospers_writeText (laid : Laid (directoriesOf settings)) {directory : Path}
    (member : directory ∈ directoriesOf settings)
    {name : String} (fit : Fit name) (apart : directory.join name ≠ (cacheOf settings).digestsPath) (content : String) :
    Prospers settings (writeText (directory.join name) content) := by
  intro world calm
  obtain ⟨after, ran, untroubled, rooted, orderly, wrote⟩ := calm.writes laid member fit content
  obtain ⟨digests, found⟩ := calm.digests
  have same : after.disk.file? (cacheOf settings).digestsPath = world.disk.file? (cacheOf settings).digestsPath := by
    rw [wrote.file?, if_neg (Ne.symm apart)]
  exact ⟨(), after, ran, untroubled, rooted, orderly, digests,
    (Cache.digestsOn_congr same (wrote.isClosed _)).trans found⟩

private theorem prospers_saveFile (laid : Laid (directoriesOf settings)) {directory : Path}
    (member : directory ∈ directoriesOf settings)
    {name : String} (fit : Fit name) (apart : directory.join name ≠ (cacheOf settings).digestsPath) (content : String) :
    Prospers settings (saveFile (directory.join name) content) :=
  (prospers_writeText laid member fit apart content).bind fun _ => prospers_note _

private theorem prospers_deleteFile (laid : Laid (directoriesOf settings)) {directory : Path}
    (member : directory ∈ directoriesOf settings)
    {name : String} (fit : Fit name) (apart : directory.join name ≠ (cacheOf settings).digestsPath) :
    Prospers settings (deleteFile (directory.join name)) := by
  have deletes : Prospers settings (delete (directory.join name)) := by
    intro world calm
    have brief : name.utf8ByteSize ≤ Disk.nameLimit := by
      have := fit.brief
      omega
    obtain ⟨deleted, after, ran, untroubled⟩ :=
      delete_ends calm.untroubled calm.rooted (calm.orderly.passable laid member)
      brief (calm.orderly.flat directory member name)
    obtain ⟨_, removed⟩ := delete_ok calm.rooted ran
    have onward := (advances_delete (directory.join name)).onward ran
    obtain ⟨digests, found⟩ := calm.digests
    have same : after.disk.file? (cacheOf settings).digestsPath = world.disk.file? (cacheOf settings).digestsPath := by
      rw [removed.file?, if_neg (Ne.symm apart)]
    exact ⟨deleted, after, ran, untroubled, onward.rooted calm.rooted, calm.orderly.removed removed, digests,
      (Cache.digestsOn_congr same (removed.isClosed (Ne.symm apart))).trans found⟩
  refine deletes.bind fun deleted => ?_
  split
  · exact (prospers_note _).bind fun _ => .pure _
  · exact .pure _

private theorem Calm.writesDigests (laid : Laid (directoriesOf settings)) (calm : Calm settings world)
    {digests : Cache.Digests}
    (distinct : (Keyed.names digests).Nodup) :
    ∃ after, runIn (Cache.writeData (cacheOf settings).digestsPath (Cache.digestsData digests)) world =
      (.ok (), after) ∧
      Calm settings after := by
  have member : (cacheOf settings).directory ∈ directoriesOf settings := by simp [directoriesOf]
  have fit : Fit "table_hashes.json" := fit_of_last (by decide) (by decide)
  obtain ⟨after, ran, untroubled, rooted, orderly, _⟩ := calm.writes laid member fit _
  exact ⟨after, ran, untroubled, rooted, orderly, (Cache.writeDigests_ok distinct ran).loads⟩

private theorem prospers_commit (laid : Laid (directoriesOf settings)) (tables : List Table) :
    Prospers settings ((cacheOf settings).commit tables) := by
  intro world calm
  obtain ⟨digests, middle, ran, untouched⟩ := calm.loads laid
  have distinct := Cache.digestsOn_nodup (Cache.loadDigests_ok calm.rooted ran)
  obtain ⟨after, wrote, still⟩ := (calm.untouched untouched).writesDigests laid (Cache.withTables_nodup distinct tables)
  exact ⟨(), after, (runIn_bind_of_ok ran).trans wrote, still⟩

private theorem prospers_removeEntries (laid : Laid (directoriesOf settings)) (tables : List String) :
    Prospers settings (removeEntries (cacheOf settings) tables) := by
  induction tables with
  | nil => exact .pure ()
  | cons table rest ih =>
    have first : Prospers settings ((cacheOf settings).removeEntry table) := by
      intro world calm
      obtain ⟨digests, middle, ran, untouched⟩ := calm.loads laid
      have distinct := Cache.digestsOn_nodup (Cache.loadDigests_ok calm.rooted ran)
      rw [Cache.removeEntry, runIn_bind_of_ok ran]
      split
      · obtain ⟨after, wrote, still⟩ := (calm.untouched untouched).writesDigests laid (Keyed.nodup_erase distinct table)
        exact ⟨(), after, wrote, still⟩
      · exact ⟨(), middle, rfl, calm.untouched untouched⟩
    exact first.bind fun _ => ih

/-- A place that a run may write to, other than that of the digests. -/
def Placed (settings : Settings) (path : Path) : Prop :=
  ∃ directory ∈ directoriesOf settings, ∃ name, Fit name ∧ path = directory.join name ∧
    path ≠ (cacheOf settings).digestsPath

private theorem prospers_writeAll (laid : Laid (directoriesOf settings)) {files : List Payload}
    (placed : ∀ file ∈ files, Placed settings file.path) : Prospers settings (writeAll files) := by
  induction files with
  | nil => exact .pure ()
  | cons file rest ih =>
    obtain ⟨directory, member, name, fit, same, apart⟩ := placed file List.mem_cons_self
    refine .bind ?_ fun _ => ih fun other inside => placed other (List.mem_cons_of_mem _ inside)
    rw [same] at apart ⊢
    exact prospers_saveFile laid member fit apart _

private theorem prospers_deleteAll (laid : Laid (directoriesOf settings)) {paths : List Path}
    (placed : ∀ path ∈ paths, Placed settings path) : Prospers settings (deleteAll paths) := by
  induction paths with
  | nil => exact .pure []
  | cons path rest ih =>
    obtain ⟨directory, member, name, fit, rfl, apart⟩ := placed path List.mem_cons_self
    exact (prospers_deleteFile laid member fit apart).bind fun _ =>
      (ih fun other inside => placed other (List.mem_cons_of_mem _ inside)).bind fun _ => .pure _

private theorem prospers_removeModels (laid : Laid (directoriesOf settings)) {tables : List String}
    (placed : ∀ path ∈ artifactsOf settings tables, Placed settings path) :
    Prospers settings (removeModels settings tables) := by
  induction tables with
  | nil => exact .pure []
  | cons table rest ih =>
    have first : ∀ path ∈ artifactPaths settings table, Placed settings path :=
      fun path inside => placed path (List.mem_flatMap.mpr ⟨table, List.mem_cons_self, inside⟩)
    have others : ∀ path ∈ artifactsOf settings rest, Placed settings path := by
      intro path inside
      obtain ⟨other, member, artifact⟩ := List.mem_flatMap.mp inside
      exact placed path (List.mem_flatMap.mpr ⟨other, List.mem_cons_of_mem _ member, artifact⟩)
    exact (prospers_deleteAll laid first).bind fun _ => (prospers_note _).bind fun _ => (ih others).bind
      fun _ => .pure _

private theorem prospers_record (laid : Laid (directoriesOf settings)) (source : Source) (diff : Cache.Diff) :
    Prospers settings (record (cacheOf settings) source diff) := by
  have member : (cacheOf settings).directory ∈ directoriesOf settings := by simp [directoriesOf]
  have snapshot : Fit "schema_cache.json" := fit_of_last (by decide) (by decide)
  have enums : Fit "enum_cache.json" := fit_of_last (by decide) (by decide)
  refine (prospers_commit laid _).bind fun _ => (prospers_removeEntries laid _).bind fun _ => ?_
  split
  · exact (prospers_writeText laid member snapshot (by simp [Cache.digestsPath]) _).bind fun _ =>
      prospers_writeText laid member enums (by simp [Cache.digestsPath]) _
  · exact .pure ()

private theorem prospers_execute (laid : Laid (directoriesOf settings)) (source : Source) {diff : Cache.Diff}
    {files : List Payload}
    (written : ∀ file ∈ files, Placed settings file.path)
    (removed : ∀ path ∈ artifactsOf settings diff.remove, Placed settings path) :
    Prospers settings (execute settings (cacheOf settings) source diff files) :=
  (prospers_writeAll laid written).bind fun _ => (prospers_removeModels laid removed).bind fun _ =>
    (prospers_record laid source diff).bind fun _ => (prospers_note _).bind fun _ => .pure _

/-- A table whose files have names that are short enough. -/
def Brief (table : String) : Prop := (fileName table).utf8ByteSize + 1 + besideLetters ≤ Disk.nameLimit

instance : DecidablePred Brief := fun _ => inferInstanceAs (Decidable (_ ≤ _))

theorem Brief.fit {table : String} (brief : Brief table) : Fit (fileName table) := by
  refine fit_of_last ?_ (by simp [fileName])
  unfold Brief at brief
  omega

private theorem Brief.fitStub {table : String} (brief : Brief table) : Fit (Naming.moduleName table ++ ".pyi") := by
  have python : ".py".utf8ByteSize = 3 := by decide
  have stub : ".pyi".utf8ByteSize = 4 := by decide
  refine fit_of_last ?_ (by simp)
  simp only [Brief, fileName, String.utf8ByteSize_append] at brief ⊢
  omega

private theorem placed_output {name : String} (fit : Fit name)
    (apart : (Path.ofText settings.output).join name ∉ (cacheOf settings).paths) :
    Placed settings ((Path.ofText settings.output).join name) := by
  refine ⟨Path.ofText settings.output, by simp [directoriesOf], name, fit, rfl, ?_⟩
  rintro same
  exact apart (by simp [same, Cache.paths])

private theorem Brief.placed {table : String} (brief : Brief table) : Placed settings (modelPath settings table) :=
  placed_output brief.fit (modelPath_not_cached _ table)

private theorem placed_manifest : Placed settings (manifestPath settings) :=
  placed_output (fit_of_last (by decide) (by decide)) (manifestPath_not_cached _)

private theorem Brief.placedArtifacts {table : String} (brief : Brief table) {path : Path}
    (member : path ∈ artifactPaths settings table) :
    Placed settings path := by
  have apart := artifactPaths_not_cached (cacheOf settings) member
  rcases mem_artifactPaths.mp member with rfl | rfl
  · exact brief.placed
  · exact placed_output brief.fitStub apart

/-- What can be rendered and written in a run with this source. -/
structure Feasible (settings : Settings) (source : Source) : Prop where
  fetched : source.origin ≠ .fallback
  models : ∀ table ∈ (inScope settings source.snapshot).tables, Brief table.name ∧
    ∃ text, render (styleOf settings) (.ofDeclared source.enums) (inScope settings source.snapshot).names table =
      .ok text
  manifest : settings.manifest = true → ∃ text, manifest settings.singular (inScope settings source.snapshot).names =
    .ok text

/-- What can be rendered and written, wherever the source comes from. -/
structure Renderable (settings : Settings) (source : Source) : Prop where
  models : ∀ table ∈ (inScope settings source.snapshot).tables, Brief table.name ∧
    ∃ text, render (styleOf settings) (.ofDeclared source.enums) (inScope settings source.snapshot).names table =
      .ok text
  manifest : settings.manifest = true → ∃ text, manifest settings.singular (inScope settings source.snapshot).names =
    .ok text

theorem Feasible.renderable {source : Source} (feasible : Feasible settings source) : Renderable settings source :=
  ⟨feasible.models, feasible.manifest⟩

theorem complete_ends (laid : Laid (directoriesOf settings)) (calm : Calm settings world) {plan : Plan}
    (renderable : Renderable settings plan.source) (generate : plan.diff.generate ⊆ (plan.scope settings).tables)
    (remove : ∀ name ∈ plan.diff.remove, Brief name) :
    ∃ outcome after, runIn (complete settings (cacheOf settings) plan) world = (.ok outcome, after) ∧
      Calm settings after := by
  unfold complete
  dsimp only
  split
  · exact (prospers_note _).bind (fun _ => .pure _) world calm
  · obtain ⟨files, rendered⟩ :=
      payloads_ends (fun table member => (renderable.models table (generate member)).2) renderable.manifest
    have renders : ∀ noted, Calm settings noted → ∃ after, runIn (renderAll settings (.ofDeclared plan.source.enums)
        (inScope settings plan.source.snapshot) plan.diff.generate) noted = (.ok files, after) ∧
            Calm settings after := by
      intro noted calm
      obtain ⟨after, ran, untouched⟩ := renderAll_yields rendered noted
      exact ⟨after, ran, calm.untouched untouched⟩
    have written : ∀ file ∈ files, Placed settings file.path := by
      intro file member
      rcases (path_of_payload rendered).mp (List.mem_map_of_mem member) with ⟨table, inside, same⟩ | ⟨_, same⟩
      · exact same ▸ (renderable.models table (generate inside)).1.placed
      · exact same ▸ placed_manifest
    have removed : ∀ path ∈ artifactsOf settings plan.diff.remove, Placed settings path := by
      intro path member
      obtain ⟨name, dropped, artifact⟩ := List.mem_flatMap.mp member
      exact (remove name dropped).placedArtifacts artifact
    obtain ⟨⟨⟩, noted, note, calm⟩ := prospers_note _ world calm
    obtain ⟨ready, render, calm⟩ := renders noted calm
    obtain ⟨outcome, after, ran, calm⟩ := prospers_execute laid plan.source written removed ready calm
    exact ⟨outcome, after, (runIn_bind_of_ok note).trans ((runIn_bind_of_ok render).trans ran), calm⟩

/-- A run with a source of which everything can be rendered ends normally, and another can follow. -/
theorem sync_ends (laid : Laid (directoriesOf settings)) (calm : Calm settings world)
    (usable : settings.problems settings.requiresCredentials = []) {source : Source}
    (found : (runIn (Run.source settings (cacheOf settings)) world).1 = .ok source)
    (feasible : Feasible settings source)
    {digests : Cache.Digests} (stored : (cacheOf settings).digestsOn world.disk = .ok digests)
    (brief : ∀ name ∈ Keyed.names digests, Brief name) (force : Bool) :
    ∃ outcome after, runIn (sync settings force) world = (.ok outcome, after) ∧
      outcome.origin = source.origin ∧ Calm settings after := by
  obtain ⟨others, loads⟩ := calm.loads laid
  have loaded := loads.result
  obtain rfl : digests = others :=
    Except.ok.inj (stored.symm.trans (Cache.loadDigests_ok calm.rooted (Prod.ext loaded rfl)))
  obtain ⟨middle, untouched, same⟩ := runIn_sync force usable feasible.fetched found loaded
  have ends : ∃ outcome after, runIn (sync settings force) world = (.ok outcome, after) ∧ Calm settings after := by
    rw [same]
    refine complete_ends laid (calm.untouched untouched) feasible.renderable (fun table => generate_subset)
      fun name dropped => ?_
    exact brief name ((mem_remove feasible.fetched).mp dropped).1
  obtain ⟨outcome, after, ran, calmAfter⟩ := ends
  obtain ⟨_, plan, planned, completed⟩ := sync_ok calm.rooted ran
  obtain rfl : source = plan.source := Except.ok.inj (found.symm.trans planned.found)
  exact ⟨outcome, after, ran, completed.outcome.2.2, calmAfter⟩

end Prospering

end TableModels.Run
