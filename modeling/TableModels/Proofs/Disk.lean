import TableModels.Disk.Basic
import TableModels.Proofs.Keyed
import TableModels.Proofs.Steps

/-! A disk seen as the files at its paths. Each change that is made says what it needed and what it does to
that view, and none of them takes away the directories on the way to an entry. -/

namespace TableModels

namespace Path

private theorem mem_ancestors {path ancestor : Path} :
    ancestor ∈ path.ancestors ↔ ∃ count, count < path.length ∧ ancestor = path.take count := by
  simp only [ancestors, List.mem_map, List.mem_range]
  exact ⟨fun ⟨count, small, same⟩ => ⟨count, small, same.symm⟩, fun ⟨count, small, same⟩ => ⟨count, small, same.symm⟩⟩

theorem length_lt_of_mem_ancestors {path ancestor : Path} (above : ancestor ∈ path.ancestors) :
    ancestor.length < path.length := by
  obtain ⟨count, small, rfl⟩ := mem_ancestors.mp above
  rw [List.length_take]
  omega

theorem ne_of_mem_ancestors {path ancestor : Path} (above : ancestor ∈ path.ancestors) : ancestor ≠ path := by
  intro same
  have := length_lt_of_mem_ancestors above
  simp [same] at this

theorem ancestors_trans {path middle ancestor : Path} (far : ancestor ∈ middle.ancestors)
    (near : middle ∈ path.ancestors) : ancestor ∈ path.ancestors := by
  obtain ⟨first, firstSmall, rfl⟩ := mem_ancestors.mp far
  obtain ⟨second, secondSmall, rfl⟩ := mem_ancestors.mp near
  rw [List.length_take] at firstSmall
  refine mem_ancestors.mpr ⟨first, by omega, ?_⟩
  rw [List.take_take, Nat.min_eq_left (by omega)]

private theorem exists_step_of_mem_ancestors {path ancestor : Path} (above : ancestor ∈ path.ancestors) :
    ∃ name, path = ancestor.join name ∨ ancestor.join name ∈ path.ancestors := by
  obtain ⟨count, small, rfl⟩ := mem_ancestors.mp above
  have step : join (path.take count) path[count] = path.take (count + 1) := by simp [join]
  refine ⟨path[count], ?_⟩
  by_cases last : count + 1 = path.length
  · exact .inl (by rw [step, last, List.take_length])
  · exact .inr (mem_ancestors.mpr ⟨count + 1, by omega, step⟩)

theorem isTop_iff {path : Path} : path.isTop = true ↔ path = [] ∨ path = [""] := by simp [isTop]

theorem isTop_join {path : Path} (name : String) (below : path.isTop = false) : (path.join name).isTop = false := by
  rw [← Bool.not_eq_true, isTop_iff] at below ⊢
  rintro (none | one)
  · simp [join] at none
  · exact below (.inl (List.append_eq_singleton_iff.mp one |>.elim And.left fun ⟨_, empty⟩ => by simp at empty))

private theorem isTop_of_mem_ancestors {path ancestor : Path} (top : path.isTop) (above : ancestor ∈ path.ancestors) :
    ancestor.isTop := by
  have short := length_lt_of_mem_ancestors above
  rcases isTop_iff.mp top with rfl | rfl
  · simp at short
  · exact isTop_iff.mpr (.inl (List.length_eq_zero_iff.mp (by simpa using short)))

@[simp] theorem parent_join (path : Path) (name : String) : (path.join name).parent = path := by
  simp [join, parent]

@[simp] theorem lastName_join (path : Path) (name : String) : (path.join name).lastName = name := by
  simp [join, lastName]

theorem join_parent {path : Path} (some : path ≠ []) : path.parent.join path.lastName = path := by
  rw [join, parent, lastName, List.getLast?_eq_some_getLast some, Option.getD_some, List.dropLast_concat_getLast]

@[simp] theorem join_inj {path : Path} {first second : String} :
    path.join first = path.join second ↔ first = second := by
  simp [join]

theorem ancestors_join (path : Path) (name : String) : (path.join name).ancestors = path.ancestors ++ [path] := by
  simp only [ancestors, join, List.length_append, List.length_singleton, List.range_succ, List.map_append,
    List.map_singleton, List.take_left]
  congr 1
  apply List.map_congr_left
  intro count inside
  rw [List.take_append_of_le_length (Nat.le_of_lt (List.mem_range.mp inside))]

end Path

namespace Disk

def file? (disk : Disk) (path : Path) : Option FileContent :=
  match disk.get? path with
  | some (.file file) => some file.content
  | _ => none

theorem file?_eq_some {disk : Disk} {path : Path} {content : FileContent} :
    disk.file? path = some content ↔ disk.get? path = some (.file ⟨content, !disk.isClosed path⟩) := by
  unfold file? isClosed
  rcases disk.get? path with _ | (⟨held, readable⟩ | _) <;> simp

theorem isClosed_congr {first second : Disk} {path : Path} (same : first.get? path = second.get? path) :
    first.isClosed path = second.isClosed path := by
  simp [isClosed, same]

theorem isClosed_of_none {disk : Disk} {path : Path} (none : disk.file? path = none) : disk.isClosed path = false := by
  unfold file? at none
  unfold isClosed
  split <;> simp_all

theorem isClosed_of_file {disk : Disk} {path : Path} {file : File} (found : disk.get? path = some (.file file)) :
    disk.isClosed path = !file.readable := by
  simp [isClosed, found]

theorem file?_of_directory {disk : Disk} {path : Path} (directory : disk.get? path = some .directory) :
    disk.file? path = none := by
  simp [file?, directory]

theorem file?_congr {first second : Disk} {path : Path} (same : first.get? path = second.get? path) :
    first.file? path = second.file? path := by
  simp [file?, same]

theorem get?_of_isTop (disk : Disk) {path : Path} (top : path.isTop) : disk.get? path = some .directory := by
  simp [get?, top]

theorem not_isTop_of_get?_ne (disk : Disk) {path : Path} (other : disk.get? path ≠ some .directory) :
    path.isTop = false :=
  Bool.eq_false_iff.mpr fun top => other (disk.get?_of_isTop top)

theorem not_isTop_of_free {disk : Disk} {path : Path} (free : disk.get? path = none) : path.isTop = false :=
  disk.not_isTop_of_get?_ne (by simp [free])

theorem not_directory_of_file {disk : Disk} {path : Path} (file : (disk.file? path).isSome) :
    disk.get? path ≠ some .directory := by
  intro directory
  simp [file?_of_directory directory] at file

theorem not_isTop_of_file {disk : Disk} {path : Path} (file : (disk.file? path).isSome) : path.isTop = false :=
  disk.not_isTop_of_get?_ne (not_directory_of_file file)

private theorem lookup_setEntry (path other : Path) (entry : Entry) (entries : List (Path × Entry)) :
    (setEntry path entry entries).lookup other = if other = path then some entry else entries.lookup other := by
  induction entries with
  | nil =>
    by_cases same : other = path
    · simp [setEntry, same]
    · simp [setEntry, List.lookup_cons, same, beq_eq_false_iff_ne.mpr same]
  | cons first rest ih =>
    rcases first with ⟨place, old⟩
    by_cases here : place = path
    · subst here
      by_cases same : other = place
      · simp [setEntry, same]
      · simp [setEntry, List.lookup_cons, same, beq_eq_false_iff_ne.mpr same]
    · by_cases same : other = place
      · subst same
        simp [setEntry, here]
      · simp [setEntry, List.lookup_cons, here, beq_eq_false_iff_ne.mpr same, ih]

theorem get?_put_self (disk : Disk) {path : Path} (entry : Entry) (below : path.isTop = false) :
    (disk.put path entry).get? path = some entry := by
  simp [get?, put, below, lookup_setEntry]

theorem get?_put_of_ne (disk : Disk) {path other : Path} (entry : Entry) (apart : other ≠ path) :
    (disk.put path entry).get? other = disk.get? other := by
  simp [get?, put, lookup_setEntry, apart]

theorem get?_drop_self (disk : Disk) {path : Path} (below : path.isTop = false) :
    (disk.drop path).get? path = none := by
  simp [get?, drop, below, lookup_filter (· != path)]

theorem get?_drop_of_ne (disk : Disk) {path other : Path} (apart : other ≠ path) :
    (disk.drop path).get? other = disk.get? other := by
  simp [get?, drop, lookup_filter (· != path), apart]

private theorem get?_dropBelow (disk : Disk) (path other : Path) :
    (disk.dropBelow path).get? other =
      if other.isTop then some .directory
      else if !path.isPrefixOf other || other == path then disk.get? other else none := by
  by_cases top : other.isTop
  · simp [get?, top]
  · simp [get?, dropBelow, top, lookup_filter fun entry => !path.isPrefixOf entry || entry == path]

theorem mem_entries_of_get? {disk : Disk} {path : Path} {entry : Entry} (found : disk.get? path = some entry)
    (below : path.isTop = false) : (path, entry) ∈ disk.entries := by
  simp only [get?, below, Bool.false_eq_true, if_false] at found
  obtain ⟨before, after, same, _⟩ := List.lookup_eq_some_iff.mp found
  simp [same]

private theorem isSome_get?_of_mem_entries {disk : Disk} {path : Path} {entry : Entry}
    (member : (path, entry) ∈ disk.entries) :
    (disk.get? path).isSome := by
  by_cases top : path.isTop
  · simp [disk.get?_of_isTop top]
  · simp only [get?, top, Bool.false_eq_true, if_false]
    by_contra absent
    have apart := List.lookup_eq_none_iff.mp (Option.not_isSome_iff_eq_none.mp absent) _ member
    simp at apart

/-- A name in a directory stands for an entry there. -/
theorem isSome_get?_of_mem_namesIn {disk : Disk} {directory : Path} {name : String} (some : name ≠ "")
    (member : name ∈ disk.namesIn directory) : (disk.get? (directory.join name)).isSome := by
  obtain ⟨⟨path, entry⟩, inside, named⟩ := List.mem_filterMap.mp member
  split at named
  · rename_i parent
    obtain rfl := Option.some.inj named
    have whole : directory.join path.lastName = path := by
      rw [← parent]
      refine Path.join_parent ?_
      rintro rfl
      exact some rfl
    rw [whole]
    exact isSome_get?_of_mem_entries inside
  · cases named

private theorem walk_ok {disk : Disk} {path : Path} {ancestors : List Path} :
    disk.walk path ancestors = .ok () ↔
      (∀ ancestor ∈ ancestors, hasLongName ancestor = false ∧ disk.get? ancestor = some .directory) ∧
        hasLongName path = false := by
  induction ancestors with
  | nil => cases long : hasLongName path <;> simp [walk, long]
  | cons first rest ih =>
    cases long : hasLongName first with
    | true => simp [walk, long]
    | false =>
      rcases found : disk.get? first with _ | (_ | _) <;> simp [walk, long, found, ih]

theorem checkWay_ok {disk : Disk} {path : Path} :
    disk.checkWay path = .ok () ↔
      (∀ ancestor ∈ path.ancestors, hasLongName ancestor = false ∧ disk.get? ancestor = some .directory) ∧
        hasLongName path = false := walk_ok

/-- Whether a way leads to a path depends on its directories alone. -/
theorem checkWay_mono {before after : Disk} {path : Path} (way : before.checkWay path = .ok ())
    (kept : ∀ ancestor ∈ path.ancestors, before.get? ancestor = some .directory →
      after.get? ancestor = some .directory) :
    after.checkWay path = .ok () := by
  obtain ⟨directories, short⟩ := checkWay_ok.mp way
  exact checkWay_ok.mpr ⟨fun ancestor above => ⟨(directories ancestor above).1,
    kept ancestor above (directories ancestor above).2⟩, short⟩

private theorem walk_of_clear {disk : Disk} {path : Path} {ancestors : List Path}
    (clear : ∀ ancestor ∈ ancestors, disk.file? ancestor = none)
    (short : ∀ ancestor ∈ ancestors, hasLongName ancestor = false)
    (name : hasLongName path = false) :
    disk.walk path ancestors = .ok () ∨ disk.walk path ancestors = .error (.missing path) := by
  induction ancestors with
  | nil => simp [walk, name]
  | cons first rest ih =>
    have later := ih (fun ancestor member => clear ancestor (List.mem_cons_of_mem _ member))
      (fun ancestor member => short ancestor (List.mem_cons_of_mem _ member))
    have unblocked := clear first List.mem_cons_self
    simp only [walk, short first List.mem_cons_self, Bool.false_eq_true, if_false]
    rcases found : disk.get? first with _ | (content | _)
    · exact .inr rfl
    · simp [file?, found] at unblocked
    · exact later

/-- Where no file is in the way, a way leads to the path or stops where nothing is. -/
theorem checkWay_of_clear {disk : Disk} {path : Path} (clear : ∀ ancestor ∈ path.ancestors, disk.file? ancestor = none)
    (short : ∀ ancestor ∈ path.ancestors, hasLongName ancestor = false) (name : hasLongName path = false) :
    disk.checkWay path = .ok () ∨ disk.checkWay path = .error (.missing path) := walk_of_clear clear short name

theorem locate_ok {disk : Disk} {path : Path} {entry : Entry} :
    disk.locate path = .ok entry ↔ disk.checkWay path = .ok () ∧ disk.get? path = some entry := by
  simp only [locate, bind, Except.bind]
  rcases disk.checkWay path with fault | _
  · simp
  · rcases disk.get? path with _ | found <;> simp

private theorem fileAt_ok {disk : Disk} {path : Path} {file : File} :
    disk.fileAt path = .ok file ↔ disk.checkWay path = .ok () ∧ disk.get? path = some (.file file) := by
  rw [← locate_ok]
  simp only [fileAt, bind, Except.bind]
  rcases disk.locate path with fault | (_ | _) <;> simp

/-- Every entry can be reached: the way to it leads through directories. -/
def Rooted (disk : Disk) : Prop := ∀ path, (disk.get? path).isSome → disk.checkWay path = .ok ()

theorem Rooted.way {disk : Disk} (rooted : disk.Rooted) {path : Path} {entry : Entry}
    (found : disk.get? path = some entry) : disk.checkWay path = .ok () := rooted path (by simp [found])

theorem file?_empty (path : Path) : ({} : Disk).file? path = none := by
  cases top : path.isTop with
  | true => exact file?_of_directory (get?_of_isTop _ top)
  | false => simp [file?, get?, top]

theorem rooted_empty : ({} : Disk).Rooted := by
  intro path found
  have top : path.isTop := by
    by_contra below
    simp [get?, below] at found
  rcases Path.isTop_iff.mp top with rfl | rfl <;> rfl

private theorem after_free {before after made : Disk} {path : Path} :
    (do before.requireFree path; return made) = .ok after ↔ before.checkWay path = .ok () ∧ before.get? path = none ∧
      after = made := by
  simp only [requireFree, bind, Except.bind]
  rcases before.checkWay path with fault | _
  · simp
  · rcases before.get? path with _ | found <;> simp [pure, Except.pure, eq_comm]

private theorem after_file {before after : Disk} {path : Path} {made : File → Disk} :
    (do let file ← before.fileAt path; return made file) = .ok after ↔ before.checkWay path = .ok () ∧
      ∃ content, before.file? path = some content ∧ after = made ⟨content, !before.isClosed path⟩ := by
  simp only [bind_ok, pure, Except.pure, Except.ok.injEq, fileAt_ok, file?_eq_some]
  constructor
  · rintro ⟨file, ⟨way, found⟩, rfl⟩
    exact ⟨way, file.content, by simp [isClosed_of_file found, found]⟩
  · rintro ⟨way, content, found, rfl⟩
    exact ⟨_, ⟨way, found⟩, rfl⟩

theorem apply_makeDirectory {before after : Disk} {path : Path} :
    before.apply (.makeDirectory path) = .ok after ↔
      before.checkWay path = .ok () ∧ before.get? path = none ∧ after = before.put path .directory := after_free

theorem apply_createFile {before after : Disk} {path : Path} :
    before.apply (.createFile path) = .ok after ↔
      before.checkWay path = .ok () ∧ before.get? path = none ∧ after = before.put path (.file ⟨.text "", true⟩) :=
        after_free

theorem apply_writeFile {before after : Disk} {path : Path} {content : String} :
    before.apply (.writeFile path content) = .ok after ↔
      before.checkWay path = .ok () ∧ (before.file? path).isSome ∧
        after = before.put path (.file ⟨.text content, !before.isClosed path⟩) := by
  simp only [apply, after_file, Option.isSome_iff_exists, exists_and_right]

theorem apply_setMode {before after : Disk} {path target : Path} :
    before.apply (.setMode path target) = .ok after ↔
      before.checkWay path = .ok () ∧ ∃ content, before.file? path = some content ∧
        after = before.put path (.file ⟨content, !before.isClosed target⟩) := after_file

theorem apply_moveFile {before after : Disk} {source target : Path} :
    before.apply (.moveFile source target) = .ok after ↔
      ∃ content, before.checkWay source = .ok () ∧ before.file? source = some content ∧
        before.checkWay target = .ok () ∧ before.isDirectory target = false ∧
        after = (before.drop source).put target (.file ⟨content, !before.isClosed source⟩) := by
  constructor
  · intro applied
    obtain ⟨file, source, applied⟩ := bind_ok.mp applied
    obtain ⟨⟨⟩, targetWay, applied⟩ := bind_ok.mp applied
    obtain ⟨way, found⟩ := fileAt_ok.mp source
    cases kind : before.isDirectory target with
    | true => simp [kind] at applied
    | false =>
      simp only [kind, Bool.false_eq_true, if_false] at applied
      refine ⟨file.content, way, ?_, targetWay, rfl, ?_⟩
      · simp [file?, found]
      · simpa [isClosed_of_file found] using (Except.ok.inj applied).symm
  · rintro ⟨content, way, found, targetWay, kind, rfl⟩
    refine bind_ok.mpr ⟨_, fileAt_ok.mpr ⟨way, file?_eq_some.mp found⟩, bind_ok.mpr ⟨(), targetWay, ?_⟩⟩
    simp only [kind, Bool.false_eq_true, if_false]
    rfl

theorem apply_removeFile {before after : Disk} {path : Path} :
    before.apply (.removeFile path) = .ok after ↔
      before.checkWay path = .ok () ∧ (before.file? path).isSome ∧ after = before.drop path := by
  simp only [apply, after_file, Option.isSome_iff_exists, exists_and_right]

private theorem apply_emptyDirectory {before after : Disk} {path : Path} :
    before.apply (.emptyDirectory path) = .ok after ↔
      before.checkWay path = .ok () ∧ before.get? path = some .directory ∧ after = before.dropBelow path := by
  rw [← and_assoc, ← locate_ok]
  simp only [apply, requireDirectory, bind, Except.bind]
  rcases before.locate path with fault | (_ | _) <;> simp [pure, Except.pure, eq_comm]

private theorem apply_removeDirectory {before after : Disk} {path : Path} :
    before.apply (.removeDirectory path) = .ok after ↔
      path.isTop = false ∧ before.checkWay path = .ok () ∧ before.get? path = some .directory ∧
        before.namesIn path = [] ∧ after = before.drop path := by
  rw [← and_assoc (b := before.get? path = _), ← locate_ok]
  simp only [apply, requireDirectory, bind, Except.bind]
  cases path.isTop
  · rcases before.locate path with fault | (_ | _)
    · simp
    · simp
    · by_cases empty : before.namesIn path = [] <;> simp [pure, Except.pure, empty, eq_comm]
  · simp

theorem Rooted.put {disk : Disk} (rooted : disk.Rooted) {path : Path} {entry : Entry}
    (way : disk.checkWay path = .ok ()) (below : path.isTop = false)
    (kind : disk.get? path ≠ some .directory ∨ entry = .directory) : (disk.put path entry).Rooted := by
  have kept : ∀ other, disk.get? other = some .directory → (disk.put path entry).get? other = some .directory := by
    intro other directory
    by_cases same : other = path
    · subst same
      rw [disk.get?_put_self entry below, kind.resolve_left (not_not.mpr directory)]
    · rwa [disk.get?_put_of_ne entry same]
  intro other found
  by_cases same : other = path
  · subst same
    exact checkWay_mono way fun ancestor _ => kept ancestor
  · rw [disk.get?_put_of_ne entry same] at found
    exact checkWay_mono (rooted other found) fun ancestor _ => kept ancestor

/-- A file in the place of no directory is in nobody's way. -/
theorem checkWay_put {disk : Disk} {path other : Path} (entry : Entry) (place : disk.get? path ≠ some .directory)
    (way : disk.checkWay other = .ok ()) : (disk.put path entry).checkWay other = .ok () := by
  refine checkWay_mono way fun ancestor _ directory => ?_
  rwa [disk.get?_put_of_ne]
  rintro rfl
  exact place directory

private theorem get?_drop_directory {disk : Disk} {path other : Path} (file : (disk.file? path).isSome)
    (directory : disk.get? other = some .directory) : (disk.drop path).get? other = some .directory := by
  have apart : other ≠ path := by
    rintro rfl
    simp [file?_of_directory directory] at file
  rwa [disk.get?_drop_of_ne apart]

private theorem Rooted.dropFile {disk : Disk} (rooted : disk.Rooted) {path : Path} (file : (disk.file? path).isSome) :
    (disk.drop path).Rooted := by
  intro other found
  by_cases same : other = path
  · simp [same, disk.get?_drop_self (not_isTop_of_file file)] at found
  · rw [disk.get?_drop_of_ne same] at found
    exact checkWay_mono (rooted other found) fun ancestor _ => get?_drop_directory file

/-- Below an empty directory there is nothing: the first step on a way further down would be in it. -/
private theorem not_below_empty {disk : Disk} (rooted : disk.Rooted) {path other : Path} (below : path.isTop = false)
    (empty : disk.namesIn path = []) (found : (disk.get? other).isSome) : path ∉ other.ancestors := by
  intro above
  obtain ⟨name, step⟩ := Path.exists_step_of_mem_ancestors above
  have present : (disk.get? (path.join name)).isSome := by
    rcases step with rfl | inside
    · exact found
    · simp [((checkWay_ok.mp (rooted other found)).1 _ inside).2]
  obtain ⟨entry, present⟩ := Option.isSome_iff_exists.mp present
  have member : name ∈ disk.namesIn path :=
    List.mem_filterMap.mpr ⟨_, mem_entries_of_get? present (Path.isTop_join name below), by simp⟩
  simp [empty] at member

private theorem Rooted.dropBelow {disk : Disk} (rooted : disk.Rooted) (path : Path) : (disk.dropBelow path).Rooted := by
  intro other found
  rw [get?_dropBelow] at found
  have present : (disk.get? other).isSome := by
    by_cases top : other.isTop
    · simp [disk.get?_of_isTop top]
    · simp only [top, Bool.false_eq_true, if_false] at found
      split at found
      · exact found
      · simp at found
  refine checkWay_mono (rooted other present) fun ancestor above directory => ?_
  by_cases ancestorTop : ancestor.isTop
  · exact get?_of_isTop _ ancestorTop
  have top : other.isTop = false := Bool.eq_false_iff.mpr fun top => ancestorTop (Path.isTop_of_mem_ancestors top above)
  rw [get?_dropBelow, if_neg ancestorTop, if_pos, directory]
  simp only [top, Bool.false_eq_true, if_false] at found
  -- what is kept lies outside the directory, and so does the way to it
  obtain ⟨count, small, rfl⟩ := Path.mem_ancestors.mp above
  split at found
  · rename_i outside
    simp only [Bool.or_eq_true, Bool.not_eq_true', List.isPrefixOf_iff_prefix, beq_iff_eq, ← Bool.not_eq_true]
      at outside ⊢
    rcases outside with outside | rfl
    · exact .inl fun inside => outside (inside.trans (List.take_prefix _ _))
    · refine .inl fun inside => ?_
      have := inside.length_le
      rw [List.length_take] at this
      omega
  · simp at found

/-- A change leaves every entry within reach. -/
theorem Rooted.apply {before after : Disk} {change : Change} (rooted : before.Rooted)
    (applied : before.apply change = .ok after) : after.Rooted := by
  cases change with
  | makeDirectory path =>
    obtain ⟨way, free, rfl⟩ := apply_makeDirectory.mp applied
    exact rooted.put way (not_isTop_of_free free) (.inr rfl)
  | createFile path =>
    obtain ⟨way, free, rfl⟩ := apply_createFile.mp applied
    exact rooted.put way (not_isTop_of_free free) (.inl (by simp [free]))
  | writeFile path content =>
    obtain ⟨way, file, rfl⟩ := apply_writeFile.mp applied
    exact rooted.put way (not_isTop_of_file file) (.inl (not_directory_of_file file))
  | setMode path target =>
    obtain ⟨way, content, found, rfl⟩ := apply_setMode.mp applied
    have file : (before.file? path).isSome := by simp [found]
    exact rooted.put way (not_isTop_of_file file) (.inl (not_directory_of_file file))
  | moveFile source target =>
    obtain ⟨content, _, found, way, kind, rfl⟩ := apply_moveFile.mp applied
    have file : (before.file? source).isSome := by simp [found]
    have other : (before.drop source).get? target ≠ some .directory := by
      by_cases same : target = source
      · simp [same, before.get?_drop_self (not_isTop_of_file file)]
      · rw [before.get?_drop_of_ne same]
        simpa [isDirectory] using kind
    exact (rooted.dropFile file).put (checkWay_mono way fun ancestor _ => get?_drop_directory file)
      (not_isTop_of_get?_ne _ other) (.inl other)
  | removeFile path =>
    obtain ⟨_, file, rfl⟩ := apply_removeFile.mp applied
    exact rooted.dropFile file
  | emptyDirectory path =>
    obtain ⟨_, _, rfl⟩ := apply_emptyDirectory.mp applied
    exact rooted.dropBelow path
  | removeDirectory path =>
    obtain ⟨below, _, _, empty, rfl⟩ := apply_removeDirectory.mp applied
    intro other found
    by_cases same : other = path
    · simp [same, before.get?_drop_self below] at found
    · rw [before.get?_drop_of_ne same] at found
      refine checkWay_mono (rooted other found) fun ancestor above directory => ?_
      rwa [before.get?_drop_of_ne]
      rintro rfl
      exact not_below_empty rooted below empty found above

end Disk

end TableModels
