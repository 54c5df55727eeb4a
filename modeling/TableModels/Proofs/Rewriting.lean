import TableModels.Proofs.Stopped

/-! Writing files that are there already. Their directories stand and their names have proved to be short enough, so
when no change is kept from being made they can be written again. -/

namespace TableModels.Run

open Act World Schema

variable {settings : Settings} {cache : Cache} {world after : World}

private theorem standing_of_file {disk : Disk} (rooted : disk.Rooted) {path : Path} (file : (disk.file? path).isSome) :
    path.parent.join path.lastName = path ∧ ∀ way ∈ path.parent.ancestors ++ [path.parent],
      Disk.hasLongName way = false ∧ disk.get? way = some .directory := by
  obtain ⟨content, here⟩ := Option.isSome_iff_exists.mp file
  have way := rooted.way (Disk.file?_eq_some.mp here)
  have whole : path.parent.join path.lastName = path := by
    refine Path.join_parent ?_
    rintro rfl
    have top : disk.get? [] = some .directory := disk.get?_of_isTop rfl
    simp [Disk.file?_of_directory top] at file
  refine ⟨whole, ?_⟩
  rw [← Path.ancestors_join, whole]
  exact (Disk.checkWay_ok.mp way).1

private theorem Wrote.get?_of_standing {target : Path} {content : String} {before disk : Disk}
    (wrote : Wrote target content before disk)
    (standing : ∀ way ∈ target.parent.ancestors ++ [target.parent], before.get? way = some .directory) (path : Path) :
    disk.get? path = if path = target then some (.file ⟨.text content, !before.isClosed target⟩) else
      before.get? path := by
  obtain ⟨middle, grown, _, _, found⟩ := wrote
  have same : middle.get? path = before.get? path := by
    refine (grown path).resolve_right fun ⟨between, free, _⟩ => ?_
    simp [standing path between] at free
  rw [found, same]

structure Rewritable (disk : Disk) (path : Path) : Prop where
  file : (disk.file? path).isSome
  brief : path.lastName.utf8ByteSize + besideLetters ≤ Disk.nameLimit
  free : disk.get? (path.parent.join (temporaryName path.lastName)) = none

/-- Writing one file again leaves the others as they can be written again. -/
theorem Rewritable.wrote {before disk : Disk} {target path : Path} {content : String} (rooted : before.Rooted)
    (file : (before.file? target).isSome) (ready : Rewritable before path) (wrote : Wrote target content before disk) :
    Rewritable disk path := by
  refine ⟨?_, ready.brief, ?_⟩
  · rw [wrote.file?]
    split
    · rfl
    · exact ready.file
  · rw [wrote.get?_of_standing fun way between => ((standing_of_file rooted file).2 way between).2, if_neg, ready.free]
    intro same
    simp [← same, Disk.file?, ready.free] at file

/-- Nothing keeps these files from being written again, nor the digests from being brought up to date. -/
structure Rewriting (cache : Cache) (places : List Path) (world : World) : Prop where
  untroubled : Untroubled world
  rooted : world.disk.Rooted
  ready : ∀ path ∈ cache.digestsPath :: places, Rewritable world.disk path
  digests : ∃ digests, cache.digestsOn world.disk = .ok digests

variable {places : List Path}

theorem Rewriting.untouched (rewriting : Rewriting cache places world) (untouched : Untouched world after) :
    Rewriting cache places after :=
  ⟨untouched.trouble.trans rewriting.untroubled, untouched.disk ▸ rewriting.rooted, untouched.disk ▸ rewriting.ready,
    untouched.disk ▸ rewriting.digests⟩

theorem Rewriting.writes (rewriting : Rewriting cache places world) {path : Path}
    (member : path ∈ cache.digestsPath :: places)
    (content : String) :
    ∃ after, runIn (writeText path content) world = (.ok (), after) ∧ Wrote path content world.disk after.disk ∧
      ((∃ digests, cache.digestsOn after.disk = .ok digests) → Rewriting cache places after) := by
  have ready := rewriting.ready path member
  obtain ⟨whole, standing⟩ := standing_of_file rewriting.rooted ready.file
  have passable : Passable world.disk path.parent := by
    refine ⟨fun way between => Disk.file?_of_directory (standing way between).2,
      fun way between => (standing way between).1⟩
  have place := Disk.not_directory_of_file ready.file
  rw [← whole] at place
  obtain ⟨after, ran, untroubled⟩ := writeText_ends content rewriting.untroubled passable ready.brief place ready.free
  rw [whole] at ran
  have onward := (advances_writeText path content).onward ran
  have wrote := writeText_ok ran
  exact ⟨after, ran, wrote, fun digests => ⟨untroubled, onward.rooted rewriting.rooted,
    fun other inside => (rewriting.ready other inside).wrote rewriting.rooted ready.file wrote, digests⟩⟩

private theorem rewrites_note (line : Log.Line) : Thrives (Rewriting cache places) (Act.note line) :=
  fun _ rewriting => ⟨(), _, rfl, rewriting.untouched ⟨rfl, rfl, rfl, rfl, rfl⟩⟩

private theorem rewrites_saveFile {path : Path} (member : path ∈ places) (apart : path ≠ cache.digestsPath)
    (content : String) :
    Thrives (Rewriting cache places) (saveFile path content) := by
  refine .bind (fun world rewriting => ?_) fun _ => rewrites_note _
  obtain ⟨after, ran, wrote, still⟩ := rewriting.writes (List.mem_cons_of_mem _ member) content
  obtain ⟨digests, found⟩ := rewriting.digests
  have same : after.disk.file? cache.digestsPath = world.disk.file? cache.digestsPath := by
    rw [wrote.file?, if_neg (Ne.symm apart)]
  exact ⟨(), after, ran, still ⟨digests, (Cache.digestsOn_congr same (wrote.isClosed _)).trans found⟩⟩

private theorem rewrites_writeAll {files : List Payload}
    (known : ∀ file ∈ files, file.path ∈ places ∧ file.path ≠ cache.digestsPath) :
    Thrives (Rewriting cache places) (writeAll files) := by
  induction files with
  | nil => exact .pure ()
  | cons file rest ih =>
    obtain ⟨member, apart⟩ := known file List.mem_cons_self
    exact (rewrites_saveFile member apart _).bind fun _ => ih
      fun other inside => known other (List.mem_cons_of_mem _ inside)

private theorem rewrites_commit (tables : List Table) : Thrives (Rewriting cache places) (cache.commit tables) := by
  intro world rewriting
  obtain ⟨digests, found⟩ := rewriting.digests
  have file := (rewriting.ready cache.digestsPath List.mem_cons_self).file
  have loads : (runIn cache.loadDigests world).1 = .ok digests :=
    (Cache.loadDigests_of_file rewriting.rooted file).trans found
  obtain ⟨middle, loaded, untouched⟩ := (Cache.observes_loadDigests cache).yields loads
  have distinct := Cache.withTables_nodup (Cache.digestsOn_nodup found) tables
  obtain ⟨after, ran, _, still⟩ := (rewriting.untouched untouched).writes List.mem_cons_self
    (Json.indented (Cache.digestsData (Cache.withTables digests tables)) ++ "\n")
  exact ⟨(), after, (runIn_bind_of_ok loaded).trans ran, still (Cache.writeDigests_ok distinct ran).loads⟩

/-- Work that removes nothing and has not fetched its schema is carried out. -/
theorem rewrites_execute {source : Source} {diff : Cache.Diff} {files : List Payload}
    (origin : source.origin ≠ .fetched)
    (keeps : diff.remove = []) (known : ∀ file ∈ files, file.path ∈ places ∧ file.path ≠ cache.digestsPath) :
    Thrives (Rewriting cache places) (execute settings cache source diff files) := by
  have records : Thrives (Rewriting cache places) (record cache source diff) := by
    rw [record, keeps, if_neg (by simpa using origin)]
    exact (rewrites_commit _).bind fun _ => (Thrives.pure ()).bind fun _ => .pure ()
  rw [execute, keeps]
  exact (rewrites_writeAll known).bind fun _ => (Thrives.pure []).bind fun _ => records.bind fun _ =>
    (rewrites_note _).bind fun _ => .pure _

private theorem writeText_brief {target : Path} {content : String}
    (ends : runIn (writeText target content) world = (.ok (), after)) :
    target.lastName.utf8ByteSize + besideLetters ≤ Disk.nameLimit := by
  obtain ⟨_, _, _, ends⟩ := runIn_bind_ok ends
  by_contra long
  rw [not_le] at long
  simp only [long, if_true] at ends
  obtain ⟨_, _, stops, _⟩ := runIn_bind_ok ends
  cases (Prod.mk.inj stops).1

private theorem writeAll_brief {files : List Payload} (ends : runIn (writeAll files) world = (.ok (), after)) :
    ∀ file ∈ files, file.path.lastName.utf8ByteSize + besideLetters ≤ Disk.nameLimit := by
  induction files generalizing world with
  | nil => simp
  | cons file rest ih =>
    obtain ⟨_, _, saves, ends⟩ := runIn_bind_ok ends
    obtain ⟨_, _, wrote, _⟩ := runIn_bind_ok saves
    intro other member
    rcases List.mem_cons.mp member with rfl | inside
    · exact writeText_brief wrote
    · exact ih ends other inside

theorem sync_brief {force : Bool} {outcome : Outcome}
    (ends : runIn (sync settings force) world = (.ok outcome, after)) :
    ∀ path ∈ outcome.written, path.lastName.utf8ByteSize + besideLetters ≤ Disk.nameLimit := by
  obtain ⟨ready, deleted, prepared, delivered, sound, delivers, ends⟩ := sync_parts ends
  cases files : ready.files with
  | none =>
    simp only [conclude, files] at ends
    obtain rfl := Except.ok.inj (Prod.mk.inj ends).1
    simp
  | some made =>
    simp only [deliver, files] at delivers
    obtain ⟨_, _, writes, _⟩ := runIn_bind_ok delivers
    simp only [conclude, files] at ends
    obtain ⟨_, _, _, ends⟩ := runIn_bind_ok ends
    obtain ⟨_, _, _, ends⟩ := runIn_bind_ok ends
    obtain rfl := Except.ok.inj (Prod.mk.inj ends).1
    intro path member
    obtain ⟨file, inside, rfl⟩ := List.mem_map.mp member
    exact writeAll_brief writes file inside

end TableModels.Run
