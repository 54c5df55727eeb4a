import TableModels.Proofs.Effects
import TableModels.Run.Files

/-! Writing and deleting files. However writing ends, the target holds all of the text or every file is as
it was, and the temporary file is gone. -/

namespace TableModels

/-- Directories have been made at some paths where nothing was. -/
def Disk.Grown (ways : List Path) (before after : Disk) : Prop :=
  ∀ path, after.get? path = before.get? path ∨
    path ∈ ways ∧ before.get? path = none ∧ after.get? path = some .directory

namespace Disk.Grown

variable {ways : List Path} {before middle after : Disk} {path : Path}

theorem refl (ways : List Path) (disk : Disk) : Grown ways disk disk := fun _ => .inl rfl

theorem mono {more : List Path} (grown : Grown ways before after) (subset : ways ⊆ more) : Grown more before after :=
  fun path => (grown path).imp_right fun ⟨inside, rest⟩ => ⟨subset inside, rest⟩

theorem directory (grown : Grown ways before after) (found : before.get? path = some .directory) :
    after.get? path = some .directory := by
  rcases grown path with same | ⟨_, none, _⟩
  · exact same.trans found
  · simp [none] at found

theorem file? (grown : Grown ways before after) (path : Path) : after.file? path = before.file? path := by
  rcases grown path with same | ⟨_, none, made⟩
  · exact file?_congr same
  · simp [Disk.file?, none, made]

theorem isClosed (grown : Grown ways before after) (path : Path) : after.isClosed path = before.isClosed path := by
  rcases grown path with same | ⟨_, none, made⟩
  · exact isClosed_congr same
  · simp [Disk.isClosed, none, made]

theorem trans (early : Grown ways before middle) (late : Grown ways middle after) : Grown ways before after := by
  intro path
  rcases late path with same | ⟨inside, none, made⟩
  · rw [same]
    exact early path
  · rcases early path with same | ⟨_, _, directory⟩
    · exact .inr ⟨inside, same ▸ none, made⟩
    · simp [directory] at none

theorem of_makeDirectory (applied : before.apply (.makeDirectory path) = .ok after) : Grown [path] before after := by
  obtain ⟨_, free, rfl⟩ := apply_makeDirectory.mp applied
  intro other
  by_cases same : other = path
  · subst same
    exact .inr ⟨by simp, free, before.get?_put_self _ (not_isTop_of_free free)⟩
  · exact .inl (before.get?_put_of_ne _ same)

end Disk.Grown

namespace Run

open Act World

private theorem change_makeDirectory_grown (path : Path) (world : World) :
    Disk.Grown [path] world.disk (runIn (change (.makeDirectory path)) world).2.disk := by
  rcases ran : runIn (change (.makeDirectory path)) world with ⟨failure | _, after⟩
  · rw [change_error ran]
    exact .refl _ _
  · exact .of_makeDirectory (change_ok ran)

theorem makeWay_grown (ways : List Path) (world : World) :
    Disk.Grown ways world.disk (runIn (makeWay ways) world).2.disk := by
  induction ways generalizing world with
  | nil => exact .refl _ _
  | cons path rest ih =>
    have later : ∀ world, Disk.Grown (path :: rest) world.disk (runIn (makeWay rest) world).2.disk :=
      fun world => (ih world).mono (by simp)
    simp only [makeWay, runIn_bind, runIn_disk]
    by_cases made : world.disk.isDirectory path
    · simpa [made] using later world
    · have first : Disk.Grown (path :: rest) world.disk (runIn (change (.makeDirectory path)) world).2.disk :=
        (change_makeDirectory_grown path world).mono (by simp)
      simp only [made, Bool.not_false, if_true, runIn_bind]
      rcases ran : runIn (change (.makeDirectory path)) world with ⟨failure | _, after⟩
      · simpa only [ran] using first
      · rw [ran] at first
        exact first.trans (later after)

theorem makeDirectories_grown (path : Path) (world : World) :
    Disk.Grown (path.ancestors ++ [path]) world.disk (runIn (makeDirectories path) world).2.disk := by
  simp only [makeDirectories, runIn_bind, runIn_disk]
  split
  · exact .refl _ _
  · exact makeWay_grown _ _

/-- Only the file to which pieces of a text are written is touched. It holds all of them in the end, unless one
could not be written. -/
theorem writePieces_cases {path : Path} {written : String} {readable : Bool} {pieces : List String}
    {world after : World} {result : Except Failure Unit}
    (held : world.disk.get? path = some (.file ⟨.text written, readable⟩))
    (ends : runIn (writePieces path written pieces) world = (result, after)) :
    (∃ part, after.disk.get? path = some (.file ⟨.text part, readable⟩) ∧
        (result = .ok () → part = written ++ String.join pieces)) ∧
      ∀ other, other ≠ path → after.disk.get? other = world.disk.get? other := by
  induction pieces generalizing written world with
  | nil =>
    obtain ⟨rfl, rfl⟩ := Prod.mk.inj ends
    exact ⟨⟨written, held, by simp⟩, fun _ _ => rfl⟩
  | cons piece rest ih =>
    rw [writePieces, runIn_bind] at ends
    rcases ran : runIn (change (.writeFile path (written ++ piece))) world with ⟨failure | _, longer⟩
    · simp only [ran, Prod.mk.injEq] at ends
      obtain ⟨rfl, rfl⟩ := ends
      rw [change_error ran]
      exact ⟨⟨written, held, by simp⟩, fun _ _ => rfl⟩
    · simp only [ran] at ends
      obtain ⟨_, file, put⟩ := Disk.apply_writeFile.mp (change_ok ran)
      have now : longer.disk.get? path = some (.file ⟨.text (written ++ piece), readable⟩) := by
        rw [put, Disk.get?_put_self _ _ (Disk.not_isTop_of_file file), Disk.isClosed_of_file held, Bool.not_not]
      obtain ⟨⟨part, last, whole⟩, others⟩ := ih now ends
      refine ⟨⟨part, last, fun done => ?_⟩, fun other apart => ?_⟩
      · rw [whole done, String.join_cons, String.append_assoc]
      · rw [others other apart, put, world.disk.get?_put_of_ne _ apart]

private theorem writePiecesThrough_ok {beside target : Path} {pieces : List String} {world after : World}
    (held : world.disk.get? beside = some (.file ⟨.text "", true⟩))
    (ends : runIn (writePiecesThrough beside target pieces) world = (.ok (), after)) :
    world.disk.get? target ≠ some .directory ∧ world.disk.checkWay target = .ok () ∧
      ∀ path, after.disk.get? path =
        if path = target then some (.file ⟨.text (String.join pieces), !world.disk.isClosed target⟩)
        else if path = beside then none else world.disk.get? path := by
  obtain ⟨_, written, wrote, ends⟩ := runIn_bind_ok ends
  obtain ⟨_, moded, setMode, ends⟩ := runIn_bind_ok ends
  obtain ⟨⟨part, full, whole⟩, others⟩ := writePieces_cases held wrote
  obtain rfl : part = String.join pieces := by simpa using whole rfl
  obtain ⟨_, content, found, put⟩ := Disk.apply_setMode.mp (change_ok setMode)
  obtain rfl : content = .text (String.join pieces) := by simpa [Disk.file?, full, eq_comm] using found
  have below : beside.isTop = false := @Disk.not_isTop_of_file written.disk beside (by simp [found])
  have closed : written.disk.isClosed target = world.disk.isClosed target := by
    by_cases self : target = beside
    · rw [self, Disk.isClosed_of_file full, Disk.isClosed_of_file held]
    · exact Disk.isClosed_congr (others target self)
  have ready : moded.disk.get? beside = some (.file ⟨.text (String.join pieces), !world.disk.isClosed target⟩) := by
    rw [put, Disk.get?_put_self _ _ below, closed]
  have besides : ∀ path, path ≠ beside → moded.disk.get? path = world.disk.get? path := by
    intro path apart
    rw [put, Disk.get?_put_of_ne _ _ apart, others path apart]
  obtain ⟨moved, _, here, way, kind, done⟩ := Disk.apply_moveFile.mp (change_ok ends)
  obtain rfl : moved = .text (String.join pieces) := by simpa [Disk.file?, ready, eq_comm] using here
  rw [Disk.isClosed_of_file ready, Bool.not_not] at done
  have old : world.disk.get? beside ≠ some .directory := by simp [held]
  have place : world.disk.get? target ≠ some .directory := by
    by_cases self : target = beside
    · rwa [self]
    · simpa [Disk.isDirectory, besides target self] using kind
  refine ⟨place, ?_, fun path => ?_⟩
  · refine Disk.checkWay_mono way fun ancestor _ directory => ?_
    by_cases self : ancestor = beside
    · simp [self, ready] at directory
    · rwa [besides ancestor self] at directory
  · rw [done]
    by_cases here : path = target
    · subst here
      rw [if_pos rfl, Disk.get?_put_self _ _ (Disk.not_isTop_of_get?_ne _ place)]
    · rw [if_neg here, Disk.get?_put_of_ne _ _ here]
      by_cases self : path = beside
      · rw [if_pos self, self, Disk.get?_drop_self _ below]
      · rw [if_neg self, Disk.get?_drop_of_ne _ self, besides path self]

private theorem writePiecesThrough_error {beside target : Path} {pieces : List String}
    {world after : World} {failure : Failure}
    (held : world.disk.get? beside = some (.file ⟨.text "", true⟩))
    (ends : runIn (writePiecesThrough beside target pieces) world = (.error failure, after)) :
    (after.disk.file? beside).isSome ∧ ∀ path, path ≠ beside → after.disk.get? path = world.disk.get? path := by
  rcases runIn_bind_error ends with failed | ⟨_, written, wrote, ends⟩
  · obtain ⟨⟨part, kept, _⟩, others⟩ := writePieces_cases held failed
    exact ⟨by simp [Disk.file?, kept], others⟩
  obtain ⟨⟨part, full, _⟩, others⟩ := writePieces_cases held wrote
  rcases runIn_bind_error ends with failed | ⟨_, moded, setMode, failed⟩
  · rw [change_error failed]
    exact ⟨by simp [Disk.file?, full], others⟩
  · obtain ⟨_, content, found, put⟩ := Disk.apply_setMode.mp (change_ok setMode)
    have below : beside.isTop = false := @Disk.not_isTop_of_file written.disk beside (by simp [found])
    rw [change_error failed, put]
    refine ⟨by simp [Disk.file?, Disk.get?_put_self _ _ below], fun path apart => ?_⟩
    rw [Disk.get?_put_of_ne _ _ apart, others path apart]

/-- A file holds a text. Directories may have been made on the way to it, and all else is as it was. -/
def Wrote (target : Path) (content : String) (before after : Disk) : Prop :=
  ∃ middle, Disk.Grown (target.parent.ancestors ++ [target.parent]) before middle ∧
    middle.get? target ≠ some .directory ∧ middle.checkWay target = .ok () ∧
    ∀ path, after.get? path =
      if path = target then some (.file ⟨.text content, !before.isClosed target⟩) else middle.get? path

theorem Wrote.file? {target : Path} {content : String} {before after : Disk} (wrote : Wrote target content before after)
    (path : Path) : after.file? path = if path = target then some (.text content) else before.file? path := by
  obtain ⟨middle, grown, _, _, found⟩ := wrote
  rw [← grown.file? path]
  by_cases same : path = target
  · simp [Disk.file?, found, same]
  · rw [if_neg same]
    exact Disk.file?_congr (by rw [found, if_neg same])

theorem Wrote.isClosed {target : Path} {content : String} {before after : Disk}
    (wrote : Wrote target content before after)
    (path : Path) : after.isClosed path = before.isClosed path := by
  obtain ⟨middle, grown, _, _, found⟩ := wrote
  by_cases same : path = target
  · rw [Disk.isClosed_of_file ((found path).trans (if_pos same)), same, Bool.not_not]
  · rw [← grown.isClosed path]
    exact Disk.isClosed_congr (by rw [found, if_neg same])

/-- What is neither the file nor on the way to it is as it was. -/
theorem Wrote.get?_apart {target path : Path} {content : String} {before after : Disk}
    (wrote : Wrote target content before after)
    (apart : path ≠ target) (off : path ∉ target.parent.ancestors ++ [target.parent]) :
    after.get? path = before.get? path := by
  obtain ⟨middle, grown, _, _, found⟩ := wrote
  rw [found, if_neg apart]
  exact (grown path).resolve_right fun made => off made.1

private theorem checkWay_of_others {before after : Disk} {path : Path} (way : before.checkWay path = .ok ())
    (others : ∀ other, other ≠ path → after.get? other = before.get? other) : after.checkWay path = .ok () :=
  Disk.checkWay_mono way fun ancestor above directory =>
    (others ancestor (Path.ne_of_mem_ancestors above)).trans directory

private theorem writeBeside {beside target : Path} {pieces : List String} {world created after : World}
    {result : Except Failure Unit} (create : runIn (change (.createFile beside)) world = (.ok (), created))
    (ends : runIn (tryCatch (writePiecesThrough beside target pieces) fun failure => do
      perform (.removeFile beside)
      throw failure) created = (result, after)) :
    (result = .ok () ∧ world.disk.get? target ≠ some .directory ∧ world.disk.checkWay target = .ok () ∧
        ∀ path, after.disk.get? path =
          if path = target then some (.file ⟨.text (String.join pieces), !world.disk.isClosed target⟩)
          else world.disk.get? path) ∨
      ((∃ failure, result = .error failure) ∧ ∀ path, after.disk.get? path = world.disk.get? path) := by
  obtain ⟨way, free, put⟩ := Disk.apply_createFile.mp (change_ok create)
  have below := Disk.not_isTop_of_free free
  have held := world.disk.get?_put_self (.file ⟨.text "", true⟩) below
  rw [← put] at held
  have others : ∀ path, path ≠ beside → created.disk.get? path = world.disk.get? path := by
    intro path apart
    rw [put, world.disk.get?_put_of_ne _ apart]
  have closed : created.disk.isClosed target = world.disk.isClosed target := by
    by_cases self : target = beside
    · rw [self, Disk.isClosed_of_file held, Disk.isClosed_of_none (by simp [Disk.file?, free])]
      rfl
    · exact Disk.isClosed_congr (others target self)
  rw [runIn_tryCatch] at ends
  rcases ran : runIn (writePiecesThrough beside target pieces) created with ⟨failure | _, moved⟩
  · right
    obtain ⟨file, kept⟩ := writePiecesThrough_error held ran
    have passable := checkWay_of_others (checkWay_of_others way others) kept
    have removed := Disk.apply_removeFile.mpr ⟨passable, file, rfl⟩
    simp only [ran, runIn_bind, runIn_perform, removed, runIn_throw, Prod.mk.injEq] at ends
    obtain ⟨rfl, rfl⟩ := ends
    refine ⟨⟨_, rfl⟩, fun path => ?_⟩
    by_cases self : path = beside
    · rw [self, Disk.get?_drop_self _ below, free]
    · rw [Disk.get?_drop_of_ne _ self, kept path self, others path self]
  · left
    simp only [ran, Prod.mk.injEq] at ends
    obtain ⟨rfl, rfl⟩ := ends
    obtain ⟨place, passable, found⟩ := writePiecesThrough_ok held ran
    refine ⟨rfl, fun directory => place ?_, Disk.checkWay_mono passable fun ancestor _ directory => ?_, fun path => ?_⟩
    · rwa [others target]
      rintro rfl
      simp [free] at directory
    · rwa [← others ancestor]
      rintro rfl
      simp [held] at directory
    · rw [found, closed]
      by_cases self : path = beside
      · rw [if_pos self, self, free]
      · rw [if_neg self, others path self]

/-- However writing in pieces ends, the file holds all of them or every file is as it was. -/
theorem writeInPieces_cases {choose : Disk → Path} {target : Path} {pieces : List String} {world after : World}
    {result : Except Failure Unit} (ends : runIn (writeInPieces choose target pieces) world = (result, after)) :
    (result = .ok () ∧ Wrote target (String.join pieces) world.disk after.disk) ∨
      ((∃ failure, result = .error failure) ∧
        Disk.Grown (target.parent.ancestors ++ [target.parent]) world.disk after.disk) := by
  have grown := makeDirectories_grown target.parent world
  simp only [writeInPieces, runIn_bind] at ends
  rcases made : runIn (makeDirectories target.parent) world with ⟨failure | _, middle⟩
  · simp only [made, Prod.mk.injEq] at ends grown
    exact .inr ⟨⟨failure, ends.1.symm⟩, ends.2 ▸ grown⟩
  simp only [made] at ends grown
  by_cases long : Disk.nameLimit < target.lastName.utf8ByteSize + besideLetters
  · simp only [if_pos long, runIn_bind, runIn_throw, Prod.mk.injEq] at ends
    exact .inr ⟨⟨_, ends.1.symm⟩, ends.2 ▸ grown⟩
  simp only [if_neg long, runIn_bind, runIn_disk] at ends
  rcases create : runIn (change (.createFile (choose middle.disk))) middle with ⟨failure | _, created⟩
  · simp only [create, Prod.mk.injEq] at ends
    have kept := change_error create
    exact .inr ⟨⟨failure, ends.1.symm⟩, by rwa [← ends.2, kept]⟩
  simp only [create] at ends
  rcases writeBeside create ends with ⟨rfl, place, way, found⟩ | ⟨failed, same⟩
  · exact .inl ⟨rfl, middle.disk, grown, place, way, grown.isClosed target ▸ found⟩
  · exact .inr ⟨failed, fun path => same path ▸ grown path⟩

/-- A text is written as one piece, under a name that nothing in the directory has. -/
theorem writeText_eq (target : Path) (content : String) :
    writeText target content = writeInPieces (besidePath · target) target [content] := by
  have through : ∀ beside, writePiecesThrough beside target [content] = writeThrough beside target content := by
    intro beside
    simp [writePiecesThrough, writePieces, writeThrough]
  simp only [writeInPieces, writeText, through]

/-- However writing ends, the file holds all of the text or every file is as it was. -/
theorem writeText_cases {target : Path} {content : String} {world after : World} {result : Except Failure Unit}
    (ends : runIn (writeText target content) world = (result, after)) :
    (result = .ok () ∧ Wrote target content world.disk after.disk) ∨
      ((∃ failure, result = .error failure) ∧
        Disk.Grown (target.parent.ancestors ++ [target.parent]) world.disk after.disk) := by
  rw [writeText_eq] at ends
  simpa [String.join_cons] using writeInPieces_cases ends

theorem writeText_ok {target : Path} {content : String} {world after : World}
    (ends : runIn (writeText target content) world = (.ok (), after)) : Wrote target content world.disk after.disk := by
  rcases writeText_cases ends with ⟨_, wrote⟩ | ⟨⟨_, failed⟩, _⟩
  · exact wrote
  · cases failed

theorem saveFile_ok {target : Path} {content : String} {world after : World}
    (ends : runIn (saveFile target content) world = (.ok (), after)) : Wrote target content world.disk after.disk := by
  obtain ⟨⟨⟩, written, wrote, ends⟩ := runIn_bind_ok ends
  obtain ⟨_, rfl⟩ := Prod.mk.inj ends
  have kept := writeText_ok wrote
  exact kept

/-- However deleting ends, nothing but the file at the path has gone. -/
theorem delete_cases {path : Path} {world after : World} {result : Except Failure Bool}
    (ends : runIn (delete path) world = (result, after)) :
    (result = .ok true ∧ world.disk.checkWay path = .ok () ∧ (world.disk.file? path).isSome ∧
        after.disk = world.disk.drop path) ∨
      (result = .ok false ∧ (∃ place, world.disk.locate path = .error (.missing place)) ∧ after.disk = world.disk) ∨
      ((∃ failure, result = .error failure) ∧ after.disk = world.disk) := by
  simp only [delete, runIn_bind, runIn_disk] at ends
  split at ends
  · rename_i place missing
    obtain ⟨rfl, rfl⟩ := Prod.mk.inj ends
    exact .inr (.inl ⟨rfl, ⟨place, missing⟩, rfl⟩)
  · rw [runIn_bind] at ends
    rcases ran : runIn (change (.removeFile path)) world with ⟨failure | _, removed⟩
    · simp only [ran, Prod.mk.injEq] at ends
      exact .inr (.inr ⟨⟨failure, ends.1.symm⟩, ends.2 ▸ change_error ran⟩)
    · simp only [ran, runIn_pure, Prod.mk.injEq] at ends
      obtain ⟨rfl, rfl⟩ := ends
      exact .inl ⟨rfl, Disk.apply_removeFile.mp (change_ok ran)⟩

def Removed (path : Path) (before after : Disk) : Prop :=
  ∀ other, after.get? other = if other = path ∧ (before.file? path).isSome then none else before.get? other

theorem Removed.file? {path : Path} {before after : Disk} (removed : Removed path before after) (other : Path) :
    after.file? other = if other = path then none else before.file? other := by
  by_cases same : other = path
  · subst same
    rw [if_pos rfl]
    cases file : before.file? other with
    | none => rw [← file]; exact Disk.file?_congr (by simp [removed other, file])
    | some content =>
      have free : after.get? other = none := by simp [removed other, file]
      simp [Disk.file?, free]
  · rw [if_neg same]
    exact Disk.file?_congr (by simp [removed other, same])

theorem Removed.isClosed {path : Path} {before after : Disk} (removed : Removed path before after) {other : Path}
    (apart : other ≠ path) : after.isClosed other = before.isClosed other :=
  Disk.isClosed_congr (by simp [removed other, apart])

theorem delete_ok {path : Path} {deleted : Bool} {world after : World} (rooted : world.disk.Rooted)
    (ends : runIn (delete path) world = (.ok deleted, after)) :
    deleted = (world.disk.file? path).isSome ∧ Removed path world.disk after.disk := by
  rcases delete_cases ends with ⟨result, _, file, dropped⟩ | ⟨result, ⟨place, missing⟩, same⟩ | ⟨⟨_, failed⟩, _⟩
  · cases result
    refine ⟨file.symm, fun other => ?_⟩
    by_cases here : other = path
    · rw [dropped, here, Disk.get?_drop_self _ (Disk.not_isTop_of_file file), if_pos ⟨rfl, file⟩]
    · rw [dropped, Disk.get?_drop_of_ne _ here, if_neg fun both => here both.1]
  · cases result
    have absent : world.disk.get? path = none := by
      by_contra present
      obtain ⟨entry, found⟩ := Option.ne_none_iff_exists'.mp present
      simp [Disk.locate_ok.mpr ⟨rooted.way found, found⟩] at missing
    have file : world.disk.file? path = none := by simp [Disk.file?, absent]
    exact ⟨by simp [file], fun other => by simp [same, file]⟩
  · cases failed

theorem deleteFile_ok {path : Path} {deleted : Bool} {world after : World} (rooted : world.disk.Rooted)
    (ends : runIn (deleteFile path) world = (.ok deleted, after)) :
    deleted = (world.disk.file? path).isSome ∧ Removed path world.disk after.disk := by
  obtain ⟨gone, removed, ran, ends⟩ := runIn_bind_ok ends
  obtain ⟨said, spec⟩ := delete_ok rooted ran
  cases gone with
  | true =>
    obtain ⟨result, rfl⟩ := Prod.mk.inj ends
    cases result
    exact ⟨said, spec⟩
  | false =>
    obtain ⟨result, rfl⟩ := Prod.mk.inj ends
    cases result
    exact ⟨said, spec⟩

private theorem stepwise_makeDirectories (path : Path) : Stepwise (makeDirectories path) := by
  have way : ∀ ways, Stepwise (makeWay ways) := by
    intro ways
    induction ways with
    | nil => exact .pure ()
    | cons path rest ih =>
      refine .bind .disk fun disk => ?_
      split
      · exact .bind (.change _) fun _ => ih
      · exact ih
  refine .bind .disk fun disk => ?_
  split
  · exact .throw rfl
  · exact way _

theorem stepwise_writeText (target : Path) (content : String) : Stepwise (writeText target content) := by
  have through : ∀ beside, Stepwise (writeThrough beside target content) := fun beside =>
    .bind (.change _) fun _ => .bind (.change _) fun _ => .change _
  have rest : ∀ disk, Stepwise (do
      change (.createFile (besidePath disk target))
      tryCatch (writeThrough (besidePath disk target) target content) fun failure => do
        perform (.removeFile (besidePath disk target))
        throw failure) := fun disk =>
    .bind (.change _) fun _ => .tryCatch (through _) fun _ unreported => .bind (.perform _) fun _ => .throw unreported
  refine .bind (stepwise_makeDirectories _) fun _ => ?_
  split
  · exact .bind (.throw rfl) fun _ => .bind .disk rest
  · exact .bind .disk rest

theorem stepwise_delete (path : Path) : Stepwise (delete path) := by
  refine .bind .disk fun disk => ?_
  split
  · exact .pure _
  · exact .bind (.change _) fun _ => .pure _

theorem advances_writeText (target : Path) (content : String) : Advances (writeText target content) :=
  (stepwise_writeText target content).advances

theorem advances_delete (path : Path) : Advances (delete path) := (stepwise_delete path).advances

end Run

end TableModels
