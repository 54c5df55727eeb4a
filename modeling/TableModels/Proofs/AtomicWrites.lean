import TableModels.Proofs.Progress

/-! Writing a file as a whole. The text goes to the disk in pieces under another name, and a failure may come before
any change: while directories are made, before the first piece, between two of them, or when the file is to be moved
to its place. Whatever happens, the target holds all of the pieces or what it held before, and nothing else is left
behind. -/

namespace TableModels.Run

open Act World

variable {choose : Disk → Path} {target : Path} {pieces : List String} {world after : World}

/-- Nothing is in the way of a file: directories can be made on the way to it, a free name is found next to it, and
the file may be moved to its place. -/
structure Writable (choose : Disk → Path) (target : Path) (world : World) : Prop where
  untroubled : Untroubled world
  passable : Passable world.disk target.parent
  brief : target.lastName.utf8ByteSize + besideLetters ≤ Disk.nameLimit
  place : world.disk.get? target ≠ some .directory
  chooses : ChoosesFree choose target.parent world.disk

theorem Writable.ends (writable : Writable choose target world) (pieces : List String) :
    ∃ after, runIn (writeInPieces choose target pieces) world = (.ok (), after) := by
  have named : target ≠ [] := by
    rintro rfl
    exact writable.place rfl
  have whole : target.parent.join target.lastName = target := Path.join_parent named
  have place := writable.place
  rw [← whole] at place
  obtain ⟨after, ran, _⟩ :=
    writeInPieces_ends pieces writable.untroubled writable.passable writable.brief place writable.chooses
  exact ⟨after, whole ▸ ran⟩

private theorem writeInPieces_directory {result : Except Failure Unit}
    (ends : runIn (writeInPieces choose target pieces) world = (result, after))
    (directory : world.disk.get? target = some .directory) : ∃ failure, result = .error failure := by
  rcases writeInPieces_cases ends with ⟨_, middle, grown, place, _⟩ | ⟨failed, _⟩
  · exact absurd (grown.directory directory) place
  · exact failed

private theorem writeInPieces_left {result : Except Failure Unit}
    (ends : runIn (writeInPieces choose target pieces) world = (result, after))
    {path : Path} (apart : path ≠ target) : after.disk.get? path = world.disk.get? path ∨
      path ∈ target.parent.ancestors ++ [target.parent] ∧ after.disk.get? path = some .directory := by
  rcases writeInPieces_cases ends with ⟨_, middle, grown, _, _, found⟩ | ⟨_, grown⟩
  · rw [found, if_neg apart]
    exact (grown path).imp_right fun made => ⟨made.1, made.2.2⟩
  · exact (grown path).imp_right fun made => ⟨made.1, made.2.2⟩

/-- Whatever is on the disk, wherever changes are kept from being made, into whatever pieces the text is cut and
whatever the other name is: writing a file ends normally, and the file holds all of the text while every other file is
as it was, or it fails and every file is as it was. Nothing but directories on the way to the file has been made
besides. It fails where a directory stands in the place of the file, and it does not fail where nothing is in the way.
A text that is written at once is one piece. -/
theorem writing_all_or_nothing (choose : Disk → Path) (target : Path) (pieces : List String) (world : World) :
    (∃ result after, runIn (writeInPieces choose target pieces) world = (result, after) ∧
      (result = .ok () ∧ (∀ path, after.disk.file? path =
            if path = target then some (.text (String.join pieces)) else world.disk.file? path) ∨
        (∃ failure, result = .error failure) ∧ ∀ path, after.disk.file? path = world.disk.file? path) ∧
      (∀ path, path ≠ target → after.disk.get? path = world.disk.get? path ∨
        path ∈ target.parent.ancestors ++ [target.parent] ∧ after.disk.get? path = some .directory) ∧
      (world.disk.get? target = some .directory → ∃ failure, result = .error failure) ∧
      (Writable choose target world → result = .ok ())) ∧
    ∀ content, writeText target content = writeInPieces (besidePath · target) target [content] := by
  refine ⟨?_, writeText_eq target⟩
  rcases ran : runIn (writeInPieces choose target pieces) world with ⟨result, after⟩
  refine ⟨result, after, rfl, ?_, fun path => writeInPieces_left ran, writeInPieces_directory ran, fun writable => ?_⟩
  · rcases writeInPieces_cases ran with ⟨done, wrote⟩ | ⟨failed, grown⟩
    · exact .inl ⟨done, wrote.file?⟩
    · exact .inr ⟨failed, grown.file?⟩
  · obtain ⟨_, ends⟩ := writable.ends pieces
    exact (Prod.mk.inj (ran.symm.trans ends)).1

/-- A file is there, and the third change is kept from being made. -/
def shelf : World where
  disk := ⟨[(["notes"], .directory), (["notes", "list"], .file { content := .text "old" })]⟩
  trouble := (· == 2)

/-- What became of writing to a file that is there when only the first of two pieces gets to the disk. -/
def torn : Except Failure Unit × World :=
  runIn (writeInPieces (fun _ => ["notes", ".list.tmp"]) ["notes", "list"] ["new ", "text"]) shelf

/-- The first of two pieces is written to the disk and the second is not: the file keeps its text, and the piece is
gone. -/
theorem torn_write_undone : torn.2.journal.length = 3 ∧ torn.1.isOk = false ∧
    torn.2.disk.file? ["notes", "list"] = some (.text "old") ∧ torn.2.disk.get? ["notes", ".list.tmp"] = none := by
  have changes : torn.2.journal.length = 3 ∧ torn.1.isOk = false := by decide +kernel
  obtain ⟨⟨result, after, ran, kept, left, _⟩, _⟩ :=
    writing_all_or_nothing (fun _ => ["notes", ".list.tmp"]) ["notes", "list"] ["new ", "text"] shelf
  have ends : torn = (result, after) := ran
  rw [ends] at changes ⊢
  refine ⟨changes.1, changes.2, ?_, ?_⟩
  · rcases kept with ⟨rfl, _⟩ | ⟨_, same⟩
    · cases changes.2
    · rw [same]
      rfl
  · rcases left ["notes", ".list.tmp"] (by decide) with same | ⟨between, _⟩
    · rw [same]
      rfl
    · exact absurd between (by decide)

end TableModels.Run
