import TableModels.Proofs.History
import TableModels.Proofs.Rendering

/-! What comes of generating only what has changed. Without embedded relations a table is rendered from what it
declares, so a file that was left alone holds what would be rendered now. -/

namespace TableModels.Run

open Schema Model

variable {settings : Settings}

/-- The digest tells the tables apart that were in scope. -/
def Faithful (settings : Settings) (passes : List Pass) : Prop :=
  ∀ first ∈ passes, ∀ second ∈ passes, ∀ table ∈ (first.scope settings).tables,
    ∀ other ∈ (second.scope settings).tables,
    table.digest = other.digest → table.declared = other.declared

/-- There are models of the tables in scope and of no others, and all are as if generated just now. -/
structure UpToDate (settings : Settings) (enums : Keyed (List String)) (scope : Snapshot) (disk : Disk) : Prop where
  model : ∀ table ∈ scope.tables, ∃ text, render (styleOf settings) (.ofDeclared enums) scope.names table = .ok text ∧
    disk.file? (modelPath settings table.name) = some (.text text)
  only : ∀ name, (Path.ofText settings.output).join name ∉ (cacheOf settings).paths → name ≠ manifestFile →
    ((disk.file? ((Path.ofText settings.output).join name)).isSome ↔ ∃ table ∈ scope.tables, name = fileName table.name)

/-- Generating only what has changed comes to the same as generating everything. -/
theorem incremental_up_to_date {passes : List Pass} {disk : Disk} {enums : Keyed (List String)}
    (plain : settings.embedRelations = false) (runs : Runs settings passes disk)
    (registry : ∀ pass ∈ passes, pass.source.enums = enums) (distinct : Distinct (namesOf settings passes))
    (faithful : Faithful settings passes) :
    UpToDate settings enums (latest settings passes) disk ∧
      (settings.manifest = true → (∃ pass ∈ passes, pass.outcome.hasChanges = true) → ∃ text,
        manifest settings.singular (latest settings passes).names = .ok text ∧
          disk.file? (manifestPath settings) = some (.text text)) := by
  have kept := runs.kept distinct
  have model : ∀ table ∈ (latest settings passes).tables, ∃ text,
      render (styleOf settings) (.ofDeclared enums) (latest settings passes).names table = .ok text ∧
        disk.file? (modelPath settings table.name) = some (.text text) := by
    intro table member
    obtain ⟨later, pass, former, rendered, digest⟩ := kept.model table member
    obtain ⟨earlier, split⟩ := rendered.split
    obtain ⟨text, renders, file⟩ := rendered.text
    have inside : pass ∈ passes := by simp [split]
    refine ⟨text, ?_, file⟩
    rw [registry pass inside] at renders
    have newest : ∃ last ∈ passes, latest settings passes = last.scope settings := by
      cases passes with
      | nil => simp at inside
      | cons last rest => exact ⟨last, List.mem_cons_self, rfl⟩
    obtain ⟨last, known, same⟩ := newest
    have declared := faithful pass inside last known former rendered.inScope table (same ▸ member) digest
    exact (render_congr plain declared _ _).trans renders
  refine ⟨⟨model, fun name outside unlike => ⟨fun file => ?_, ?_⟩⟩, kept.package⟩
  · by_contra other
    have free := kept.nothing name outside unlike fun known member same => other ?_
    · simp [free] at file
    · obtain ⟨table, inside, rfl⟩ := Snapshot.mem_names.mp member
      exact ⟨table, inside, same.symm⟩
  · rintro ⟨table, member, rfl⟩
    obtain ⟨text, _, file⟩ := model table member
    simp [show (Path.ofText settings.output).join (fileName table.name) = modelPath settings table.name from rfl, file]

theorem blog_up_to_date : ∃ first second disk,
    Runs (Blog.options false) [⟨false, fetched Blog.bare, second⟩, ⟨false, fetched Blog.full, first⟩] disk ∧
      UpToDate (Blog.options false) [] (inScope (Blog.options false) Blog.bare.snapshot) disk := by
  obtain ⟨first, second, disk, runs⟩ := Blog.runs false
  have declared : ∀ contents ∈ [Blog.bare, Blog.full],
      ∀ table ∈ (inScope (Blog.options false) contents.snapshot).tables,
      table.declared ∈ [Blog.posts, Blog.users] := by
    decide +kernel
  have apart : Blog.posts.digest ≠ Blog.users.digest := by decide +kernel
  have told : ∀ contents ∈ [Blog.bare, Blog.full], ∀ others ∈ [Blog.bare, Blog.full],
      ∀ table ∈ (inScope (Blog.options false) contents.snapshot).tables,
      ∀ other ∈ (inScope (Blog.options false) others.snapshot).tables,
        table.digest = other.digest → table.declared = other.declared := by
    intro contents known others given table member other inside same
    have first := declared contents known table member
    have second := declared others given other inside
    have equal : table.declared.digest = other.declared.digest :=
      (table.digest_withForeignKeys _).trans (same.trans (other.digest_withForeignKeys _).symm)
    rcases List.mem_pair.mp first with here | here <;> rcases List.mem_pair.mp second with there | there <;>
      rw [here, there] at equal ⊢
    · exact absurd equal apart
    · exact absurd equal.symm apart
  have faithful :
      Faithful (Blog.options false) [⟨false, fetched Blog.bare, second⟩, ⟨false, fetched Blog.full, first⟩] := by
    have source : ∀ pass ∈ [⟨false, fetched Blog.bare, second⟩, ⟨false, fetched Blog.full, first⟩],
        ∃ contents ∈ [Blog.bare, Blog.full], Pass.source pass = fetched contents := by simp
    intro left inside right member
    obtain ⟨contents, known, same⟩ := source left inside
    obtain ⟨others, given, equal⟩ := source right member
    rw [Pass.scope, Pass.scope, same, equal]
    exact told contents known others given
  exact ⟨first, second, disk, runs, (incremental_up_to_date rfl runs (by simp [fetched, Blog.full, Blog.bare])
    (Blog.distinct false first second) faithful).1⟩

end TableModels.Run
