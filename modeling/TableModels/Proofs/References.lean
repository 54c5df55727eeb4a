import TableModels.Proofs.History
import TableModels.Proofs.Rendering

/-! Which other models a model refers to. They were in scope when the model was generated last. As references are no
part of a digest, a model stays as it is when a table is dropped that it refers to. -/

namespace TableModels.Run

open Schema Model

variable {settings : Settings} {passes : List Pass} {disk : Disk}

/-- A table goes from the scope only when a run says that it removes it. -/
theorem Runs.removed {later : List Pass} {maker : Pass} {earlier : List Pass}
    (runs : Runs settings (later ++ maker :: earlier) disk)
    (distinct : Distinct (namesOf settings (later ++ maker :: earlier))) {name : String}
    (known : name ∈ (maker.scope settings).names)
    (gone : name ∉ (latest settings (later ++ maker :: earlier)).names) :
    ∃ pass ∈ later, name ∈ pass.outcome.removed := by
  induction later generalizing disk with
  | nil => exact absurd known gone
  | cons pass rest ih =>
    cases runs with
    | next runs carried =>
      by_cases before : name ∈ (latest settings (rest ++ maker :: earlier)).names
      · have kept := runs.kept distinct.earlier
        have stepped := carried.stepped kept.rooted kept.tallies (distinct.mono (latest_append_subset _ _))
        exact ⟨pass, List.mem_cons_self, (stepped.removed name).mpr ⟨before, gone⟩⟩
      · obtain ⟨other, inside, removed⟩ := ih runs distinct.earlier before
        exact ⟨other, List.mem_cons_of_mem _ inside, removed⟩

/-- What a model refers to was in scope when the model was generated last. It still is, and has a model of its own,
unless a run removed it since. -/
theorem references_kept (runs : Runs settings passes disk) (distinct : Distinct (namesOf settings passes))
    {table : Table}
    (member : table ∈ (latest settings passes).tables) :
    ∃ later maker former made relations, Rendered settings passes disk table.name later maker former ∧
      Emitted (styleOf settings) (.ofDeclared maker.source.enums) (maker.scope settings).names former made relations ∧
      disk.file? (modelPath settings table.name) = some (.text made.text) ∧
      ∀ relation ∈ relations, relation.targetTable ∈ (maker.scope settings).names ∧
        (relation.targetTable ∈ (latest settings passes).names →
          (disk.file? (modelPath settings relation.targetTable)).isSome) ∧
        (relation.targetTable ∉ (latest settings passes).names → ∃ pass ∈ later, relation.targetTable ∈
          pass.outcome.removed) := by
  have kept := runs.kept distinct
  obtain ⟨later, maker, former, rendered, _⟩ := kept.model table member
  obtain ⟨earlier, rfl⟩ := rendered.split
  obtain ⟨text, renders, file⟩ := rendered.text
  obtain ⟨made, relations, emitted, rfl⟩ := render_emitted renders
  refine ⟨later, maker, former, made, relations, rendered, emitted, file, fun relation refers => ?_⟩
  have known := emitted.known relation refers
  refine ⟨known, fun inScope => ?_, runs.removed distinct known⟩
  obtain ⟨other, inside, same⟩ := Snapshot.mem_names.mp inScope
  obtain ⟨_, _, _, made, _⟩ := kept.model other inside
  obtain ⟨text, _, file⟩ := made.text
  simp [← same, file]

theorem blog_references_kept : ∃ first second disk later maker former made relations,
    Rendered (Blog.options true) [⟨false, fetched Blog.bare, second⟩,
      ⟨false, fetched Blog.full, first⟩] disk "posts" later maker former ∧
      Emitted (styleOf (Blog.options true)) (.ofDeclared maker.source.enums)
        (maker.scope (Blog.options true)).names former made relations ∧
      ∀ relation ∈ relations, relation.targetTable ∉ (inScope (Blog.options true) Blog.bare.snapshot).names →
        ∃ pass ∈ later, relation.targetTable ∈ pass.outcome.removed := by
  obtain ⟨first, second, disk, runs⟩ := Blog.runs true
  have member : Blog.posts ∈ (inScope (Blog.options true) Blog.bare.snapshot).tables := by decide +kernel
  obtain ⟨later, maker, former, made, relations, rendered, emitted, _, each⟩ :=
    references_kept runs (Blog.distinct true first second) member
  exact ⟨first, second, disk, later, maker, former, made, relations, rendered, emitted,
    fun relation refers => (each relation refers).2.2⟩

private theorem Blog.imports_users {made : Code.Module}
    (ends : module (styleOf (Blog.options true)) (.ofDeclared []) ["posts", "users"]
      (convention.inferTable ["posts", "users"] Blog.posts) = .ok made) :
    .guarded "TYPE_CHECKING" [.importFrom 1 "users" ["Users"]] ∈ made.blocks := by
  obtain ⟨relations, emitted⟩ := module_emitted ends
  obtain ⟨scalars, name, found, blocks⟩ := emitted.blocks
  have pairs : (fields (styleOf (Blog.options true)) (.ofDeclared []) ["posts", "users"]
      (convention.inferTable ["posts", "users"] Blog.posts)).map (fun both => relationImports "posts" both.2) =
          .ok [("users", "Users")] := by
    decide +kernel
  rw [found] at pairs
  have pairs : relationImports "posts" relations = [("users", "Users")] := Except.ok.inj pairs
  have table : (convention.inferTable ["posts", "users"] Blog.posts).name = "posts" := rfl
  rw [blocks, imports, table, pairs]
  simp

/-- Once the users are gone, the model of posts still refers to theirs. -/
theorem blog_refers_to_removed : ∃ first second disk made,
    Runs (Blog.options true) [⟨false, fetched Blog.bare, second⟩, ⟨false, fetched Blog.full, first⟩] disk ∧
      "posts" ∈ (inScope (Blog.options true) Blog.bare.snapshot).names ∧
      disk.file? (modelPath (Blog.options true) "posts") = some (.text made.text) ∧
      module (styleOf (Blog.options true)) (.ofDeclared []) ["posts", "users"]
        (convention.inferTable ["posts", "users"] Blog.posts) = .ok made ∧
      .guarded "TYPE_CHECKING" [.importFrom 1 "users" ["Users"]] ∈ made.blocks ∧
      "users" ∉ (inScope (Blog.options true) Blog.bare.snapshot).names ∧
      disk.file? (modelPath (Blog.options true) "users") = none := by
  obtain ⟨first, second, disk, runs⟩ := Blog.runs true
  have distinct := Blog.distinct true first second
  have kept := runs.kept distinct
  have member : Blog.posts ∈ (inScope (Blog.options true) Blog.bare.snapshot).tables := by decide +kernel
  have linked : convention.inferTable ["posts", "users"] Blog.posts ∈
      (inScope (Blog.options true) Blog.full.snapshot).tables := by
    decide +kernel
  -- the digest of posts is the same with and without the reference to users
  have left : "posts" ∉ second.generated := by
    cases runs with
    | next runs carried =>
      have before := runs.kept distinct.earlier
      have stepped := carried.stepped before.rooted before.tallies (distinct.mono (latest_append_subset _ _))
      exact fun generated => stepped.changed rfl Blog.posts member generated _ linked rfl
        (Blog.posts.digest_withForeignKeys _)
  obtain ⟨later, maker, former, rendered, _⟩ := kept.model Blog.posts member
  obtain ⟨earlier, split⟩ := rendered.split
  have early : maker = ⟨false, fetched Blog.full, first⟩ := by
    rcases later with _ | ⟨last, _ | ⟨other, rest⟩⟩
    · obtain ⟨rfl, _⟩ := List.cons.inj split
      exact absurd rendered.generated left
    · exact (List.cons.inj (List.cons.inj split).2).1.symm
    · simp at split
  subst early
  have only : ∀ table ∈ (inScope (Blog.options true) Blog.full.snapshot).tables, table.name = "posts" →
      table = convention.inferTable ["posts", "users"] Blog.posts := by
    decide +kernel
  obtain rfl := only former rendered.inScope rendered.named
  obtain ⟨text, renders, file⟩ := rendered.text
  rw [Pass.scope, fetched, Blog.names_full] at renders
  obtain ⟨made, _, emitted, rfl⟩ := render_emitted renders
  refine ⟨first, second, disk, made, runs, by rw [Blog.names_bare]; decide, file, emitted.module,
    Blog.imports_users emitted.module, by rw [Blog.names_bare]; decide, ?_⟩
  have apart : ∀ other ∈ ["posts"], fileName other ≠ fileName "users" := by decide +kernel
  rw [← Blog.names_bare true] at apart
  exact kept.nothing (fileName "users") (modelPath_not_cached _ "users") (fileName_ne_manifestFile "users") apart

end TableModels.Run
