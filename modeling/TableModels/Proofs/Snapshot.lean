import Mathlib.Data.List.Nodup
import TableModels.Run.Sync

/-! The tables of a schema by name. References are no part of a digest, so the digests of the tables in scope
depend only on what the schema declares. -/

namespace TableModels.Schema

namespace Snapshot

variable {snapshot : Snapshot} {name : String} {table : Table}

theorem names_nodup (snapshot : Snapshot) : snapshot.names.Nodup := by
  refine snapshot.ascending.imp ?_
  rintro first second before rfl
  exact String.lt_irrefl _ before

theorem get?_eq_some : snapshot.get? name = some table ↔ table ∈ snapshot.tables ∧ table.name = name := by
  constructor
  · intro found
    exact ⟨List.mem_of_find?_eq_some found, by simpa using List.find?_some found⟩
  · rintro ⟨member, rfl⟩
    cases found : snapshot.get? table.name with
    | none => simpa using List.find?_eq_none.mp found table member
    | some other =>
      have same : other.name = table.name := by simpa using List.find?_some found
      rw [List.inj_on_of_nodup_map snapshot.names_nodup (List.mem_of_find?_eq_some found) member same]

theorem get?_of_mem (member : table ∈ snapshot.tables) : snapshot.get? table.name = some table :=
  get?_eq_some.mpr ⟨member, rfl⟩

theorem mem_names : name ∈ snapshot.names ↔ ∃ table ∈ snapshot.tables, table.name = name := List.mem_map

theorem get?_eq_none : snapshot.get? name = none ↔ name ∉ snapshot.names := by
  rw [get?, List.find?_eq_none, mem_names]
  simp

/-- Names stand in ascending order, so which ones there are is all that matters. -/
theorem names_eq {first second : Snapshot} (same : ∀ name, name ∈ first.names ↔ name ∈ second.names) :
    first.names = second.names := by
  have perm := (List.perm_ext_iff_of_nodup first.names_nodup second.names_nodup).mpr same
  refine perm.eq_of_pairwise (fun _ _ _ _ before after => ?_) first.ascending second.ascending
  exact absurd after (String.lt_asymm before)

theorem get?_filter (keep : String → Bool) (snapshot : Snapshot) (name : String) :
    (snapshot.filter keep).get? name = if keep name then snapshot.get? name else none := by
  simp only [get?, filter, List.find?_filter]
  by_cases kept : keep name
  · rw [if_pos kept]
    congr 1
    funext table
    by_cases same : table.name = name <;> simp [same, kept]
  · rw [if_neg kept, List.find?_eq_none]
    intro table _ both
    obtain ⟨here, rfl⟩ : keep table.name = true ∧ table.name = name := by simpa using both
    exact kept here

private theorem get?_withForeignKeys (choose : Column → Option ForeignKey) (snapshot : Snapshot) (name : String) :
    (snapshot.withForeignKeys choose).get? name = (snapshot.get? name).map
      fun table => table.withForeignKeys choose := by
  rw [get?, withForeignKeys, List.find?_map]
  rfl

theorem names_withForeignKeys (choose : Column → Option ForeignKey) (snapshot : Snapshot) :
    (snapshot.withForeignKeys choose).names = snapshot.names := by
  rw [names, withForeignKeys, List.map_map]
  rfl

end Snapshot

theorem Table.digest_withForeignKeys (table : Table) (choose : Column → Option ForeignKey) :
    (table.withForeignKeys choose).digest = table.digest := by
  have lines : (table.withForeignKeys choose).columns.map Column.digestLine = table.columns.map Column.digestLine := by
    rw [Table.withForeignKeys, List.map_map]
    rfl
  rw [Table.digest, Table.digest, Table.digestText, Table.digestText, lines]
  rfl

/-- What is declared of a table does not depend on the references that it has. -/
theorem Table.declared_withForeignKeys (table : Table) (choose : Column → Option ForeignKey) :
    (table.withForeignKeys choose).declared = table.declared := by
  simp [Table.declared, Table.withForeignKeys, Column.withForeignKey]

end TableModels.Schema

namespace TableModels.Run

open Schema

variable {settings : Settings}

private theorem get?_inScope (settings : Settings) (snapshot : Snapshot) (name : String) :
    (inScope settings snapshot).get? name =
      if settings.includes name then (snapshot.get? name).map (convention.inferTable snapshot.names) else none := by
  rw [inScope, Snapshot.get?_filter, Convention.infer, Snapshot.get?_withForeignKeys]
  rfl

/-- The digest under each name in scope, read off the declared schema. -/
theorem digest_inScope (settings : Settings) (snapshot : Snapshot) (name : String) :
    ((inScope settings snapshot).get? name).map Table.digest =
      if settings.includes name then (snapshot.declared.get? name).map Table.digest else none := by
  rw [get?_inScope]
  by_cases included : settings.includes name
  · rw [if_pos included, if_pos included, Snapshot.declared, Snapshot.get?_withForeignKeys,
      Option.map_map, Option.map_map]
    congr 1
    funext table
    exact (table.digest_withForeignKeys _).trans (table.digest_withForeignKeys _).symm
  · rw [if_neg included, if_neg included]
    rfl

end TableModels.Run
