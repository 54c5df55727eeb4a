import TableModels.Proofs.Execution
import TableModels.Proofs.Snapshot

/-! What comparing the tables in scope with the stored digests comes to: which tables are generated, which names
are removed, and that together with what is left alone they make up the digests of the tables in scope. -/

namespace TableModels.Run

open Schema

theorem hasChanges_eq_false {diff : Cache.Diff} : diff.hasChanges = false ↔ diff.generate = [] ∧ diff.remove = [] := by
  simp [Cache.Diff.hasChanges]

theorem generate_subset {force : Bool} {origin : Origin} {scope : Snapshot} {digests : Cache.Digests} {table : Table}
    (member : table ∈ (adjusted force origin scope (.between digests scope.tables)).generate) :
    table ∈ scope.tables := by
  unfold adjusted at member
  split at member
  · exact member
  · split at member
    · exact member
    · exact (List.mem_filter.mp member).1

theorem mem_generate_of_name {force : Bool} {origin : Origin} {scope : Snapshot} {digests : Cache.Digests}
    {table : Table}
    (inScope : table ∈ scope.tables)
    (named : table.name ∈ (adjusted force origin scope (.between digests scope.tables)).generate.map Table.name) :
    table ∈ (adjusted force origin scope (.between digests scope.tables)).generate := by
  obtain ⟨other, member, same⟩ := List.mem_map.mp named
  exact List.inj_on_of_nodup_map scope.names_nodup (generate_subset member) inScope same ▸ member

theorem mem_remove {force : Bool} {origin : Origin} {scope : Snapshot} {digests : Cache.Digests} {name : String}
    (fetched : origin ≠ .fallback) :
    name ∈ (adjusted force origin scope (.between digests scope.tables)).remove ↔
      name ∈ Keyed.names digests ∧ name ∉ scope.names := by
  have between : name ∈ (Cache.Diff.between digests scope.tables).remove ↔ name ∈ Keyed.names digests ∧
      name ∉ scope.names := by
    simp [Cache.Diff.between, Snapshot.names]
  unfold adjusted
  rw [if_neg (by simpa using fetched)]
  cases force
  · exact between
  · exact between

theorem generate_not_removed {force : Bool} {origin : Origin} {scope : Snapshot} {digests : Cache.Digests}
    {table : Table}
    (fetched : origin ≠ .fallback)
    (member : table ∈ (adjusted force origin scope (.between digests scope.tables)).generate) :
    table.name ∉ (adjusted force origin scope (.between digests scope.tables)).remove :=
  fun removed => ((mem_remove fetched).mp removed).2 (Snapshot.mem_names.mpr ⟨table, generate_subset member, rfl⟩)

/-- What is not generated anew has the digest that is stored. -/
theorem digest_of_not_generated {force : Bool} {origin : Origin} {scope : Snapshot} {digests : Cache.Digests}
    {table : Table}
    (inScope : table ∈ scope.tables)
    (kept : table ∉ (adjusted force origin scope (.between digests scope.tables)).generate) :
    Keyed.get? digests table.name = some table.digest := by
  unfold adjusted at kept
  split at kept
  · exact absurd inScope kept
  · split at kept
    · exact absurd inScope kept
    · by_contra changed
      exact kept (List.mem_filter.mpr ⟨inScope, by simpa using changed⟩)

theorem generate_nodup {force : Bool} {origin : Origin} {scope : Snapshot} {digests : Cache.Digests} :
    ((adjusted force origin scope (.between digests scope.tables)).generate.map Table.name).Nodup := by
  unfold adjusted
  split
  · exact scope.names_nodup
  · split
    · exact scope.names_nodup
    · exact scope.names_nodup.sublist ((List.filter_sublist).map Table.name)

/-- Without any digests all tables are generated, and none is removed. -/
theorem adjusted_of_empty (force : Bool) (origin : Origin) (scope : Snapshot) :
    adjusted force origin scope (.between [] scope.tables) = ⟨scope.tables, []⟩ := by
  have diff : Cache.Diff.between [] scope.tables = ⟨scope.tables, []⟩ := by
    simp [Cache.Diff.between, Keyed.get?, Keyed.names, sortedNames]
  unfold adjusted
  rw [diff]
  split
  · rfl
  · split <;> rfl

/-- Unchanged entries, generated tables and removed names together make up the digests of the tables in scope. -/
theorem recorded_adjusted {force : Bool} {origin : Origin} {scope : Snapshot} {digests : Cache.Digests}
    (fetched : origin ≠ .fallback) (name : String) :
    recorded digests (adjusted force origin scope (.between digests scope.tables)) name =
      (scope.get? name).map Table.digest := by
  rw [recorded, without]
  cases found : scope.get? name with
  | none =>
    have outside := Snapshot.get?_eq_none.mp found
    split
    · rfl
    · rename_i kept
      rw [mem_remove fetched, not_and_not_right] at kept
      have unknown : name ∉ Keyed.names digests := fun known => outside (kept known)
      rw [Cache.get?_withTables_of_not_mem, Keyed.get?_eq_none.mpr unknown]
      · rfl
      · intro member
        obtain ⟨table, generated, rfl⟩ := List.mem_map.mp member
        exact outside (Snapshot.mem_names.mpr ⟨table, generate_subset generated, rfl⟩)
  | some table =>
    obtain ⟨member, rfl⟩ := Snapshot.get?_eq_some.mp found
    rw [if_neg fun removed => ((mem_remove fetched).mp removed).2 (Snapshot.mem_names.mpr ⟨table, member, rfl⟩)]
    by_cases generated : table ∈ (adjusted force origin scope (.between digests scope.tables)).generate
    · exact Cache.get?_withTables_of_mem _ generate_nodup generated
    · rw [Cache.get?_withTables_of_not_mem]
      · exact digest_of_not_generated member generated
      · exact fun named => generated (mem_generate_of_name member named)

end TableModels.Run
