import TableModels.Proofs.Described

/-! Snapshots that are derived from one another. Every step makes a new snapshot of the tables of the one before, in
order of their names, and refuses tables of which two have one name. No step of a run is refused, and what is found
under a name is the table that was given last, if all filters since have let it pass. -/

namespace TableModels.Schema

namespace Snapshot

private theorem find?_insertTable (table : Table) (tables : List Table) (name : String) :
    (insertTable table tables).find? (fun other => other.name == name) =
      if table.name = name then some table else tables.find? fun other => other.name == name := by
  induction tables with
  | nil => by_cases same : table.name = name <;> simp [insertTable, same]
  | cons first rest ih =>
    rw [insertTable]
    split
    · by_cases same : table.name = name <;> simp [same]
    · split
      · rename_i equal
        by_cases same : table.name = name <;> simp [same, ← equal]
      · rename_i differs
        by_cases here : first.name = name
        · have apart : table.name ≠ name := fun same => differs (same.trans here.symm)
          simp [here, apart]
        · simp [here, ih]

private theorem get?_insert (snapshot : Snapshot) (table : Table) (name : String) :
    (snapshot.insert table).get? name = if table.name = name then some table else snapshot.get? name :=
  find?_insertTable table snapshot.tables name

private theorem get?_replace (snapshot : Snapshot) (tables : List Table) (name : String) :
    (snapshot.replace tables).get? name =
      (tables.reverse.find? fun table => table.name == name).or (snapshot.get? name) := by
  induction tables generalizing snapshot with
  | nil => rfl
  | cons table rest ih =>
    have step : snapshot.replace (table :: rest) = (snapshot.insert table).replace rest := rfl
    rw [step, ih, get?_insert, List.reverse_cons, List.find?_append]
    cases later : rest.reverse.find? fun table => table.name == name with
    | some found => rfl
    | none => by_cases here : table.name = name <;> simp [here]

end Snapshot

inductive Step where
  | replace (tables : List Table)
  | filter (keep : String → Bool)

namespace Step

/-- The tables that a step leaves, before they are put in order. Those that are given join the others by name. -/
def tables (snapshot : Snapshot) : Step → List Table
  | replace tables =>
    (tables.foldl (fun merged table => Keyed.set merged table.name table)
      (snapshot.tables.map fun table => (table.name, table))).map Prod.snd
  | filter keep => snapshot.tables.filter fun table => keep table.name

/-- The derived snapshot, with all checks made anew. -/
def take (step : Step) (snapshot : Snapshot) : Except Clash Snapshot := Snapshot.ofTables (step.tables snapshot)

/-- The step as a snapshot takes it, without the checks. -/
def apply (snapshot : Snapshot) : Step → Snapshot
  | replace tables => snapshot.replace tables
  | filter keep => snapshot.filter keep

def trail (first : Snapshot) : List Step → Except Clash (List Snapshot)
  | [] => .ok [first]
  | step :: rest => do
    let next ← step.take first
    return first :: (← trail next rest)

end Step

variable {snapshot : Snapshot} {merged : Keyed Table}

/-- Tables under their names, as many and the same as in a snapshot. -/
structure Merged (merged : Keyed Table) (snapshot : Snapshot) : Prop where
  labels : ∀ name table, (name, table) ∈ merged → table.name = name
  distinct : (Keyed.names merged).Nodup
  found : ∀ name, Keyed.get? merged name = snapshot.get? name

theorem Merged.start (snapshot : Snapshot) :
    Merged (snapshot.tables.map fun table => (table.name, table)) snapshot where
  labels := by
    intro name table member
    obtain ⟨_, _, same⟩ := List.mem_map.mp member
    cases same
    rfl
  distinct := by
    rw [Keyed.names, List.map_map]
    exact snapshot.names_nodup
  found := by
    intro name
    rw [Keyed.get?, Snapshot.get?]
    induction snapshot.tables with
    | nil => rfl
    | cons table rest ih =>
      by_cases here : table.name = name
      · simp [here]
      · simp [List.lookup_cons, here, beq_eq_false_iff_ne.mpr (Ne.symm here), ih]

theorem Merged.set (same : Merged merged snapshot) (table : Table) :
    Merged (Keyed.set merged table.name table) (snapshot.insert table) := by
  have distinct := Keyed.nodup_set same.distinct table.name table
  refine ⟨?_, distinct, ?_⟩
  · intro name other member
    have found := Keyed.get?_of_mem distinct member
    rw [Keyed.get?_set] at found
    split at found
    · rename_i here
      cases found
      exact here.symm
    · exact same.labels name other (Keyed.mem_of_get? found)
  · intro name
    rw [Keyed.get?_set, Snapshot.get?_insert, same.found]
    by_cases here : table.name = name
    · rw [if_pos here, if_pos here.symm]
    · rw [if_neg here, if_neg (Ne.symm here)]

theorem Merged.replace (same : Merged merged snapshot) (tables : List Table) :
    Merged (tables.foldl (fun merged table => Keyed.set merged table.name table) merged) (snapshot.replace tables) := by
  induction tables generalizing merged snapshot with
  | nil => exact same
  | cons table rest ih => exact ih (same.set table)

theorem Merged.perm (same : Merged merged snapshot) : (merged.map Prod.snd).Perm snapshot.tables := by
  have labels : (merged.map Prod.snd).map Table.name = Keyed.names merged := by
    rw [List.map_map]
    exact List.map_congr_left fun entry member => same.labels entry.1 entry.2 member
  have distinct : (merged.map Prod.snd).Nodup := List.Nodup.of_map Table.name (labels ▸ same.distinct)
  apply (List.perm_ext_iff_of_nodup distinct (List.Nodup.of_map Table.name snapshot.names_nodup)).mpr
  intro table
  constructor
  · intro member
    obtain ⟨⟨name, _⟩, listed, rfl⟩ := List.mem_map.mp member
    have found := Keyed.get?_of_mem same.distinct listed
    exact (Snapshot.get?_eq_some.mp ((same.found name).symm.trans found)).1
  · intro member
    have found := (same.found table.name).trans (Snapshot.get?_of_mem member)
    exact List.mem_map.mpr ⟨_, Keyed.mem_of_get? found, rfl⟩

private theorem Step.take_eq (step : Step) (snapshot : Snapshot) : step.take snapshot = .ok (step.apply snapshot) := by
  apply Snapshot.ofTables_ok.mpr
  cases step with
  | replace tables => exact ((Merged.start snapshot).replace tables).perm
  | filter keep => exact .refl _

/-- The step gives no table of this name, and lets one pass. -/
def Step.Spares (name : String) : Step → Prop
  | replace tables => ∀ table ∈ tables, table.name ≠ name
  | filter keep => keep name = true

/-- The table is the last one given under a name, and every step since has spared it. -/
def Supplied (history : List Step) (name : String) (table : Table) : Prop :=
  ∃ before tables after, history = before ++ .replace tables :: after ∧ Keyed.Latest Table.name tables name table ∧
    ∀ step ∈ after, step.Spares name

private theorem supplied_append {history : List Step} {step : Step} {name : String} {table : Table} :
    Supplied (history ++ [step]) name table ↔
      (∃ tables, step = .replace tables ∧ Keyed.Latest Table.name tables name table) ∨
        step.Spares name ∧ Supplied history name table := by
  constructor
  · intro ⟨before, tables, after, same, latest, spared⟩
    rcases List.eq_nil_or_concat after with rfl | ⟨after, last, rfl⟩
    · obtain ⟨_, last⟩ := List.append_inj' same rfl
      exact .inl ⟨tables, (List.cons.inj last).1, latest⟩
    · rw [List.concat_eq_append] at same spared
      have split : history ++ [step] = (before ++ .replace tables :: after) ++ [last] := by simpa using same
      obtain ⟨rfl, final⟩ := List.append_inj' split rfl
      obtain ⟨rfl, _⟩ := List.cons.inj final
      refine .inr ⟨spared _ (by simp), before, tables, after, rfl, latest, ?_⟩
      intro other member
      exact spared other (List.mem_append_left _ member)
  · intro supplied
    rcases supplied with ⟨tables, rfl, latest⟩ | ⟨spares, before, tables, after, rfl, latest, spared⟩
    · exact ⟨history, tables, [], rfl, latest, nofun⟩
    · refine ⟨before, tables, after ++ [step], by simp, latest, ?_⟩
      intro other member
      rcases List.mem_append.mp member with inside | last
      · exact spared other inside
      · cases List.mem_singleton.mp last
        exact spares

namespace Snapshot

/-- What a snapshot says of its tables, after the steps that led to it. -/
structure Answers (snapshot : Snapshot) (history : List Step) : Prop where
  ascending : snapshot.names.Pairwise (· < ·)
  found : ∀ name table, snapshot.get? name = some table ↔ Supplied history name table
  contained : ∀ name, snapshot.contains name = true ↔ name ∈ snapshot.names
  known : ∀ name, name ∈ snapshot.names ↔ (snapshot.get? name).isSome
  size : snapshot.size = snapshot.names.length
  listed : snapshot.tables = snapshot.names.filterMap snapshot.get?

private theorem contains_iff {snapshot : Snapshot} {name : String} :
    snapshot.contains name = true ↔ name ∈ snapshot.names := by
  simp [contains, names]

private theorem mem_names_iff {snapshot : Snapshot} {name : String} :
    name ∈ snapshot.names ↔ (snapshot.get? name).isSome := by
  rw [← Option.not_isNone, Bool.not_eq_true', Option.isNone_eq_false_iff, Option.isSome_iff_ne_none, ne_eq,
    get?_eq_none, not_not]

private theorem tables_eq (snapshot : Snapshot) : snapshot.tables = snapshot.names.filterMap snapshot.get? := by
  rw [names, List.filterMap_map]
  have each : ∀ table ∈ snapshot.tables, (snapshot.get? ∘ Table.name) table = some table :=
    fun table member => get?_of_mem member
  rw [List.filterMap_congr each, List.filterMap_some]

private theorem eq_iff_get? {first second : Snapshot} :
    first = second ↔ ∀ name, first.get? name = second.get? name := by
  constructor
  · intro same name
    rw [same]
  · intro alike
    have names : first.names = second.names := names_eq fun name => by rw [mem_names_iff, mem_names_iff, alike]
    have tables : first.tables = second.tables := by
      rw [tables_eq, tables_eq, names]
      exact List.filterMap_congr fun name _ => alike name
    cases first
    cases second
    cases tables
    rfl

private theorem Answers.of_found {snapshot : Snapshot} {history : List Step}
    (found : ∀ name table, snapshot.get? name = some table ↔ Supplied history name table) :
    snapshot.Answers history where
  ascending := snapshot.ascending
  found := found
  contained := fun _ => contains_iff
  known := fun _ => mem_names_iff
  size := by rw [Snapshot.size, names, List.length_map]
  listed := snapshot.tables_eq

theorem Answers.empty : empty.Answers [] := by
  apply Answers.of_found
  intro name table
  constructor
  · intro found
    cases found
  · intro ⟨before, tables, after, same, _⟩
    simp at same

/-- A step is not refused, and the answers of the new snapshot follow from its history. -/
theorem Answers.step {snapshot : Snapshot} {history : List Step} (answers : snapshot.Answers history) (step : Step) :
    ∃ next, step.take snapshot = .ok next ∧ next.Answers (history ++ [step]) := by
  refine ⟨_, step.take_eq snapshot, .of_found fun name table => ?_⟩
  cases step with
  | replace tables =>
    rw [Step.apply, get?_replace, supplied_append, ← answers.found]
    cases later : tables.reverse.find? fun table => table.name == name with
    | some given =>
      have latest := Keyed.find?_reverse.mp later
      rw [Option.some_or]
      constructor
      · intro same
        cases same
        exact .inl ⟨tables, rfl, latest⟩
      · intro supplied
        rcases supplied with ⟨_, same, other⟩ | ⟨spares, _⟩
        · cases same
          exact later.symm.trans (Keyed.find?_reverse.mpr other)
        · have listed : given ∈ tables := List.mem_reverse.mp (List.mem_of_find?_eq_some later)
          exact absurd (by simpa using List.find?_some later) (spares given listed)
    | none =>
      rw [Option.none_or]
      constructor
      · intro found
        refine .inr ⟨?_, found⟩
        intro other member
        simpa using List.find?_eq_none.mp later other (List.mem_reverse.mpr member)
      · intro supplied
        rcases supplied with ⟨_, same, other⟩ | ⟨_, found⟩
        · cases same
          rw [Keyed.find?_reverse.mpr other] at later
          cases later
        · exact found
  | filter keep =>
    rw [Step.apply, get?_filter, supplied_append, ← answers.found]
    by_cases kept : keep name = true <;> simp [Step.Spares, kept]

private theorem Answers.trail {snapshot : Snapshot} {history : List Step} (answers : snapshot.Answers history)
    (steps : List Step) :
    ∃ made, Step.trail snapshot steps = .ok made ∧ made.length = steps.length + 1 ∧
      ∀ count ≤ steps.length, ∃ point, made[count]? = some point ∧ point.Answers (history ++ steps.take count) := by
  induction steps generalizing snapshot history with
  | nil =>
    refine ⟨[snapshot], rfl, rfl, ?_⟩
    intro count small
    obtain rfl := Nat.le_zero.mp small
    exact ⟨snapshot, rfl, by simpa using answers⟩
  | cons step rest ih =>
    obtain ⟨next, taken, after⟩ := answers.step step
    obtain ⟨made, run, length, points⟩ := ih after
    refine ⟨snapshot :: made, ?_, by rw [List.length_cons, length, List.length_cons], ?_⟩
    · simp only [Step.trail, taken, run, bind, Except.bind]
      rfl
    · intro count small
      cases count with
      | zero => exact ⟨snapshot, rfl, by simpa using answers⟩
      | succ count =>
        obtain ⟨point, found, told⟩ := points count (Nat.le_of_succ_le_succ small)
        refine ⟨point, found, ?_⟩
        rw [List.append_assoc, List.singleton_append] at told
        exact told

end Snapshot

private theorem ofTables_error_iff {tables : List Table} :
    (∃ clash, Snapshot.ofTables tables = .error clash) ↔ ¬ (tables.map Table.name).Nodup := by
  constructor
  · intro ⟨clash, refused⟩ distinct
    rw [Snapshot.ofTables, repeated?_of_nodup distinct] at refused
    cases refused
  · intro crowded
    cases made : Snapshot.ofTables tables with
    | error clash => exact ⟨clash, rfl⟩
    | ok snapshot =>
      have same := (Snapshot.ofTables_ok.mp made).map Table.name
      exact absurd (same.nodup_iff.mpr snapshot.names_nodup) crowded

/-- A list of tables makes a snapshot unless two have one name, whatever their order, and snapshots are told apart by
what is found in them. No step is refused. From there every run of steps succeeds, and at every point of it the
snapshot gives the table under each name that was given last and has passed all filters since. -/
theorem derived_snapshots_answer (tables : List Table) :
    ((∃ clash, Snapshot.ofTables tables = .error clash) ↔ ¬ (tables.map Table.name).Nodup) ∧
    (∀ others : List Table, others.Perm tables → (tables.map Table.name).Nodup →
      ∃ snapshot, Snapshot.ofTables tables = .ok snapshot ∧ Snapshot.ofTables others = .ok snapshot) ∧
    (∀ first second : Snapshot, first = second ↔ ∀ name, first.get? name = second.get? name) ∧
    (∀ (step : Step) (snapshot : Snapshot), step.take snapshot = .ok (step.apply snapshot)) ∧
    ∀ first, Snapshot.ofTables tables = .ok first → ∀ steps, ∃ made, Step.trail first steps = .ok made ∧
      made.length = steps.length + 1 ∧ ∀ count ≤ steps.length, ∃ snapshot, made[count]? = some snapshot ∧
        snapshot.Answers (.replace tables :: steps.take count) := by
  refine ⟨ofTables_error_iff, ?_, fun _ _ => Snapshot.eq_iff_get?, Step.take_eq, ?_⟩
  · intro others perm distinct
    cases made : Snapshot.ofTables tables with
    | error clash => exact absurd distinct (ofTables_error_iff.mp ⟨clash, made⟩)
    | ok snapshot => exact ⟨snapshot, rfl, Snapshot.ofTables_ok.mpr (perm.trans (Snapshot.ofTables_ok.mp made))⟩
  · intro first made steps
    obtain ⟨started, taken, answers⟩ := Snapshot.Answers.empty.step (.replace tables)
    have own : Snapshot.ofTables tables = .ok (Snapshot.empty.replace tables) := by
      rw [Snapshot.ofTables, repeated?_of_nodup (by_contra fun crowded => ?_)]
      obtain ⟨clash, refused⟩ := ofTables_error_iff.mpr crowded
      rw [made] at refused
      cases refused
    have same : started = first := by
      rw [Step.take_eq, Step.apply, ← own, made] at taken
      exact (Except.ok.inj taken).symm
    exact (same ▸ answers).trail steps

def books (type : String) : Table := ⟨"books", [{ name := "title", sourceType := type }], List.nodup_singleton "title"⟩

def authors : Table := ⟨"authors", [], .nil⟩

/-- The books go, and come back in two versions. -/
def revision : List Step := [.filter fun name => name != "books", .replace [books "varchar", books "citext"]]

theorem books_return : ∃ first made last, Snapshot.ofTables [books "text", authors] = .ok first ∧
    Step.trail first revision = .ok made ∧ made[2]? = some last ∧
      last.Answers (.replace [books "text", authors] :: revision) ∧ last.get? "books" = some (books "citext") := by
  obtain ⟨_, _, _, _, run⟩ := derived_snapshots_answer [books "text", authors]
  cases whole : Snapshot.ofTables [books "text", authors] with
  | error clash => cases whole
  | ok first =>
    obtain ⟨made, taken, _, points⟩ := run first whole revision
    obtain ⟨last, here, answers⟩ := points 2 (Nat.le_refl _)
    refine ⟨first, made, last, rfl, taken, here, answers, (answers.found _ _).mpr ?_⟩
    exact ⟨[.replace [books "text", authors], .filter fun name => name != "books"], [books "varchar", books "citext"],
      [], rfl, ⟨[books "varchar"], [], rfl, rfl, nofun⟩, nofun⟩

end TableModels.Schema
