import TableModels.Proofs.Steady

/-! Runs one after the other, from an empty output and an empty cache. Whatever there was to do each time, the file
of a model holds what the run rendered that last generated it, and of the tables that are gone nothing is left. -/

namespace TableModels.Run

open Act World Schema Model

variable {settings : Settings}

/-- One run of several: what it worked on and what it said. -/
structure Pass where
  force : Bool
  source : Source
  outcome : Outcome

def Pass.scope (settings : Settings) (pass : Pass) : Snapshot := inScope settings pass.source.snapshot

/-- The run ended normally and did not have to fall back on the stored schema. -/
structure Carried (settings : Settings) (before : Disk) (pass : Pass) (after : Disk) : Prop where
  fetched : pass.source.origin ≠ .fallback
  ends : ∃ world last, world.disk = before ∧ last.disk = after ∧
    (runIn (source settings (cacheOf settings)) world).1 = .ok pass.source ∧
    runIn (sync settings pass.force) world = (.ok pass.outcome, last)

/-- There are no files in the directories of a run. -/
structure Fresh (settings : Settings) (disk : Disk) : Prop where
  rooted : disk.Rooted
  output : ∀ name, disk.file? ((Path.ofText settings.output).join name) = none
  cache : ∀ name, disk.file? ((cacheOf settings).directory.join name) = none

/-- Runs from a fresh start, the latest first. -/
inductive Runs (settings : Settings) : List Pass → Disk → Prop
  | start {disk : Disk} (fresh : Fresh settings disk) : Runs settings [] disk
  | next {passes : List Pass} {before after : Disk} {pass : Pass} (runs : Runs settings passes before)
      (carried : Carried settings before pass after) : Runs settings (pass :: passes) after

/-- The tables in scope of the latest run. -/
def latest (settings : Settings) : List Pass → Snapshot
  | [] => .empty
  | pass :: _ => pass.scope settings

/-- Of the given tables no two have models of one name. -/
def Distinct (tables : List String) : Prop :=
  ∀ first ∈ tables, ∀ second ∈ tables, Naming.moduleName first = Naming.moduleName second → first = second

theorem Distinct.mono {tables others : List String} (distinct : Distinct tables) (some : others ⊆ tables) :
    Distinct others :=
  fun first inside second member => distinct first (some inside) second (some member)

def namesOf (settings : Settings) (passes : List Pass) : List String :=
  passes.flatMap fun pass => (pass.scope settings).names

private theorem latest_subset (passes : List Pass) : (latest settings passes).names ⊆ namesOf settings passes := by
  cases passes with
  | nil => simp [latest, Snapshot.empty, Snapshot.names]
  | cons pass rest => exact fun name member => List.mem_flatMap.mpr ⟨pass, List.mem_cons_self, member⟩

/-- The stored digests are those of the given tables, and runs may read them. -/
structure Tallies (settings : Settings) (scope : Snapshot) (disk : Disk) : Prop where
  opened : disk.isClosed (cacheOf settings).digestsPath = false
  digests : ∃ digests, (cacheOf settings).digestsOn disk = .ok digests ∧
    ∀ name, Keyed.get? digests name = (scope.get? name).map Table.digest

theorem Tallies.mem_names {scope : Snapshot} {digests : Cache.Digests}
    (each : ∀ name, Keyed.get? digests name = (scope.get? name).map Table.digest) {name : String} :
    name ∈ Keyed.names digests ↔ name ∈ scope.names := by
  rw [Keyed.mem_names, each, Option.isSome_map, ← not_iff_not, ← Snapshot.get?_eq_none]
  simp

/-- What a run says it did to the tables in scope, given those that were in scope before. -/
structure Compared (settings : Settings) (old : Snapshot) (pass : Pass) : Prop where
  inScope : ∀ name ∈ pass.outcome.generated, name ∈ (pass.scope settings).names
  removed : ∀ name, name ∈ pass.outcome.removed ↔ name ∈ old.names ∧ name ∉ (pass.scope settings).names
  kept : ∀ table ∈ (pass.scope settings).tables, table.name ∉ pass.outcome.generated →
    ∃ former ∈ old.tables, former.name = table.name ∧ former.digest = table.digest
  changed : pass.force = false → ∀ table ∈ (pass.scope settings).tables, table.name ∈ pass.outcome.generated →
    ∀ former ∈ old.tables, former.name = table.name → former.digest ≠ table.digest

private theorem compared_of_plan {old : Snapshot} {pass : Pass} {digests : Cache.Digests} {diff : Cache.Diff}
    (each : ∀ name, Keyed.get? digests name = (old.get? name).map Table.digest)
    (fetched : pass.source.origin ≠ .fallback)
    (made : diff =
      adjusted pass.force pass.source.origin (pass.scope settings) (.between digests (pass.scope settings).tables))
    (generated : pass.outcome.generated = diff.generate.map Table.name) (removed : pass.outcome.removed = diff.remove) :
    Compared settings old pass := by
  subst made
  refine ⟨fun name member => ?_, fun name => ?_, fun table member left => ?_,
    fun unforced table member named former inside same => ?_⟩
  · rw [generated] at member
    obtain ⟨table, inside, rfl⟩ := List.mem_map.mp member
    exact Snapshot.mem_names.mpr ⟨table, generate_subset inside, rfl⟩
  · rw [removed, mem_remove fetched, Tallies.mem_names each]
  · have ungenerated : table ∉ (adjusted pass.force pass.source.origin (pass.scope settings)
        (.between digests (pass.scope settings).tables)).generate := by
      intro inside
      exact left (generated ▸ List.mem_map_of_mem inside)
    have stored := digest_of_not_generated member ungenerated
    rw [each] at stored
    obtain ⟨former, found, same⟩ := Option.map_eq_some_iff.mp stored
    obtain ⟨inside, name⟩ := Snapshot.get?_eq_some.mp found
    exact ⟨former, inside, name, same⟩
  · rw [generated] at named
    have changed := mem_generate_of_name member named
    rw [adjusted, if_neg (by simpa using fetched), unforced] at changed
    have different := (List.mem_filter.mp changed).2
    rw [each, ← same, Snapshot.get?_of_mem inside] at different
    simpa using different

/-- What one run makes of the files and digests that those before it left. -/
structure Stepped (settings : Settings) (old : Snapshot) (before : Disk) (pass : Pass) (after : Disk) : Prop
    extends Compared settings old pass where
  rooted : after.Rooted
  tallies : Tallies settings (pass.scope settings) after
  idle : pass.outcome.hasChanges = false → after = before
  model : ∀ table ∈ (pass.scope settings).tables, table.name ∈ pass.outcome.generated → ∃ text,
    render (styleOf settings) (.ofDeclared pass.source.enums) (pass.scope settings).names table = .ok text ∧
      after.file? (modelPath settings table.name) = some (.text text)
  package : pass.outcome.hasChanges = true → settings.manifest = true → ∃ text,
    manifest settings.singular (pass.scope settings).names = .ok text ∧
      after.file? (manifestPath settings) = some (.text text)
  gone : ∀ name ∈ pass.outcome.removed, after.file? (modelPath settings name) = none
  frame : ∀ name, (∀ other, other ∈ pass.outcome.generated ∨ other ∈ pass.outcome.removed →
    Naming.moduleName other ≠ Naming.moduleName name) → after.file? (modelPath settings name) =
      before.file? (modelPath settings name)
  nothing : ∀ name, (Path.ofText settings.output).join name ∉ (cacheOf settings).paths → name ≠ manifestFile →
    (∀ other ∈ pass.outcome.generated, fileName other ≠ name) →
      before.file? ((Path.ofText settings.output).join name) = none →
    after.file? ((Path.ofText settings.output).join name) = none

/-- The files of a run do not meet, and none of them goes with a table that is removed. -/
theorem Compared.paths {old : Snapshot} {pass : Pass} {diff : Cache.Diff} {files : List Payload}
    (compared : Compared settings old pass)
    (distinct : Distinct (old.names ++ (pass.scope settings).names))
    (generated : pass.outcome.generated = diff.generate.map Table.name) (names : (diff.generate.map Table.name).Nodup)
    (rendered : payloads settings (.ofDeclared pass.source.enums) (pass.scope settings) diff.generate = .ok files) :
    (files.map Payload.path).Nodup := by
  refine paths_nodup rendered (List.pairwise_map.mpr ?_)
  refine (List.pairwise_map.mp names).imp_of_mem fun {first second} member inside different same => different ?_
  have known : ∀ table ∈ diff.generate, table.name ∈ old.names ++ (pass.scope settings).names := by
    intro table member
    exact List.mem_append_right _ (compared.inScope _ (generated ▸ List.mem_map_of_mem member))
  exact distinct _ (known first member) _ (known second inside) same

theorem Compared.present {old : Snapshot} {pass : Pass} (compared : Compared settings old pass)
    (distinct : Distinct (old.names ++ (pass.scope settings).names)) {table : Table}
    (member : table ∈ (pass.scope settings).tables) :
    modelPath settings table.name ∉ artifactsOf settings pass.outcome.removed := by
  intro artifact
  obtain ⟨name, dropped, same⟩ := modelPath_mem_artifactsOf.mp artifact
  obtain ⟨known, outside⟩ := (compared.removed name).mp dropped
  have inside := Snapshot.mem_names.mpr ⟨table, member, rfl⟩
  exact outside (distinct name (List.mem_append_left _ known) table.name (List.mem_append_right _ inside) same ▸ inside)

/-- A run that has something to do leaves these files. -/
theorem Compared.stepped {old : Snapshot} {before after : Disk} {pass : Pass} {diff : Cache.Diff} {files : List Payload}
    (compared : Compared settings old pass) (distinct : Distinct (old.names ++ (pass.scope settings).names))
    (rooted : after.Rooted)
    (tallies : Tallies settings (pass.scope settings) after)
    (generated : pass.outcome.generated = diff.generate.map Table.name) (removed : pass.outcome.removed = diff.remove)
    (subset : diff.generate ⊆ (pass.scope settings).tables) (names : (diff.generate.map Table.name).Nodup)
    (some : diff.hasChanges = true)
    (rendered : payloads settings (.ofDeclared pass.source.enums) (pass.scope settings) diff.generate = .ok files)
    (executed : Executed settings diff files before after pass.outcome.deleted) :
    Stepped settings old before pass after := by
  have paths := compared.paths distinct generated names rendered
  refine ⟨compared, rooted, tallies, fun idle => ?_, fun table member named => ?_, fun _ wanted => ?_,
    fun name dropped => ?_, fun name apart => ?_, fun name outside unlike apart free => ?_⟩
  · simp only [Outcome.hasChanges, generated, removed, List.isEmpty_map] at idle
    rw [Cache.Diff.hasChanges, idle] at some
    cases some
  · have generate : table ∈ diff.generate := by
      obtain ⟨other, inside, same⟩ := List.mem_map.mp (generated ▸ named)
      exact List.inj_on_of_nodup_map (pass.scope settings).names_nodup (subset inside) member same ▸ inside
    obtain ⟨file, written, same, text⟩ := payload_of_mem rendered generate
    refine ⟨file.text, text, ?_⟩
    rw [executed.files _ (modelPath_not_cached _ _), if_neg (removed ▸ compared.present distinct member), ← same]
    exact contentAfter_of_mem paths written _
  · obtain ⟨file, written, same, text⟩ := payload_of_manifest rendered wanted
    refine ⟨file.text, text, ?_⟩
    rw [executed.files _ (manifestPath_not_cached _), if_neg (manifestPath_not_mem_artifactsOf _), ← same]
    exact contentAfter_of_mem paths written _
  · rw [executed.files _ (modelPath_not_cached _ _), if_pos]
    exact modelPath_mem_artifactsOf.mpr ⟨name, removed ▸ dropped, rfl⟩
  · rw [executed.files _ (modelPath_not_cached _ _), if_neg, contentAfter_of_not_mem]
    · intro written
      rcases (path_of_payload rendered).mp written with ⟨table, member, same⟩ | ⟨_, same⟩
      · exact apart table.name (.inl (generated ▸ List.mem_map_of_mem member)) (modelPath_inj.mp same).symm
      · exact modelPath_ne_manifestPath name same
    · intro artifact
      obtain ⟨other, dropped, same⟩ := modelPath_mem_artifactsOf.mp artifact
      exact apart other (.inr (removed ▸ dropped)) same
  · rw [executed.files _ outside]
    split
    · rfl
    · rw [contentAfter_of_not_mem, free]
      intro written
      rcases (path_of_payload rendered).mp written with ⟨table, member, same⟩ | ⟨_, same⟩
      · exact apart table.name (generated ▸ List.mem_map_of_mem member) (Path.join_inj.mp same).symm
      · exact unlike (Path.join_inj.mp same)

/-- The plan of a run that was carried out, for the schema that it found. -/
theorem Carried.completed {before after : Disk} {pass : Pass} (carried : Carried settings before pass after)
    (rooted : before.Rooted) :
    ∃ world last diff, world.disk = before ∧ last.disk = after ∧ Planned settings pass.force world ⟨pass.source, diff⟩ ∧
      Completed settings ⟨pass.source, diff⟩ world pass.outcome last ∧ last.disk.Rooted := by
  obtain ⟨world, last, rfl, rfl, found, ends⟩ := carried.ends
  obtain ⟨_, ⟨source, diff⟩, planned, completed⟩ := sync_ok rooted ends
  obtain rfl : pass.source = source := Except.ok.inj (found.symm.trans planned.found)
  exact ⟨world, last, diff, rfl, rfl, planned, completed,
    ((advances_sync settings pass.force).onward ends).rooted rooted⟩

theorem Carried.tallies {before after : Disk} {pass : Pass} (carried : Carried settings before pass after)
    (rooted : before.Rooted) (opened : before.isClosed (cacheOf settings).digestsPath = false) :
    after.Rooted ∧ Tallies settings (pass.scope settings) after := by
  obtain ⟨world, last, diff, rfl, rfl, planned, completed, rootedAfter⟩ := carried.completed rooted
  obtain ⟨kept, load, _, same⟩ := settled_of_completed rooted rootedAfter opened carried.fetched planned completed
  have closed := isClosed_of_completed completed _ (digestsPath_mem_paths _)
  exact ⟨rootedAfter, closed.trans opened, kept, Cache.loadDigests_ok rootedAfter (Prod.ext load rfl), same⟩

/-- What a run did is what it planned, going by the tables that were in scope before. -/
theorem Carried.plan {old : Snapshot} {before after : Disk} {pass : Pass} (carried : Carried settings before pass after)
    (rooted : before.Rooted) (tallies : Tallies settings old before) :
    ∃ world last diff, world.disk = before ∧ last.disk = after ∧
      Completed settings ⟨pass.source, diff⟩ world pass.outcome last ∧
      Compared settings old pass ∧ diff.generate ⊆ (pass.scope settings).tables ∧
        (diff.generate.map Table.name).Nodup := by
  obtain ⟨world, last, diff, rfl, rfl, planned, completed, _⟩ := carried.completed rooted
  obtain ⟨_, known, stored, each⟩ := tallies
  obtain ⟨digests, loaded, made⟩ := planned.compared carried.fetched
  obtain rfl : known = digests := Except.ok.inj (stored.symm.trans (Cache.loadDigests_ok rooted (Prod.ext loaded rfl)))
  have made : diff =
    adjusted pass.force pass.source.origin (pass.scope settings) (.between known (pass.scope settings).tables) := made
  obtain ⟨generated, removed, _⟩ := completed.outcome
  refine ⟨world, last, diff, rfl, rfl, completed, compared_of_plan each carried.fetched made generated removed, ?_, ?_⟩
  · rw [made]
    exact fun _ => generate_subset
  · rw [made]
    exact generate_nodup

theorem Carried.stepped {old : Snapshot} {before after : Disk} {pass : Pass}
    (carried : Carried settings before pass after)
    (rooted : before.Rooted) (tallies : Tallies settings old before)
    (distinct : Distinct (old.names ++ (pass.scope settings).names)) : Stepped settings old before pass after := by
  obtain ⟨rootedAfter, talliesAfter⟩ := carried.tallies rooted tallies.opened
  obtain ⟨world, last, diff, rfl, rfl, completed, compared, subset, names⟩ := carried.plan rooted tallies
  obtain ⟨generated, removed, _⟩ := completed.outcome
  cases completed with
  | unchanged same said untouched =>
    have nothing : pass.outcome.generated = [] ∧ pass.outcome.removed = [] := by
      rw [said]
      exact ⟨rfl, rfl⟩
    refine ⟨compared, rootedAfter, talliesAfter, fun _ => untouched.disk, ?_, ?_, ?_, fun _ _ => by rw [untouched.disk],
      fun _ _ _ _ free => by rw [untouched.disk, free]⟩
    · simp [nothing.1]
    · simp [Outcome.hasChanges, nothing]
    · simp [nothing.2]
  | changed files some rendered said executed =>
    exact compared.stepped distinct rootedAfter talliesAfter generated removed subset names some rendered executed

/-- The file of a model holds what was rendered of a table by the run that last generated it. -/
structure Rendered (settings : Settings) (passes : List Pass) (disk : Disk) (name : String)
    (later : List Pass) (pass : Pass)
    (table : Table) : Prop where
  split : ∃ earlier, passes = later ++ pass :: earlier
  generated : name ∈ pass.outcome.generated
  left : ∀ other ∈ later, name ∉ other.outcome.generated
  inScope : table ∈ (pass.scope settings).tables
  named : table.name = name
  text : ∃ text, render (styleOf settings) (.ofDeclared pass.source.enums) (pass.scope settings).names table =
    .ok text ∧
    disk.file? (modelPath settings name) = some (.text text)

/-- What holds after every run. -/
structure Kept (settings : Settings) (passes : List Pass) (disk : Disk) : Prop where
  rooted : disk.Rooted
  tallies : Tallies settings (latest settings passes) disk
  model : ∀ table ∈ (latest settings passes).tables, ∃ later pass former,
    Rendered settings passes disk table.name later pass former ∧ former.digest = table.digest
  nothing : ∀ name, (Path.ofText settings.output).join name ∉ (cacheOf settings).paths → name ≠ manifestFile →
    (∀ other ∈ (latest settings passes).names, fileName other ≠ name) →
      disk.file? ((Path.ofText settings.output).join name) = none
  package : settings.manifest = true → (∃ pass ∈ passes, pass.outcome.hasChanges = true) → ∃ text,
    manifest settings.singular (latest settings passes).names = .ok text ∧
      disk.file? (manifestPath settings) = some (.text text)

theorem Fresh.tallies {disk : Disk} (fresh : Fresh settings disk) : Tallies settings .empty disk :=
  ⟨Disk.isClosed_of_none (fresh.cache _), [], Cache.digestsOn_of_missing (fresh.cache _), fun _ => rfl⟩

theorem Fresh.kept {disk : Disk} (fresh : Fresh settings disk) : Kept settings [] disk := by
  refine ⟨fresh.rooted, fresh.tallies, ?_, fun name _ _ _ => fresh.output name, ?_⟩
  · simp [latest, Snapshot.empty]
  · simp

section Next

variable {passes : List Pass} {before after : Disk} {pass : Pass}

/-- A run that changes nothing has the tables in scope that were in scope before. -/
theorem Stepped.names_eq {old : Snapshot} (stepped : Stepped settings old before pass after)
    (idle : pass.outcome.hasChanges = false) : (pass.scope settings).names = old.names := by
  have nothing : pass.outcome.generated = [] ∧ pass.outcome.removed = [] := by simpa [Outcome.hasChanges] using idle
  refine Snapshot.names_eq fun name => ⟨fun member => ?_, fun member => ?_⟩
  · obtain ⟨table, inside, rfl⟩ := Snapshot.mem_names.mp member
    obtain ⟨former, known, same, _⟩ := stepped.kept table inside (by simp [nothing.1])
    exact Snapshot.mem_names.mpr ⟨former, known, same⟩
  · by_contra outside
    simpa [nothing.2] using (stepped.removed name).mpr ⟨member, outside⟩

private theorem Stepped.undisturbed {old : Snapshot} (stepped : Stepped settings old before pass after)
    (distinct : Distinct (old.names ++ (pass.scope settings).names)) {name : String}
    (member : name ∈ (pass.scope settings).names)
    (left : name ∉ pass.outcome.generated) :
    after.file? (modelPath settings name) = before.file? (modelPath settings name) := by
  refine stepped.frame name fun other touched same => ?_
  rcases touched with generated | removed
  · have inside := stepped.inScope other generated
    exact left (distinct other (List.mem_append_right _ inside) name (List.mem_append_right _ member) same ▸ generated)
  · obtain ⟨known, outside⟩ := (stepped.removed other).mp removed
    exact outside (distinct other (List.mem_append_left _ known) name (List.mem_append_right _ member) same ▸ member)

theorem Kept.next (kept : Kept settings passes before)
    (stepped : Stepped settings (latest settings passes) before pass after)
    (distinct : Distinct ((latest settings passes).names ++ (pass.scope settings).names)) :
    Kept settings (pass :: passes) after := by
  refine ⟨stepped.rooted, stepped.tallies, fun table member => ?_, fun name outside unlike apart => ?_,
    fun wanted some => ?_⟩
  · by_cases generated : table.name ∈ pass.outcome.generated
    · exact ⟨[], pass, table, ⟨⟨passes, rfl⟩, generated, by simp, member, rfl, stepped.model table member generated⟩,
        rfl⟩
    · obtain ⟨former, known, name, digest⟩ := stepped.kept table member generated
      obtain ⟨later, maker, source, rendered, same⟩ := kept.model former known
      obtain ⟨⟨earlier, split⟩, made, left, inScope, named, text, renders, file⟩ := rendered
      have undisturbed := stepped.undisturbed distinct (Snapshot.mem_names.mpr ⟨table, member, rfl⟩) generated
      rw [name] at made left named file
      refine ⟨pass :: later, maker, source,
        ⟨⟨earlier, by rw [split, List.cons_append]⟩, made, ?_, inScope, named, text, renders,
        undisturbed.trans file⟩, same.trans digest⟩
      exact fun other inside => (List.mem_cons.mp inside).elim (fun here => here ▸ generated) (left other)
  · by_cases former : ∃ old ∈ (latest settings passes).names, fileName old = name
    · obtain ⟨old, known, rfl⟩ := former
      exact stepped.gone old ((stepped.removed old).mpr ⟨known, fun inside => apart old inside rfl⟩)
    · have free := kept.nothing name outside unlike fun other known same => former ⟨other, known, same⟩
      exact stepped.nothing name outside unlike
        (fun other generated => apart other (stepped.inScope other generated)) free
  · cases changes : pass.outcome.hasChanges with
    | true => exact stepped.package changes wanted
    | false =>
      obtain ⟨other, member, changed⟩ := some
      have earlier : other ∈ passes := by
        rcases List.mem_cons.mp member with rfl | inside
        · simp [changes] at changed
        · exact inside
      rw [stepped.idle changes, latest, stepped.names_eq changes]
      exact kept.package wanted ⟨other, earlier, changed⟩

end Next

theorem latest_append_subset (pass : Pass) (passes : List Pass) :
    (latest settings passes).names ++ (pass.scope settings).names ⊆ namesOf settings (pass :: passes) := by
  intro name member
  rw [namesOf, List.flatMap_cons]
  rcases List.mem_append.mp member with earlier | here
  · exact List.mem_append_right _ (latest_subset passes earlier)
  · exact List.mem_append_left _ here

theorem Distinct.earlier {pass : Pass} {passes : List Pass} (distinct : Distinct (namesOf settings (pass :: passes))) :
    Distinct (namesOf settings passes) := distinct.mono fun _ member => List.mem_append_right _ member

theorem Runs.kept {passes : List Pass} {disk : Disk} (runs : Runs settings passes disk)
    (distinct : Distinct (namesOf settings passes)) :
    Kept settings passes disk := by
  induction runs with
  | start fresh => exact fresh.kept
  | next runs carried ih =>
    have kept := ih distinct.earlier
    have both := distinct.mono (latest_append_subset _ _)
    exact kept.next (carried.stepped kept.rooted kept.tallies both) both

theorem Runs.tallies {passes : List Pass} {disk : Disk} (runs : Runs settings passes disk) :
    disk.Rooted ∧ Tallies settings (latest settings passes) disk := by
  induction runs with
  | start fresh => exact ⟨fresh.rooted, fresh.tallies⟩
  | next _ carried ih => exact carried.tallies ih.1 ih.2.opened

/-- Where nothing stands in the way another run can follow. -/
theorem Runs.continues {passes : List Pass} {world : World} (runs : Runs settings passes world.disk)
    (calm : Calm settings world)
    (laid : Laid (directoriesOf settings)) (usable : settings.problems settings.requiresCredentials = [])
    {source : Source}
    (found : (runIn (Run.source settings (cacheOf settings)) world).1 = .ok source)
    (feasible : Feasible settings source)
    (brief : ∀ name ∈ (latest settings passes).names, Brief name) (force : Bool) :
    ∃ outcome after, runIn (sync settings force) world = (.ok outcome, after) ∧
      Runs settings (⟨force, source, outcome⟩ :: passes) after.disk ∧ Calm settings after := by
  obtain ⟨_, _, digests, stored, each⟩ := runs.tallies
  have short : ∀ name ∈ Keyed.names digests, Brief name :=
    fun name member => brief name ((Tallies.mem_names each).mp member)
  obtain ⟨outcome, after, ends, _, calmAfter⟩ := sync_ends laid calm usable found feasible stored short force
  exact ⟨outcome, after, ends, runs.next ⟨feasible.fetched, world, after, rfl, rfl, found, ends⟩, calmAfter⟩

theorem fresh_empty (settings : Settings) : Fresh settings {} :=
  ⟨Disk.rooted_empty, fun _ => Disk.file?_empty _, fun _ => Disk.file?_empty _⟩

namespace Blog

theorem runs (embed : Bool) : ∃ first second disk,
    Runs (options embed) [⟨false, fetched bare, second⟩, ⟨false, fetched full, first⟩] disk := by
  obtain ⟨first, middle, _, early, calmMiddle⟩ :=
    (Runs.start (fresh_empty (options embed))).continues (calm embed fullAnswer)
    (laid embed) (usable embed) (source_of_answer embed contents_full { response := fullAnswer } rfl)
      (feasible_full embed)
    (by simp [latest, Snapshot.empty, Snapshot.names]) false
  have brief : ∀ name ∈ (latest (options embed) [⟨false, fetched full, first⟩]).names, Brief name := by
    intro name member
    obtain ⟨table, inside, rfl⟩ := Snapshot.mem_names.mp member
    exact ((feasible_full embed).models table inside).1
  have between : Runs (options embed) [⟨false, fetched full, first⟩] { middle with response := bareAnswer }.disk :=
    early
  obtain ⟨second, after, _, late, _⟩ := between.continues (calmMiddle.answered bareAnswer) (laid embed) (usable embed)
    (source_of_answer embed contents_bare _ rfl) (feasible_bare embed) brief false
  exact ⟨first, second, after.disk, late⟩

theorem names_full (embed : Bool) : (inScope (options embed) full.snapshot).names = ["posts", "users"] := by
  cases embed <;> decide +kernel

theorem names_bare (embed : Bool) : (inScope (options embed) bare.snapshot).names = ["posts"] := by
  cases embed <;> decide +kernel

theorem distinct (embed : Bool) (first second : Outcome) :
    Distinct (namesOf (options embed) [⟨false, fetched bare, second⟩, ⟨false, fetched full, first⟩]) := by
  have all : Distinct ["posts", "users"] := by
    unfold Distinct
    decide +kernel
  refine all.mono ?_
  simp [namesOf, Pass.scope, fetched, names_full, names_bare]

end Blog

end TableModels.Run
