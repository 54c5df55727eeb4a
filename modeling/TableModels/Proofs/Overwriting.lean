import TableModels.Proofs.Removal
import TableModels.Proofs.SharedNames

/-! Tables that share a module or a class. A run writes models in the order of the names of tables and lists them in the
manifest in that order, and nothing keeps them apart. So of the tables that share a module the last has its model in the
file, and of those that share a class the manifest leaves the name to the last. -/

namespace TableModels.Run

open Act World Schema Model Code

/-- Of the tables with names of which the same is made, the last in order. -/
structure Heir {κ : Type} (make : String → κ) (tables : List Table) (value : κ) (heir : Table) : Prop where
  member : heir ∈ tables
  same : make heir.name = value
  last : ∀ other ∈ tables, make other.name = value → other.name ≤ heir.name

section Hits

variable {ρ γ : Type} {hit : ρ → Prop} [DecidablePred hit] {content : ρ → γ} {results : List ρ}

private theorem heir_hits {κ : Type} {make : String → κ} {tables : List Table}
    (ascending : (tables.map Table.name).Pairwise (· < ·))
    {Made : Table → ρ → Prop} (each : List.Forall₂ Made tables results) {value : κ}
    (hits : ∀ table result, Made table result → (hit result ↔ make table.name = value))
    (shared : ∃ table ∈ tables, make table.name = value) :
    ∃ heir result, Heir make tables value heir ∧ Made heir result ∧ ∀ old, lastHit hit content results old =
      some (content result) := by
  induction each with
  | nil =>
    obtain ⟨_, member, _⟩ := shared
    cases member
  | @cons first result rest others made later ih =>
    obtain ⟨above, ascending⟩ := List.pairwise_cons.mp ascending
    by_cases again : ∃ table ∈ rest, make table.name = value
    · obtain ⟨heir, kept, best, own, stays⟩ := ih ascending again
      refine ⟨heir, kept, ⟨List.mem_cons_of_mem _ best.member, best.same, ?_⟩, own, fun old => stays _⟩
      intro other member same
      rcases List.mem_cons.mp member with rfl | inside
      · exact (above heir.name (List.mem_map_of_mem best.member)).le
      · exact best.last other inside same
    · have alone : ∀ other ∈ first :: rest, make other.name = value → other = first := by
        intro other member same
        rcases List.mem_cons.mp member with rfl | inside
        · rfl
        · exact absurd ⟨other, inside, same⟩ again
      have missed : ∀ other ∈ others, ¬ hit other := by
        intro other member struck
        obtain ⟨twin, inside, twinMade⟩ := exists_of_mem later.flip member
        exact again ⟨twin, inside, (hits twin other twinMade).mp struck⟩
      obtain ⟨table, member, same⟩ := shared
      obtain rfl := alone table member same
      refine ⟨table, result, ⟨member, same, ?_⟩, made, fun old => ?_⟩
      · intro other inside also
        rw [alone other inside also]
      · rw [lastHit, List.foldl_cons, if_pos ((hits table result made).mpr same)]
        exact lastHit_of_missed missed _

end Hits

variable {settings : Settings} {world after : World} {enums : Typing.Enums} {scope : Snapshot} {tables : List Table}
  {files : List Payload}

private theorem contentAfter_heir (ascending : (tables.map Table.name).Pairwise (· < ·))
    (rendered : payloads settings enums scope tables = .ok files) {name : String}
    (shared : ∃ table ∈ tables, Naming.moduleName table.name = Naming.moduleName name) :
    ∃ heir text, Heir Naming.moduleName tables (Naming.moduleName name) heir ∧
      render (styleOf settings) enums scope.names heir = .ok text ∧
      ∀ old, contentAfter files (modelPath settings name) old = some (.text text) := by
  obtain ⟨models, last, rfl, each, manifest⟩ := payloads_ok rendered
  have hits : ∀ table file, modelPayload settings enums scope table = .ok file →
      (modelPath settings name = file.path ↔ Naming.moduleName table.name = Naming.moduleName name) := by
    intro table file made
    rw [(modelPayload_ok made).1, modelPath_inj, eq_comm]
  obtain ⟨heir, file, best, made, stays⟩ := heir_hits ascending each hits shared
  refine ⟨heir, file.text, best, (modelPayload_ok made).2, fun old => ?_⟩
  have beyond : modelPath settings name ∉ last.map Payload.path := by
    rcases manifest with ⟨_, rfl⟩ | ⟨_, manifest, made, rfl⟩
    · simp
    · simpa [(manifestPayload_ok made).1] using modelPath_ne_manifestPath name
  have split : contentAfter (models ++ last) (modelPath settings name) old =
      contentAfter last (modelPath settings name) (contentAfter models (modelPath settings name) old) :=
        List.foldl_append
  rw [split, contentAfter_of_not_mem beyond]
  exact stays old

/-- The module from which a name is imported last. -/
def importedFrom? (blocks : List Block) (name : String) : Option String :=
  blocks.foldl (fun found block => match block with
    | .statement (.importFrom _ module names) => if name ∈ names then some module else found
    | _ => found) none

private theorem importedFrom?_manifest (entries : List ManifestEntry) (name : String) :
    importedFrom? (manifestModule entries).blocks name =
      lastHit (fun entry : ManifestEntry => name = entry.className) ManifestEntry.module entries none := by
  have others : ∀ found : Option String, (entries.map fun entry =>
      Block.statement (.evaluate (.call (.attribute (.name entry.className) "model_rebuild") [] []))).foldl
        (fun found block => match block with
          | .statement (.importFrom _ module names) => if name ∈ names then some module else found
          | _ => found) found = found := by
    intro found
    rw [List.foldl_map, List.foldl_fixed]
  simp only [importedFrom?, manifestModule, List.foldl_append, List.foldl_cons, List.foldl_nil, others]
  rw [List.foldl_map]
  simp only [List.mem_singleton, lastHit]

private theorem manifestEntry_ok {singular : Bool} {name : String} {entry : ManifestEntry}
    (made : manifestEntry singular name = .ok entry) :
    Naming.className singular name = .ok entry.className ∧ entry.module = Naming.moduleName name := by
  rw [manifestEntry] at made
  cases named : Naming.className singular name with
  | error fault =>
    rw [named] at made
    cases made
  | ok className =>
    rw [named] at made
    obtain rfl := Except.ok.inj made
    exact ⟨rfl, rfl⟩

private theorem manifest_ok {singular : Bool} {names : List String} {text : String}
    (made : manifest singular names = .ok text) :
    ∃ entries, text = (manifestModule entries).text ∧
      List.Forall₂ (fun name entry => manifestEntry singular name = .ok entry) names entries := by
  rw [manifest] at made
  cases listed : names.mapM (manifestEntry singular) with
  | error fault =>
    rw [listed] at made
    cases made
  | ok entries =>
    rw [listed] at made
    exact ⟨entries, (Except.ok.inj made).symm, mapM_ok_iff.mp listed⟩

private theorem manifest_heir {singular : Bool} (ascending : (tables.map Table.name).Pairwise (· < ·)) {text : String}
    (made : manifest singular (tables.map Table.name) = .ok text) :
    ∃ entries, text = (manifestModule entries).text ∧ ∀ table ∈ tables, ∃ className heir,
      Naming.className singular table.name = .ok className ∧
        Heir (Naming.className singular) tables (.ok className) heir ∧
        importedFrom? (manifestModule entries).blocks className = some (Naming.moduleName heir.name) := by
  obtain ⟨entries, rfl, listed⟩ := manifest_ok made
  refine ⟨entries, rfl, fun table member => ?_⟩
  have each :
      List.Forall₂ (fun (table : Table) entry => manifestEntry singular table.name = .ok entry) tables entries :=
    List.forall₂_map_left_iff.mp listed
  obtain ⟨entry, _, own⟩ := exists_of_mem each member
  have named := (manifestEntry_ok own).1
  have hits : ∀ (other : Table) (result : ManifestEntry), manifestEntry singular other.name = .ok result →
      (entry.className = result.className ↔ Naming.className singular other.name = .ok entry.className) := by
    intro other result made
    rw [(manifestEntry_ok made).1, Except.ok.injEq, eq_comm]
  obtain ⟨heir, result, best, heirMade, stays⟩ := heir_hits ascending each hits ⟨table, member, named⟩
  refine ⟨entry.className, heir, named, best, ?_⟩
  rw [importedFrom?_manifest, ← (manifestEntry_ok heirMade).2]
  exact stays none

theorem Planned.forced {plan : Plan} (planned : Planned settings true world plan) :
    plan.diff.generate = (plan.scope settings).tables := by
  by_cases fallback : plan.source.origin = .fallback
  · rw [planned.fallback fallback]
  · obtain ⟨digests, _, same⟩ := planned.compared fallback
    rw [same, adjusted]
    simp [fallback]

private theorem removed_of_fresh {force : Bool} {outcome : Outcome} (rooted : world.disk.Rooted)
    (fresh : (cacheOf settings).digestsOn world.disk = .ok [])
    (ends : runIn (sync settings force) world = (.ok outcome, after)) :
    outcome.removed = [] := by
  obtain ⟨_, plan, planned, completed⟩ := sync_ok rooted ends
  obtain ⟨nothing, stored⟩ := planned.removed
  rw [completed.outcome.2.1]
  by_cases fallback : plan.source.origin = .fallback
  · exact nothing fallback
  · obtain ⟨digests, loaded, known⟩ := stored fallback
    obtain rfl : [] = digests := Except.ok.inj (fresh.symm.trans (Cache.loadDigests_ok rooted (Prod.ext loaded rfl)))
    refine List.eq_nil_iff_forall_not_mem.mpr fun name dropped => ?_
    simpa [Keyed.names] using ((known name).mp dropped).1

/-- File names are the same when what is kept of the names of tables is the same, or one is spelled as the other has
to be marked, and no other wise. So are class names, whatever makes a singular of a name. After a forced run the file
of a table holds the model of the last table in scope with that module, unless a table was dropped that had it too,
and the manifest leaves a class name to the last table in scope with that class. -/
theorem artifacts_go_to_heirs {outcome : Outcome} (rooted : world.disk.Rooted)
    (ends : runIn (sync settings true) world = (.ok outcome, after)) :
    (∀ first second, fileName first = fileName second ↔
      Naming.fieldChars first = Naming.fieldChars second ∨ Naming.fieldChars first = (Naming.moduleName second).toList ∨
        Naming.fieldChars second = (Naming.moduleName first).toList) ∧
    (∀ toSingular first second, Naming.classNameWith toSingular first = Naming.classNameWith toSingular second ↔
      Naming.pascal (Naming.inNumber toSingular first) = Naming.pascal (Naming.inNumber toSingular second) ∨
        Naming.pascal (Naming.inNumber toSingular first) = Naming.classNameWith toSingular second ∨
        Naming.pascal (Naming.inNumber toSingular second) = Naming.classNameWith toSingular first) ∧
    ∃ source, (runIn (Run.source settings (cacheOf settings)) world).1 = .ok source ∧
      (∀ table ∈ (inScope settings source.snapshot).tables,
        (∀ dropped ∈ outcome.removed, Naming.moduleName dropped ≠ Naming.moduleName table.name) →
        ∃ heir text,
          Heir Naming.moduleName (inScope settings source.snapshot).tables (Naming.moduleName table.name) heir ∧
          render (styleOf settings) (.ofDeclared source.enums) (inScope settings source.snapshot).names heir =
            .ok text ∧
          after.disk.file? (modelPath settings table.name) = some (.text text)) ∧
      (settings.manifest = true → (inScope settings source.snapshot).tables ≠ [] →
        ∃ entries, after.disk.file? (manifestPath settings) = some (.text (manifestModule entries).text) ∧
          ∀ table ∈ (inScope settings source.snapshot).tables, ∃ className heir,
            Naming.className settings.singular table.name = .ok className ∧
              Heir (Naming.className settings.singular) (inScope settings source.snapshot).tables (.ok className) heir ∧
              importedFrom? (manifestModule entries).blocks className = some (Naming.moduleName heir.name)) := by
  refine ⟨fun first second => fileName_inj.trans Naming.fieldName_eq_iff,
    fun toSingular first second => Naming.classNameWith_eq_iff toSingular, ?_⟩
  obtain ⟨_, plan, planned, completed⟩ := sync_ok rooted ends
  refine ⟨plan.source, planned.found, ?_⟩
  have all : plan.diff.generate = (inScope settings plan.source.snapshot).tables := planned.forced
  have ascending := (inScope settings plan.source.snapshot).ascending
  have removed := completed.outcome.2.1
  cases completed with
  | unchanged same _ _ =>
    have nothing : (inScope settings plan.source.snapshot).tables = [] := by
      have idle : plan.diff.generate = [] ∧ plan.diff.remove = [] := by simpa [Cache.Diff.hasChanges] using same
      exact all.symm.trans idle.1
    refine ⟨fun table member => ?_, fun _ some => absurd nothing some⟩
    rw [nothing] at member
    cases member
  | changed files _ rendered _ executed =>
    rw [all] at rendered
    refine ⟨fun table member live => ?_, fun wanted _ => ?_⟩
    · obtain ⟨heir, text, best, renders, stays⟩ := contentAfter_heir ascending rendered ⟨table, member, rfl⟩
      refine ⟨heir, text, best, renders, ?_⟩
      have kept : modelPath settings table.name ∉ artifactsOf settings plan.diff.remove := by
        intro artifact
        obtain ⟨dropped, inside, same⟩ := modelPath_mem_artifactsOf.mp artifact
        exact live dropped (removed ▸ inside) same
      rw [executed.files _ (modelPath_not_cached _ _), if_neg kept, stays]
    · obtain ⟨text, made, stays⟩ := contentAfter_manifest rendered wanted (world.disk.file? (manifestPath settings))
      obtain ⟨entries, rfl, each⟩ := manifest_heir ascending made
      refine ⟨entries, ?_, each⟩
      rw [executed.files _ (manifestPath_not_cached _), if_neg (manifestPath_not_mem_artifactsOf _), stays]

namespace Namesakes

def names : List String := ["User_data", "user__data", "user_data"]

def table (name : String) : Table := ⟨name, [{ name := "id", sourceType := "text" }], List.nodup_singleton _⟩

def contents : Document.Contents where
  snapshot := ⟨names.map table, by decide⟩
  enums := []
  foreignKeys := []

def answer : Document.Response := .answer 200
  ("\x7b\"definitions\":\x7b\"User_data\":\x7b\"properties\":\x7b\"id\":\x7b\x7d\x7d\x7d,"
    ++ "\"user__data\":\x7b\"properties\":\x7b\"id\":\x7b\x7d\x7d\x7d,"
    ++ "\"user_data\":\x7b\"properties\":\x7b\"id\":\x7b\x7d\x7d\x7d\x7d\x7d")

theorem contents_answer (settings : Settings) : (serverOf settings).contents answer = .ok contents := by cbv

theorem feasible : Feasible (Blog.options false) (fetched contents) := by
  refine feasible_of_plain (by simp [fetched]) ?_ ?_ (by simp [Blog.options])
  · decide +kernel
  · decide +kernel

def rendering (name : String) : Except EmitFault String :=
  render (styleOf (Blog.options false)) (.ofDeclared contents.enums)
    (inScope (Blog.options false) contents.snapshot).names (table name)

theorem rendering_differs : rendering "User_data" ≠ rendering "user_data" := by
  decide +kernel

private theorem tables_inScope : (inScope (Blog.options false) contents.snapshot).tables = names.map table := by
  decide +kernel

end Namesakes

/-- A table has the model of another in its file, and a third cannot be imported, for the class has the module of that
other. -/
theorem namesakes_overwritten : ∃ outcome after own other entries, fileName "User_data" = fileName "user_data" ∧
    runIn (sync (Blog.options false) true) { response := Namesakes.answer } = (.ok outcome, after) ∧
      Namesakes.rendering "User_data" = .ok own ∧ Namesakes.rendering "user_data" = .ok other ∧ own ≠ other ∧
      after.disk.file? (modelPath (Blog.options false) "User_data") = some (.text other) ∧
      after.disk.file? (manifestPath (Blog.options false)) = some (.text (manifestModule entries).text) ∧
      Naming.className false "user__data" = .ok "UserData" ∧
      importedFrom? (manifestModule entries).blocks "UserData" = some (Naming.moduleName "user_data") ∧
      fileName "user__data" ≠ fileName "user_data" := by
  have found := Blog.source_of_answer false Namesakes.contents_answer { response := Namesakes.answer } rfl
  have fresh := Cache.digestsOn_of_missing (Disk.file?_empty (cacheOf (Blog.options false)).digestsPath)
  obtain ⟨outcome, after, ends, _⟩ :=
    sync_ends (Blog.laid false) (Blog.calm false Namesakes.answer) (Blog.usable false) found
    Namesakes.feasible fresh (by simp [Keyed.names]) true
  obtain ⟨files, classes, source, given, models, listed⟩ := artifacts_go_to_heirs Disk.rooted_empty ends
  obtain rfl : fetched Namesakes.contents = source := Except.ok.inj (found.symm.trans given)
  have known : (inScope (Blog.options false) (fetched Namesakes.contents).snapshot).tables =
      Namesakes.names.map Namesakes.table :=
    Namesakes.tables_inScope
  rw [known] at models listed
  have last : ∀ table ∈ Namesakes.names.map Namesakes.table, "user_data" ≤ table.name →
      table = Namesakes.table "user_data" := by
    decide
  have removed := removed_of_fresh Disk.rooted_empty fresh ends
  obtain ⟨heir, other, best, rendered, file⟩ := models (Namesakes.table "User_data") (by decide) (by simp [removed])
  obtain rfl := last heir best.member (best.last (Namesakes.table "user_data") (by decide) (by decide +kernel))
  obtain ⟨entries, manifest, each⟩ := listed rfl (by decide)
  obtain ⟨className, heir, named, best, imported⟩ := each (Namesakes.table "user__data") (by decide)
  have same : Naming.className false "user__data" = .ok "UserData" := by decide +kernel
  obtain rfl : "UserData" = className := Except.ok.inj (same.symm.trans named)
  obtain rfl := last heir best.member (best.last (Namesakes.table "user_data") (by decide) (by decide +kernel))
  obtain ⟨_, own, owned⟩ :=
    Namesakes.feasible.models (Namesakes.table "User_data") (Namesakes.tables_inScope ▸ by decide)
  refine ⟨outcome, after, own, other, entries, (files "User_data" "user_data").mpr ?_, ends, owned, rendered, ?_,
    file, manifest, same, imported, ?_⟩
  · exact .inl (by decide +kernel)
  · rintro rfl
    exact Namesakes.rendering_differs (owned.trans rendered.symm)
  · rw [Ne, files]
    decide +kernel

end TableModels.Run
