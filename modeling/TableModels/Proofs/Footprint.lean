import TableModels.Proofs.Files
import TableModels.Run.Sync

/-! What a run does to the world. Every part of a run is put together from a few deeds, and the deeds that it may do say
what it leaves alone: which files, and whether it asks the server. -/

namespace TableModels.Run

open Act World Schema

variable {α β : Type}

/-- What an action may do besides looking at the disk and taking notes. -/
inductive Deed where
  | ask (request : Document.Request)
  | fail (failure : Failure)
  /-- Writes a model or the manifest. -/
  | save (path : Path)
  /-- Writes a file of the cache. -/
  | store (path : Path)
  | delete (path : Path)

namespace Deed

def any : Deed → Prop := fun _ => True

def looks : Deed → Prop
  | ask _ => True
  | fail _ => True
  | _ => False

end Deed

/-- The action is put together from deeds of this kind. -/
inductive Within (allowed : Deed → Prop) : {α : Type} → Act α → Prop where
  | pure {α : Type} (value : α) : Within allowed (Pure.pure value)
  | fail {α : Type} {failure : Failure} (may : allowed (.fail failure)) : Within allowed (throw failure : Act α)
  | note (line : Log.Line) : Within allowed (note line)
  | notes (lines : List Log.Line) : Within allowed (notes lines)
  | disk : Within allowed disk
  | ask {request : Document.Request} (may : allowed (.ask request)) : Within allowed (send request)
  | save {path : Path} (content : String) (may : allowed (.save path)) : Within allowed (saveFile path content)
  | store {path : Path} (content : String) (may : allowed (.store path)) : Within allowed (writeText path content)
  | delete {path : Path} (may : allowed (.delete path)) : Within allowed (deleteFile path)
  | bind {α β : Type} {action : Act α} {next : α → Act β} (first : Within allowed action)
    (rest : ∀ value, Within allowed (next value)) : Within allowed (action >>= next)

variable {allowed : Deed → Prop}

/-- However an action of such deeds ends, this is as it was. -/
structure Footprint (allowed : Deed → Prop) (before : World) (result : Except Failure α) (after : World) : Prop where
  onward : Onward before after
  silent : (∀ request, ¬ allowed (.ask request)) → after.requests = before.requests
  kept : ∀ path, ¬ allowed (.save path) → ¬ allowed (.store path) → ¬ allowed (.delete path) →
    after.disk.file? path = before.disk.file? path
  standing : ∀ path, ¬ allowed (.delete path) → (before.disk.file? path).isSome → (after.disk.file? path).isSome
  closed : ∀ path, ¬ allowed (.delete path) → after.disk.isClosed path = before.disk.isClosed path
  failure : ∀ failure, result = .error failure → allowed (.fail failure) ∨ failure.report? = none

namespace Footprint

private theorem of_disk {before after : World} {value : α} (onward : Onward before after)
    (requests : after.requests = before.requests)
    (disk : after.disk = before.disk) : Footprint allowed before (.ok value) after :=
  ⟨onward, fun _ => requests, fun _ _ _ _ => by rw [disk], fun _ _ file => by rwa [disk],
    fun _ _ => by rw [disk], by simp⟩

theorem trans {before middle after : World} {first : Except Failure α} {second : Except Failure β}
    (early : Footprint allowed before first middle) (late : Footprint allowed middle second after) :
    Footprint allowed before second after where
  onward := early.onward.trans late.onward
  silent := fun asks => (late.silent asks).trans (early.silent asks)
  kept := fun path saves stores deletes =>
    (late.kept path saves stores deletes).trans (early.kept path saves stores deletes)
  standing := fun path deletes file => late.standing path deletes (early.standing path deletes file)
  closed := fun path deletes => (late.closed path deletes).trans (early.closed path deletes)
  failure := late.failure

end Footprint

private theorem footprint_writeText {path : Path} {content : String}
    (may : allowed (.save path) ∨ allowed (.store path))
    (world : World) :
    Footprint allowed world (runIn (writeText path content) world).1 (runIn (writeText path content) world).2 := by
  obtain ⟨onward, requests, unreported⟩ := (stepwise_writeText path content).stepped world
  rcases ran : runIn (writeText path content) world with ⟨result, after⟩
  rw [ran] at onward requests unreported
  have apart : ∀ other, ¬ allowed (.save other) → ¬ allowed (.store other) → other ≠ path := by
    rintro other saves stores rfl
    exact may.elim saves stores
  rcases writeText_cases ran with ⟨_, wrote⟩ | ⟨_, grown⟩
  · refine ⟨onward, fun _ => requests, fun other saves stores _ => ?_, fun other _ file => ?_,
      fun other _ => wrote.isClosed other, fun failure same => .inr (unreported failure same)⟩
    · rw [wrote.file?, if_neg (apart other saves stores)]
    · rw [wrote.file?]
      split
      · rfl
      · exact file
  · exact ⟨onward, fun _ => requests, fun other _ _ _ => grown.file? other,
      fun other _ file => by rwa [grown.file? other], fun other _ => grown.isClosed other,
      fun failure same => .inr (unreported failure same)⟩

private theorem footprint_delete {path : Path} (may : allowed (.delete path)) (world : World) :
    Footprint allowed world (runIn (delete path) world).1 (runIn (delete path) world).2 := by
  obtain ⟨onward, requests, unreported⟩ := (stepwise_delete path).stepped world
  have others : ∀ other, ¬ allowed (.delete other) →
      (runIn (delete path) world).2.disk.get? other = world.disk.get? other := by
    intro other deletes
    have apart : other ≠ path := by
      rintro rfl
      exact deletes may
    rcases ran : runIn (delete path) world with ⟨result, after⟩
    rcases delete_cases ran with ⟨_, _, _, dropped⟩ | ⟨_, _, same⟩ | ⟨_, same⟩
    · rw [dropped]
      exact Disk.get?_drop_of_ne _ apart
    · rw [same]
    · rw [same]
  exact ⟨onward, fun _ => requests, fun other _ _ deletes => Disk.file?_congr (others other deletes),
    fun other deletes file => by rwa [Disk.file?_congr (others other deletes)],
    fun other deletes => Disk.isClosed_congr (others other deletes), fun failure same => .inr (unreported failure same)⟩

theorem Footprint.bind {action : Act α} {next : α → Act β}
    (first : ∀ world, Footprint allowed world (runIn action world).1 (runIn action world).2)
    (rest : ∀ value world, Footprint allowed world (runIn (next value) world).1 (runIn (next value) world).2)
    (world : World) :
    Footprint allowed world (runIn (action >>= next) world).1 (runIn (action >>= next) world).2 := by
  have early := first world
  rw [runIn_bind]
  rcases ran : runIn action world with ⟨failure | value, middle⟩
  · rw [ran] at early
    exact ⟨early.onward, early.silent, early.kept, early.standing, early.closed,
      fun other same => early.failure other (by simpa using same)⟩
  · rw [ran] at early
    exact early.trans (rest value middle)

/-- What holds of every deed holds of every action that is put together from such deeds. -/
theorem Within.footprint {action : Act α} (within : Within allowed action) (world : World) :
    Footprint allowed world (runIn action world).1 (runIn action world).2 := by
  have noted : ∀ (line : Log.Line) (world : World), Footprint allowed world (runIn (Act.note line) world).1
      (runIn (Act.note line) world).2 :=
    fun _ _ => .of_disk ⟨id, rfl, rfl⟩ rfl rfl
  induction within generalizing world with
  | pure value => exact .of_disk ⟨id, rfl, rfl⟩ rfl rfl
  | @fail _ failure may =>
    refine ⟨⟨id, rfl, rfl⟩, fun _ => rfl, fun _ _ _ _ => rfl, fun _ _ file => file, fun _ _ => rfl,
      fun other same => ?_⟩
    obtain rfl : failure = other := Except.error.inj same
    exact .inl may
  | note line => exact noted line world
  | notes lines => exact .of_disk ⟨id, rfl, rfl⟩ rfl rfl
  | disk => exact .of_disk ⟨id, rfl, rfl⟩ rfl rfl
  | @ask request may =>
    exact ⟨⟨id, rfl, rfl⟩, fun asks => absurd may (asks request), fun _ _ _ _ => rfl, fun _ _ file => file,
      fun _ _ => rfl, by simp⟩
  | save content may => exact .bind (footprint_writeText (.inl may)) (fun _ => noted _) world
  | store content may => exact footprint_writeText (.inr may) world
  | delete may =>
    refine .bind (footprint_delete may) (fun deleted => ?_) world
    cases deleted with
    | true => exact .bind (noted _) fun _ _ => .of_disk ⟨id, rfl, rfl⟩ rfl rfl
    | false => exact fun _ => .of_disk ⟨id, rfl, rfl⟩ rfl rfl
  | bind _ _ ihFirst ihRest => exact .bind ihFirst ihRest world

theorem Within.advances {action : Act α} (within : Within allowed action) : Advances action :=
  fun world => (within.footprint world).onward

theorem Within.ran {action : Act α} (within : Within allowed action) {world after : World} {result : Except Failure α}
    (ends : runIn action world = (result, after)) : Footprint allowed world result after := by
  have footprint := within.footprint world
  rwa [ends] at footprint

/-- An action that does nothing to the disk depends on what it finds alone. -/
theorem Within.observes {action : Act α} (within : Within Deed.looks action) : Observes action := by
  induction within with
  | pure value => exact .pure value
  | fail _ => exact .throw _
  | note line => exact .note line
  | notes lines => exact .notes lines
  | disk => exact .disk
  | ask _ => exact .send _
  | save _ may => exact may.elim
  | store _ may => exact may.elim
  | delete may => exact may.elim
  | bind _ _ ihFirst ihRest => exact .bind ihFirst ihRest

section Looking

variable (unprepared : ∀ failure, failure.report? = none → allowed (.fail failure))

include unprepared

private theorem within_find (path : Path) : Within allowed (find path) := by
  refine .bind .disk fun disk => ?_
  cases disk.find path with
  | ok entry => exact .pure entry
  | error fault => exact .fail (unprepared _ rfl)

private theorem within_readText (room : Nat) (path : Path) (text : String) :
    Within allowed (Cache.readText room path text) := by
  unfold Cache.readText
  split
  · exact .pure none
  split
  · exact .pure none
  · exact .pure _
  · exact .bind (.note _) fun _ => .pure none
  · exact .fail (unprepared _ rfl)
  · exact .fail (unprepared _ rfl)

private theorem within_readData (room : Nat) (path : Path) : Within allowed (Cache.readData room path) := by
  refine .bind (within_find unprepared path) fun found => ?_
  split
  · exact .pure none
  unfold Cache.readEntry
  split
  · exact .bind (.note _) fun _ => .pure none
  · exact .fail (unprepared _ rfl)
  · exact within_readText unprepared room path _

theorem within_loadDigests (cache : Cache) : Within allowed cache.loadDigests := by
  refine .bind (within_readData unprepared _ _) fun data => ?_
  split
  · exact .pure []
  · split
    · exact .pure _
    · exact .bind (.note _) fun _ => .pure []

theorem within_loadSnapshot (cache : Cache) : Within allowed cache.loadSnapshot := by
  refine .bind (within_readData unprepared _ _) fun data => ?_
  split
  · exact .pure none
  · split
    · exact .pure _
    · exact .bind (.note _) fun _ => .pure none

theorem within_loadEnums (cache : Cache) : Within allowed cache.loadEnums := by
  refine .bind (within_readData unprepared _ _) fun data => ?_
  split
  · exact .pure []
  · split
    · exact .pure _
    · exact .bind (.note _) fun _ => .pure []

theorem within_fromCache (cache : Cache) (snapshot : Snapshot) (origin : Origin) (line : Log.Line) :
    Within allowed (fromCache cache snapshot origin line) :=
  .bind (.note _) fun _ => .bind (within_loadEnums unprepared _) fun _ => .pure _

theorem within_diffFor (cache : Cache) (force : Bool) (origin : Origin) (scope : Snapshot) :
    Within allowed (diffFor cache force origin scope) := by
  unfold diffFor
  split
  · exact .bind (.pure _) fun _ => .pure _
  · exact .bind (.bind (within_loadDigests unprepared _) fun _ => .bind (.note _) fun _ => .pure _) fun _ => .pure _

theorem within_commit {cache : Cache} (may : allowed (.store cache.digestsPath)) (tables : List Table) :
    Within allowed (cache.commit tables) := .bind (within_loadDigests unprepared cache) fun _ => .store _ may

theorem within_removeEntry {cache : Cache} (may : allowed (.store cache.digestsPath)) (table : String) :
    Within allowed (cache.removeEntry table) := by
  refine .bind (within_loadDigests unprepared cache) fun digests => ?_
  split
  · exact .store _ may
  · exact .pure ()

private theorem within_removeEntries {cache : Cache} (may : allowed (.store cache.digestsPath)) (tables : List String) :
    Within allowed (removeEntries cache tables) := by
  induction tables with
  | nil => exact .pure ()
  | cons table rest ih => exact .bind (within_removeEntry unprepared may table) fun _ => ih

/-- Only a fetched schema is stored. -/
theorem within_record {cache : Cache} (digests : allowed (.store cache.digestsPath))
    (source : Source) (diff : Cache.Diff)
    (schema : source.origin = .fetched → allowed (.store cache.snapshotPath) ∧ allowed (.store cache.enumsPath)) :
    Within allowed (record cache source diff) := by
  refine .bind (within_commit unprepared digests _) fun _ => .bind (within_removeEntries unprepared digests _)
    fun _ => ?_
  split
  · rename_i fetched
    obtain ⟨snapshot, enums⟩ := schema (by simpa using fetched)
    exact .bind (.store _ snapshot) fun _ => .store _ enums
  · exact .pure ()

end Looking

theorem within_writeAll {files : List Payload} (may : ∀ file ∈ files, allowed (.save file.path)) :
    Within allowed (writeAll files) := by
  induction files with
  | nil => exact .pure ()
  | cons file rest ih =>
    exact .bind (.save _ (may file List.mem_cons_self)) fun _ => ih
      fun other member => may other (List.mem_cons_of_mem _ member)

theorem within_deleteAll {paths : List Path} (may : ∀ path ∈ paths, allowed (.delete path)) :
    Within allowed (deleteAll paths) := by
  induction paths with
  | nil => exact .pure []
  | cons path rest ih =>
    exact .bind (.delete (may path List.mem_cons_self)) fun _ =>
      .bind (ih fun other member => may other (List.mem_cons_of_mem _ member)) fun _ => .pure _

theorem within_removeModels {settings : Settings} {tables : List String}
    (may : ∀ table ∈ tables, ∀ path ∈ artifactPaths settings table, allowed (.delete path)) :
    Within allowed (removeModels settings tables) := by
  induction tables with
  | nil => exact .pure []
  | cons table rest ih =>
    exact .bind (within_deleteAll (may table List.mem_cons_self)) fun _ => .bind (.note _) fun _ =>
      .bind (ih fun other member => may other (List.mem_cons_of_mem _ member)) fun _ => .pure _

/-- What a run needs to be allowed to carry out a plan. -/
structure Permits (settings : Settings) (allowed : Deed → Prop) (plan : Plan) : Prop where
  fails : ∀ failure, allowed (.fail failure)
  saves : ∀ files,
    payloads settings (.ofDeclared plan.source.enums) (inScope settings plan.source.snapshot) plan.diff.generate =
      .ok files →
    ∀ file ∈ files, allowed (.save file.path)
  deletes : ∀ table ∈ plan.diff.remove, ∀ path ∈ artifactPaths settings table, allowed (.delete path)
  digests : allowed (.store (cacheOf settings).digestsPath)
  schema : plan.source.origin = .fetched → allowed (.store (cacheOf settings).snapshotPath) ∧
    allowed (.store (cacheOf settings).enumsPath)

theorem within_complete {settings : Settings} {plan : Plan} (permits : Permits settings allowed plan) :
    Within allowed (complete settings (cacheOf settings) plan) := by
  unfold complete
  dsimp only
  split
  · exact .bind (.note _) fun _ => .pure _
  refine .bind (.note _) fun _ => ?_
  -- only what was rendered is written, so rendering is taken together with what follows it
  rw [renderAll, bind_assoc]
  refine .bind (.notes _) fun _ => ?_
  cases rendered :
      payloads settings (.ofDeclared plan.source.enums) (inScope settings plan.source.snapshot) plan.diff.generate with
  | error fault => exact .fail (permits.fails _)
  | ok files =>
    rw [pure_bind]
    exact .bind (within_writeAll (permits.saves files rendered)) fun _ => .bind (within_removeModels permits.deletes)
        fun _ =>
      .bind (within_record (fun _ _ => permits.fails _) permits.digests _ _ permits.schema) fun _ => .bind (.note _)
        fun _ => .pure _

section Run

variable {settings : Settings} (fails : ∀ failure, allowed (.fail failure))

include fails

private theorem within_fetchSource (asks : allowed (.ask (serverOf settings).request)) (cache : Cache) :
    Within allowed (fetchSource settings cache) := by
  refine .bind (.note _) fun _ => .bind (.ask asks) fun response => .bind (.notes _) fun _ => ?_
  split
  · exact .pure _
  · refine .bind (.note _) fun _ => .bind (within_loadSnapshot (fun _ _ => fails _) _) fun snapshot => ?_
    split
    · exact .fail (fails _)
    · exact within_fromCache (fun _ _ => fails _) _ _ _ _
  · exact .fail (fails _)
  · exact .fail (fails _)

/-- The server is asked unless the settings say never. -/
theorem within_source (asks : settings.fetch ≠ .never → allowed (.ask (serverOf settings).request)) (cache : Cache) :
    Within allowed (source settings cache) := by
  have unprepared : ∀ failure, failure.report? = none → allowed (.fail failure) := fun failure _ => fails failure
  unfold source
  split
  · rename_i always
    exact within_fetchSource fails (asks (by simp [always])) _
  · refine .bind (within_loadSnapshot unprepared _) fun snapshot => ?_
    split
    · exact .fail (fails _)
    · exact within_fromCache unprepared _ _ _ _
  · rename_i missing
    refine .bind (within_loadSnapshot unprepared _) fun snapshot => ?_
    split
    · exact within_fetchSource fails (asks (by simp [missing])) _
    · exact within_fromCache unprepared _ _ _ _

theorem within_plan (asks : settings.fetch ≠ .never → allowed (.ask (serverOf settings).request))
    (cache : Cache) (force : Bool) :
    Within allowed (plan settings cache force) :=
  .bind (within_source fails asks _) fun _ => .bind (.notes _) fun _ =>
    .bind (within_diffFor (fun _ _ => fails _) _ _ _ _) fun _ => .pure _

theorem within_checkSettings (settings : Settings) : Within allowed (checkSettings settings) := by
  simp only [checkSettings]
  split
  · exact .fail (fails _)
  · exact .pure ()

end Run

theorem within_sync {settings : Settings} (asks : settings.fetch ≠ .never → allowed (.ask (serverOf settings).request))
    (permits : ∀ plan, Permits settings allowed plan) (force : Bool) : Within allowed (sync settings force) := by
  have fails : ∀ failure, allowed (.fail failure) := (permits ⟨⟨.empty, [], .cached⟩, ⟨[], []⟩⟩).fails
  exact .bind (.notes _) fun _ => .bind (within_checkSettings fails _) fun _ => .bind (within_plan fails asks _ _)
      fun plan =>
    within_complete (permits plan)

end TableModels.Run
