import TableModels.Proofs.Answers
import TableModels.Proofs.Confinement

/-! Runs that fail. A run has three parts: it looks and renders, it writes and deletes models, and last it records what
it did. Where it stops says what it has left on the disk. -/

namespace TableModels.Run

open Act World Schema

variable {settings : Settings} {world after : World}

/-- A plan, with the files that were rendered for it if there is something to do. -/
structure Ready where
  plan : Plan
  files : Option (List Payload)

def prepare (settings : Settings) (force : Bool) : Act Ready := do
  Act.notes (Log.heading "SCHEMA SYNC")
  checkSettings settings
  let plan ← plan settings (cacheOf settings) force
  let scope := inScope settings plan.source.snapshot
  if !plan.diff.hasChanges then
    Act.note (Log.success s!"All {scope.size} models are up to date")
    return ⟨plan, none⟩
  Act.note (Log.progress s!"Generating {plan.diff.generate.length} models, removing {plan.diff.remove.length}")
  let files ← renderAll settings (Typing.Enums.ofDeclared plan.source.enums) scope plan.diff.generate
  return ⟨plan, some files⟩

/-- The part that writes and deletes models. It says which files it has deleted. -/
def deliver (settings : Settings) (ready : Ready) : Act (List Path) :=
  match ready.files with
  | none => return []
  | some files => do
    writeAll files
    removeModels settings ready.plan.diff.remove

def untilCommit (settings : Settings) (force : Bool) : Act (Ready × List Path) := do
  let ready ← prepare settings force
  return (ready, ← deliver settings ready)

/-- The part that brings the cache up to date. -/
def conclude (settings : Settings) (ready : Ready) (deleted : List Path) : Act Outcome :=
  match ready.files with
  | none => return { origin := ready.plan.source.origin }
  | some files => do
    record (cacheOf settings) ready.plan.source ready.plan.diff
    Act.note (Log.success
      s!"Generated {ready.plan.diff.generate.length} models into {(Path.ofText settings.output).text}")
    return {
      generated := ready.plan.diff.generate.map Table.name
      removed := ready.plan.diff.remove
      origin := ready.plan.source.origin
      written := files.map Payload.path
      deleted }

theorem sync_eq (settings : Settings) (force : Bool) :
    sync settings force = untilCommit settings force >>= fun done => conclude settings done.1 done.2 := by
  simp only [sync, untilCommit, prepare, bind_assoc, pure_bind]
  congr 1
  funext _
  congr 1
  funext _
  congr 1
  funext plan
  unfold complete
  cases plan.diff.hasChanges with
  | false => simp [deliver, conclude]
  | true => simp [deliver, conclude, execute]

/-- After the commit a run can only fail while it records. -/
theorem record_error {ready : Ready} {deleted : List Path} {failure : Failure}
    (ends : runIn (conclude settings ready deleted) world = (.error failure, after)) :
    runIn (record (cacheOf settings) ready.plan.source ready.plan.diff) world = (.error failure, after) := by
  unfold conclude at ends
  cases found : ready.files with
  | none =>
    rw [found] at ends
    cases (Prod.mk.inj ends).1
  | some files =>
    rw [found] at ends
    rcases runIn_bind_error ends with stops | ⟨_, stored, _, ends⟩
    · exact stops
    · rcases runIn_bind_error ends with stops | ⟨_, noted, _, ends⟩
      · cases (Prod.mk.inj stops).1
      · cases (Prod.mk.inj ends).1

theorem observes_prepare (settings : Settings) (force : Bool) : Observes (prepare settings force) := by
  refine .bind (.notes _) fun _ => .bind (observes_checkSettings _) fun _ => .bind (observes_plan _ _ _) fun plan => ?_
  dsimp only
  split
  · exact .bind (.note _) fun _ => .pure _
  · exact .bind (.note _) fun _ => .bind (observes_renderAll _ _ _ _) fun _ => .pure _

/-- What is rendered has to do with the plan, and there is something to do. -/
structure Ready.Sound (settings : Settings) (force : Bool) (world : World) (ready : Ready) : Prop where
  planned : Planned settings force world ready.plan
  nothing : ready.files = none → ready.plan.diff.hasChanges = false
  rendered : ∀ files, ready.files = some files → ready.plan.diff.hasChanges = true ∧
    payloads settings (.ofDeclared ready.plan.source.enums) (ready.plan.scope settings) ready.plan.diff.generate =
      .ok files

theorem prepare_ok {force : Bool} {ready : Ready} (ends : runIn (prepare settings force) world = (.ok ready, after)) :
    ready.Sound settings force world := by
  obtain ⟨_, plan, _, made, _, ends⟩ := opening_ok ends
  cases some : plan.diff.hasChanges with
  | false =>
    simp only [some, Bool.not_false, if_true] at ends
    obtain ⟨⟨⟩, noted, note, ends⟩ := runIn_bind_ok ends
    obtain rfl := Except.ok.inj (Prod.mk.inj ends).1
    exact ⟨made, fun _ => some, by simp⟩
  | true =>
    simp only [some, Bool.not_true, Bool.false_eq_true, if_false] at ends
    obtain ⟨⟨⟩, noted, note, ends⟩ := runIn_bind_ok ends
    obtain ⟨files, rendered, render, ends⟩ := runIn_bind_ok ends
    obtain rfl := Except.ok.inj (Prod.mk.inj ends).1
    refine ⟨made, by simp, fun others same => ⟨some, ?_⟩⟩
    obtain rfl := Option.some.inj same
    exact renderAll_ok render

/-- A run that ends normally has been through its parts. -/
theorem sync_parts {force : Bool} {outcome : Outcome}
    (ends : runIn (sync settings force) world = (.ok outcome, after)) :
    ∃ (ready : Ready) (deleted : List Path) (prepared delivered : World), ready.Sound settings force world ∧
      runIn (deliver settings ready) prepared = (.ok deleted, delivered) ∧
      runIn (conclude settings ready deleted) delivered = (.ok outcome, after) := by
  rw [sync_eq] at ends
  obtain ⟨⟨ready, deleted⟩, delivered, work, ends⟩ := runIn_bind_ok ends
  obtain ⟨looked, prepared, prepares, work⟩ := runIn_bind_ok work
  obtain ⟨gone, _, delivers, work⟩ := runIn_bind_ok work
  obtain ⟨result, rfl⟩ := Prod.mk.inj work
  obtain ⟨rfl, rfl⟩ := Prod.mk.inj (Except.ok.inj result)
  exact ⟨looked, gone, prepared, _, prepare_ok prepares, delivers, ends⟩

/-- The files that a run is about before it comes to the cache. -/
def Ready.paths (settings : Settings) (ready : Ready) : List Path :=
  match ready.files with
  | none => []
  | some files => files.map Payload.path ++ artifactsOf settings ready.plan.diff.remove

private theorem within_deliver (settings : Settings) (ready : Ready) :
    Within (Deed.about (ready.paths settings)) (deliver settings ready) := by
  unfold deliver Ready.paths
  cases ready.files with
  | none => exact .pure []
  | some files =>
    refine .bind (within_writeAll fun file member => ?_) fun _ => within_removeModels
      fun table dropped path member => ?_
    · exact List.mem_append_left _ (List.mem_map_of_mem member)
    · exact List.mem_append_right _ (List.mem_flatMap.mpr ⟨table, dropped, member⟩)

theorem touches_deliver (settings : Settings) (ready : Ready) :
    Touches (ready.paths settings) (deliver settings ready) :=
  .of_within (within_deliver settings ready)

theorem cached_not_delivered {enums : Typing.Enums} {scope : Snapshot} {tables : List Table} {files : List Payload}
    (rendered : payloads settings enums scope tables = .ok files) (dropped : List String) {path : Path}
    (member : path ∈ (cacheOf settings).paths) :
    path ∉ files.map Payload.path ∧ path ∉ artifactsOf settings dropped := by
  constructor
  · intro written
    obtain ⟨file, known, rfl⟩ := List.mem_map.mp written
    exact payload_not_cached rendered (cacheOf settings) file known member
  · exact fun artifact => artifactsOf_not_cached _ artifact member

theorem Ready.Sound.apart {force : Bool} {ready : Ready} (sound : ready.Sound settings force world) {path : Path}
    (member : path ∈ (cacheOf settings).paths) : path ∉ ready.paths settings := by
  unfold Ready.paths
  cases found : ready.files with
  | none => simp
  | some files => simpa using cached_not_delivered (sound.rendered files found).2 ready.plan.diff.remove member

/-- Up to the commit the cache is left alone, and once anything is tried on the disk no failure has a report. -/
private theorem untilCommit_spares (settings : Settings) (force : Bool) (world : World) :
    (∀ path ∈ (cacheOf settings).paths,
        (runIn (untilCommit settings force) world).2.disk.file? path = world.disk.file? path) ∧
      ∀ failure after, runIn (untilCommit settings force) world = (.error failure, after) → failure.report?.isSome →
        Untouched world after := by
  have looked := (observes_prepare settings force).untouched world
  rcases ran : runIn (prepare settings force) world with ⟨failure | ready, middle⟩
  · rw [ran] at looked
    have whole : runIn (untilCommit settings force) world = (.error failure, middle) := by
      rw [untilCommit, runIn_bind, ran]
    refine ⟨fun path _ => by rw [whole, looked.disk], fun other after ends _ => ?_⟩
    obtain ⟨_, rfl⟩ := Prod.mk.inj (whole.symm.trans ends)
    exact looked
  · rw [ran] at looked
    have sound := prepare_ok ran
    have touches : Touches (ready.paths settings) (do return (ready, ← deliver settings ready)) :=
      .of_within (.bind (within_deliver settings ready) fun _ => .pure _)
    have whole : runIn (untilCommit settings force) world =
        runIn (do return (ready, ← deliver settings ready)) middle := by
      rw [untilCommit, runIn_bind_of_ok ran]
    refine ⟨fun path member => ?_, fun failure after ends reported => ?_⟩
    · rw [whole, touches.others middle path (sound.apart member), looked.disk]
    · rw [whole] at ends
      simp [touches.unreported middle failure after ends] at reported

/-- Where a run fails, the files of the cache are as they were when it came to its commit, and if it did not come to
that they are as they were in the beginning. If the failure has a report then nothing was tried on the disk at all. -/
theorem failed_sync_spares_cache {force : Bool} {failure : Failure}
    (ends : runIn (sync settings force) world = (.error failure, after)) :
    (failure.report?.isSome → Untouched world after) ∧
      ((runIn (untilCommit settings force) world = (.error failure, after) ∧
          ∀ path ∈ (cacheOf settings).paths, after.disk.file? path = world.disk.file? path) ∨
        ∃ ready deleted middle, runIn (untilCommit settings force) world = (.ok (ready, deleted), middle) ∧
          (∀ path ∈ (cacheOf settings).paths, middle.disk.file? path = world.disk.file? path) ∧
          runIn (record (cacheOf settings) ready.plan.source ready.plan.diff) middle = (.error failure, after)) := by
  obtain ⟨spared, untouched⟩ := untilCommit_spares settings force world
  rw [sync_eq] at ends
  rcases runIn_bind_error ends with early | ⟨⟨ready, deleted⟩, middle, ran, late⟩
  · rw [early] at spared
    exact ⟨untouched failure after early, .inl ⟨early, spared⟩⟩
  · rw [ran] at spared
    have stops := record_error late
    refine ⟨fun reported => ?_, .inr ⟨ready, deleted, middle, ran, spared, stops⟩⟩
    simp [(touches_record _ _ _).unreported middle failure after stops] at reported

/-- A run was stopped, and what it left passes a check. -/
def stopsWith (check : World → Bool) : Except Failure α × World → Bool
  | (.error _, after) => check after
  | (.ok _, _) => false

theorem stops_of_check {check : World → Bool} {result : Except Failure α × World}
    (seen : stopsWith check result = true) :
    ∃ failure after, result = (.error failure, after) ∧ check after = true := by
  rcases result with ⟨failure | value, after⟩
  · exact ⟨failure, after, rfl, seen⟩
  · cases seen

namespace Blog

/-- An empty disk on which the seventh change cannot be made. -/
def troubled : World := { response := bareAnswer, trouble := (· == 6) }

private theorem stops_troubled :
    ∃ failure after, runIn (untilCommit (options false) false) troubled = (.error failure, after) ∧
    (after.disk.file? (modelPath (options false) "posts")).isSome ∧
    after.disk.file? (manifestPath (options false)) = none := by
  have seen : stopsWith (fun after => (after.disk.file? (modelPath (options false) "posts")).isSome &&
      after.disk.file? (manifestPath (options false)) == none)
      (runIn (untilCommit (options false) false) troubled) = true := by
    have checked := usable false
    have found := runIn_source false contents_bare { troubled with log := [] ++ Log.heading "SCHEMA SYNC" } rfl
    simp only [troubled] at found
    simp only [troubled, untilCommit, prepare, plan, bind_assoc, runIn_bind, runIn_notes, checkSettings, checked,
      runIn_pure, List.isEmpty_nil, Bool.not_true, Bool.false_eq_true, if_false, found]
    decide +kernel
  obtain ⟨failure, after, ran, left⟩ := stops_of_check seen
  simp only [Bool.and_eq_true, beq_iff_eq] at left
  exact ⟨failure, after, ran, left⟩

end Blog

theorem blog_stopped_spares :
    ∃ failure after, runIn (sync (Blog.options false) false) Blog.troubled = (.error failure, after) ∧
    (after.disk.file? (modelPath (Blog.options false) "posts")).isSome ∧
    ∀ path ∈ (cacheOf (Blog.options false)).paths, after.disk.file? path = Blog.troubled.disk.file? path := by
  obtain ⟨failure, after, stops, written, _⟩ := Blog.stops_troubled
  have ends : runIn (sync (Blog.options false) false) Blog.troubled = (.error failure, after) := by
    rw [sync_eq, runIn_bind, stops]
  obtain ⟨_, ⟨_, spared⟩ | ⟨_, _, _, reached, _⟩⟩ := failed_sync_spares_cache ends
  · exact ⟨failure, after, ends, written, spared⟩
  · cases (Prod.mk.inj (stops.symm.trans reached)).1

end TableModels.Run
