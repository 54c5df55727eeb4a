import TableModels.Proofs.Sync

/-! What writing, removing and recording leave alone, however they end. Each is about files at certain paths, and no
other file changes even when it is stopped half way. If it is stopped, the failure has no report. -/

namespace TableModels.Run

open Act World

variable {α : Type} {paths : List Path}

/-- The action fails only for reasons that a run is not prepared for. -/
def Unreported (action : Act α) : Prop :=
  ∀ world failure after, runIn action world = (.error failure, after) → failure.report? = none

/-- An action that is about the files at these paths. However it ends, all other files are as they were. -/
structure Touches (paths : List Path) (action : Act α) : Prop where
  others : ∀ world path, path ∉ paths → (runIn action world).2.disk.file? path = world.disk.file? path
  unreported : Unreported action

theorem Touches.kept {action : Act α} (touches : Touches paths action) {world after : World} {result : Except Failure α}
    (ran : runIn action world = (result, after)) {path : Path} (outside : path ∉ paths) :
    after.disk.file? path = world.disk.file? path := by
  have others := touches.others world path outside
  rwa [ran] at others

def Deed.about (paths : List Path) : Deed → Prop
  | ask _ => False
  | fail failure => failure.report? = none
  | save path => path ∈ paths
  | store path => path ∈ paths
  | delete path => path ∈ paths

theorem Touches.of_within {action : Act α} (within : Within (Deed.about paths) action) : Touches paths action := by
  refine ⟨fun world path outside => (within.footprint world).kept path outside outside outside,
    fun world failure after ends => ?_⟩
  rcases (within.ran ends).failure failure rfl with may | none
  · exact may
  · exact none

/-- Recording leaves every file alone that is not in the cache. -/
theorem touches_record (cache : Cache) (source : Source) (diff : Cache.Diff) :
    Touches cache.paths (record cache source diff) :=
  .of_within (within_record (fun _ none => none) (by simp [Deed.about, Cache.paths]) _ _
    fun _ => by simp [Deed.about, Cache.paths])

end TableModels.Run
