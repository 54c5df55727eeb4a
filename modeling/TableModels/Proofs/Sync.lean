import TableModels.Proofs.Comparison

/-! One run as a whole. Until everything is rendered a run only looks, so what it does is settled by its
source, the digests it finds and what it renders of them. -/

namespace TableModels.Run

open Act World Schema

variable {settings : Settings} {world after : World}

theorem observes_loadSnapshot (cache : Cache) : Observes cache.loadSnapshot :=
  (within_loadSnapshot (fun _ _ => trivial) cache).observes

theorem observes_loadEnums (cache : Cache) : Observes cache.loadEnums :=
  (within_loadEnums (fun _ _ => trivial) cache).observes

theorem observes_source (settings : Settings) (cache : Cache) : Observes (source settings cache) :=
  (within_source (fun _ => trivial) (fun _ => trivial) cache).observes

theorem observes_checkSettings (settings : Settings) : Observes (checkSettings settings) :=
  (within_checkSettings (fun _ => trivial) settings).observes

theorem observes_renderAll (settings : Settings) (enums : Typing.Enums) (scope : Snapshot) (tables : List Table) :
    Observes (renderAll settings enums scope tables) := by
  refine .bind (.notes _) fun _ => ?_
  split
  · exact .pure _
  · exact .throw _

theorem observes_plan (settings : Settings) (cache : Cache) (force : Bool) : Observes (plan settings cache force) :=
  (within_plan (fun _ => trivial) (fun _ => trivial) cache force).observes

def Plan.scope (settings : Settings) (plan : Plan) : Snapshot := inScope settings plan.source.snapshot

/-- The plan of a run follows from the source and the digests that there are. -/
structure Planned (settings : Settings) (force : Bool) (world : World) (plan : Plan) : Prop where
  found : (runIn (source settings (cacheOf settings)) world).1 = .ok plan.source
  fallback : plan.source.origin = .fallback → plan.diff = ⟨(plan.scope settings).tables, []⟩
  compared : plan.source.origin ≠ .fallback → ∃ digests, (runIn (cacheOf settings).loadDigests world).1 = .ok digests ∧
    plan.diff = adjusted force plan.source.origin (plan.scope settings) (.between digests (plan.scope settings).tables)

theorem Planned.apart {force : Bool} {plan : Plan} (planned : Planned settings force world plan) :
    ∀ table ∈ plan.diff.generate, table.name ∉ plan.diff.remove := by
  by_cases fallback : plan.source.origin = .fallback
  · rw [planned.fallback fallback]
    exact fun _ _ => List.not_mem_nil
  · obtain ⟨digests, _, same⟩ := planned.compared fallback
    rw [same]
    exact fun table => generate_not_removed fallback

/-- Looking first makes no difference to a plan. -/
theorem Planned.before {force : Bool} {plan : Plan} (planned : Planned settings force after plan)
    (untouched : Untouched world after) : Planned settings force world plan := by
  refine ⟨((observes_source _ _).again untouched).symm.trans planned.found, planned.fallback, fun fetched => ?_⟩
  obtain ⟨digests, loaded, same⟩ := planned.compared fetched
  exact ⟨digests, ((Cache.observes_loadDigests _).again untouched).symm.trans loaded, same⟩

private theorem diffFor_ok {cache : Cache} {force : Bool} {origin : Origin} {scope : Snapshot} {diff : Cache.Diff}
    (ends : runIn (diffFor cache force origin scope) world = (.ok diff, after)) :
    (origin = .fallback → diff = ⟨scope.tables, []⟩) ∧
      (origin ≠ .fallback → ∃ digests, (runIn cache.loadDigests world).1 = .ok digests ∧
        diff = adjusted force origin scope (.between digests scope.tables)) := by
  unfold diffFor at ends
  by_cases fallback : origin = .fallback
  · subst fallback
    obtain ⟨result, _⟩ := Prod.mk.inj ends
    exact ⟨fun _ => (Except.ok.inj result).symm, fun other => absurd rfl other⟩
  · refine ⟨fun same => absurd same fallback, fun _ => ?_⟩
    rw [if_neg (by simpa using fallback)] at ends
    obtain ⟨compared, looked, compare, ends⟩ := runIn_bind_ok ends
    obtain ⟨digests, loaded, load, compare⟩ := runIn_bind_ok compare
    obtain ⟨⟨⟩, noted, note, compare⟩ := runIn_bind_ok compare
    obtain rfl := Except.ok.inj (Prod.mk.inj compare).1
    exact ⟨digests, by rw [load], (Except.ok.inj (Prod.mk.inj ends).1).symm⟩

theorem plan_ok {force : Bool} {made : Plan}
    (ends : runIn (plan settings (cacheOf settings) force) world = (.ok made, after)) :
    Planned settings force world made := by
  obtain ⟨source, sourced, find, ends⟩ := runIn_bind_ok ends
  obtain ⟨⟨⟩, noted, note, ends⟩ := runIn_bind_ok ends
  obtain ⟨diff, compared, compare, ends⟩ := runIn_bind_ok ends
  obtain rfl := Except.ok.inj (Prod.mk.inj ends).1
  have early := (observes_source settings (cacheOf settings)).looked find
  have late := (Observes.notes _).looked note
  obtain ⟨fallback, other⟩ := diffFor_ok compare
  refine ⟨by rw [find], fallback, fun fetched => ?_⟩
  obtain ⟨digests, loaded, same⟩ := other fetched
  exact ⟨digests, ((Cache.observes_loadDigests _).again (early.trans late)).symm.trans loaded, same⟩

theorem diffFor_yields {cache : Cache} {force : Bool} {origin : Origin} {scope : Snapshot} {digests : Cache.Digests}
    (fetched : origin ≠ .fallback) (loaded : (runIn cache.loadDigests world).1 = .ok digests) :
    Yields (diffFor cache force origin scope) world (adjusted force origin scope (.between digests scope.tables)) := by
  have compared : Yields (cache.diff scope.tables) world (.between digests scope.tables) :=
    ((Cache.observes_loadDigests cache).yields loaded).bind fun _ _ => (Yields.note _ _).bind fun _ _ => .pure _ _
  unfold diffFor
  rw [if_neg (by simpa using fetched)]
  exact compared.bind fun _ _ => .pure _ _

private theorem plan_yields (force : Bool) {source : Source} {digests : Cache.Digests}
    (fetched : source.origin ≠ .fallback)
    (found : (runIn (Run.source settings (cacheOf settings)) world).1 = .ok source)
    (loaded : (runIn (cacheOf settings).loadDigests world).1 = .ok digests) :
    Yields (plan settings (cacheOf settings) force) world
      ⟨source, adjusted force source.origin (inScope settings source.snapshot)
        (.between digests (inScope settings source.snapshot).tables)⟩ := by
  refine ((observes_source _ _).yields found).bind fun sourced first => (Yields.notes _ _).bind fun noted second => ?_
  have loaded := ((Cache.observes_loadDigests _).again (first.trans second)).trans loaded
  exact (diffFor_yields fetched loaded).bind fun _ _ => .pure _ _

/-- What a run does with its plan: nothing, or all that it says. -/
inductive Completed (settings : Settings) (plan : Plan) (before : World) (outcome : Outcome) (after : World) :
    Prop where
  | unchanged (same : plan.diff.hasChanges = false) (said : outcome = { origin := plan.source.origin })
      (untouched : Untouched before after)
  | changed (files : List Payload) (some : plan.diff.hasChanges = true)
      (rendered : payloads settings (.ofDeclared plan.source.enums) (plan.scope settings) plan.diff.generate =
        .ok files)
      (said : outcome = {
        generated := plan.diff.generate.map Table.name
        removed := plan.diff.remove
        origin := plan.source.origin
        written := files.map Payload.path
        deleted := outcome.deleted })
      (executed : Executed settings plan.diff files before.disk after.disk outcome.deleted)

theorem Completed.outcome {plan : Plan} {outcome : Outcome} (completed : Completed settings plan world outcome after) :
    outcome.generated = plan.diff.generate.map Table.name ∧ outcome.removed = plan.diff.remove ∧
      outcome.origin = plan.source.origin := by
  cases completed with
  | unchanged same said _ =>
    have nothing : plan.diff.generate = [] ∧ plan.diff.remove = [] := by simpa [Cache.Diff.hasChanges] using same
    rw [said, nothing.1, nothing.2]
    exact ⟨rfl, rfl, rfl⟩
  | changed _ _ _ said _ =>
    rw [said]
    exact ⟨rfl, rfl, rfl⟩

theorem Completed.before {plan : Plan} {middle : World} {outcome : Outcome}
    (completed : Completed settings plan middle outcome after) (untouched : Untouched world middle) :
    Completed settings plan world outcome after := by
  cases completed with
  | unchanged same said later => exact .unchanged same said (untouched.trans later)
  | changed files some rendered said executed => exact .changed files some rendered said (untouched.disk ▸ executed)

theorem renderAll_ok {enums : Typing.Enums} {scope : Snapshot} {tables : List Table} {files : List Payload}
    (ends : runIn (renderAll settings enums scope tables) world = (.ok files, after)) :
    payloads settings enums scope tables = .ok files := by
  obtain ⟨⟨⟩, noted, note, ends⟩ := runIn_bind_ok ends
  cases rendered : payloads settings enums scope tables with
  | error fault =>
    rw [rendered] at ends
    cases (Prod.mk.inj ends).1
  | ok made =>
    rw [rendered] at ends
    rw [Except.ok.inj (Prod.mk.inj ends).1]

theorem renderAll_yields {enums : Typing.Enums} {scope : Snapshot} {tables : List Table} {files : List Payload}
    (rendered : payloads settings enums scope tables = .ok files) (world : World) :
    Yields (renderAll settings enums scope tables) world files := by
  refine (Yields.notes _ _).bind fun _ _ => ?_
  rw [rendered]
  exact .pure _ _

private theorem complete_ok {plan : Plan} {outcome : Outcome} (rooted : world.disk.Rooted)
    (apart : ∀ table ∈ plan.diff.generate, table.name ∉ plan.diff.remove)
    (ends : runIn (complete settings (cacheOf settings) plan) world = (.ok outcome, after)) :
    Completed settings plan world outcome after := by
  unfold complete at ends
  cases some : plan.diff.hasChanges with
  | false =>
    simp only [some, Bool.not_false, if_true] at ends
    obtain ⟨⟨⟩, noted, note, ends⟩ := runIn_bind_ok ends
    obtain ⟨_, rfl⟩ := Prod.mk.inj note
    obtain ⟨result, rfl⟩ := Prod.mk.inj ends
    exact .unchanged some (Except.ok.inj result).symm ⟨rfl, rfl, rfl, rfl, rfl⟩
  | true =>
    simp only [some, Bool.not_true, Bool.false_eq_true, if_false] at ends
    obtain ⟨⟨⟩, noted, note, ends⟩ := runIn_bind_ok ends
    obtain ⟨files, rendered, render, ends⟩ := runIn_bind_ok ends
    have early := ((Observes.note _).looked note).disk
    have late := ((observes_renderAll _ _ _ _).looked render).disk
    have same : rendered.disk = world.disk := late.trans early
    have made := renderAll_ok render
    obtain ⟨said, executed⟩ := execute_ok (same ▸ rooted) (payload_not_cached made _) apart ends
    exact .changed files some made said (same ▸ executed)

/-- Whatever is done with it, a plan comes of settings that can be used, and nothing has been done before. -/
theorem opening_ok {α : Type} {force : Bool} {next : Plan → Act α} {result : α}
    (ends : runIn (do
      Act.notes (Log.heading "SCHEMA SYNC")
      checkSettings settings
      next (← plan settings (cacheOf settings) force)) world = (.ok result, after)) :
    settings.problems settings.requiresCredentials = [] ∧
      ∃ plan middle, Planned settings force world plan ∧ Untouched world middle ∧ runIn (next plan) middle =
        (.ok result, after) := by
  obtain ⟨⟨⟩, titled, title, ends⟩ := runIn_bind_ok ends
  obtain ⟨⟨⟩, checked, check, ends⟩ := runIn_bind_ok ends
  obtain ⟨plan, planned, plans, ends⟩ := runIn_bind_ok ends
  have first := (Observes.notes _).looked title
  have second := (observes_checkSettings settings).looked check
  have third := (observes_plan settings (cacheOf settings) force).looked plans
  have usable : settings.problems settings.requiresCredentials = [] := by
    by_contra problems
    simp [checkSettings, problems] at check
  exact ⟨usable, plan, planned, (plan_ok plans).before (first.trans second), (first.trans second).trans third, ends⟩

/-- A run that ended normally did with its plan what a plan says. -/
theorem sync_ok {force : Bool} {outcome : Outcome} (rooted : world.disk.Rooted)
    (ends : runIn (sync settings force) world = (.ok outcome, after)) :
    settings.problems settings.requiresCredentials = [] ∧
      ∃ plan, Planned settings force world plan ∧ Completed settings plan world outcome after := by
  obtain ⟨usable, plan, middle, planned, looked, ends⟩ := opening_ok ends
  exact ⟨usable, plan, planned, (complete_ok (looked.disk ▸ rooted) planned.apart ends).before looked⟩

/-- Up to the plan a run only looks. -/
theorem runIn_sync_of_plan {force : Bool} {made : Plan} (usable : settings.problems settings.requiresCredentials = [])
    (plans : Yields (plan settings (cacheOf settings) force) world made) :
    ∃ middle, Untouched world middle ∧
      runIn (sync settings force) world = runIn (complete settings (cacheOf settings) made) middle := by
  obtain ⟨titled, title, first⟩ := Yields.notes (Log.heading "SCHEMA SYNC") world
  have checks : Yields (checkSettings settings) titled () :=
    (observes_checkSettings _).yields (by simp [checkSettings, usable])
  obtain ⟨checked, check, second⟩ := checks
  obtain ⟨middle, planned, third⟩ := (observes_plan _ _ _).yields_again (first.trans second) plans.result
  refine ⟨middle, (first.trans second).trans third, ?_⟩
  rw [sync, runIn_bind_of_ok title, runIn_bind_of_ok check, runIn_bind_of_ok planned]

theorem runIn_sync (force : Bool) {source : Source} {digests : Cache.Digests}
    (usable : settings.problems settings.requiresCredentials = []) (fetched : source.origin ≠ .fallback)
    (found : (runIn (Run.source settings (cacheOf settings)) world).1 = .ok source)
    (loaded : (runIn (cacheOf settings).loadDigests world).1 = .ok digests) :
    ∃ middle, Untouched world middle ∧ runIn (sync settings force) world =
      runIn (complete settings (cacheOf settings) ⟨source,
        adjusted force source.origin (inScope settings source.snapshot)
        (.between digests (inScope settings source.snapshot).tables)⟩) middle :=
  runIn_sync_of_plan usable (plan_yields force fetched found loaded)

theorem advances_sync (settings : Settings) (force : Bool) : Advances (sync settings force) := by
  have permits : ∀ plan, Permits settings Deed.any plan := fun _ =>
    ⟨fun _ => trivial, fun _ _ _ _ => trivial, fun _ _ _ _ => trivial, trivial, fun _ => ⟨trivial, trivial⟩⟩
  exact (within_sync (fun _ => trivial) permits force).advances

end TableModels.Run
