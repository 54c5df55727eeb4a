import TableModels.Proofs.Disk
import TableModels.Run.World

/-! How actions run. A run of one action after another is read off from the runs of both. An action that
only looks changes neither the disk nor its own later answers, and no action breaks the tree on the disk. -/

namespace TableModels

variable {α β : Type}

/-- Nothing but the log and the list of requests has changed. -/
structure World.Untouched (before after : World) : Prop where
  disk : after.disk = before.disk
  response : after.response = before.response
  journal : after.journal = before.journal
  tried : after.tried = before.tried
  trouble : after.trouble = before.trouble

namespace World

@[refl] theorem Untouched.refl (world : World) : Untouched world world := ⟨rfl, rfl, rfl, rfl, rfl⟩

theorem Untouched.trans {first second third : World} (early : Untouched first second) (late : Untouched second third) :
    Untouched first third :=
  ⟨late.disk.trans early.disk, late.response.trans early.response, late.journal.trans early.journal,
    late.tried.trans early.tried, late.trouble.trans early.trouble⟩

/-- What an action can look at is the same. -/
def Alike (first second : World) : Prop := first.disk = second.disk ∧ first.response = second.response

theorem Untouched.alike {before after : World} (untouched : Untouched before after) : Alike after before :=
  ⟨untouched.disk, untouched.response⟩

/-- The disk is still a tree, and what is around the run is the same. -/
structure Onward (before after : World) : Prop where
  rooted : before.disk.Rooted → after.disk.Rooted
  response : after.response = before.response
  trouble : after.trouble = before.trouble

theorem Onward.trans {first second third : World} (early : Onward first second) (late : Onward second third) :
    Onward first third :=
  ⟨late.rooted ∘ early.rooted, late.response.trans early.response, late.trouble.trans early.trouble⟩

theorem Untouched.onward {before after : World} (untouched : Untouched before after) :
    Onward before after := ⟨fun rooted => untouched.disk ▸ rooted, untouched.response, untouched.trouble⟩

end World

namespace Act

open World

@[simp] theorem runIn_pure (value : α) (world : World) : runIn (pure value) world = (.ok value, world) := rfl

@[simp] theorem runIn_throw (failure : Failure) (world : World) :
    runIn (throw failure : Act α) world = (.error failure, world) := rfl

@[simp] theorem runIn_get (world : World) : runIn get world = (.ok world, world) := rfl

@[simp] theorem runIn_set (next world : World) : runIn (set next) world = (.ok (), next) := rfl

@[simp] theorem runIn_note (line : Log.Line) (world : World) :
    runIn (note line) world = (.ok (), { world with log := world.log ++ [line] }) := rfl

@[simp] theorem runIn_notes (lines : List Log.Line) (world : World) :
    runIn (notes lines) world = (.ok (), { world with log := world.log ++ lines }) := rfl

@[simp] theorem runIn_disk (world : World) : runIn disk world = (.ok world.disk, world) := rfl

@[simp] theorem runIn_send (request : Document.Request) (world : World) :
    runIn (send request) world = (.ok world.response, { world with requests := world.requests ++ [request] }) := rfl

theorem runIn_bind (action : Act α) (next : α → Act β) (world : World) :
    runIn (action >>= next) world =
      match runIn action world with
      | (.ok value, after) => runIn (next value) after
      | (.error failure, after) => (.error failure, after) := by
  unfold runIn ExceptT.run StateT.run
  simp only [Bind.bind, ExceptT.bind, ExceptT.mk, ExceptT.bindCont, StateT.bind]
  rcases action world with ⟨result, after⟩
  cases result <;> rfl

theorem runIn_tryCatch (action : Act α) (handler : Failure → Act α) (world : World) :
    runIn (tryCatch action handler) world =
      match runIn action world with
      | (.ok value, after) => (.ok value, after)
      | (.error failure, after) => runIn (handler failure) after := by
  unfold runIn ExceptT.run StateT.run
  simp only [tryCatch, tryCatchThe, MonadExceptOf.tryCatch, ExceptT.tryCatch, ExceptT.mk, Bind.bind, StateT.bind]
  rcases action world with ⟨result, after⟩
  cases result <;> rfl

/-- A run of two actions that ends normally is made of two such runs. -/
theorem runIn_bind_ok {action : Act α} {next : α → Act β} {world final : World} {result : β}
    (ends : runIn (action >>= next) world = (.ok result, final)) :
    ∃ value after, runIn action world = (.ok value, after) ∧ runIn (next value) after = (.ok result, final) := by
  rw [runIn_bind] at ends
  rcases ran : runIn action world with ⟨_ | value, after⟩
  · simp [ran] at ends
  · exact ⟨value, after, rfl, by simpa [ran] using ends⟩

/-- A run of two actions fails in the first one or after it. -/
theorem runIn_bind_error {action : Act α} {next : α → Act β} {world final : World} {failure : Failure}
    (ends : runIn (action >>= next) world = (.error failure, final)) :
    runIn action world = (.error failure, final) ∨
      ∃ value after, runIn action world = (.ok value, after) ∧ runIn (next value) after = (.error failure, final) := by
  rw [runIn_bind] at ends
  rcases ran : runIn action world with ⟨_ | value, after⟩
  · exact .inl (by simpa [ran] using ends)
  · exact .inr ⟨value, after, rfl, by simpa [ran] using ends⟩

theorem runIn_of_result {action : Act α} {world : World} {value : α} (ran : (runIn action world).1 = .ok value) :
    ∃ after, runIn action world = (.ok value, after) := ⟨_, Prod.ext ran rfl⟩

theorem runIn_bind_of_ok {action : Act α} {next : α → Act β} {world after : World} {value : α}
    (ran : runIn action world = (.ok value, after)) : runIn (action >>= next) world = runIn (next value) after := by
  rw [runIn_bind, ran]

private theorem runIn_ofDisk {result : Except DiskFault α} (world : World) :
    runIn (ofDisk result) world = (result.mapError Failure.disk, world) := by
  cases result <;> rfl

theorem runIn_find (path : Path) (world : World) :
    runIn (find path) world = ((world.disk.find path).mapError Failure.disk, world) := by
  simp only [find, runIn_bind, runIn_disk, runIn_ofDisk]

theorem find_ok {path : Path} {world after : World} {entry : Entry}
    (ends : runIn (find path) world = (.ok (some entry), after)) : world.disk.get? path = some entry := by
  rw [runIn_find, Disk.find] at ends
  split at ends
  · rename_i found located
    obtain ⟨result, _⟩ := Prod.mk.inj ends
    cases result
    exact (Disk.locate_ok.mp located).2
  all_goals simp [Except.mapError] at ends

/-- An action that depends on the disk and the server's answer alone and changes neither. -/
structure Observes (action : Act α) : Prop where
  untouched : ∀ world, Untouched world (runIn action world).2
  alike : ∀ {first second}, Alike first second → (runIn action first).1 = (runIn action second).1

namespace Observes

theorem pure (value : α) : Observes (Pure.pure value) := ⟨fun world => .refl world, fun _ => rfl⟩

theorem throw (failure : Failure) : Observes (throw failure : Act α) := ⟨fun world => .refl world, fun _ => rfl⟩

theorem note (line : Log.Line) : Observes (note line) := ⟨fun _ => ⟨rfl, rfl, rfl, rfl, rfl⟩, fun _ => rfl⟩

theorem notes (lines : List Log.Line) : Observes (notes lines) := ⟨fun _ => ⟨rfl, rfl, rfl, rfl, rfl⟩, fun _ => rfl⟩

theorem send (request : Document.Request) : Observes (send request) :=
  ⟨fun _ => ⟨rfl, rfl, rfl, rfl, rfl⟩, fun alike => congrArg Except.ok alike.2⟩

theorem disk : Observes disk := ⟨fun world => .refl world, fun alike => congrArg Except.ok alike.1⟩

theorem find (path : Path) : Observes (find path) := by
  refine ⟨fun world => ?_, fun {first second} alike => ?_⟩
  · rw [runIn_find]
  · rw [runIn_find, runIn_find, alike.1]

/-- The second action starts from a world like the first one's. -/
theorem bind {action : Act α} {next : α → Act β} (first : Observes action) (rest : ∀ value, Observes (next value)) :
    Observes (action >>= next) := by
  constructor
  · intro world
    have early := first.untouched world
    rw [runIn_bind]
    rcases ran : runIn action world with ⟨_ | value, after⟩
    · simpa only [ran] using early
    · rw [ran] at early
      exact early.trans ((rest value).untouched after)
  · intro left right alike
    have same := first.alike alike
    have leftKept := (first.untouched left).alike
    have rightKept := (first.untouched right).alike
    rw [runIn_bind, runIn_bind]
    rcases ranLeft : runIn action left with ⟨result, leftAfter⟩
    rcases ranRight : runIn action right with ⟨other, rightAfter⟩
    simp only [ranLeft, ranRight] at same leftKept rightKept
    subst other
    cases result with
    | error failure => rfl
    | ok value =>
      exact (rest value).alike ⟨leftKept.1.trans (alike.1.trans rightKept.1.symm),
        leftKept.2.trans (alike.2.trans rightKept.2.symm)⟩

theorem looked {action : Act α} (observes : Observes action) {world after : World} {result : Except Failure α}
    (ran : runIn action world = (result, after)) : Untouched world after := by
  have untouched := observes.untouched world
  rwa [ran] at untouched

/-- Looking again, at a world that has only been looked at, gives the same answer. -/
theorem again {action : Act α} (observes : Observes action) {before after : World}
    (untouched : Untouched before after) :
    (runIn action after).1 = (runIn action before).1 := observes.alike untouched.alike

end Observes

/-- Run in this world, the action gives this value and has only looked. -/
def Yields (action : Act α) (world : World) (value : α) : Prop :=
  ∃ after, runIn action world = (.ok value, after) ∧ Untouched world after

theorem Observes.yields {action : Act α} {world : World} {value : α} (observes : Observes action)
    (ran : (runIn action world).1 = .ok value) : Yields action world value :=
  ⟨_, Prod.ext ran rfl, observes.untouched world⟩

/-- An action that only looks gives the same value after looking. -/
theorem Observes.yields_again {action : Act α} {before after : World} {value : α} (observes : Observes action)
    (untouched : Untouched before after) (ran : (runIn action before).1 = .ok value) : Yields action after value :=
  observes.yields ((observes.again untouched).trans ran)

namespace Yields

theorem pure (value : α) (world : World) : Yields (Pure.pure value) world value := ⟨world, rfl, .refl world⟩

theorem note (line : Log.Line) (world : World) : Yields (note line) world () := (Observes.note line).yields rfl

theorem notes (lines : List Log.Line) (world : World) : Yields (notes lines) world () :=
  (Observes.notes lines).yields rfl

theorem send (request : Document.Request) (world : World) : Yields (send request) world world.response :=
  (Observes.send request).yields rfl

theorem result {action : Act α} {world : World} {value : α} (yields : Yields action world value) :
    (runIn action world).1 = .ok value := by
  obtain ⟨_, ran, _⟩ := yields
  rw [ran]

theorem bind {action : Act α} {next : α → Act β} {world : World} {value : α} {result : β}
    (first : Yields action world value)
    (rest : ∀ after, Untouched world after → Yields (next value) after result) :
    Yields (action >>= next) world result := by
  obtain ⟨middle, ran, early⟩ := first
  obtain ⟨after, later, late⟩ := rest middle early
  exact ⟨after, (runIn_bind_of_ok ran).trans later, early.trans late⟩

end Yields

/-- However the action ends, the world after it is onward of the one before. -/
def Advances (action : Act α) : Prop := ∀ world, Onward world (runIn action world).2

namespace Advances

theorem onward {action : Act α} (advances : Advances action) {world after : World} {result : Except Failure α}
    (ran : runIn action world = (result, after)) : Onward world after := by
  have moved := advances world
  rwa [ran] at moved

theorem bind {action : Act α} {next : α → Act β} (first : Advances action) (rest : ∀ value, Advances (next value)) :
    Advances (action >>= next) := by
  intro world
  have early := first world
  rw [runIn_bind]
  rcases ran : runIn action world with ⟨_ | value, after⟩
  · simpa only [ran] using early
  · rw [ran] at early
    exact early.trans (rest value after)

end Advances

/-- From any world with this property the action ends normally, in a world that has it too. -/
def Thrives (holds : World → Prop) (action : Act α) : Prop :=
  ∀ world, holds world → ∃ value after, runIn action world = (.ok value, after) ∧ holds after

namespace Thrives

variable {holds : World → Prop}

theorem pure (value : α) : Thrives holds (Pure.pure value) := fun world held => ⟨value, world, rfl, held⟩

theorem bind {action : Act α} {next : α → Act β} (first : Thrives holds action)
    (rest : ∀ value, Thrives holds (next value)) :
    Thrives holds (action >>= next) := by
  intro world held
  obtain ⟨value, middle, ran, still⟩ := first world held
  obtain ⟨result, after, later, last⟩ := rest value middle still
  exact ⟨result, after, (runIn_bind_of_ok ran).trans later, last⟩

end Thrives

theorem runIn_perform (change : Disk.Change) (world : World) :
    runIn (perform change) world =
      match world.disk.apply change with
      | .ok disk => (.ok (), { world with disk, journal := world.journal ++ [change] })
      | .error fault => (.error (.disk fault), world) := by
  simp only [perform, runIn_bind, runIn_get, runIn_ofDisk]
  rcases world.disk.apply change with fault | disk <;> rfl

theorem runIn_change (change : Disk.Change) (world : World) :
    runIn (Act.change change) world =
      if world.trouble world.tried then (.error .interrupted, { world with tried := world.tried + 1 })
      else runIn (perform change) { world with tried := world.tried + 1 } := by
  simp only [Act.change, runIn_bind, runIn_get, runIn_set]
  split <;> simp

private theorem perform_ok {change : Disk.Change} {world after : World}
    (ends : runIn (perform change) world = (.ok (), after)) :
    world.disk.apply change = .ok after.disk := by
  rw [runIn_perform] at ends
  split at ends
  · obtain ⟨_, rfl⟩ := Prod.mk.inj ends
    assumption
  · simp at ends

/-- A change is made to the whole disk at once. -/
theorem change_ok {change : Disk.Change} {world after : World}
    (ends : runIn (Act.change change) world = (.ok (), after)) :
    world.disk.apply change = .ok after.disk := by
  rw [runIn_change] at ends
  split at ends
  · simp at ends
  · have applied := perform_ok ends
    exact applied

private theorem perform_error {change : Disk.Change} {world after : World} {failure : Failure}
    (ends : runIn (perform change) world = (.error failure, after)) : after.disk = world.disk := by
  rw [runIn_perform] at ends
  split at ends
  · simp at ends
  · obtain ⟨_, rfl⟩ := Prod.mk.inj ends
    rfl

theorem change_error {change : Disk.Change} {world after : World} {failure : Failure}
    (ends : runIn (Act.change change) world = (.error failure, after)) : after.disk = world.disk := by
  rw [runIn_change] at ends
  split at ends
  · obtain ⟨_, rfl⟩ := Prod.mk.inj ends
    rfl
  · have kept := perform_error ends
    exact kept

/-- An action that looks at the disk and makes single changes to it. It only fails for reasons that a run is not
prepared for, and it asks nobody. -/
inductive Stepwise : {α : Type} → Act α → Prop where
  | pure {α : Type} (value : α) : Stepwise (Pure.pure value)
  | throw {α : Type} {failure : Failure} (unreported : failure.report? = none) : Stepwise (throw failure : Act α)
  | disk : Stepwise disk
  | perform (change : Disk.Change) : Stepwise (perform change)
  | change (change : Disk.Change) : Stepwise (Act.change change)
  | bind {α β : Type} {action : Act α} {next : α → Act β} (first : Stepwise action) (rest : ∀ value,
      Stepwise (next value)) :
    Stepwise (action >>= next)
  | tryCatch {α : Type} {action : Act α} {handler : Failure → Act α} (first : Stepwise action)
    (rest : ∀ failure, failure.report? = none → Stepwise (handler failure)) : Stepwise (tryCatch action handler)

/-- What single steps come to, however they end. -/
structure Stepped (before : World) (result : Except Failure α) (after : World) : Prop where
  onward : Onward before after
  requests : after.requests = before.requests
  unreported : ∀ failure, result = .error failure → failure.report? = none

private theorem stepped_perform (change : Disk.Change) (world : World) :
    Stepped world (runIn (perform change) world).1 (runIn (perform change) world).2 := by
  rw [runIn_perform]
  split
  · rename_i applied
    exact ⟨⟨fun rooted => Disk.Rooted.apply rooted applied, rfl, rfl⟩, rfl, by simp⟩
  · refine ⟨(Untouched.refl world).onward, rfl, fun failure same => ?_⟩
    obtain rfl := Except.error.inj same
    rfl

theorem Stepwise.stepped {action : Act α} (stepwise : Stepwise action) (world : World) :
    Stepped world (runIn action world).1 (runIn action world).2 := by
  induction stepwise generalizing world with
  | pure value => exact ⟨(Untouched.refl world).onward, rfl, by simp⟩
  | throw unreported =>
    refine ⟨(Untouched.refl world).onward, rfl, fun failure same => ?_⟩
    obtain rfl := Except.error.inj same
    exact unreported
  | disk => exact ⟨(Untouched.refl world).onward, rfl, by simp⟩
  | perform change => exact stepped_perform change world
  | change change =>
    rw [runIn_change]
    split
    · refine ⟨⟨id, rfl, rfl⟩, rfl, fun failure same => ?_⟩
      obtain rfl := Except.error.inj same
      rfl
    · obtain ⟨onward, requests, unreported⟩ := stepped_perform change { world with tried := world.tried + 1 }
      exact ⟨⟨onward.rooted, onward.response, onward.trouble⟩, requests, unreported⟩
  | @bind _ _ action next first rest ihFirst ihRest =>
    have early := ihFirst world
    rw [runIn_bind]
    rcases ran : runIn action world with ⟨failure | value, middle⟩
    · rw [ran] at early
      exact ⟨early.onward, early.requests, fun other same => early.unreported other (by simpa using same)⟩
    · rw [ran] at early
      have late := ihRest value middle
      exact ⟨early.onward.trans late.onward, late.requests.trans early.requests, late.unreported⟩
  | @tryCatch _ action handler first rest ihFirst ihRest =>
    have early := ihFirst world
    rw [runIn_tryCatch]
    rcases ran : runIn action world with ⟨failure | value, middle⟩
    · rw [ran] at early
      have late := ihRest failure (early.unreported failure rfl) middle
      exact ⟨early.onward.trans late.onward, late.requests.trans early.requests, late.unreported⟩
    · rwa [ran] at early

theorem Stepwise.advances {action : Act α} (stepwise : Stepwise action) : Advances action :=
  fun world => (stepwise.stepped world).onward

end Act

end TableModels
