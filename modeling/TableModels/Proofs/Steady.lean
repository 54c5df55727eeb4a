import TableModels.Proofs.Answers

/-! A run settles the cache: the digests it leaves are those of the tables in scope, and the next run with the
same tables finds nothing to do. -/

namespace TableModels.Run

open Act World Schema

variable {settings : Settings} {world after : World}

/-- The digests that a run would load are those of the tables in scope. -/
def Settled (settings : Settings) (scope : Snapshot) (world : World) : Prop :=
  ∃ digests, (runIn (cacheOf settings).loadDigests world).1 = .ok digests ∧ (Keyed.names digests).Nodup ∧
    ∀ name, Keyed.get? digests name = (scope.get? name).map Table.digest

/-- The digests in their file are those of the tables in scope, whether or not the run may read them. -/
def Filed (settings : Settings) (scope : Snapshot) (disk : Disk) : Prop :=
  ∃ digests, (cacheOf settings).digestsIn disk = .ok digests ∧ (Keyed.names digests).Nodup ∧
    ∀ name, Keyed.get? digests name = (scope.get? name).map Table.digest

theorem isClosed_of_completed {plan : Plan} {outcome : Outcome}
    (completed : Completed settings plan world outcome after) :
    ∀ path ∈ (cacheOf settings).paths, after.disk.isClosed path = world.disk.isClosed path := by
  cases completed with
  | unchanged _ _ untouched => exact fun path _ => by rw [untouched.disk]
  | changed _ _ _ _ executed => exact executed.closed

theorem digestsPath_mem_paths (cache : Cache) : cache.digestsPath ∈ cache.paths := by simp [Cache.paths]

private theorem filed_of_completed {force : Bool} {plan : Plan} {outcome : Outcome} (rooted : world.disk.Rooted)
    (fetched : plan.source.origin ≠ .fallback) (planned : Planned settings force world plan)
    (completed : Completed settings plan world outcome after) (changes : outcome.hasChanges = true) :
    Filed settings (plan.scope settings) after.disk := by
  obtain ⟨digests, loaded, diff⟩ := planned.compared fetched
  have found : (cacheOf settings).digestsOn world.disk = .ok digests :=
    Cache.loadDigests_ok rooted (Prod.ext loaded rfl)
  cases completed with
  | unchanged _ said _ =>
    rw [said] at changes
    cases changes
  | changed files some rendered said executed =>
    obtain ⟨known, kept, before, stored, same⟩ := executed.digests
    obtain rfl : known = digests := Except.ok.inj (before.symm.trans found)
    refine ⟨kept, stored, Cache.digestsIn_nodup stored, fun name => ?_⟩
    rw [same, diff]
    exact recorded_adjusted fetched name

theorem loads_of_closed (rooted : world.disk.Rooted)
    (closed : world.disk.isClosed (cacheOf settings).digestsPath = true) :
    (runIn (cacheOf settings).loadDigests world).1 = .ok [] := by
  rw [Cache.runIn_loadDigests, Cache.readData_of_closed rooted closed]
  rfl

theorem settled_of_completed {force : Bool} {plan : Plan} {outcome : Outcome} (rooted : world.disk.Rooted)
    (rootedAfter : after.disk.Rooted) (opened : world.disk.isClosed (cacheOf settings).digestsPath = false)
    (fetched : plan.source.origin ≠ .fallback) (planned : Planned settings force world plan)
    (completed : Completed settings plan world outcome after) : Settled settings (plan.scope settings) after := by
  have closed := isClosed_of_completed completed _ (digestsPath_mem_paths _)
  have filed := filed_of_completed rooted fetched planned completed
  obtain ⟨digests, loaded, diff⟩ := planned.compared fetched
  have found : (cacheOf settings).digestsOn world.disk = .ok digests :=
    Cache.loadDigests_ok rooted (Prod.ext loaded rfl)
  cases completed with
  | unchanged same said untouched =>
    obtain ⟨none, nothing⟩ := hasChanges_eq_false.mp same
    refine ⟨digests, ((Cache.observes_loadDigests _).again untouched).trans loaded, Cache.digestsOn_nodup found,
      fun name => ?_⟩
    rw [← recorded_adjusted fetched, ← diff, recorded, without, none, nothing, if_neg List.not_mem_nil]
    rfl
  | changed files some rendered said executed =>
    have changes : outcome.hasChanges = true := by
      rw [said]
      simpa [Outcome.hasChanges, Cache.Diff.hasChanges] using some
    obtain ⟨kept, stored, distinct, each⟩ := filed changes
    have loads : (runIn (cacheOf settings).loadDigests after).1 = .ok kept := by
      rw [Cache.loadDigests_of_file rootedAfter executed.present, Cache.digestsOn_of_open (closed.trans opened), stored]
    exact ⟨kept, loads, distinct, each⟩

/-- Whether the cache is settled shows on the disk, and it goes for every schema that declares the same. -/
theorem Settled.congr {snapshot other : Snapshot} (settled : Settled settings (inScope settings snapshot) world)
    (same : after.disk = world.disk) (declared : other.declared = snapshot.declared) :
    Settled settings (inScope settings other) after := by
  obtain ⟨digests, loaded, distinct, each⟩ := settled
  refine ⟨digests, (Cache.loadDigests_congr same).trans loaded, distinct, fun name => ?_⟩
  rw [each, digest_inScope, digest_inScope, declared]

private theorem between_settled {scope : Snapshot} {digests : Cache.Digests}
    (each : ∀ name, Keyed.get? digests name = (scope.get? name).map Table.digest) :
    (Cache.Diff.between digests scope.tables).hasChanges = false := by
  rw [hasChanges_eq_false]
  constructor
  · refine List.filter_eq_nil_iff.mpr fun table member => ?_
    simp [each, Snapshot.get?_of_mem member]
  · refine List.eq_nil_iff_forall_not_mem.mpr fun name member => ?_
    have gone : name ∈ Keyed.names digests ∧ name ∉ scope.names := by
      simpa [Cache.Diff.between, Snapshot.names] using member
    have unknown := Snapshot.get?_eq_none.mpr gone.2
    have known := Keyed.mem_names.mp gone.1
    simp [each, unknown] at known

/-- A run that has nothing to do leaves everything as it is. -/
theorem sync_yields_of_settled {source : Source} (usable : settings.problems settings.requiresCredentials = [])
    (fetched : source.origin ≠ .fallback)
    (found : (runIn (Run.source settings (cacheOf settings)) world).1 = .ok source)
    (settled : Settled settings (inScope settings source.snapshot) world) :
    Yields (sync settings false) world { origin := source.origin } := by
  obtain ⟨digests, loaded, _, each⟩ := settled
  have nothing : (adjusted false source.origin (inScope settings source.snapshot)
      (.between digests (inScope settings source.snapshot).tables)).hasChanges = false := by
    unfold adjusted
    rw [if_neg (by simpa using fetched)]
    exact between_settled each
  obtain ⟨middle, untouched, same⟩ := runIn_sync false usable fetched found loaded
  have rests :
      Yields (complete settings (cacheOf settings) ⟨source,
        adjusted false source.origin (inScope settings source.snapshot)
      (.between digests (inScope settings source.snapshot).tables)⟩) middle { origin := source.origin } := by
    simp only [complete, nothing, Bool.not_false, if_true]
    exact (Yields.note _ _).bind fun _ _ => .pure _ _
  obtain ⟨after, ran, later⟩ := rests
  exact ⟨after, same.trans ran, untouched.trans later⟩

end TableModels.Run
