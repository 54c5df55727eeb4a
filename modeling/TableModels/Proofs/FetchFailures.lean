import TableModels.Proofs.Documents
import TableModels.Proofs.Fallback

/-! How a fetch fails. An answer without a document is a failed fetch, and a run that always fetches then takes the
stored schema. A document of the wrong shape is no failed fetch: it stops the run, whatever is stored. -/

namespace TableModels

namespace Document

variable {document : Fields}

/-- The answer holds a document: it is a success, and its body is JSON of an object. -/
def Response.Holds (room : Nat) (response : Response) (document : Fields) : Prop :=
  ∃ body, response = .answer 200 body ∧ Json.read room body = .ok (.object document)

/-- The answer is a success, but in its body lists and objects stand too deep in each other to be read. -/
def Response.TooDeep (room : Nat) (response : Response) (nest : Json.Nest) : Prop :=
  ∃ body, response = .answer 200 body ∧ Json.read room body = .error (.tooDeep nest)

private theorem holds_answer {room : Nat} {status : Int} {body : String} :
    (Response.answer status body).Holds room document ↔
      status = 200 ∧ Json.read room body = .ok (.object document) := by
  simp [Response.Holds, and_assoc]

private theorem tooDeep_answer {room : Nat} {status : Int} {body : String} {nest : Json.Nest} :
    (Response.answer status body).TooDeep room nest ↔ status = 200 ∧ Json.read room body = .error (.tooDeep nest) := by
  simp [Response.TooDeep, and_assoc]

private theorem document_cases (server : Server) (response : Response) :
    (∃ document, response.Holds server.room document ∧ server.document response = .ok (.object document)) ∨
      (∃ nest, response.TooDeep server.room nest ∧ server.document response = .error (.tooDeep nest)) ∨
      (∀ document, ¬ response.Holds server.room document) ∧ (∀ nest, ¬ response.TooDeep server.room nest) ∧
        ∃ fault, server.document response = .error (.fetch fault) := by
  cases response with
  | unreachable reason => exact .inr (.inr ⟨by simp [Response.Holds], by simp [Response.TooDeep], _, rfl⟩)
  | answer status body =>
    simp only [holds_answer, tooDeep_answer]
    by_cases success : status = 200
    · subst success
      cases read : Json.read server.room body with
      | error fault => cases fault <;> simp [Server.document, read]
      | ok value => cases value <;> simp [Server.document, read]
    · exact .inr (.inr ⟨by simp [success], by simp [success], .refused status body,
        by simp [Server.document, success]⟩)

theorem Response.Holds.unique {room : Nat} {response : Response} {other : Fields} (holds : response.Holds room document)
    (again : response.Holds room other) : document = other := by
  obtain ⟨body, rfl, read⟩ := holds
  obtain ⟨_, same, reread⟩ := again
  obtain ⟨_, rfl⟩ := Response.answer.inj same
  simpa [read] using reread

private theorem Response.Holds.not_tooDeep {room : Nat} {response : Response} (holds : response.Holds room document)
    (nest : Json.Nest) :
    ¬ response.TooDeep room nest := by
  obtain ⟨body, rfl, read⟩ := holds
  rintro ⟨_, ⟨⟩, deep⟩
  simp [read] at deep

private theorem contents_of_holds (server : Server) {response : Response}
    (holds : response.Holds server.room document) :
    server.contents response = (read (.object document)).mapError .document := by
  rcases document_cases server response with ⟨other, again, found⟩ | ⟨nest, deep, _⟩ | ⟨none, _⟩
  · obtain rfl := holds.unique again
    rw [Server.contents, found]
    rfl
  · exact absurd deep (holds.not_tooDeep nest)
  · exact absurd holds (none document)

private theorem contents_of_tooDeep (server : Server) {response : Response} {nest : Json.Nest}
    (deep : response.TooDeep server.room nest) :
    server.contents response = .error (.tooDeep nest) := by
  obtain ⟨body, rfl, read⟩ := deep
  simp only [Server.contents, Server.document, read]
  rfl

private theorem contents_of_none (server : Server) {response : Response}
    (none : ∀ document, ¬ response.Holds server.room document)
    (flat : ∀ nest, ¬ response.TooDeep server.room nest) :
    ∃ fault, server.contents response = .error (.fetch fault) := by
  rcases document_cases server response with ⟨document, holds, _⟩ | ⟨nest, deep, _⟩ | ⟨_, _, fault, found⟩
  · exact absurd holds (none document)
  · exact absurd deep (flat nest)
  · exact ⟨fault, by rw [Server.contents, found]; rfl⟩

theorem Response.Holds.distinct {room : Nat} {response : Response} (holds : response.Holds room document) :
    Json.Distinct (.object document) := by
  obtain ⟨_, _, read⟩ := holds
  exact Json.read_distinct read

private theorem contents_by_shape (server : Server) {response : Response}
    (holds : response.Holds server.room document) :
    (Shape document → ∃ contents, server.contents response = .ok contents) ∧
      (¬ Shape document → ∃ fault, server.contents response = .error (.document fault)) := by
  rw [contents_of_holds server holds]
  have shape := read_ok_iff holds.distinct
  cases found : read (.object document) with
  | error fault => exact ⟨fun formed => absurd (shape.mpr formed) (by simp [found]), fun _ => ⟨fault, rfl⟩⟩
  | ok contents => exact ⟨fun _ => ⟨contents, rfl⟩, fun unformed => absurd (shape.mp ⟨contents, found⟩) unformed⟩

private theorem contents_cases (server : Server) (response : Response) :
    (∃ document contents, response.Holds server.room document ∧ Shape document ∧
      server.contents response = .ok contents) ∨
    (∃ document fault, response.Holds server.room document ∧ ¬ Shape document ∧
      server.contents response = .error (.document fault)) ∨
    (∃ nest, response.TooDeep server.room nest ∧ server.contents response = .error (.tooDeep nest)) ∨
    (∀ document, ¬ response.Holds server.room document) ∧ (∀ nest, ¬ response.TooDeep server.room nest) ∧
      ∃ fault, server.contents response = .error (.fetch fault) := by
  rcases document_cases server response with ⟨document, holds, _⟩ | ⟨nest, deep, _⟩ | ⟨none, flat, _⟩
  · by_cases shape : Shape document
    · obtain ⟨contents, ends⟩ := (contents_by_shape server holds).1 shape
      exact .inl ⟨document, contents, holds, shape, ends⟩
    · obtain ⟨fault, trips⟩ := (contents_by_shape server holds).2 shape
      exact .inr (.inl ⟨document, fault, holds, shape, trips⟩)
  · exact .inr (.inr (.inl ⟨nest, deep, contents_of_tooDeep server deep⟩))
  · exact .inr (.inr (.inr ⟨none, flat, contents_of_none server none flat⟩))

/-- What a fetch comes to, according to what the answer holds: it gives contents, fails as a fetch, trips over the
document or finds it nested too deep. -/
structure Outcomes (server : Server) (response : Response) : Prop where
  contents : (∃ contents, server.contents response = .ok contents) ↔
    ∃ document, response.Holds server.room document ∧ Shape document
  fails : (∃ fault, server.contents response = .error (.fetch fault)) ↔
    (∀ document, ¬ response.Holds server.room document) ∧ ∀ nest, ¬ response.TooDeep server.room nest
  trips : (∃ fault, server.contents response = .error (.document fault)) ↔
    ∃ document, response.Holds server.room document ∧ ¬ Shape document
  tooDeep : ∀ nest, server.contents response = .error (.tooDeep nest) ↔ response.TooDeep server.room nest

private theorem outcomes (server : Server) (response : Response) : Outcomes server response where
  contents := by
    constructor
    · rintro ⟨contents, ends⟩
      rcases contents_cases server response with
        ⟨document, _, holds, shape, _⟩ | ⟨_, _, _, _, trips⟩ | ⟨_, _, deep⟩ | ⟨_, _, _, fails⟩
      · exact ⟨document, holds, shape⟩
      · cases ends.symm.trans trips
      · cases ends.symm.trans deep
      · cases ends.symm.trans fails
    · rintro ⟨document, holds, shape⟩
      exact (contents_by_shape server holds).1 shape
  fails := by
    constructor
    · rintro ⟨fault, fails⟩
      rcases contents_cases server response with
        ⟨_, _, _, _, ends⟩ | ⟨_, _, _, _, trips⟩ | ⟨_, _, deep⟩ | ⟨none, flat, _⟩
      · cases fails.symm.trans ends
      · cases fails.symm.trans trips
      · cases fails.symm.trans deep
      · exact ⟨none, flat⟩
    · rintro ⟨none, flat⟩
      exact contents_of_none server none flat
  trips := by
    constructor
    · rintro ⟨fault, trips⟩
      rcases contents_cases server response with
        ⟨_, _, _, _, ends⟩ | ⟨document, _, holds, wrong, _⟩ | ⟨_, _, deep⟩ | ⟨_, _, _, fails⟩
      · cases trips.symm.trans ends
      · exact ⟨document, holds, wrong⟩
      · cases trips.symm.trans deep
      · cases trips.symm.trans fails
    · rintro ⟨document, holds, wrong⟩
      exact (contents_by_shape server holds).2 wrong
  tooDeep := by
    refine fun nest => ⟨fun overflows => ?_, contents_of_tooDeep server⟩
    rcases contents_cases server response with
      ⟨_, _, _, _, ends⟩ | ⟨_, _, _, _, trips⟩ | ⟨_, there, deep⟩ | ⟨_, _, _, fails⟩
    · cases overflows.symm.trans ends
    · cases overflows.symm.trans trips
    · cases overflows.symm.trans deep
      exact there
    · cases overflows.symm.trans fails

end Document

namespace Run

open Act World Schema

variable {settings : Settings} {world : World}

private theorem fromCache_result (cache : Cache) (snapshot : Snapshot) (origin : Origin)
    (line : Log.Line) (world : World) :
    (runIn (fromCache cache snapshot origin line) world).1 =
      (runIn cache.loadEnums world).1.map fun enums => ⟨snapshot, enums, origin⟩ := by
  obtain ⟨noted, note, untouched⟩ := Yields.note line world
  rw [fromCache, runIn_bind_of_ok note, ← (observes_loadEnums cache).again untouched, runIn_bind]
  rcases runIn cache.loadEnums noted with ⟨_ | _, _⟩ <;> rfl

private theorem source_falls_back (mode : settings.fetch = .always) {snapshot : Snapshot}
    (schema : (runIn (cacheOf settings).loadSnapshot world).1 = .ok (some snapshot)) {fault : Document.FetchFault}
    (fails : (serverOf settings).contents world.response = .error (.fetch fault)) :
    (runIn (source settings (cacheOf settings)) world).1 =
      (runIn (cacheOf settings).loadEnums world).1.map fun enums => ⟨snapshot, enums, .fallback⟩ := by
  obtain ⟨noted, note, first⟩ :=
    Yields.note (Log.progress s!"Fetching schema '{settings.schema}' from the Data API") world
  obtain ⟨sent, send, second⟩ := Yields.send (serverOf settings).request noted
  obtain ⟨told, tell, third⟩ := Yields.notes ((serverOf settings).notes noted.response) sent
  obtain ⟨warned, warn, fourth⟩ := Yields.note (Log.warning s!"Schema fetch failed: {fault.message}") told
  have early := ((first.trans second).trans third).trans fourth
  obtain ⟨loaded, load, fifth⟩ := (observes_loadSnapshot (cacheOf settings)).yields_again early schema
  simp only [source, mode, fetchSource]
  rw [runIn_bind_of_ok note, runIn_bind_of_ok send, runIn_bind_of_ok tell, first.response, fails]
  simp only [fallBackOn]
  rw [runIn_bind_of_ok warn, runIn_bind_of_ok load]
  simp only [fromCache_result, (observes_loadEnums (cacheOf settings)).again (early.trans fifth)]

private theorem source_trips (mode : settings.fetch = .always) {fault : Document.Fault}
    (fails : (serverOf settings).contents world.response = .error (.document fault)) :
    (runIn (source settings (cacheOf settings)) world).1 = .error (.document fault) := by
  simp only [source, mode, fetchSource, runIn_bind, runIn_note, runIn_send, runIn_notes, fails]
  rfl

private theorem source_overflows (mode : settings.fetch = .always) {nest : Json.Nest}
    (fails : (serverOf settings).contents world.response = .error (.tooDeep nest)) :
    (runIn (source settings (cacheOf settings)) world).1 = .error (.tooDeep nest) := by
  simp only [source, mode, fetchSource, runIn_bind, runIn_note, runIn_send, runIn_notes, fails]
  rfl

private theorem sync_without_source {failure : Failure}
    (stops : (runIn (source settings (cacheOf settings)) world).1 = .error failure)
    (force : Bool) : ∃ other after, runIn (sync settings force) world = (.error other, after) ∧ Untouched world after ∧
      (settings.problems settings.requiresCredentials = [] → other = failure) := by
  by_cases usable : settings.problems settings.requiresCredentials = []
  · obtain ⟨titled, title, first⟩ := Yields.notes (Log.heading "SCHEMA SYNC") world
    have checks : Yields (checkSettings settings) titled () :=
      (observes_checkSettings _).yields (by simp [checkSettings, usable])
    obtain ⟨checked, check, second⟩ := checks
    have early := first.trans second
    have again := ((observes_source settings (cacheOf settings)).again early).trans stops
    have late := (observes_source settings (cacheOf settings)).untouched checked
    rcases ran : runIn (source settings (cacheOf settings)) checked with ⟨result, after⟩
    rw [ran] at again late
    obtain rfl : result = .error failure := again
    refine ⟨failure, after, ?_, early.trans late, fun _ => rfl⟩
    rw [sync, runIn_bind_of_ok title, runIn_bind_of_ok check, plan, runIn_bind, runIn_bind, ran]
  · rcases ran : runIn (sync settings force) world with ⟨result, after⟩
    rcases sync_planned ran with ⟨other, rfl, untouched⟩ | ⟨plan, _, planned, _, _⟩
    · exact ⟨other, after, rfl, untouched, fun is => absurd is usable⟩
    · have found := planned.found
      rw [stops] at found
      cases found

/-- The run stops before it has changed anything. If its settings suffice then it stops with this failure. -/
def StopsWith (settings : Settings) (world : World) (failure : Failure) : Prop :=
  ∀ force, ∃ other after, runIn (sync settings force) world = (.error other, after) ∧ Untouched world after ∧
    (settings.problems settings.requiresCredentials = [] → other = failure)

/-- A fetch gives contents exactly if the answer holds a document of the right shape, and fails as a fetch exactly if
it holds no document and is not nested too deep. Then a run that always fetches takes the schema that is stored, if
the enumerated types next to it can be loaded. A document of the wrong shape is neither, and so is an answer that is
nested too deep: they stop such a run before anything has changed, though a schema is stored. -/
theorem fetch_falls_back_or_trips (server : Document.Server) (response : Document.Response)
    (settings : Settings) (world : World) :
    Document.Outcomes server response ∧
    ∀ snapshot, settings.fetch = .always → (runIn (cacheOf settings).loadSnapshot world).1 = .ok (some snapshot) →
      ((∀ document, ¬ world.response.Holds (serverOf settings).room document) →
        (∀ nest, ¬ world.response.TooDeep (serverOf settings).room nest) →
        (runIn (source settings (cacheOf settings)) world).1 =
          (runIn (cacheOf settings).loadEnums world).1.map fun enums => ⟨snapshot, enums, .fallback⟩) ∧
      (∀ document, world.response.Holds (serverOf settings).room document → ¬ Document.Shape document →
        ∃ fault, (runIn (source settings (cacheOf settings)) world).1 = .error (.document fault) ∧
          StopsWith settings world (.document fault)) ∧
      (∀ nest, world.response.TooDeep (serverOf settings).room nest →
        (runIn (source settings (cacheOf settings)) world).1 = .error (.tooDeep nest) ∧
          StopsWith settings world (.tooDeep nest)) := by
  refine ⟨Document.outcomes server response,
    fun snapshot mode schema => ⟨fun none flat => ?_, fun document holds wrong => ?_, fun nest deep => ?_⟩⟩
  · obtain ⟨fault, fails⟩ := Document.contents_of_none (serverOf settings) none flat
    exact source_falls_back mode schema fails
  · obtain ⟨fault, fails⟩ := (Document.contents_by_shape (serverOf settings) holds).2 wrong
    have trips := source_trips mode fails
    exact ⟨fault, trips, sync_without_source trips⟩
  · have overflows := source_overflows mode (Document.contents_of_tooDeep (serverOf settings) deep)
    exact ⟨overflows, sync_without_source overflows⟩

namespace Letters

def misshapen : Fields := [("definitions", .object [("users", .object [("properties", .list [.text "id"])])])]

def misshapenAnswer : Document.Response := .answer 200 (Json.indented (.object misshapen) ++ "\n")

private theorem holds_misshapen : misshapenAnswer.Holds Json.usualRoom misshapen := by
  have plain : ∀ room, Json.IsPlain (room + 5) (.object misshapen) := fun room => by
    simp [misshapen, Json.IsPlain, Json.HasPlain, Json.ArePlain, Keyed.names]
  have sorted : Json.sorted (.object misshapen) = .object misshapen := by
    simp [misshapen, Json.sorted, Json.sortedFields, Json.sortedItems, Json.inOrder]
  exact ⟨_, rfl, (Json.read_indented (plain 980)).trans (congrArg Except.ok sorted)⟩

private theorem misshapen_unformed : ¬ Document.Shape misshapen := by
  intro shape
  have users :=
    shape.tables [("users", .object [("properties", .list [.text "id"])])] (.inl rfl) "users" _ List.mem_cons_self
  obtain ⟨properties, given, _⟩ := users.properties rfl
  cases given

def deepAnswer : Document.Response := .answer 200 (String.ofList (List.replicate 986 '['))

private theorem deepAnswer_tooDeep : deepAnswer.TooDeep Json.usualRoom .list := by
  have deep := Json.read_deep (show Json.usualRoom < 986 by decide) []
  rw [List.append_nil] at deep
  exact ⟨_, rfl, deep⟩

end Letters

/-- The stored schema is taken when the server cannot be reached, and is of no use when its document is misshapen or
nested too deep. -/
theorem letters_trip : ∃ stored : World, ∃ enums, (runIn (source (Blog.options true) (cacheOf (Blog.options true)))
      { stored with response := .unreachable "timed out" }).1 =
        .ok ⟨Letters.schema.snapshot.declared, enums, .fallback⟩ ∧
    (∃ fault after, runIn (sync (Blog.options true) false) { stored with response := Letters.misshapenAnswer } =
      (.error (.document fault), after) ∧ after.disk = stored.disk) ∧
    ∃ after, runIn (sync (Blog.options true) false) { stored with response := Letters.deepAnswer } =
      (.error (.tooDeep .list), after) ∧ after.disk = stored.disk := by
  obtain ⟨_, stored, _, _, _, _, _, _, founded, _⟩ := Letters.founds
  have kept : ∀ response, (runIn (cacheOf (Blog.options true)).loadSnapshot { stored with response }).1 =
      .ok (some Letters.schema.snapshot.declared) := by
    intro response
    apply Cache.loadSnapshot_of_stored
    · exact founded.rooted
    · exact founded.opened.1
    · exact founded.schema
  have listed : (runIn (cacheOf (Blog.options true)).loadEnums { stored with response := .unreachable "timed out" }).1 =
      .ok (Json.inOrder Letters.schema.enums) := by
    apply Cache.loadEnums_of_stored
    · exact founded.rooted
    · exact founded.opened.2
    · exact founded.enums
  have runs := fun response => (fetch_falls_back_or_trips (serverOf (Blog.options true)) response (Blog.options true)
    { stored with response }).2 _ rfl (kept response)
  have falls := (runs (.unreachable "timed out")).1
  have trips := (runs Letters.misshapenAnswer).2.1 _ Letters.holds_misshapen Letters.misshapen_unformed
  have overflows := (runs Letters.deepAnswer).2.2 .list Letters.deepAnswer_tooDeep
  obtain ⟨fault, _, stops⟩ := trips
  obtain ⟨failure, after, ran, untouched, usable⟩ := stops false
  obtain rfl := usable (Blog.usable true)
  obtain ⟨other, last, ended, same, tooDeep⟩ := overflows.2 false
  obtain rfl := tooDeep (Blog.usable true)
  have unanswered : ∀ document, ¬ (Document.Response.unreachable "timed out").Holds Json.usualRoom document := by
    rintro document ⟨body, same, _⟩
    cases same
  have flat : ∀ nest, ¬ (Document.Response.unreachable "timed out").TooDeep Json.usualRoom nest := by
    rintro nest ⟨body, same, _⟩
    cases same
  have cached := falls unanswered flat
  rw [listed] at cached
  exact ⟨stored, _, cached, ⟨fault, after, ran, untouched.disk⟩, last, ended, same.disk⟩

end Run

end TableModels
