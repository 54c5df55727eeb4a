import TableModels.Proofs.UnsetValues

/-! Settings with two names. A value counts under either of them, but variables are put in place under the first name
of the schema only, so a schema that refers to variables is another one under its second name. -/

namespace TableModels.Settings

variable {raw : Fields} {scope : Variables} {key other name : String} {value : Value} {settings : Settings}

/-- The settings that are read from fields, each from the fields with its own names. -/
structure Reads (raw : Fields) (settings : Settings) : Prop where
  url : setting raw ["url"] none readOptionalText = .ok settings.url
  secretKey : setting raw ["secret_key"] none readOptionalText = .ok settings.secretKey
  output : setting raw ["output"] "models" readFilledText = .ok settings.output
  schema : setting raw ["schema", "db_schema"] "public" readFilledText = .ok settings.schema
  included : setting raw ["include"] none readTableList = .ok settings.included
  excluded : setting raw ["exclude"] none readTableList = .ok settings.excluded
  fetch : setting raw ["fetch"] .always (fun _ value => .ok (FetchMode.ofValue value)) = .ok settings.fetch
  manifest : setting raw ["generate_manifest", "generate_barrel"] false readFlag = .ok settings.manifest
  embedRelations : setting raw ["embed_relations"] false readFlag = .ok settings.embedRelations
  overrides : setting raw ["relations"] [] readOverrides = .ok settings.overrides
  cacheDir : setting raw ["cache_dir"] ".supadantic" readFilledText = .ok settings.cacheDir
  singular : setting raw ["singular_class_names"] false readFlag = .ok settings.singular

private theorem ofFields_ok : ofFields raw = .ok settings ↔ Reads raw settings := by
  constructor
  · intro ended
    rw [ofFields] at ended
    split at ended
    · obtain rfl := Except.ok.inj ended
      constructor <;> assumption
    · cases ended
  · intro reads
    simp only [ofFields, reads.url, reads.secretKey, reads.output, reads.schema, reads.included, reads.excluded,
      reads.fetch, reads.manifest, reads.embedRelations, reads.overrides, reads.cacheDir, reads.singular]

def aliases : List (String × String) := [("schema", "db_schema"), ("generate_manifest", "generate_barrel")]

def aliased : List String := aliases.flatMap fun (name, other) => [name, other]

private theorem readFilledText_ok {path : List String} {text : String} :
    readFilledText path value = .ok text ↔ value = .text text ∧ text ≠ "" := by
  cases value with
  | text own =>
    simp only [readFilledText, beq_iff_eq]
    split
    next empty =>
      simp only [issueAt, reduceCtorEq, false_iff, not_and, not_not, Value.text.injEq]
      rintro rfl
      exact empty
    next filled =>
      simp only [Except.ok.injEq, Value.text.injEq]
      constructor
      · rintro rfl
        exact ⟨rfl, filled⟩
      · exact And.left
  | _ => simp [readFilledText, issueAt]

private theorem readWholeFlag_ok {path : List String} {whole : Int} {flag : Bool}
    (found : readWholeFlag path whole = .ok flag)
    (elsewhere : List String) : readWholeFlag elsewhere whole = .ok flag := by
  rw [readWholeFlag] at found ⊢
  split at found
  next zero => rwa [if_pos zero]
  next more =>
    rw [if_neg more]
    split at found
    next one => rwa [if_pos one]
    next => cases found

private theorem readFlag_ok {path : List String} {flag : Bool} (found : readFlag path value = .ok flag)
    (elsewhere : List String) :
    readFlag elsewhere value = .ok flag := by
  cases value with
  | bool _ => exact found
  | int _ => exact readWholeFlag_ok found elsewhere
  | float value =>
    rw [readFlag] at found ⊢
    split at found
    next whole => exact readWholeFlag_ok found elsewhere
    next => cases found
  | text value =>
    simp only [readFlag] at found ⊢
    split at found
    next yes => rwa [if_pos yes]
    next unclear =>
      rw [if_neg unclear]
      split at found
      next no => rwa [if_pos no]
      next => cases found
  | _ => cases found

private theorem exists_of_expanded_text {text : String} (same : expanded scope value = .text text) :
    ∃ given, value = .text given ∧ scope.expand? given = some text := by
  cases value with
  | text given =>
    refine ⟨given, rfl, ?_⟩
    rw [expanded] at same
    cases left : scope.expand? given with
    | none => simp [left] at same
    | some expansion => simpa [left] using same
  | _ => cases same

def moved (raw : Fields) (key other : String) : Fields :=
  match Keyed.get? raw key with
  | some value => Keyed.set (Keyed.erase raw key) other value
  | none => raw

private theorem get?_moved (given : Keyed.get? raw key = some value) (name : String) :
    Keyed.get? (moved raw key other) name =
      if name = other then some value else if name = key then none else Keyed.get? raw name := by
  rw [moved, given, Keyed.get?_set, Keyed.get?_erase]

private theorem completed_aliased (scope : Variables) (given : Option Value) (listed : name ∈ aliased) :
    completed scope name given = if name = "schema" then given.map (expanded scope) else given := by
  have each : ∀ name ∈ aliased, name ∉ nullable ∧ (name ∈ expandedKeys ↔ name = "schema") := by decide
  obtain ⟨apart, expands⟩ := each name listed
  rw [completed, substitute?_eq_none apart]
  simp only [expands]

private theorem paired_names :
    ∀ pair ∈ aliases, pair.1 ∈ aliased ∧ pair.2 ∈ aliased ∧ pair.1 ≠ pair.2 ∧ pair.2 ≠ "schema" := by decide

section

variable (given : Keyed.get? raw key = some value)

include given

private theorem get?_resolved_moved (apart : name ∉ [key, other]) :
    Keyed.get? (resolved scope (moved raw key other)) name = Keyed.get? (resolved scope raw) name := by
  simp only [List.mem_cons, List.not_mem_nil, or_false, not_or] at apart
  rw [get?_resolved, get?_resolved, get?_moved given, if_neg apart.2, if_neg apart.1]

variable {α : Type} {fallback : α} {reader : List String → Value → Checked α}

private theorem setting_beside {keys : List String} (apart : ∀ name ∈ keys, name ∉ [key, other]) :
    setting (resolved scope (moved raw key other)) keys fallback reader =
      setting (resolved scope raw) keys fallback reader := by
  apply setting_congr
  intro name member
  exact get?_resolved_moved given (apart name member)

variable (paired : (key, other) ∈ aliases)

include paired

private theorem setting_unmoved : setting (resolved scope raw) [key, other] fallback reader =
    reader [key] (if key = "schema" then expanded scope value else value) := by
  obtain ⟨listed, _⟩ := paired_names _ paired
  apply setting_of_get?
  rw [get?_resolved, completed_aliased scope _ listed, given]
  split <;> rfl

private theorem setting_moved :
    setting (resolved scope (moved raw key other)) [key, other] fallback reader = reader [other] value := by
  obtain ⟨listed, second, differ, plain⟩ := paired_names _ paired
  have missing : Keyed.get? (resolved scope (moved raw key other)) key = none := by
    rw [get?_resolved, completed_aliased scope _ listed, get?_moved given, if_neg differ, if_pos rfl]
    split <;> rfl
  have there : Keyed.get? (resolved scope (moved raw key other)) other = some value := by
    rw [get?_resolved, completed_aliased scope _ second, get?_moved given, if_neg plain, if_pos rfl]
  simp [setting, find?, missing, there]

private theorem reads_moved (reads : Reads (resolved scope raw) settings) {schema : String} {manifest : Bool}
    (named : setting (resolved scope (moved raw key other)) ["schema", "db_schema"] "public" readFilledText =
      .ok schema)
    (flagged : setting (resolved scope (moved raw key other)) ["generate_manifest",
      "generate_barrel"] false readFlag = .ok manifest) :
    Reads (resolved scope (moved raw key other)) { settings with schema, manifest } := by
  obtain ⟨listed, second, _⟩ := paired_names _ paired
  have kept : ∀ {α : Type} {keys : List String} {fallback : α} {reader : List String → Value → Checked α},
      (∀ name ∈ keys, name ∉ aliased) →
      setting (resolved scope (moved raw key other)) keys fallback reader =
          setting (resolved scope raw) keys fallback reader := by
    intro α keys fallback reader apart
    apply setting_beside given
    intro name member pair
    apply apart name member
    rcases List.mem_pair.mp pair with rfl | rfl
    · exact listed
    · exact second
  exact {
    url := (kept (by decide)).trans reads.url
    secretKey := (kept (by decide)).trans reads.secretKey
    output := (kept (by decide)).trans reads.output
    schema := named
    included := (kept (by decide)).trans reads.included
    excluded := (kept (by decide)).trans reads.excluded
    fetch := (kept (by decide)).trans reads.fetch
    manifest := flagged
    embedRelations := (kept (by decide)).trans reads.embedRelations
    overrides := (kept (by decide)).trans reads.overrides
    cacheDir := (kept (by decide)).trans reads.cacheDir
    singular := (kept (by decide)).trans reads.singular }

end

private theorem read_moved_schema (given : Keyed.get? raw "schema" = some value)
    (accepted : read scope raw = .ok settings) :
    ∃ text, value = .text text ∧ scope.expand? text = some settings.schema ∧
      read scope (moved raw "schema" "db_schema") = .ok { settings with schema := text } := by
  have reads := ofFields_ok.mp accepted
  have paired : ("schema", "db_schema") ∈ aliases := by decide
  have named := reads.schema
  rw [setting_unmoved given paired, if_pos rfl] at named
  obtain ⟨text, rfl, expands⟩ := exists_of_expanded_text (readFilledText_ok.mp named).1
  have filled : text ≠ "" := by
    rintro rfl
    cases expands
  refine ⟨text, rfl, expands, ofFields_ok.mpr (reads_moved given paired reads ?_ ?_)⟩
  · rw [setting_moved given paired]
    exact readFilledText_ok.mpr ⟨rfl, filled⟩
  · rw [setting_beside given (by decide)]
    exact reads.manifest

private theorem read_moved_manifest (given : Keyed.get? raw "generate_manifest" = some value)
    (accepted : read scope raw = .ok settings) :
    read scope (moved raw "generate_manifest" "generate_barrel") = .ok settings := by
  have reads := ofFields_ok.mp accepted
  have paired : ("generate_manifest", "generate_barrel") ∈ aliases := by decide
  have flagged := reads.manifest
  rw [setting_unmoved given paired, if_neg (by decide)] at flagged
  apply ofFields_ok.mpr
  apply reads_moved given paired reads
  · rw [setting_beside given (by decide)]
    exact reads.schema
  · rw [setting_moved given paired]
    exact readFlag_ok flagged _

/-- Moving a value from the first name of a setting to its second changes no settings, unless it is a schema that is
not itself once its variables are in place. A schema that is moved is taken with its references as they are
written. -/
theorem read_moved_iff (paired : (key, other) ∈ aliases) (given : Keyed.get? raw key = some value)
    (accepted : read scope raw = .ok settings) :
    (read scope (moved raw key other) = .ok settings ↔ (key = "schema" → expanded scope value = value)) ∧
      (key = "schema" → ∃ text, value = .text text ∧ read scope (moved raw key other) =
        .ok { settings with schema := text }) := by
  simp only [aliases, List.mem_cons, List.not_mem_nil, or_false, Prod.mk.injEq] at paired
  rcases paired with ⟨rfl, rfl⟩ | ⟨rfl, rfl⟩
  · obtain ⟨text, rfl, expands, ended⟩ := read_moved_schema given accepted
    refine ⟨?_, fun _ => ⟨text, rfl, ended⟩⟩
    have own : expanded scope (.text text) = .text settings.schema := by rw [expanded, expands]; rfl
    rw [ended, own]
    constructor
    · intro same _
      have schema := congrArg Settings.schema (Except.ok.inj same)
      exact congrArg Value.text schema.symm
    · intro same
      obtain rfl := Value.text.inj (same rfl)
      rfl
  · have differ : "generate_manifest" ≠ "schema" := by decide
    exact ⟨iff_of_true (read_moved_manifest given accepted) fun same => absurd same differ,
      fun same => absurd same differ⟩

def tenantSettings : Fields := [("schema", .text "$\x7bTENANT\x7d"), ("generate_manifest", .text "yes")]

def tenants : Variables := { environment := [("TENANT", "acme")] }

/-- The schema is that of the tenant under its first name, and under its second it is the reference to the tenant. -/
theorem tenant_schema_not_moved : read tenants tenantSettings = .ok { schema := "acme", manifest := true } ∧
    read tenants (moved tenantSettings "schema" "db_schema") = .ok { schema := "$\x7bTENANT\x7d", manifest := true } ∧
    read tenants (moved tenantSettings "generate_manifest" "generate_barrel") =
      .ok { schema := "acme", manifest := true } := by
  have accepted : read tenants tenantSettings = .ok { schema := "acme", manifest := true } := rfl
  obtain ⟨_, written⟩ := read_moved_iff (by decide : ("schema", "db_schema") ∈ aliases) rfl accepted
  obtain ⟨text, same, ended⟩ := written rfl
  cases same
  obtain ⟨alike, _⟩ := read_moved_iff (by decide : ("generate_manifest", "generate_barrel") ∈ aliases) rfl accepted
  exact ⟨accepted, ended, alike.mpr fun schema => absurd schema (by decide)⟩

end TableModels.Settings
