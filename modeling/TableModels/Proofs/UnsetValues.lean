import Mathlib.Data.List.Basic
import TableModels.Proofs.Keyed
import TableModels.Settings.Basic

/-! Settings of which nothing is left once the variables are in place. They become null, and null is not the same as a
setting that is missing: the readers of the output, the schema and the cache directory refuse it. -/

namespace TableModels.Settings

/-- All issues are about the value at the path or about a part of it. -/
def Within {α : Type} (path : List String) (result : Checked α) : Prop := ∀ issue ∈ issuesOf result, path <+: issue.path

private theorem within_ok {α : Type} (path : List String) (value : α) : Within path (.ok value) :=
  fun _ member => nomatch member

private theorem within_issueAt {α : Type} (path : List String) (kind : IssueKind) :
    Within path (issueAt path kind : Checked α) := by
  intro issue member
  obtain rfl := List.mem_singleton.mp member
  exact List.prefix_rfl

private theorem Within.of_part {α : Type} {path part : List String} {result : Checked α}
    (within : Within (path ++ part) result) :
    Within path result :=
  fun issue member => (List.prefix_append path part).trans (within issue member)

private theorem issuesOf_map {α β : Type} (f : α → β) (result : Checked α) :
    issuesOf (result.map f) = issuesOf result := by
  cases result <;> rfl

theorem Within.map {α β : Type} {path : List String} {result : Checked α} (within : Within path result) (f : α → β) :
    Within path (result.map f) := by
  intro issue member
  rw [issuesOf_map] at member
  exact within issue member

private theorem readOptionalText_within (path : List String) (value : Value) :
    Within path (readOptionalText path value) := by
  cases value with
  | null => exact within_ok path _
  | text _ => exact within_ok path _
  | _ => exact within_issueAt path .notText

private theorem readFilledText_within (path : List String) (value : Value) :
    Within path (readFilledText path value) := by
  cases value with
  | text value =>
    rw [readFilledText]
    split
    · exact within_issueAt path .emptyText
    · exact within_ok path _
  | _ => exact within_issueAt path .notText

private theorem readWholeFlag_within (path : List String) (value : Int) : Within path (readWholeFlag path value) := by
  rw [readWholeFlag]
  split
  · exact within_ok path _
  · split
    · exact within_ok path _
    · exact within_issueAt path .unreadableFlag

private theorem readFlag_within (path : List String) (value : Value) : Within path (readFlag path value) := by
  cases value with
  | bool _ => exact within_ok path _
  | int value => exact readWholeFlag_within path value
  | float value =>
    rw [readFlag]
    split
    · exact readWholeFlag_within path _
    · exact within_issueAt path .notFlag
  | text value =>
    rw [readFlag]
    split
    · exact within_ok path _
    · split
      · exact within_ok path _
      · exact within_issueAt path .unreadableFlag
  | _ => exact within_issueAt path .notFlag

private theorem readItems_within (path : List String) (index : Nat) (items : List Value) :
    Within path (readItems path index items) := by
  induction items generalizing index with
  | nil => exact within_ok path _
  | cons item rest ih =>
    rw [readItems]
    split
    · exact within_issueAt path (.blankItem index)
    · exact (ih (index + 1)).map _

private theorem readTableList_within (path : List String) (value : Value) : Within path (readTableList path value) := by
  cases value with
  | null => exact within_ok path _
  | list items => exact (readItems_within path 0 items).map _
  | _ => exact within_issueAt path .notTableList

private theorem textIn_within (path : List String) (fields : Fields) (name : String) :
    Within path (textIn path fields name) := by
  rw [textIn]
  split
  · exact within_ok path _
  · exact (readOptionalText_within (path ++ [name]) _).of_part

private theorem enabledIn_within (path : List String) (fields : Fields) : Within path (enabledIn path fields) := by
  rw [enabledIn]
  split
  · exact within_ok path _
  · exact (readFlag_within (path ++ ["enabled"]) _).of_part

private theorem issuesOf_readOverrideFields (path : List String) (fields : Fields) :
    issuesOf (readOverrideFields path fields) = issuesOf (enabledIn path fields) ++
      issuesOf (textIn path fields "table") ++
      issuesOf (textIn path fields "foreign_key") ++ issuesOf (textIn path fields "referenced_column") := by
  rw [readOverrideFields]
  split
  · simp [issuesOf, *]
  · rfl

private theorem readOverrideFields_within (path : List String) (fields : Fields) :
    Within path (readOverrideFields path fields) := by
  intro issue member
  simp only [issuesOf_readOverrideFields, List.mem_append] at member
  rcases member with ((flag | table) | foreignKey) | referenced
  · exact enabledIn_within path fields issue flag
  · exact textIn_within path fields "table" issue table
  · exact textIn_within path fields "foreign_key" issue foreignKey
  · exact textIn_within path fields "referenced_column" issue referenced

private theorem readOverride?_within {path : List String} {value : Value} {result : Checked Model.Override}
    (counts : readOverride? path value = some result) : Within path result := by
  cases value with
  | bool _ =>
    cases counts
    exact within_ok path _
  | object fields =>
    cases counts
    exact readOverrideFields_within path fields
  | _ => cases counts

private theorem gather_within {α : Type} {path : List String} {read? : String → Value → Option (Checked α)}
    (each : ∀ name value result, read? name value = some result → Within path result) (fields : Fields) :
    Within path (gather read? fields) := by
  induction fields with
  | nil => exact within_ok path _
  | cons field rest ih =>
    rcases field with ⟨name, value⟩
    rw [gather]
    cases counts : read? name value with
    | none => exact ih
    | some result =>
      cases result with
      | ok found => exact ih.map _
      | error issues =>
        intro issue member
        rcases List.mem_append.mp member with own | later
        · exact each name value (.error issues) counts issue own
        · exact ih issue later

private theorem readTable?_within {path : List String} {table : String} {value : Value}
    {result : Checked (Keyed Model.Override)}
    (counts : readTable? path table value = some result) : Within path result := by
  cases value with
  | object fields =>
    cases counts
    apply gather_within
    intro relation value result counts
    exact (readOverride?_within counts).of_part
  | _ => cases counts

private theorem readOverrides_within (path : List String) (value : Value) : Within path (readOverrides path value) := by
  cases value with
  | null => exact within_ok path _
  | object fields => exact gather_within (fun _ _ _ => readTable?_within) fields
  | _ => exact within_issueAt path .notOverrides

variable {α : Type} {raw first second : Fields} {scope : Variables} {key name text : String}

theorem setting_of_get? {value : Value} (given : Keyed.get? raw key = some value) (others : List String) (fallback : α)
    (read : List String → Value → Checked α) : setting raw (key :: others) fallback read = read [key] value := by
  simp [setting, find?, given]

private theorem named_of_mem_setting {keys : List String} {fallback : α} {read : List String → Value → Checked α}
    {issue : Issue}
    (within : ∀ path value, Within path (read path value))
    (member : issue ∈ issuesOf (setting raw keys fallback read)) :
    ∃ key rest, issue.path = key :: rest ∧ key ∈ keys ∧ (Keyed.get? raw key).isSome := by
  rw [setting] at member
  split at member
  next key value found =>
    obtain ⟨name, listed, held⟩ := List.exists_of_findSome?_eq_some found
    obtain ⟨_, given, same⟩ := Option.map_eq_some_iff.mp held
    cases same
    obtain ⟨rest, path⟩ := within [key] value issue member
    exact ⟨key, rest, path.symm, listed, by simp [given]⟩
  next => cases member

private theorem issuesOf_ofFields (raw : Fields) : issuesOf (ofFields raw) =
    issuesOf (setting raw ["url"] none readOptionalText)
      ++ issuesOf (setting raw ["secret_key"] none readOptionalText)
      ++ issuesOf (setting raw ["output"] "models" readFilledText)
      ++ issuesOf (setting raw ["schema", "db_schema"] "public" readFilledText)
      ++ issuesOf (setting raw ["include"] none readTableList)
      ++ issuesOf (setting raw ["exclude"] none readTableList)
      ++ issuesOf (setting raw ["fetch"] .always fun _ value => .ok (FetchMode.ofValue value))
      ++ issuesOf (setting raw ["generate_manifest", "generate_barrel"] false readFlag)
      ++ issuesOf (setting raw ["embed_relations"] false readFlag)
      ++ issuesOf (setting raw ["relations"] [] readOverrides)
      ++ issuesOf (setting raw ["cache_dir"] ".supadantic" readFilledText)
      ++ issuesOf (setting raw ["singular_class_names"] false readFlag) := by
  rw [ofFields]
  split
  · simp [issuesOf, *]
  · rfl

private theorem named_of_mem_ofFields {issue : Issue} (member : issue ∈ issuesOf (ofFields raw)) :
    ∃ key rest, issue.path = key :: rest ∧ (Keyed.get? raw key).isSome := by
  have named : ∀ {α : Type} {keys : List String} {fallback : α} {read : List String → Value → Checked α},
      (∀ path value, Within path (read path value)) → issue ∈ issuesOf (setting raw keys fallback read) →
      ∃ key rest, issue.path = key :: rest ∧ (Keyed.get? raw key).isSome := by
    intro _ _ _ _ within member
    obtain ⟨key, rest, path, _, there⟩ := named_of_mem_setting within member
    exact ⟨key, rest, path, there⟩
  simp only [issuesOf_ofFields, List.mem_append] at member
  rcases member with ((((((((((url | secret) | output) | schema) | included) | excluded) | mode) | manifest) | embed) |
    overrides) | cache) | singular
  · exact named readOptionalText_within url
  · exact named readOptionalText_within secret
  · exact named readFilledText_within output
  · exact named readFilledText_within schema
  · exact named readTableList_within included
  · exact named readTableList_within excluded
  · exact named (fun path _ => within_ok path _) mode
  · exact named readFlag_within manifest
  · exact named readFlag_within embed
  · exact named readOverrides_within overrides
  · exact named readFilledText_within cache
  · exact named readFlag_within singular

theorem setting_congr {keys : List String} (alike : ∀ name ∈ keys, Keyed.get? first name = Keyed.get? second name)
    (fallback : α)
    (read : List String → Value → Checked α) :
    setting first keys fallback read = setting second keys fallback read := by
  have found : find? first keys = find? second keys := by
    -- The first that is found is the head of all that are, and those are compared key by key.
    rw [find?, find?, ← List.head?_filterMap, ← List.head?_filterMap]
    apply congrArg List.head?
    apply List.filterMap_congr
    intro name member
    rw [alike name member]
  rw [setting, setting, found]

private theorem ofFields_congr (others : ∀ name, name ≠ "fetch" → Keyed.get? first name = Keyed.get? second name)
    (mode : (Keyed.get? first "fetch").getD .null = (Keyed.get? second "fetch").getD .null) :
    ofFields first = ofFields second := by
  have alike : ∀ {α : Type} (keys : List String) (fallback : α) (read : List String → Value → Checked α),
      "fetch" ∉ keys →
      setting first keys fallback read = setting second keys fallback read := by
    intro α keys fallback read apart
    apply setting_congr
    intro name member
    exact others name fun same => apart (same ▸ member)
  have modes : ∀ raw : Fields, setting raw ["fetch"] .always (fun _ value => .ok (FetchMode.ofValue value)) =
      .ok (FetchMode.ofValue ((Keyed.get? raw "fetch").getD .null)) := by
    intro raw
    cases given : Keyed.get? raw "fetch" with
    | some value => exact setting_of_get? given [] _ _
    | none =>
      simp only [setting, find?, given, List.findSome?]
      rfl
  rw [ofFields, ofFields, modes, modes, mode]
  simp only [alike ["url"] _ _ (by decide), alike ["secret_key"] _ _ (by decide), alike ["output"] _ _ (by decide),
    alike ["schema", "db_schema"] _ _ (by decide), alike ["include"] _ _ (by decide), alike ["exclude"] _ _ (by decide),
    alike ["generate_manifest", "generate_barrel"] _ _ (by decide), alike ["embed_relations"] _ _ (by decide),
    alike ["relations"] _ _ (by decide), alike ["cache_dir"] _ _ (by decide),
    alike ["singular_class_names"] _ _ (by decide)]

def expanded (scope : Variables) : Value → Value
  | .text text => ((scope.expand? text).map Value.text).getD .null
  | value => value

private theorem get?_expandKey (scope : Variables) (raw : Fields) (key name : String) :
    Keyed.get? (expandKey scope raw key) name =
    if name = key then (Keyed.get? raw name).map (expanded scope) else Keyed.get? raw name := by
  rw [expandKey]
  by_cases same : name = key
  · subst same
    rw [if_pos rfl]
    cases given : Keyed.get? raw name with
    | none => exact given
    | some value =>
      cases value with
      | text text => rw [Keyed.get?_set, if_pos rfl]; rfl
      | _ => exact given
  · rw [if_neg same]
    split
    · rw [Keyed.get?_set, if_neg same]
    · rfl

private theorem get?_foldl_expandKey {keys : List String} (distinct : keys.Nodup) (scope : Variables)
    (raw : Fields) (name : String) :
    Keyed.get? (keys.foldl (expandKey scope) raw) name =
      if name ∈ keys then (Keyed.get? raw name).map (expanded scope) else Keyed.get? raw name := by
  induction keys generalizing raw with
  | nil => rfl
  | cons key rest ih =>
    obtain ⟨fresh, distinct⟩ := List.nodup_cons.mp distinct
    rw [List.foldl_cons, ih distinct, get?_expandKey]
    by_cases same : name = key
    · subst same
      simp [fresh]
    · simp [same]

private theorem get?_fallBack (scope : Variables) (key substitute : String) (raw : Fields) (name : String) :
    Keyed.get? (fallBack scope key substitute raw) name =
      if name = key then
        if ((Keyed.get? raw name).map Value.isTruthy).getD false then Keyed.get? raw name
        else some (((scope.get? substitute).map Value.text).getD .null)
      else Keyed.get? raw name := by
  rw [fallBack]
  by_cases same : name = key
  · subst same
    split <;> simp [Keyed.get?_set]
  · split <;> simp [Keyed.get?_set, same]

/-- The variable that takes the place of a setting. -/
def substitute? (name : String) : Option String :=
  if name = "url" then some urlVariable else if name = "secret_key" then some keyVariable else none

/-- What is found under a name with the variables in place, by what is given under it. -/
def completed (scope : Variables) (name : String) (given : Option Value) : Option Value :=
  let value := if name ∈ expandedKeys then given.map (expanded scope) else given
  match substitute? name with
  | some substitute =>
    if (value.map Value.isTruthy).getD false then value else some (((scope.get? substitute).map Value.text).getD .null)
  | none => value

theorem get?_resolved (scope : Variables) (raw : Fields) (name : String) :
    Keyed.get? (resolved scope raw) name = completed scope name (Keyed.get? raw name) := by
  have distinct : expandedKeys.Nodup := by decide
  have apart : "url" ≠ "secret_key" := by decide
  rw [resolved, get?_fallBack, get?_fallBack, get?_foldl_expandKey distinct, completed, substitute?]
  by_cases url : name = "url"
  · subst url
    simp [apart]
  · by_cases secret : name = "secret_key"
    · subst secret
      simp [apart.symm]
    · simp [url, secret]

/-- The settings that are the same whether they are null or missing. -/
def nullable : List String := ["url", "secret_key", "fetch"]

theorem substitute?_eq_none (mayNot : key ∉ nullable) : substitute? key = none := by
  simp only [nullable, List.mem_cons, List.not_mem_nil, or_false, not_or] at mayNot
  rw [substitute?, if_neg mayNot.1, if_neg mayNot.2.1]

private theorem completed_null (listed : key ∈ expandedKeys) (empty : scope.expand? text = none) :
    completed scope key (some (.text text)) = if (substitute? key).isSome then completed scope key none
      else some .null := by
  have null : expanded scope (.text text) = .null := by simp [expanded, empty]
  cases stands : substitute? key <;> simp [completed, listed, null, stands, Value.isTruthy]

private theorem get?_resolved_erase (apart : name ≠ key) :
    Keyed.get? (resolved scope (Keyed.erase raw key)) name = Keyed.get? (resolved scope raw) name := by
  rw [get?_resolved, get?_resolved, Keyed.get?_erase, if_neg apart]

private theorem get?_resolved_erased :
    Keyed.get? (resolved scope (Keyed.erase raw key)) key = completed scope key none := by
  rw [get?_resolved, Keyed.get?_erase, if_pos rfl]

private theorem get?_resolved_null (listed : key ∈ expandedKeys) (given : Keyed.get? raw key = some (.text text))
    (empty : scope.expand? text = none) : Keyed.get? (resolved scope raw) key =
      if (substitute? key).isSome then Keyed.get? (resolved scope (Keyed.erase raw key)) key else some .null := by
  rw [get?_resolved, given, completed_null listed empty, get?_resolved_erased]

private theorem read_erase_of_nullable (listed : key ∈ expandedKeys) (given : Keyed.get? raw key = some (.text text))
    (empty : scope.expand? text = none) (may : key ∈ nullable) : read scope raw = read scope (Keyed.erase raw key) := by
  have own := get?_resolved_null listed given empty
  apply ofFields_congr
  · intro name differs
    by_cases same : name = key
    · subst same
      have stands : (substitute? name).isSome := by
        simp only [nullable, List.mem_cons, List.not_mem_nil, or_false] at may
        rcases may with rfl | rfl | rfl
        · rfl
        · rfl
        · exact absurd rfl differs
      rw [own, if_pos stands]
    · exact (get?_resolved_erase same).symm
  · by_cases same : "fetch" = key
    · subst same
      rw [own, get?_resolved_erased]
      rfl
    · rw [get?_resolved_erase same]

private theorem refused_of_not_nullable (listed : key ∈ expandedKeys) (given : Keyed.get? raw key = some (.text text))
    (empty : scope.expand? text = none) (mayNot : key ∉ nullable) : ⟨[key], .notText⟩ ∈ issuesOf (read scope raw) := by
  have own := get?_resolved_null listed given empty
  rw [read, issuesOf_ofFields]
  simp only [expandedKeys, nullable, List.mem_cons, List.not_mem_nil, or_false, not_or] at listed mayNot
  obtain ⟨url, secret, mode⟩ := mayNot
  rcases listed with rfl | rfl | rfl | rfl | rfl | rfl
  · exact absurd rfl url
  · exact absurd rfl secret
  · have null : setting (resolved scope raw) ["output"] "models" readFilledText = issueAt ["output"] .notText :=
      setting_of_get? own [] _ _
    simp [null, issueAt, issuesOf]
  · have null : setting (resolved scope raw) ["schema", "db_schema"] "public" readFilledText =
        issueAt ["schema"] .notText :=
      setting_of_get? own ["db_schema"] _ _
    simp [null, issueAt, issuesOf]
  · exact absurd rfl mode
  · have null : setting (resolved scope raw) ["cache_dir"] ".supadantic" readFilledText =
        issueAt ["cache_dir"] .notText :=
      setting_of_get? own [] _ _
    simp [null, issueAt, issuesOf]

/-- A text of which nothing is left counts as a setting that is missing only for the address, the key and the mode. For
all others reading ends with the issue that null is not a text. -/
theorem read_erase_iff (listed : key ∈ expandedKeys) (given : Keyed.get? raw key = some (.text text))
    (empty : scope.expand? text = none) :
    (read scope raw = read scope (Keyed.erase raw key) ↔ key ∈ nullable) ∧
      (key ∉ nullable → ∃ issues, read scope raw = .error issues ∧ ⟨[key], .notText⟩ ∈ issues) := by
  have refused := refused_of_not_nullable listed given empty
  constructor
  · constructor
    · intro same
      by_contra mayNot
      obtain ⟨_, _, path, there⟩ := named_of_mem_ofFields (same ▸ refused mayNot)
      cases path
      rw [get?_resolved_erased, completed, substitute?_eq_none mayNot] at there
      simp at there
    · exact read_erase_of_nullable listed given empty
  · intro mayNot
    have member := refused mayNot
    cases ended : read scope raw with
    | ok settings => simp [ended, issuesOf] at member
    | error issues => exact ⟨issues, rfl, by simpa [ended, issuesOf] using member⟩

/-- Settings that refer to a variable nobody sets. -/
def unsetOutput : Fields := [("output", .text "$\x7bMODELS\x7d")]

theorem output_not_unset : read {} unsetOutput ≠ read {} (Keyed.erase unsetOutput "output") ∧
    read {} unsetOutput = .error [⟨["output"], .notText⟩] ∧ read {} (Keyed.erase unsetOutput "output") = .ok {} := by
  have never : "output" ∉ nullable := by decide
  obtain ⟨same, _⟩ := read_erase_iff (by decide)
    (rfl : Keyed.get? unsetOutput "output" = some (.text "$\x7bMODELS\x7d"))
    (rfl : ({} : Variables).expand? "$\x7bMODELS\x7d" = none)
  refine ⟨fun both => never (same.mp both), ?_, ?_⟩
  · rfl
  · rfl

end TableModels.Settings
