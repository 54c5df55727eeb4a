import TableModels.Model.Relation
import TableModels.Settings.Issue

/-! The settings of relations: for each table and relation a flag, or the fields of an override. Entries
of other kinds are passed over. -/

namespace TableModels.Settings

open Model

def textIn (path : List String) (fields : Fields) (name : String) : Checked (Option String) :=
  match Keyed.get? fields name with
  | none => .ok none
  | some value => readOptionalText (path ++ [name]) value

def enabledIn (path : List String) (fields : Fields) : Checked Bool :=
  match Keyed.get? fields "enabled" with
  | none => .ok true
  | some value => readFlag (path ++ ["enabled"]) value

def readOverrideFields (path : List String) (fields : Fields) : Checked Override :=
  let enabled := enabledIn path fields
  let table := textIn path fields "table"
  let foreignKey := textIn path fields "foreign_key"
  let referencedColumn := textIn path fields "referenced_column"
  match enabled, table, foreignKey, referencedColumn with
  | .ok enabled, .ok table, .ok foreignKey, .ok referencedColumn =>
    .ok { enabled, table, foreignKey, referencedColumn }
  | _, _, _, _ => .error (issuesOf enabled ++ issuesOf table ++ issuesOf foreignKey ++ issuesOf referencedColumn)

/-- The override that a value stands for, if it is of a kind that counts. -/
def readOverride? (path : List String) : Value → Option (Checked Override)
  | .bool enabled => some (.ok { enabled })
  | .object fields => some (readOverrideFields path fields)
  | _ => none

/-- Reads the entries that count. All their issues are gathered. -/
def gather {α : Type} (read? : String → Value → Option (Checked α)) : Fields → Checked (Keyed α)
  | [] => .ok []
  | (name, value) :: rest =>
    match read? name value with
    | none => gather read? rest
    | some (.ok found) => (gather read? rest).map ((name, found) :: ·)
    | some (.error issues) => .error (issues ++ issuesOf (gather read? rest))

def readTable? (path : List String) (table : String) : Value → Option (Checked (Keyed Override))
  | .object fields => some (gather (fun relation => readOverride? (path ++ [table, relation])) fields)
  | _ => none

def readOverrides (path : List String) : Value → Checked Overrides
  | .null => .ok []
  | .object fields => gather (readTable? path) fields
  | _ => .error [⟨path, .notOverrides⟩]

end TableModels.Settings
