import TableModels.Value

/-! Values of settings that are not of the kind they should be. -/

namespace TableModels.Settings

inductive IssueKind where
  | notText
  | emptyText
  | notFlag
  | unreadableFlag
  | notTableList
  | blankItem (index : Nat)
  | notOverrides
  deriving DecidableEq, Repr

def IssueKind.message : IssueKind → String
  | .notText => "Input should be a valid string"
  | .emptyText => "String should have at least 1 character"
  | .notFlag => "Input should be a valid boolean"
  | .unreadableFlag => "Input should be a valid boolean, unable to interpret input"
  | .notTableList => "Value error, include/exclude must be a list of table names."
  | .blankItem index => s!"Value error, Item at index {index} cannot be empty or just whitespace."
  | .notOverrides => "Value error, relations must be a mapping of table -> relation overrides."

/-- An issue and the way to the value that has it. -/
structure Issue where
  path : List String
  kind : IssueKind
  deriving DecidableEq, Repr

def Issue.text (issue : Issue) : String := " -> ".intercalate issue.path ++ ": " ++ issue.kind.message

/-- A value, or all the issues of it. -/
abbrev Checked := Except (List Issue)

def issuesOf {α : Type} : Checked α → List Issue
  | .ok _ => []
  | .error issues => issues

def issueAt {α : Type} (path : List String) (kind : IssueKind) : Checked α := .error [⟨path, kind⟩]

def readText (path : List String) : Value → Checked String
  | .text value => .ok value
  | _ => issueAt path .notText

def readOptionalText (path : List String) : Value → Checked (Option String)
  | .null => .ok none
  | .text value => .ok (some value)
  | _ => issueAt path .notText

def readFilledText (path : List String) : Value → Checked String
  | .text value => if value == "" then issueAt path .emptyText else .ok value
  | _ => issueAt path .notText

private def lowerAscii (text : String) : String :=
  String.ofList (text.toList.map fun c => if Text.isAsciiUpper c then Char.ofNat (c.toNat + 32) else c)

def trueWords : List String := ["1", "t", "true", "y", "yes", "on"]
def falseWords : List String := ["0", "f", "false", "n", "no", "off"]

def readWholeFlag (path : List String) (value : Int) : Checked Bool :=
  if value == 0 then .ok false else if value == 1 then .ok true else issueAt path .unreadableFlag

def readFlag (path : List String) : Value → Checked Bool
  | .bool value => .ok value
  | .int value => readWholeFlag path value
  | .float value =>
    match value.toInt? with
    | some whole => readWholeFlag path whole
    | none => issueAt path .notFlag
  | .text value =>
    let word := lowerAscii value
    if trueWords.contains word then .ok true
    else if falseWords.contains word then .ok false
    else issueAt path .unreadableFlag
  | _ => issueAt path .notFlag

def readItems (path : List String) : Nat → List Value → Checked (List String)
  | _, [] => .ok []
  | index, item :: rest =>
    let name := Text.strip item.toText
    if name == "" then issueAt path (.blankItem index)
    else (readItems path (index + 1) rest).map (name :: ·)

/-- A list of tables, or nothing. Items that are not texts are read as they print. -/
def readTableList (path : List String) : Value → Checked (Option (List String))
  | .null => .ok none
  | .list items => (readItems path 0 items).map some
  | _ => issueAt path .notTableList

end TableModels.Settings
