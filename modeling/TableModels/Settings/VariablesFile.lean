import TableModels.Log
import TableModels.Settings.Variables
import TableModels.Text.Scan

/-! Files of variables.

A line binds a name to a value with an equals sign, or gives a name alone. A value is in quotes, which
may hold line ends and escapes, or runs to a blank before a number sign. A value may refer to variables
that are bound before it or are in the environment. A line that is none of this is passed. -/

namespace TableModels.Settings

/-- The variables of a file, and the numbers of the lines that cannot be read. -/
structure VariablesFile where
  bindings : Keyed (Option String) := []
  unreadable : List Nat := []
  deriving Repr

namespace VariablesFile

private def isLineBlank (c : Char) : Bool := Text.isBlank c && c != '\n'

private def isNameChar (c : Char) : Bool := c != '=' && c != '#' && !Text.isBlank c

/-- What was read, or where reading failed, with the characters that are left. -/
abbrev Step (α : Type) := Except (List Char) (α × List Char)

/-- The word `export` may stand before a name. -/
private def skipExport (chars : List Char) : List Char :=
  match "export".toList.isPrefixOf? chars with
  | none => chars
  | some rest => if (rest.head?.map isLineBlank).getD false then rest.dropWhile isLineBlank else chars

private def quotedName (chars : List Char) : Step String :=
  let name := (chars.drop 1).takeWhile (· != '\'')
  match chars.drop (name.length + 1) with
  | '\'' :: rest => if name.isEmpty then .error chars else .ok (String.ofList name, rest)
  | _ => .error chars

private def plainName (chars : List Char) : Step String :=
  let name := chars.takeWhile isNameChar
  if name.isEmpty then .error chars else .ok (String.ofList name, chars.drop name.length)

/-- The name in a line. A line with a comment only has none. -/
private def readName : List Char → Step (Option String)
  | '#' :: rest => .ok (none, '#' :: rest)
  | '\'' :: rest => (quotedName ('\'' :: rest)).map fun (name, rest) => (some name, rest)
  | chars => (plainName chars).map fun (name, rest) => (some name, rest)

/-- The text up to the closing quote. A quote after a backslash closes only if no other does. -/
private def untilQuote (quote : Char) : List Char → Option (List Char × List Char)
  | [] => none
  | '\\' :: c :: rest =>
    if c == quote then
      match untilQuote quote rest with
      | some (inside, after) => some ('\\' :: c :: inside, after)
      | none => some (['\\'], rest)
    else (untilQuote quote (c :: rest)).map fun (inside, after) => ('\\' :: inside, after)
  | c :: rest =>
    if c == quote then some ([], rest) else (untilQuote quote rest).map fun (inside, after) => (c :: inside, after)

private def escaped? (quote c : Char) : Option Char :=
  if c == '\\' || c == '\'' then some c
  else if quote == '\'' then none
  else match c with
    | '"' => some '"'
    | 'a' => some '\x07'
    | 'b' => some '\x08'
    | 'f' => some '\x0c'
    | 'n' => some '\n'
    | 'r' => some '\r'
    | 't' => some '\t'
    | 'v' => some '\x0b'
    | _ => none

private def unescape (quote : Char) : List Char → List Char
  | [] => []
  | '\\' :: c :: rest =>
    match escaped? quote c with
    | some meant => meant :: unescape quote rest
    | none => '\\' :: unescape quote (c :: rest)
  | c :: rest => c :: unescape quote rest

/-- Drops a comment with the blanks before it. -/
private def withoutComment : List Char → List Char
  | [] => []
  | c :: rest =>
    if Text.isBlank c && (rest.dropWhile Text.isBlank).head? == some '#' then [] else c :: withoutComment rest

private def plainValue (chars : List Char) : String × List Char :=
  let line := chars.takeWhile (· != '\n')
  (String.ofList (Text.dropTrailing Text.isBlank (withoutComment line)), chars.drop line.length)

private def readValue : List Char → Step String
  | c :: rest =>
    if c == '\'' || c == '"' then
      match untilQuote c rest with
      | some (inside, after) => .ok (String.ofList (unescape c inside), after)
      | none => .error (c :: rest)
    else .ok (plainValue (c :: rest))
  | [] => .ok ("", [])

private def afterName : List Char → Step (Option String)
  | '=' :: rest => (readValue (rest.dropWhile isLineBlank)).map fun (value, rest) => (some value, rest)
  | chars => .ok (none, chars)

private def skipComment (chars : List Char) : List Char :=
  match chars.dropWhile isLineBlank with
  | '#' :: rest => rest.dropWhile (· != '\n')
  | _ => chars

private def endLine (chars : List Char) : Step Unit :=
  match chars.dropWhile isLineBlank with
  | [] => .ok ((), [])
  | '\n' :: rest => .ok ((), rest)
  | _ => .error chars

structure Binding where
  name : String
  value : Option String
  deriving DecidableEq, Repr

private def readLine (chars : List Char) : Except (List Char) (Option Binding × List Char) := do
  let (name, rest) ← readName (skipExport chars)
  let (value, rest) ← afterName (rest.dropWhile isLineBlank)
  let ((), rest) ← endLine (skipComment rest)
  return (name.map fun name => ⟨name, value⟩, rest)

/-- A binding, or the number of a line that cannot be read. -/
abbrev Found := Except Nat Binding

private def lineEnds (chars : List Char) : Nat := chars.count '\n'

private def readLines : Nat → Nat → List Char → List Found
  | 0, _, _ => []
  | fuel + 1, line, chars =>
    if chars.isEmpty then []
    else
      let start := chars.dropWhile Text.isBlank
      let lineAt (rest : List Char) : Nat := line + (lineEnds chars - lineEnds rest)
      if start.isEmpty then []
      else match readLine start with
        | .ok (none, rest) => readLines fuel (lineAt rest) rest
        | .ok (some binding, rest) => .ok binding :: readLines fuel (lineAt rest) rest
        | .error place =>
          let rest := (place.dropWhile (· != '\n')).drop 1
          .error line :: readLines fuel (lineAt rest) rest

/-- The lines of a text. -/
def linesOf (text : String) : List Found :=
  let chars := Text.unifyLineEnds text.toList
  readLines (chars.length + 1) 1 chars

/-- The name in a reference and the text that stands for it if it is not set, and the characters after
the reference. -/
private def reference? : List Char → Option ((String × String) × List Char)
  | '$' :: '\x7b' :: rest =>
    let name := rest.takeWhile fun c => c != '\x7d' && c != ':'
    match rest.drop name.length with
    | '\x7d' :: after => some ((String.ofList name, ""), after)
    | ':' :: '-' :: rest =>
      let fallback := rest.takeWhile (· != '\x7d')
      match rest.drop fallback.length with
      | '\x7d' :: after => some ((String.ofList name, String.ofList fallback), after)
      | _ => none
    | _ => none
  | _ => none

private def expandFrom (value : String → Option String) : Nat → List Char → List Char
  | 0, chars => chars
  | _ + 1, [] => []
  | fuel + 1, c :: rest =>
    match reference? (c :: rest) with
    | some ((name, fallback), after) => ((value name).getD fallback).toList ++ expandFrom value fuel after
    | none => c :: expandFrom value fuel rest

/-- The value of a variable where a line is read. A name that is bound without a value is empty. -/
private def valueAt (environment : Keyed String) (bound : Keyed (Option String)) (name : String) : Option String :=
  match Keyed.get? bound name with
  | some value => some (value.getD "")
  | none => Keyed.get? environment name

private def expand (environment : Keyed String) (bound : Keyed (Option String)) (value : String) : String :=
  String.ofList (expandFrom (valueAt environment bound) (value.length + 1) value.toList)

private def addBinding (environment : Keyed String) (bound : Keyed (Option String)) (binding : Binding) :
    Keyed (Option String) :=
  Keyed.set bound binding.name (binding.value.map (expand environment bound))

private def bindingOf? : Found → Option Binding
  | .ok binding => some binding
  | .error _ => none

private def unreadableOf? : Found → Option Nat
  | .ok _ => none
  | .error line => some line

/-- Reads a file of variables in an environment. -/
def ofText (environment : Keyed String) (text : String) : VariablesFile :=
  let found := linesOf text
  { bindings := (found.filterMap bindingOf?).foldl (addBinding environment) []
    unreadable := found.filterMap unreadableOf? }

/-- The variables that have a value. -/
def values (file : VariablesFile) : Keyed String := file.bindings.filterMap fun (name, value) => value.map (name, ·)

/-- A complaint about a line that cannot be read. -/
def complaint (line : Nat) : Log.Line := Log.warning s!"Python-dotenv could not parse statement starting at line {line}"

def complaints (file : VariablesFile) : List Log.Line := file.unreadable.map complaint

/-- How many variables there are, if any. -/
def notes (file : VariablesFile) (path : String) : List Log.Line :=
  if file.bindings.isEmpty then []
  else [Log.debug s!"Loaded {file.bindings.length} variables from {path}"]

end VariablesFile

end TableModels.Settings
