import TableModels.Keyed
import TableModels.Text.Scan

/-! References to variables inside settings.

A reference names its scope before the braces: none for the variables of the file and then the
environment, `env` for the environment alone, `dotenv` for the file alone. The three kinds are
replaced one after the other, each in the text that the one before it leaves. A variable that is not
set has the empty text. -/

namespace TableModels.Settings

structure Variables where
  environment : Keyed String := []
  file : Keyed String := []
  deriving Repr

namespace Variables

def get? (scope : Variables) (name : String) : Option String :=
  match Keyed.get? scope.file name with
  | some value => some value
  | none => Keyed.get? scope.environment name

/-- The name in a reference at the start of the text, and the length of the reference. -/
def reference? (mark chars : List Char) : Option (List Char × Nat) := do
  let rest ← mark.isPrefixOf? chars
  let name := rest.takeWhile Text.isWord
  if name.isEmpty then none
  else match rest.drop name.length with
    | '\x7d' :: _ => some (name, mark.length + name.length + 1)
    | _ => none

/-- Replaces every reference after the mark. `skip` counts the characters of a reference that are
still to be passed. -/
def replaceFrom (mark : List Char) (value : String → String) : Nat → List Char → List Char
  | _, [] => []
  | skip + 1, _ :: rest => replaceFrom mark value skip rest
  | 0, c :: rest =>
    match reference? mark (c :: rest) with
    | some (name, length) => (value (String.ofList name)).toList ++ replaceFrom mark value (length - 1) rest
    | none => c :: replaceFrom mark value 0 rest

def replace (mark : List Char) (value : String → String) (chars : List Char) : List Char :=
  replaceFrom mark value 0 chars

def anyMark : List Char := ['$', '\x7b']
def environmentMark : List Char := ['$', 'e', 'n', 'v', '\x7b']
def fileMark : List Char := ['$', 'd', 'o', 't', 'e', 'n', 'v', '\x7b']

private def valueIn (scope : Keyed String) (name : String) : String := (Keyed.get? scope name).getD ""

def expandChars (scope : Variables) (chars : List Char) : List Char :=
  replace fileMark (valueIn scope.file)
    (replace environmentMark (valueIn scope.environment)
      (replace anyMark (fun name => (scope.get? name).getD "") chars))

/-- The text with its references replaced, unless nothing is left. -/
def expand? (scope : Variables) (text : String) : Option String :=
  let chars := scope.expandChars text.toList
  if chars.isEmpty then none else some (String.ofList chars)

/-- The names to which a text may refer: all that stand after an opening brace. -/
def mentioned (text : String) : List String :=
  ((Text.splitChars (· == '\x7b') text.toList).drop 1).map fun part => String.ofList (part.takeWhile Text.isWord)

end Variables

end TableModels.Settings
