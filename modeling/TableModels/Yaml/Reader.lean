import TableModels.Yaml.Node
import TableModels.Yaml.Scalar

/-! Reading a text as one value. The last of the entries with one key counts, keys are taken as text, and
a mapping takes over the fields of those that it merges. -/

namespace TableModels.Yaml

/-- A scalar with a tag. Other types than these are not read. -/
private def taggedScalar (tag content : String) : Except Fault Value :=
  if tag == Node.textTag then .ok (.text content)
  else if tag == Node.coreTag "null" then .ok .null
  else match valueOf content with
    | .error fault => .error fault
    | .ok (.int value) =>
      if tag == Node.coreTag "int" then .ok (.int value)
      else if tag == Node.coreTag "float" then .ok (.float (.ofDecimal (value < 0) value.natAbs 0))
      else .error .malformed
    | .ok (.float value) => if tag == Node.coreTag "float" then .ok (.float value) else .error .malformed
    | .ok (.bool value) => if tag == Node.coreTag "bool" then .ok (.bool value) else .error .malformed
    | .ok (.moment value) => if tag == Node.coreTag "timestamp" then .ok (.moment value) else .error .malformed
    | .ok _ => .error .malformed

private def scalarValue (tag : Option String) (content : String) : Except Fault Value :=
  match tag with
  | none => valueOf content
  | some tag => taggedScalar tag content

/-- Whether a node without a tag, or with one of its form, can be read. -/
private def checkTag (tag : Option String) (name : String) : Except Fault Unit :=
  match tag with
  | none => .ok ()
  | some tag => if tag == Node.coreTag name then .ok () else .error .malformed

/-- What an entry means by its key. -/
private inductive Key where
  | name (text : String)
  | merge

private def keyOf : Node → Except Fault Key
  | .scalar none content =>
    if content == mergeWord then .ok .merge
    else if content == valueWord then .ok (.name content)
    else (valueOf content).map fun value => .name value.toText
  | .scalar (some tag) content => (taggedScalar tag content).map fun value => .name value.toText
  | _ => .error .malformed

/-- The fields of a mapping: those that it merges, and then its own. -/
private structure Collected where
  merged : Fields := []
  own : Fields := []

private def Collected.fields (collected : Collected) : Fields := Keyed.ofList (collected.merged ++ collected.own)

mutual
def toValue : Node → Except Fault Value
  | .scalar tag content => scalarValue tag content
  | .sequence tag items => do
    checkTag tag "seq"
    return .list (← toValues items)
  | .mapping tag entries => do
    checkTag tag "map"
    return .object (← collect {} entries).fields

def toValues : List Node → Except Fault (List Value)
  | [] => .ok []
  | item :: rest => do return (← toValue item) :: (← toValues rest)

private def collect (collected : Collected) : List (Node × Node) → Except Fault Collected
  | [] => .ok collected
  | (key, node) :: rest => do
    match ← keyOf key with
    | .name text => collect { collected with own := collected.own ++ [(text, ← toValue node)] } rest
    | .merge => collect { collected with merged := collected.merged ++ (← mergedFields node) } rest

/-- The fields that a mapping takes over. Of several mappings the first one counts. -/
private def mergedFields : Node → Except Fault Fields
  | .mapping _ entries => do return (← collect {} entries).fields
  | .sequence _ items => mergedItems items
  | .scalar .. => .error .malformed

private def mergedItems : List Node → Except Fault Fields
  | [] => .ok []
  | .mapping _ entries :: rest => do
    let fields := (← collect {} entries).fields
    return (← mergedItems rest) ++ fields
  | _ => .error .malformed
end

/-- Reads a text that holds at most one document. -/
def read (text : String) : Except Fault Value :=
  match (Token.ofText? text).bind Node.ofTokens? with
  | some node => toValue node
  | none => .error .malformed

end TableModels.Yaml
