import TableModels.Keyed
import TableModels.Yaml.Token

/-! Trees of nodes. A node without a tag gets its type from its form. -/

namespace TableModels.Yaml

inductive Node where
  | scalar (tag : Option String) (content : String)
  | sequence (tag : Option String) (items : List Node)
  | mapping (tag : Option String) (entries : List (Node × Node))
  deriving Repr

namespace Node

def coreTag (name : String) : String := "tag:yaml.org,2002:" ++ name

def textTag : String := coreTag "str"

/-- A place without a scalar. -/
def blank : Node := .scalar none ""

/-- The tokens that are left, and the nodes that have a name. -/
structure Reading where
  tokens : List Token
  anchors : Keyed Node := []

structure Properties where
  anchor : Option String := none
  tag : Option String := none

private def fullTag? (handle : Option String) (suffix : String) : Option String :=
  match handle with
  | none => some suffix
  | some handle =>
    if handle == "!" then some ("!" ++ suffix) else if handle == "!!" then some (coreTag suffix) else none

private def properties : List Token → Option (Properties × List Token)
  | .anchor name :: .tag handle suffix :: rest => do return (⟨some name, some (← fullTag? handle suffix)⟩, rest)
  | .tag handle suffix :: .anchor name :: rest => do return (⟨some name, some (← fullTag? handle suffix)⟩, rest)
  | .anchor name :: rest => some (⟨some name, none⟩, rest)
  | .tag handle suffix :: rest => do return (⟨none, some (← fullTag? handle suffix)⟩, rest)
  | rest => some ({}, rest)

/-- A lone exclamation mark asks for the type that the form of the node gives. -/
private def ofForm (tag : Option String) : Option String := tag.filter (· != "!")

private def scalarTag (tag : Option String) (isPlain : Bool) : Option String :=
  if tag.isNone && !isPlain then some textTag else ofForm tag

/-- Gives a node the name of its anchor. No name is given twice. -/
private def named (anchor : Option String) (node : Node) (reading : Reading) : Option (Node × Reading) :=
  match anchor with
  | none => some (node, reading)
  | some name =>
    if Keyed.contains reading.anchors name then none
    else some (node, { reading with anchors := reading.anchors ++ [(name, node)] })

private def starts (ends : List Token) (tokens : List Token) : Bool :=
  match tokens with
  | [] => true
  | token :: _ => ends.contains token

/-- Takes the comma before another entry between brackets. -/
private def separated (isFirst : Bool) (close : Token) (reading : Reading) : Option Reading :=
  if isFirst || reading.tokens.head? == some close then some reading
  else match reading.tokens with
    | .comma :: rest => some { reading with tokens := rest }
    | _ => none

/-- Where a node stands. -/
inductive Place where
  | block
  /-- A sequence may begin without being indented. -/
  | field
  | flow
  deriving DecidableEq, Repr

mutual
def parse (place : Place) : Nat → Reading → Option (Node × Reading)
  | 0, _ => none
  | fuel + 1, reading =>
    match reading.tokens with
    | .alias name :: rest => (Keyed.get? reading.anchors name).map fun node => (node, { reading with tokens := rest })
    | tokens => do
      let (found, tokens) ← properties tokens
      let (node, reading) ← content place found fuel { reading with tokens }
      named found.anchor node reading

def content (place : Place) (found : Properties) : Nat → Reading → Option (Node × Reading)
  | 0, _ => none
  | fuel + 1, reading =>
    let tag := ofForm found.tag
    let inside (rest : List Token) : Reading := { reading with tokens := rest }
    match reading.tokens, place with
    | .item :: _, .field => items false fuel [] reading |>.map fun (nodes, reading) => (.sequence tag nodes, reading)
    | .scalar text isPlain :: rest, _ => some (.scalar (scalarTag found.tag isPlain) text, inside rest)
    | .openSequence :: rest, _ => (flowItems true fuel [] (inside rest)).map fun (nodes, reading) =>
      (.sequence tag nodes, reading)
    | .openMapping :: rest, _ => (flowFields true fuel [] (inside rest)).map fun (entries, reading) =>
      (.mapping tag entries, reading)
    | .sequenceStart :: rest, .block | .sequenceStart :: rest, .field =>
      (items true fuel [] (inside rest)).map fun (nodes, reading) => (.sequence tag nodes, reading)
    | .mappingStart :: rest, .block | .mappingStart :: rest, .field =>
      (fields fuel [] (inside rest)).map fun (entries, reading) => (.mapping tag entries, reading)
    | _, _ => if found.anchor.isSome || found.tag.isSome then some (.scalar tag "", reading) else none

/-- A node, or nothing where one of some tokens follows. -/
def parseUnless (ends : List Token) (place : Place) : Nat → Reading → Option (Node × Reading)
  | 0, _ => none
  | fuel + 1, reading => if starts ends reading.tokens then some (blank, reading) else parse place fuel reading

/-- The items of a block. A block without an indentation of its own has no end token. -/
def items (indented : Bool) : Nat → List Node → Reading → Option (List Node × Reading)
  | 0, _, _ => none
  | fuel + 1, read, reading =>
    match reading.tokens with
    | .item :: rest => do
      let ends := if indented then [.item, .blockEnd] else [.item, .key, .value, .blockEnd]
      let (node, reading) ← parseUnless ends .block fuel { reading with tokens := rest }
      items indented fuel (read ++ [node]) reading
    | tokens =>
      if !indented then some (read, reading)
      else match tokens with
        | .blockEnd :: rest => some (read, { reading with tokens := rest })
        | _ => none

def fields : Nat → List (Node × Node) → Reading → Option (List (Node × Node) × Reading)
  | 0, _, _ => none
  | fuel + 1, read, reading =>
    match reading.tokens with
    | .key :: rest => do
      let ends := [.key, .value, .blockEnd]
      let (name, reading) ← parseUnless ends .field fuel { reading with tokens := rest }
      let (node, reading) ← valueAfter ends .field fuel reading
      fields fuel (read ++ [(name, node)]) reading
    | .blockEnd :: rest => some (read, { reading with tokens := rest })
    | _ => none

/-- What follows a colon, or nothing if there is none. -/
def valueAfter (ends : List Token) (place : Place) : Nat → Reading → Option (Node × Reading)
  | 0, _ => none
  | fuel + 1, reading =>
    match reading.tokens with
    | .value :: rest => parseUnless ends place fuel { reading with tokens := rest }
    | _ => some (blank, reading)

def flowItems (isFirst : Bool) : Nat → List Node → Reading → Option (List Node × Reading)
  | 0, _, _ => none
  | fuel + 1, read, reading => do
    let reading ← separated isFirst .closeSequence reading
    match reading.tokens with
    | .closeSequence :: rest => some (read, { reading with tokens := rest })
    | .key :: rest =>
      let ends := [.comma, .closeSequence]
      let (name, reading) ← parseUnless (.value :: ends) .flow fuel { reading with tokens := rest }
      let (node, reading) ← valueAfter ends .flow fuel reading
      flowItems false fuel (read ++ [.mapping none [(name, node)]]) reading
    | _ =>
      let (node, reading) ← parse .flow fuel reading
      flowItems false fuel (read ++ [node]) reading

def flowFields (isFirst : Bool) : Nat → List (Node × Node) → Reading → Option (List (Node × Node) × Reading)
  | 0, _, _ => none
  | fuel + 1, read, reading => do
    let reading ← separated isFirst .closeMapping reading
    match reading.tokens with
    | .closeMapping :: rest => some (read, { reading with tokens := rest })
    | .key :: rest =>
      let ends := [.comma, .closeMapping]
      let (name, reading) ← parseUnless (.value :: ends) .flow fuel { reading with tokens := rest }
      let (node, reading) ← valueAfter ends .flow fuel reading
      flowFields false fuel (read ++ [(name, node)]) reading
    | _ =>
      let (name, reading) ← parse .flow fuel reading
      flowFields false fuel (read ++ [(name, blank)]) reading
end

/-- Enough for any text of so many tokens. -/
private def fuelFor (tokens : List Token) : Nat := 5 * tokens.length + 10

private def readRoot (tokens : List Token) : Option (Node × Reading) := parse .block (fuelFor tokens) { tokens }

/-- Nothing may follow a document but marks of its end. -/
private def single (found : Node × Reading) : Option Node :=
  if found.2.tokens.all (· == .documentEnd) then some found.1 else none

/-- The lines before a document that begin with a percent sign. -/
private def skipDirectives (hasVersion : Bool) : List Token → Option (List Token)
  | .version major _ :: rest =>
    if hasVersion || major.toNat? != some 1 then none else skipDirectives true rest
  | .directive :: rest => skipDirectives hasVersion rest
  | rest => some rest

private def startsDocument : List Token → Bool
  | .version .. :: _ | .directive :: _ | .documentStart :: _ => true
  | _ => false

private def isOver : List Token → Bool
  | [] | .documentEnd :: _ => true
  | rest => startsDocument rest

private def readMarked (tokens : List Token) : Option (Node × Reading) :=
  if isOver tokens then some (blank, { tokens }) else readRoot tokens

/-- The root of the only document. A text without tokens holds nothing. -/
def ofTokens? (tokens : List Token) : Option Node := do
  if tokens.isEmpty then return blank
  if !startsDocument tokens then single (← readRoot tokens)
  else match ← skipDirectives false tokens with
    | .documentStart :: rest => single (← readMarked rest)
    | _ => none

end Node

end TableModels.Yaml
