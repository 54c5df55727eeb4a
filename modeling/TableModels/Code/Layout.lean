import TableModels.Code.Token

/-! Layout of one statement over lines of limited width.

A line that is too wide is split at its last bracket pair: what opens the pair ends the first line,
the content goes on a line of its own, one level deeper, and the rest follows. Content that is still
too wide is split after every comma. An optional pair that is split at is shown from then on, so the
pairs shown so far are a state that attempts share. Only the attempt to show all pairs leaves nothing
behind if it is given up. -/

namespace TableModels.Code

structure Line where
  depth : Nat
  tokens : List Token
  /-- The line is the content of a bracket pair. -/
  inside : Bool := false
  /-- The line is split at its commas even if it fits. -/
  exploded : Bool := false
  isImport : Bool := false
  deriving Repr

/-- The optional pairs that are shown. -/
abbrev Shown := List Nat

/-- A way of splitting, which may not apply. What it showed stays shown all the same. -/
abbrev Attempt := OptionT (StateM Shown)

def lineWidth : Nat := 120

namespace Token

def isHidden (shown : Shown) (token : Token) : Bool :=
  match token.kind with
  | .opening bracket => bracket.optional && !shown.contains bracket.pair
  | .closing bracket => bracket.optional && !shown.contains bracket.pair
  | _ => false

def visible (shown : Shown) (token : Token) : String := if token.isHidden shown then "" else token.text

def isBracket (token : Token) : Bool :=
  match token.kind with
  | .opening _ => true
  | .closing _ => true
  | _ => false

end Token

namespace Line

def text (shown : Shown) (line : Line) : String :=
  match line.tokens with
  | [] => ""
  | first :: rest =>
    let following := rest.map fun token => (if token.spaced then " " else "") ++ token.visible shown
    indent line.depth ++ first.visible shown ++ String.join following

def fitsIn (width : Nat) (shown : Shown) (line : Line) : Bool := Text.width (line.text shown) ≤ width

def fits (shown : Shown) (line : Line) : Bool := line.fitsIn lineWidth shown

end Line

/-- Pieces that end with the commas outside all brackets. -/
def commaPieces : Nat → List Token → List Token → List (List Token)
  | _, piece, [] => if piece.isEmpty then [] else [piece.reverse]
  | depth, piece, token :: rest =>
    match token.kind with
    | .comma => if depth == 0 then (token :: piece).reverse :: commaPieces depth [] rest
      else commaPieces depth (token :: piece) rest
    | .opening _ => commaPieces (depth + 1) (token :: piece) rest
    | .closing _ => commaPieces (depth - 1) (token :: piece) rest
    | _ => commaPieces depth (token :: piece) rest

def endsInComma (tokens : List Token) : Bool := (tokens.getLast?.map (·.kind == .comma)).getD false

def withFinalComma (tokens : List Token) : List Token := if endsInComma tokens then tokens else tokens ++ [.comma]

/-- Whether a comma other than the last token separates items. -/
def hasItems (tokens : List Token) : Bool := 1 < (commaPieces 0 [] tokens).length

def splitAfterCommas (line : Line) : Attempt (List Line) :=
  if hasItems line.tokens then
    return (commaPieces 0 [] line.tokens).map fun piece =>
      { depth := line.depth, tokens := withFinalComma piece, inside := line.inside }
  else failure

structure Split where
  head : List Token
  body : List Token
  tail : List Token
  bracket : Bracket

inductive Place where
  | tail
  | body (bracket : Bracket)
  | head (bracket : Bracket)

structure Cut where
  place : Place := .tail
  head : List Token := []
  body : List Token := []
  tail : List Token := []

/-- Takes the next token from the right. -/
def Cut.take (omitted : List Nat) (cut : Cut) (token : Token) : Cut :=
  match cut.place with
  | .head _ => { cut with head := token :: cut.head }
  | .body bracket =>
    if token.kind == .opening bracket then
      if cut.body.isEmpty then { cut with place := .tail, tail := token :: cut.tail }
      else { cut with place := .head bracket, head := [token] }
    else { cut with body := token :: cut.body }
  | .tail =>
    match token.kind with
    | .closing bracket =>
      let place := if omitted.contains bracket.pair then .tail else .body bracket
      { cut with place, tail := token :: cut.tail }
    | _ => { cut with tail := token :: cut.tail }

/-- Splits at the last pair that is not omitted and has content. -/
def lastSplit? (omitted : List Nat) (tokens : List Token) : Option Split :=
  let cut := tokens.reverse.foldl (Cut.take omitted) {}
  match cut.place with
  | .head bracket => some { head := cut.head, body := cut.body, tail := cut.tail, bracket }
  | _ => none

namespace Split

def bodyLine (line : Line) (split : Split) : Line :=
  { depth := line.depth + 1, inside := true, exploded := split.bracket.explodes && hasItems split.body,
    tokens := if line.isImport then withFinalComma split.body else split.body }

def headLine (line : Line) (split : Split) : Line :=
  { depth := line.depth, tokens := split.head, isImport := line.isImport }

def tailLine (line : Line) (split : Split) : Line := { depth := line.depth, tokens := split.tail }

def lines (line : Line) (split : Split) : List Line :=
  [split.headLine line, split.bodyLine line, split.tailLine line].filter fun part => !part.tokens.isEmpty

end Split

/-- Whether the last equals sign of the tokens has a closing bracket after it. -/
private def closesAfterEquals : List Token → Bool
  | [] => false
  | token :: rest =>
    match token.kind with
    | .equals => false
    | .closing _ => true
    | _ => closesAfterEquals rest

/-- Whether the split `other`, which leaves out the optional pair of `split`, is to be preferred. -/
def prefersOther (line : Line) (shown : Shown) (split other : Split) : Bool :=
  let before := split.head.dropLast
  let afterEquals := (before.getLast?.map (·.kind == .equals)).getD false
  let otherHead := other.headLine line
  !afterEquals || !before.any Token.isBracket || !(split.headLine line).fitsIn (lineWidth - 1) shown
    || closesAfterEquals other.head.reverse
    || (other.head.any (·.kind == .equals) && otherHead.fits shown)

/-- The outcome of an attempt, failed or not. -/
def outcome {α : Type} (attempt : Attempt α) : Attempt (Option α) := OptionT.lift attempt.run

def showPair (bracket : Bracket) : StateM Shown Unit :=
  modify fun shown => if bracket.optional && !shown.contains bracket.pair then bracket.pair :: shown else shown

/-- The lines of a split, or of another that leaves its optional pair hidden. -/
def settle (forced : Bool) (line : Line) : Nat → List Nat → Split → Attempt (List Line)
  | 0, _, _ => failure
  | fuel + 1, omitted, split => do
    let shown ← get
    let hidden := split.bracket.optional && !shown.contains split.bracket.pair
    if !forced && hidden && !line.isImport && !hasItems split.body then
      let omitted := split.bracket.pair :: omitted
      let attempt : Attempt (Option (List Line)) := do
        let other ← OptionT.mk (return lastSplit? omitted line.tokens)
        if prefersOther line shown split other then some <$> settle forced line fuel omitted other
        else return none
      match ← outcome attempt with
      | some (some lines) => return lines
      | some none => pure ()
      | none =>
        let body := split.bodyLine line
        if split.body.length < 2 && !body.fits (← get) then failure
    showPair split.bracket
    return split.lines line

/-- Splits at the last pair that is not omitted. -/
def splitAt (forced : Bool) (line : Line) (omitted : List Nat) : Attempt (List Line) := do
  let split ← OptionT.mk (return lastSplit? omitted line.tokens)
  settle forced line (line.tokens.length + 1) omitted split

def firstFits (shown : Shown) (lines : List Line) : Bool :=
  (lines.head?.map (Line.fits shown)).getD false

/-- The splits that leave out more and more pairs at the end of the line, as long as these end within
the width. -/
structure Walk where
  omitted : List Nat := []
  length : Nat
  /-- The pair whose content is being passed. -/
  within : Option Nat := none
  /-- The pair that the next split leaves out. -/
  last : Option Nat := none
  /-- Pairs inside the last one, and empty pairs. -/
  inner : List Nat := []

def isOpening (token : Token) : Bool :=
  match token.kind with
  | .opening _ => true
  | _ => false

def walk (forced : Bool) (line : Line) : Walk → List Token → Attempt (List Line)
  | _, [] => splitAt forced line []
  | state, token :: rest => do
    let shown ← get
    let blank := if token.spaced && !rest.isEmpty then 1 else 0
    let length := state.length + blank + (token.visible shown).length
    let state := { state with length }
    if lineWidth < length then splitAt forced line []
    else match token.kind, state.within with
      | .opening bracket, some pair =>
        walk forced line (if bracket.pair == pair then { state with within := none } else state) rest
      | .closing bracket, some _ => walk forced line { state with inner := bracket.pair :: state.inner } rest
      | .closing bracket, none =>
        if (rest.head?.map isOpening).getD false then
          walk forced line { state with inner := bracket.pair :: state.inner } rest
        else
          let advance := fun (state : Walk) =>
            if endsInComma (rest.take 1) then splitAt forced line []
            else if token.isHidden shown then walk forced line state rest
            else walk forced line { state with within := some bracket.pair, last := some bracket.pair } rest
          match state.last with
          | none => advance state
          | some pair => do
            let omitted := pair :: state.inner ++ state.omitted
            let lines ← splitAt forced line omitted
            if firstFits (← get) lines then return lines
            advance { state with omitted, inner := [] }
      | _, _ => walk forced line state rest

/-- Splits at the bracket pair nearest to the end that gives a first line that fits. -/
def splitAtBrackets (forced : Bool) (line : Line) : Attempt (List Line) := do
  let lines ← splitAt forced line []
  if firstFits (← get) lines then return lines
  walk forced line { length := 4 * line.depth } line.tokens.reverse

def optionalPairs (line : Line) : List Nat :=
  line.tokens.filterMap fun token =>
    match token.kind with
    | .opening bracket => if bracket.optional then some bracket.pair else none
    | _ => none

mutual
/-- Lays out a line. With `forced` no optional pair is left hidden where one can be split at. -/
def layoutLine : Nat → Bool → Line → StateM Shown (List Line)
  | 0, _, line => return [line]
  | fuel + 1, forced, line => do
    if !line.exploded && line.fits (← get) then return [line]
    if line.inside then
      if let some lines ← (splitUp fuel forced line (splitAfterCommas line)).run then return lines
    if let some lines ← (bracketed fuel forced line).run then return lines
    return [line]

/-- Lays out the parts of a split, each of which must differ from the line. -/
def splitUp : Nat → Bool → Line → Attempt (List Line) → Attempt (List Line)
  | 0, _, _, _ => failure
  | fuel + 1, forced, line, split => do
    let whole := line.text (← get)
    layoutParts fuel forced whole (← split)

def layoutParts : Nat → Bool → String → List Line → Attempt (List Line)
  | 0, _, _, _ => failure
  | _ + 1, _, _, [] => return []
  | fuel + 1, forced, whole, part :: rest => do
    if part.text (← get) == whole then failure
    let first ← layoutLine fuel forced part
    return first ++ (← layoutParts fuel forced whole rest)

/-- Splits at brackets. If that leaves a first line that is too wide and all optional pairs hidden,
the pairs are shown instead where all lines fit then. -/
def bracketed : Nat → Bool → Line → Attempt (List Line)
  | 0, _, _ => failure
  | fuel + 1, forced, line => do
    let before ← get
    let lines ← splitUp fuel forced line (splitAtBrackets forced line)
    let shown ← get
    let optional := (optionalPairs line).filter fun pair => !before.contains pair
    if forced || optional.isEmpty || optional.any shown.contains || firstFits shown lines then return lines
    let others ← splitUp fuel true line (splitAtBrackets true line)
    if others.all (Line.fits (← get)) then return others
    set shown
    return lines
end

/-- The lines of a statement at a depth. -/
def layout (depth : Nat) (isImport : Bool) (tokens : List Token) : List String :=
  let line : Line := { depth, tokens, isImport }
  let (lines, shown) := (layoutLine (4 * tokens.length + 8) false line).run []
  lines.map (Line.text shown)

end TableModels.Code
