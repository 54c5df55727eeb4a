import TableModels.Text.CaseTable
import TableModels.Text.Class

/-! Lower case for whole texts. All mappings go character by character except two: a capital I with
a dot becomes two characters, and a sigma at the end of a word takes its final form. -/

namespace TableModels.Text

private def lowerAsciiChar (c : Char) : Char := Char.ofNat (c.toNat + 32)

private def lowerFromTable (code : Nat) : Char :=
  match lowerCaseRuns.find? fun run => run.1 ≤ code && code ≤ run.2.1 && (code - run.1) % run.2.2.1 == 0 with
  | some run => Char.ofNat ((code : Int) + run.2.2.2).toNat
  | none => Char.ofNat code

/-- The lower case of one character that maps to one character. -/
def lowerChar (c : Char) : Char :=
  if c.toNat < 0x80 then if isAsciiUpper c then lowerAsciiChar c else c else lowerFromTable c.toNat

private def isCased (c : Char) : Bool := casedRanges.contains c.toNat
private def isCaseIgnorable (c : Char) : Bool := caseIgnorableRanges.contains c.toNat

/-- Whether the nearest character that is not ignored has case. -/
def nextIsCased (chars : List Char) : Bool := ((chars.dropWhile isCaseIgnorable).head?.map isCased).getD false

/-- Lower case of `chars`, of which `before` are the characters already passed, nearest first. -/
def lowerFrom (before : List Char) : List Char → List Char
  | [] => []
  | c :: rest =>
    let lowered :=
      if c == 'Σ' then [if nextIsCased before && !nextIsCased rest then 'ς' else 'σ']
      else if c == 'İ' then ['i', '\u0307']
      else [lowerChar c]
    lowered ++ lowerFrom (c :: before) rest

def lowerChars (chars : List Char) : List Char := lowerFrom [] chars

/-- The text in lower case. -/
def lower (text : String) : String := String.ofList (lowerChars text.toList)

def upperAsciiChar (c : Char) : Char := if isAsciiLower c then Char.ofNat (c.toNat - 32) else c

end TableModels.Text
