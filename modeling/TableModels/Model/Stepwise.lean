import TableModels.Code.TypeText
import TableModels.Model.Emit

/-! The rendering of a model with each of the steps that may fail. Annotations are made as text and read back, and a
number can only be written with as many digits as can be converted. -/

namespace TableModels

namespace Code

def Expr.wholes (expr : Expr) : List Int := expr.leaves.filterMap fun
  | .int value => some value
  | _ => none

def Statement.wholes : Statement → List Int
  | .assign _ value => value.wholes
  | .declare _ type value? => type.wholes ++ (value?.map Expr.wholes).getD []
  | .evaluate value => value.wholes
  | _ => []

def Block.wholes : Block → List Int
  | .statement line => line.wholes
  | .guarded _ body => body.flatMap Statement.wholes
  | .definition d => d.body.flatMap Statement.wholes

def Module.wholes (module : Module) : List Int := module.blocks.flatMap Block.wholes

end Code

namespace Model

open Schema Typing Code

inductive Trouble where
  | fault (fault : EmitFault)
  /-- The text of an annotation is none. -/
  | unreadable (text : String)
  /-- A number has more digits than are written. -/
  | unwritable (value : Int)
  deriving DecidableEq, Repr

def optionalText (type : String) : String := "Optional[" ++ type ++ "]"

def ScalarField.typeText (field : ScalarField) : String :=
  if field.column.nullable then optionalText field.type.text else field.type.text

def RelationField.typeText (field : RelationField) : String := optionalText (Text.quoted field.targetClass)

def readType (text : String) : Except Trouble Expr :=
  match TypeText.read? text with
  | some type => .ok type
  | none => .error (.unreadable text)

def ScalarField.declare (field : ScalarField) : Except Trouble Statement :=
  return .declare field.name (← readType field.typeText) field.value

def RelationField.declare (field : RelationField) : Except Trouble Statement :=
  return .declare field.name (← readType field.typeText) (some field.value)

def moduleStepwise (style : Style) (enums : Enums) (known : List String) (table : Table) : Except Trouble Module := do
  let (scalars, relations) ← (fields style enums known table).mapError .fault
  let columns ← scalars.mapM ScalarField.declare
  let related ← relations.mapM RelationField.declare
  let name ← (Naming.className style.singular table.name).mapError (.fault ∘ .noWord)
  let empty := modelClass name table.name [] []
  return {
    header := [generatedMark, "# Source table: " ++ table.name]
    blocks :=
      imports table.name scalars relations ++ [.definition { empty with body := empty.body ++ columns ++ related }] }

def isOverlong (value : Int) : Bool := Number.digitLimit < Binary64.digitCount value.natAbs

def renderStepwise (style : Style) (enums : Enums) (known : List String) (table : Table) : Except Trouble String := do
  let made ← moduleStepwise style enums known table
  match made.wholes.find? isOverlong with
  | some value => .error (.unwritable value)
  | none => return made.text

end Model

end TableModels
