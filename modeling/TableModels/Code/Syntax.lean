import TableModels.Number.Binary64

/-! The syntax of generated modules: expressions, simple statements, and the blocks that a module is
made of. -/

namespace TableModels.Code

inductive Expr where
  | name (id : String)
  | text (value : String)
  | int (value : Int)
  | float (value : Binary64)
  | truth (value : Bool)
  | nothing
  | emptyTuple
  | list (items : List Expr)
  | attribute (value : Expr) (name : String)
  | subscript (value : Expr) (indices : List Expr)
  | call (function : Expr) (arguments : List Expr) (keywords : List (String × Expr))
  deriving Repr

inductive Statement where
  | importModule (module : String)
  /-- An import of names. A positive level looks from the package that holds the module. -/
  | importFrom (level : Nat) (module : String) (names : List String)
  | assign (target : String) (value : Expr)
  | declare (target : String) (type : Expr) (value : Option Expr)
  | evaluate (value : Expr)
  deriving Repr

def Statement.isImport : Statement → Bool
  | .importModule _ => true
  | .importFrom .. => true
  | _ => false

structure ClassDefinition where
  name : String
  base : String
  doc : String
  body : List Statement
  deriving Repr

inductive Block where
  | statement (statement : Statement)
  /-- Statements under an `if`. -/
  | guarded (condition : String) (body : List Statement)
  | definition (definition : ClassDefinition)
  deriving Repr

/-- A module: lines of text at its head, which need not be comments alone, and blocks. -/
structure Module where
  header : List String
  blocks : List Block
  deriving Repr

mutual
/-- The parts of an expression that have no parts. -/
def Expr.leaves : Expr → List Expr
  | .list items => leavesOfItems items
  | .attribute value _ => value.leaves
  | .subscript value indices => value.leaves ++ leavesOfItems indices
  | .call function arguments keywords => function.leaves ++ leavesOfItems arguments ++ leavesOfKeywords keywords
  | leaf => [leaf]

def leavesOfItems : List Expr → List Expr
  | [] => []
  | item :: rest => item.leaves ++ leavesOfItems rest

def leavesOfKeywords : List (String × Expr) → List Expr
  | [] => []
  | (_, value) :: rest => value.leaves ++ leavesOfKeywords rest
end

end TableModels.Code
