import TemplateEngine.Text.Basic

/-!
# Syntax trees

The tree of a program. Expressions have no effect on control flow. A statement
is an action together with the line it starts on, and an except clause has a
line of its own. Blocks are lists of statements and may be empty.
-/
namespace TemplateEngine

/-- A value that is written out. -/
inductive Constant where
  | none
  | bool (b : Bool)
  | int (n : Int)
  | float (x : Float)
  | str (t : Text)
  deriving DecidableEq, Repr

/-- An operator before its operand. -/
inductive UnaryOp where
  | neg
  | pos
  deriving DecidableEq, Repr

/-- An arithmetic operator. -/
inductive BinaryOp where
  | add
  | sub
  | mul
  | div
  | floorDiv
  | mod
  deriving DecidableEq, Repr

/-- A comparison. -/
inductive CompareOp where
  | eq
  | ne
  | lt
  | le
  | gt
  | ge
  | isIn
  | notIn
  | is
  | isNot
  deriving DecidableEq, Repr

/-- An arithmetic operator as it is written. -/
def BinaryOp.symbol : BinaryOp → String
  | add => "+"
  | sub => "-"
  | mul => "*"
  | div => "/"
  | floorDiv => "//"
  | mod => "%"

/-- An expression. -/
inductive Expr where
  | constant (value : Constant)
  | name (name : Text)
  | list (items : List Expr)
  | tuple (items : List Expr)
  | dict (entries : List (Expr × Expr))
  | attribute (object : Expr) (name : Text)
  | index (object index : Expr)
  | slice (object : Expr) (start stop : Option Expr)
  | call (function : Expr) (args : List Expr) (keywords : List (Text × Expr))
  | unary (op : UnaryOp) (operand : Expr)
  | binary (op : BinaryOp) (lhs rhs : Expr)
  | compare (op : CompareOp) (lhs rhs : Expr)
  | and (lhs rhs : Expr)
  | or (lhs rhs : Expr)
  | not (operand : Expr)
  | conditional (condition thenValue elseValue : Expr)
  deriving Repr, Inhabited

/-- What an assignment binds. -/
inductive Target where
  | name (name : Text)
  | index (object index : Expr)
  | unpack (names : List Text)
  deriving Repr

mutual

/-- An action with the line it starts on. -/
inductive Stmt where
  | at (line : Nat) (action : Action)

/-- What a statement does. -/
inductive Action where
  | expr (value : Expr)
  | assign (target : Target) (value : Expr)
  | augAssign (target : Target) (op : BinaryOp) (value : Expr)
  | branch (branches : List (Expr × List Stmt)) (otherwise : Option (List Stmt))
  | forEach (target : Target) (items : Expr) (body : List Stmt)
  | whileTrue (condition : Expr) (body : List Stmt)
  | attempt (body : List Stmt) (handlers : List Handler) (cleanup : Option (List Stmt))
  | raise (exception : Option Expr)
  | within (context : Expr) (name : Option Text) (body : List Stmt)
  | pass
  | breakLoop
  | continueLoop

/-- An except clause: the classes it catches, the name it binds, its body and line. -/
inductive Handler where
  | clause (matcher : Option Expr) (name : Option Text) (body : List Stmt) (line : Nat)

end

/-- Statements at one level of indentation. -/
abbrev Block := List Stmt

/-- The line a statement starts on. -/
def Stmt.line : Stmt → Nat
  | .at line _ => line

/-- What a statement does. -/
def Stmt.action : Stmt → Action
  | .at _ action => action

/-- The line of an except clause. -/
def Handler.line : Handler → Nat
  | .clause _ _ _ line => line

end TemplateEngine
