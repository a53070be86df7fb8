import TemplateEngine.Proofs.Syntax.ExpressionText
import TemplateEngine.Syntax.Parser.Statement

/-!
# The text of a program

A program is written with one statement in a row and two blanks for every level of
indentation. A block has a header that ends in a colon and the rows of its statements
one level deeper, and no rows at all where it is empty. The rows of a program give the
lines that its statements and except clauses stand on.
-/
namespace TemplateEngine

open Lexeme Parser

/-- A row of code inside a number of blocks. -/
structure CodeRow where
  depth : Nat
  code : List Lexeme

namespace CodeRow

/-- A row as it is written, when it stands inside further blocks. -/
def text (outer : Nat) (row : CodeRow) : Text :=
  Draft.indentation (outer + row.depth) ++ line row.code ++ ['\n']

/-- Rows as they are written. -/
def textAll (outer : Nat) (rows : List CodeRow) : Text := rows.flatMap (text outer)

/-- Rows inside one more block. -/
def inner (rows : List CodeRow) : List CodeRow :=
  rows.map fun row => { row with depth := row.depth + 1 }

@[simp] theorem textAll_nil (outer : Nat) : textAll outer [] = [] := rfl

@[simp] theorem textAll_cons (outer : Nat) (row : CodeRow) (rows : List CodeRow) :
    textAll outer (row :: rows) = row.text outer ++ textAll outer rows := List.flatMap_cons

@[simp] theorem textAll_append (outer : Nat) (rows others : List CodeRow) :
    textAll outer (rows ++ others) = textAll outer rows ++ textAll outer others :=
  List.flatMap_append

@[simp] theorem textAll_inner (outer : Nat) (rows : List CodeRow) :
    textAll outer (inner rows) = textAll (outer + 1) rows := by
  have hrow : ∀ row : CodeRow, text outer { row with depth := row.depth + 1 } =
      text (outer + 1) row := by
    intro row
    rw [text, text, Nat.add_right_comm outer 1, Nat.add_assoc]
  rw [textAll, inner, List.flatMap_map]
  exact congrArg (fun f => rows.flatMap f) (funext hrow)

@[simp] theorem length_inner (rows : List CodeRow) : (inner rows).length = rows.length :=
  List.length_map _

end CodeRow

/-- The sign of an augmented assignment, if its operator has one. -/
def BinaryOp.augmentedSign? : BinaryOp → Option Symbol
  | add => some .plusEquals
  | sub => some .minusEquals
  | mul => some .starEquals
  | _ => none

/-- Names with commas between them. -/
def printNames (names : List Text) : List Lexeme := printItems (names.map .name) []

/-- A target as it is written. One name by itself has a comma behind it, unlike the name it
would be read as otherwise. -/
def Target.print : Target → List Lexeme
  | .name n => [.word n]
  | .index object key => (Expr.index object key).print
  | .unpack [] => (Expr.tuple []).print
  | .unpack [n] => [.word n, .sign .comma]
  | .unpack names => printNames names

/-- The name that a context or an exception is bound to, if there is one. -/
def printAlias : Option Text → List Lexeme
  | none => []
  | some n => [.blank, .word "as".toList, .blank, .word n]

/-- A word and an expression behind it. -/
def printWith (word : Text) (e : Expr) : List Lexeme := .word word :: .blank :: e.print

/-- A raise of an exception, or of the one at hand. -/
def printRaise : Option Expr → List Lexeme
  | none => [.word "raise".toList]
  | some e => printWith "raise".toList e

/-- The header of an except clause, without its colon. -/
def printExcept (matcher : Option Expr) (name : Option Text) : List Lexeme :=
  match matcher with
  | none => [.word "except".toList]
  | some e => printWith "except".toList e ++ printAlias name

/-- The row of a header and the rows of its block. -/
def blockRows (header : List Lexeme) (body : List CodeRow) : List CodeRow :=
  ⟨0, header ++ [.sign .colon]⟩ :: CodeRow.inner body

mutual

/-- The rows of a statement. -/
def Stmt.rows (s : Stmt) : List CodeRow :=
  match s with
  | .at _ action => action.rows
  termination_by structural s

/-- The rows of what a statement does. -/
def Action.rows (a : Action) : List CodeRow :=
  match a with
  | .expr value => [⟨0, value.print⟩]
  | .assign target value =>
    [⟨0, target.print ++ .blank :: .sign .equals :: .blank :: value.print⟩]
  | .augAssign target op value =>
    [⟨0, target.print ++ .blank :: ((op.augmentedSign?.map .sign).toList ++
      .blank :: value.print)⟩]
  | .branch branches otherwise =>
    branchRows "if".toList branches ++ optionRows "else".toList otherwise
  | .forEach target items body =>
    blockRows (.word "for".toList :: .blank :: (target.print ++
      .blank :: printWith "in".toList items)) (stmtRows body)
  | .whileTrue condition body => blockRows (printWith "while".toList condition) (stmtRows body)
  | .attempt body handlers cleanup =>
    blockRows [.word "try".toList] (stmtRows body) ++
      (handlerRows handlers ++ optionRows "finally".toList cleanup)
  | .raise exception => [⟨0, printRaise exception⟩]
  | .within context name body =>
    blockRows (printWith "with".toList context ++ printAlias name) (stmtRows body)
  | .pass => [⟨0, [.word "pass".toList]⟩]
  | .breakLoop => [⟨0, [.word "break".toList]⟩]
  | .continueLoop => [⟨0, [.word "continue".toList]⟩]
  termination_by structural a

/-- The rows of statements. -/
def stmtRows (stmts : List Stmt) : List CodeRow :=
  match stmts with
  | [] => []
  | s :: stmts => s.rows ++ stmtRows stmts
  termination_by structural stmts

/-- The rows of the branches of a conditional statement, the first one behind `word`. -/
def branchRows (word : Text) (branches : List (Expr × List Stmt)) : List CodeRow :=
  match branches with
  | [] => []
  | (condition, body) :: branches =>
    blockRows (printWith word condition) (stmtRows body) ++ branchRows "elif".toList branches
  termination_by structural branches

/-- The rows of except clauses. -/
def handlerRows (handlers : List Handler) : List CodeRow :=
  match handlers with
  | [] => []
  | .clause matcher name body _ :: handlers =>
    blockRows (printExcept matcher name) (stmtRows body) ++ handlerRows handlers
  termination_by structural handlers

/-- The rows of a block behind `word`, if there is one. -/
def optionRows (word : Text) (block : Option (List Stmt)) : List CodeRow :=
  match block with
  | none => []
  | some body => blockRows [.word word] (stmtRows body)
  termination_by structural block

end

mutual

/-- A statement that stands on a line, with the lines of everything in it. -/
def Stmt.numbered (line : Nat) (s : Stmt) : Stmt :=
  match s with
  | .at _ action => .at line (action.numbered line)
  termination_by structural s

/-- What a statement on a line does, with the lines of everything in it. -/
def Action.numbered (line : Nat) (a : Action) : Action :=
  match a with
  | .branch branches otherwise =>
    .branch (numberedBranches line branches)
      (numberedOption (line + (branchRows "if".toList branches).length) otherwise)
  | .forEach target items body => .forEach target items (numberedStmts (line + 1) body)
  | .whileTrue condition body => .whileTrue condition (numberedStmts (line + 1) body)
  | .attempt body handlers cleanup =>
    let next := line + 1 + (stmtRows body).length
    .attempt (numberedStmts (line + 1) body) (numberedHandlers next handlers)
      (numberedOption (next + (handlerRows handlers).length) cleanup)
  | .within context name body => .within context name (numberedStmts (line + 1) body)
  | a => a
  termination_by structural a

/-- Statements that start on a line, each on that of its first row. -/
def numberedStmts (line : Nat) (stmts : List Stmt) : List Stmt :=
  match stmts with
  | [] => []
  | s :: stmts => s.numbered line :: numberedStmts (line + s.rows.length) stmts
  termination_by structural stmts

/-- The branches of a conditional statement, the first one on a line. -/
def numberedBranches (line : Nat) (branches : List (Expr × List Stmt)) :
    List (Expr × List Stmt) :=
  match branches with
  | [] => []
  | (condition, body) :: branches =>
    (condition, numberedStmts (line + 1) body) ::
      numberedBranches (line + 1 + (stmtRows body).length) branches
  termination_by structural branches

/-- Except clauses, the first one on a line. -/
def numberedHandlers (line : Nat) (handlers : List Handler) : List Handler :=
  match handlers with
  | [] => []
  | .clause matcher name body _ :: handlers =>
    .clause matcher name (numberedStmts (line + 1) body) line ::
      numberedHandlers (line + 1 + (stmtRows body).length) handlers
  termination_by structural handlers

/-- A block behind a header on a line, if there is one. -/
def numberedOption (line : Nat) (block : Option (List Stmt)) : Option (List Stmt) :=
  match block with
  | none => none
  | some body => some (numberedStmts (line + 1) body)
  termination_by structural block

end

mutual

/-- How many blocks with statements nest in a statement. -/
def Stmt.nesting (s : Stmt) : Nat :=
  match s with
  | .at _ action => action.nesting
  termination_by structural s

/-- How many blocks with statements nest in what a statement does. -/
def Action.nesting (a : Action) : Nat :=
  match a with
  | .branch branches otherwise => max (nestingBranches branches) (nestingOption otherwise)
  | .forEach _ _ body => nestingBlock body
  | .whileTrue _ body => nestingBlock body
  | .attempt body handlers cleanup =>
    max (nestingBlock body) (max (nestingHandlers handlers) (nestingOption cleanup))
  | .within _ _ body => nestingBlock body
  | _ => 0
  termination_by structural a

/-- How many blocks nest in a block, itself included unless it is empty. -/
def nestingBlock (stmts : List Stmt) : Nat :=
  match stmts with
  | [] => 0
  | s :: stmts => max (s.nesting + 1) (nestingBlock stmts)
  termination_by structural stmts

/-- How many blocks nest in the branches of a conditional statement. -/
def nestingBranches (branches : List (Expr × List Stmt)) : Nat :=
  match branches with
  | [] => 0
  | (_, body) :: branches => max (nestingBlock body) (nestingBranches branches)
  termination_by structural branches

/-- How many blocks nest in except clauses. -/
def nestingHandlers (handlers : List Handler) : Nat :=
  match handlers with
  | [] => 0
  | .clause _ _ body _ :: handlers => max (nestingBlock body) (nestingHandlers handlers)
  termination_by structural handlers

/-- How many blocks nest in a block that may be absent. -/
def nestingOption (block : Option (List Stmt)) : Nat :=
  match block with
  | none => 0
  | some body => nestingBlock body
  termination_by structural block

end

/-- An expression that the grammar admits and that is not too high. -/
structure Expr.Plain (e : Expr) : Prop where
  grammatical : e.Grammatical
  height : e.height ≤ 45

/-- What the left of an assignment can be. -/
def Target.Plain : Target → Prop
  | .name n => IsName n
  | .index object key => object.Plain ∧ key.Plain
  | .unpack names => ∀ n ∈ names, IsName n

/-- What a loop can bind: a name, or several names. -/
def Target.Loops : Target → Prop
  | .name n => IsName n
  | .index _ _ => False
  | .unpack names => 2 ≤ names.length ∧ ∀ n ∈ names, IsName n

/-- The statements of an except clause. -/
def Handler.body : Handler → List Stmt
  | .clause _ _ body _ => body

/-- What an except clause can catch: everything, or exceptions of a kind, which it may bind
to a name. -/
def Handler.Plain : Handler → Prop
  | .clause none name _ _ => name = none
  | .clause (some e) name _ _ => e.Plain ∧ ∀ n ∈ name, IsName n

/-- What the statements of a program can do, inside a loop or not. -/
inductive Action.Grammatical : Bool → Action → Prop
  | expr {inLoop : Bool} {value : Expr} : value.Plain → Grammatical inLoop (.expr value)
  | assign {inLoop : Bool} {target : Target} {value : Expr} : target.Plain → value.Plain →
      Grammatical inLoop (.assign target value)
  | augAssign {inLoop : Bool} {target : Target} {op : BinaryOp} {value : Expr} :
      target.Plain → (∀ names, target ≠ .unpack names) → op.augmentedSign?.isSome →
      value.Plain → Grammatical inLoop (.augAssign target op value)
  | branch {inLoop : Bool} {branches : List (Expr × List Stmt)} {otherwise : Option (List Stmt)} :
      branches ≠ [] → (∀ b ∈ branches, b.1.Plain) →
      (∀ b ∈ branches, ∀ s ∈ b.2, Grammatical inLoop s.action) →
      (∀ body ∈ otherwise, ∀ s ∈ body, Grammatical inLoop s.action) →
      Grammatical inLoop (.branch branches otherwise)
  | forEach {inLoop : Bool} {target : Target} {items : Expr} {body : List Stmt} :
      target.Loops → items.Plain → (∀ s ∈ body, Grammatical true s.action) →
      Grammatical inLoop (.forEach target items body)
  | whileTrue {inLoop : Bool} {condition : Expr} {body : List Stmt} : condition.Plain →
      (∀ s ∈ body, Grammatical true s.action) → Grammatical inLoop (.whileTrue condition body)
  | attempt {inLoop : Bool} {body : List Stmt} {handlers : List Handler}
      {cleanup : Option (List Stmt)} : (handlers ≠ [] ∨ cleanup ≠ none) →
      (∀ s ∈ body, Grammatical inLoop s.action) → (∀ handler ∈ handlers, handler.Plain) →
      (∀ handler ∈ handlers, ∀ s ∈ handler.body, Grammatical inLoop s.action) →
      (∀ body ∈ cleanup, ∀ s ∈ body, Grammatical inLoop s.action) →
      Grammatical inLoop (.attempt body handlers cleanup)
  | raise {inLoop : Bool} {exception : Option Expr} : (∀ e ∈ exception, e.Plain) →
      Grammatical inLoop (.raise exception)
  | within {inLoop : Bool} {context : Expr} {name : Option Text} {body : List Stmt} :
      context.Plain → (∀ n ∈ name, IsName n) → (∀ s ∈ body, Grammatical inLoop s.action) →
      Grammatical inLoop (.within context name body)
  | pass {inLoop : Bool} : Grammatical inLoop .pass
  | breakLoop : Grammatical true .breakLoop
  | continueLoop : Grammatical true .continueLoop

/-- A program that the grammar admits, with blocks that nest as deep as they may at most. -/
structure Block.Grammatical (program : Block) : Prop where
  statements : ∀ s ∈ program, s.action.Grammatical false
  nesting : ∀ s ∈ program, s.nesting ≤ 100

/-- The text of a program. -/
def Block.text (program : Block) : Text := CodeRow.textAll 0 (stmtRows program)

/-- A program with the lines that its statements and except clauses are written on. -/
def Block.numbered (program : Block) : Block := numberedStmts 1 program

end TemplateEngine
