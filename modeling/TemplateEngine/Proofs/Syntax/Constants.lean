import TemplateEngine.Number.Word
import TemplateEngine.Syntax.Tree

/-!
# Constants and lines of a tree

What a tree holds besides its shape: the constants written out in it, and the lines
that its statements and except clauses name.
-/
namespace TemplateEngine

/-- An integer of 64 bits, or a constant of another kind. -/
def Constant.Fits : Constant → Prop
  | int n => Word.Fits n
  | _ => True

mutual

/-- The constants in an expression. -/
def Expr.constants (e : Expr) : List Constant :=
  match e with
  | .constant c => [c]
  | .name _ => []
  | .list items => constantsAll items
  | .tuple items => constantsAll items
  | .dict entries => constantsEntries entries
  | .attribute object _ => object.constants
  | .index object key => object.constants ++ key.constants
  | .slice object start stop => object.constants ++ (constantsBound start ++ constantsBound stop)
  | .call function args keywords =>
    function.constants ++ (constantsAll args ++ constantsKeywords keywords)
  | .unary _ operand => operand.constants
  | .binary _ lhs rhs => lhs.constants ++ rhs.constants
  | .compare _ lhs rhs => lhs.constants ++ rhs.constants
  | .and lhs rhs => lhs.constants ++ rhs.constants
  | .or lhs rhs => lhs.constants ++ rhs.constants
  | .not operand => operand.constants
  | .conditional condition thenValue elseValue =>
    condition.constants ++ (thenValue.constants ++ elseValue.constants)
  termination_by structural e

/-- The constants in expressions. -/
def constantsAll (es : List Expr) : List Constant :=
  match es with
  | [] => []
  | e :: es => e.constants ++ constantsAll es
  termination_by structural es

/-- The constants in the entries of a dict. -/
def constantsEntries (entries : List (Expr × Expr)) : List Constant :=
  match entries with
  | [] => []
  | (key, value) :: entries => key.constants ++ (value.constants ++ constantsEntries entries)
  termination_by structural entries

/-- The constants in named arguments. -/
def constantsKeywords (keywords : List (Text × Expr)) : List Constant :=
  match keywords with
  | [] => []
  | (_, value) :: keywords => value.constants ++ constantsKeywords keywords
  termination_by structural keywords

/-- The constants in a bound, if there is one. -/
def constantsBound (bound : Option Expr) : List Constant :=
  match bound with
  | none => []
  | some e => e.constants
  termination_by structural bound

end

/-- The constants in a target. -/
def Target.constants : Target → List Constant
  | .name _ => []
  | .index object key => object.constants ++ key.constants
  | .unpack _ => []

mutual

/-- The constants in a statement. -/
def Stmt.constants (s : Stmt) : List Constant :=
  match s with
  | .at _ action => action.constants
  termination_by structural s

/-- The constants in what a statement does. -/
def Action.constants (a : Action) : List Constant :=
  match a with
  | .expr value => value.constants
  | .assign target value => target.constants ++ value.constants
  | .augAssign target _ value => target.constants ++ value.constants
  | .branch branches otherwise => constantsBranches branches ++ constantsOption otherwise
  | .forEach target items body => target.constants ++ (items.constants ++ constantsBlock body)
  | .whileTrue condition body => condition.constants ++ constantsBlock body
  | .attempt body handlers cleanup =>
    constantsBlock body ++ (constantsHandlers handlers ++ constantsOption cleanup)
  | .raise exception => constantsBound exception
  | .within context _ body => context.constants ++ constantsBlock body
  | .pass => []
  | .breakLoop => []
  | .continueLoop => []
  termination_by structural a

/-- The constants in statements. -/
def constantsBlock (stmts : List Stmt) : List Constant :=
  match stmts with
  | [] => []
  | s :: stmts => s.constants ++ constantsBlock stmts
  termination_by structural stmts

/-- The constants in the branches of a conditional statement. -/
def constantsBranches (branches : List (Expr × List Stmt)) : List Constant :=
  match branches with
  | [] => []
  | (condition, body) :: branches =>
    condition.constants ++ (constantsBlock body ++ constantsBranches branches)
  termination_by structural branches

/-- The constants in except clauses. -/
def constantsHandlers (handlers : List Handler) : List Constant :=
  match handlers with
  | [] => []
  | .clause matcher _ body _ :: handlers =>
    constantsBound matcher ++ (constantsBlock body ++ constantsHandlers handlers)
  termination_by structural handlers

/-- The constants in a block that may be absent. -/
def constantsOption (block : Option (List Stmt)) : List Constant :=
  match block with
  | none => []
  | some body => constantsBlock body
  termination_by structural block

end

mutual

/-- The lines that a statement names. -/
def Stmt.lines (s : Stmt) : List Nat :=
  match s with
  | .at line action => line :: action.lines
  termination_by structural s

/-- The lines that what a statement does names. -/
def Action.lines (a : Action) : List Nat :=
  match a with
  | .branch branches otherwise => linesBranches branches ++ linesOption otherwise
  | .forEach _ _ body => linesBlock body
  | .whileTrue _ body => linesBlock body
  | .attempt body handlers cleanup =>
    linesBlock body ++ (linesHandlers handlers ++ linesOption cleanup)
  | .within _ _ body => linesBlock body
  | _ => []
  termination_by structural a

/-- The lines that statements name. -/
def linesBlock (stmts : List Stmt) : List Nat :=
  match stmts with
  | [] => []
  | s :: stmts => s.lines ++ linesBlock stmts
  termination_by structural stmts

/-- The lines that the branches of a conditional statement name. -/
def linesBranches (branches : List (Expr × List Stmt)) : List Nat :=
  match branches with
  | [] => []
  | (_, body) :: branches => linesBlock body ++ linesBranches branches
  termination_by structural branches

/-- The lines that except clauses name. -/
def linesHandlers (handlers : List Handler) : List Nat :=
  match handlers with
  | [] => []
  | .clause _ _ body line :: handlers => line :: (linesBlock body ++ linesHandlers handlers)
  termination_by structural handlers

/-- The lines that a block which may be absent names. -/
def linesOption (block : Option (List Stmt)) : List Nat :=
  match block with
  | none => []
  | some body => linesBlock body
  termination_by structural block

end

theorem fits_append {constants others : List Constant} :
    (∀ c ∈ constants ++ others, c.Fits) ↔
      (∀ c ∈ constants, c.Fits) ∧ ∀ c ∈ others, c.Fits := by
  simp only [List.mem_append, or_imp, forall_and]

/-- Lines that are machine words without a sign. -/
def LinesFit (lines : List Nat) : Prop := ∀ n ∈ lines, n < 0x10000000000000000

theorem linesFit_append {lines others : List Nat} :
    LinesFit (lines ++ others) ↔ LinesFit lines ∧ LinesFit others := by
  unfold LinesFit
  simp only [List.mem_append, or_imp, forall_and]

theorem linesFit_cons {n : Nat} {lines : List Nat} :
    LinesFit (n :: lines) ↔ n < 0x10000000000000000 ∧ LinesFit lines := by
  unfold LinesFit
  simp only [List.mem_cons, forall_eq_or_imp]

end TemplateEngine
