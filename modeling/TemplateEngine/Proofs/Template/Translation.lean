import TemplateEngine.Proofs.Template.Outline
import TemplateEngine.Syntax.Tree
import TemplateEngine.Template.Generated

/-!
# The program that an outline stands for

The direct translation of an outline: a text becomes the call that appends it, a
print the call that appends the value of its name, filtered or not, and a block
the statement of its header with the translations of its bodies. Statements and
except clauses are labelled by the place they come from, a row of the program
and a line of the template, so that one translation serves for both.
-/
namespace TemplateEngine.Outline

/-- A row of the program and the line of the template that it comes from. -/
structure Place where
  row : Nat
  line : Nat
  deriving DecidableEq, Repr

/-- The number of rows that the code of a part takes. -/
def Part.rowCount : Part → Nat
  | .text t => t.newlines + 1
  | .closing _ => 0
  | .print _ _ | .opening _ | .clause _ => 1

/-- The number of rows that the code of parts takes. -/
def rowCounts : List Part → Nat
  | [] => 0
  | part :: ps => part.rowCount + rowCounts ps

theorem rowCounts_append (ps qs : List Part) :
    rowCounts (ps ++ qs) = rowCounts ps + rowCounts qs := by
  induction ps with
  | nil => simp [rowCounts]
  | cons part ps ih => rw [List.cons_append, rowCounts, rowCounts, ih, Nat.add_assoc]

namespace Place

/-- The first place. -/
def start : Place := ⟨1, 1⟩

/-- The place after parts. -/
def past (place : Place) (ps : List Part) : Place :=
  ⟨place.row + rowCounts ps, place.line + lineBreaks ps⟩

end Place

/-- A call of the function that appends to the output. -/
def appendCall (value : Expr) : Action := .expr (.call (.name Draft.appendName) [value] [])

/-- A call of the filter. -/
def filterCall (value : Expr) : Expr := .call (.name Draft.filterName) [value] []

/-- A clause with its label and the statements of its body. -/
abbrev ClauseBlock := Clause × Nat × Block

/-- The further branches of a conditional. -/
def branches : List ClauseBlock → List (Expr × Block)
  | [] => []
  | (.elif n, _, body) :: clauses => (.name n.text, body) :: branches clauses
  | _ :: clauses => branches clauses

/-- The last branch of a conditional. -/
def otherwise? : List ClauseBlock → Option Block
  | [] => none
  | (.otherwise, _, body) :: _ => some body
  | _ :: clauses => otherwise? clauses

/-- The handlers of an attempt. -/
def handlers : List ClauseBlock → List Handler
  | [] => []
  | (.except k v, label, body) :: clauses =>
    .clause (some (.name k.text)) (some v.text) body label :: handlers clauses
  | _ :: clauses => handlers clauses

/-- The cleanup of an attempt. -/
def cleanup? : List ClauseBlock → Option Block
  | [] => none
  | (.cleanup, _, body) :: _ => some body
  | _ :: clauses => cleanup? clauses

/-- What the statement of a block does. -/
def Header.action (body : Block) (clauses : List ClauseBlock) : Header → Action
  | .ifTrue n => .branch ((.name n.text, body) :: branches clauses) (otherwise? clauses)
  | .forEach v n => .forEach (.name v.text) (.name n.text) body
  | .whileTrue n => .whileTrue (.name n.text) body
  | .attempt => .attempt body (handlers clauses) (cleanup? clauses)
  | .capture x =>
    .within (.call (.name "capture".toList) [.constant (.str x.text)] []) none body

section Translation

variable (label : Place → Nat)

mutual

/-- The statement of an item at a place. -/
def Item.translate (place : Place) : Item → Stmt
  | .text t => .at (label place) (appendCall (.constant (.str t)))
  | .print raw n =>
    .at (label place) (appendCall (if raw then .name n.text else filterCall (.name n.text)))
  | .block header body clauses _ =>
    let inside := place.past [.opening header]
    .at (label place)
      (header.action (translate inside body) (translateClauses (inside.past (parts body)) clauses))

/-- The statements of items, the first of them at a place. -/
def translate (place : Place) : List Item → Block
  | [] => []
  | item :: items => item.translate place :: translate (place.past item.parts) items

/-- The clauses of a block with the statements of their bodies. -/
def translateClauses (place : Place) : List (Clause × List Item) → List ClauseBlock
  | [] => []
  | (clause, body) :: clauses =>
    let inside := place.past [.clause clause]
    (clause, label place, translate inside body) ::
      translateClauses (inside.past (parts body)) clauses

end

end Translation

end TemplateEngine.Outline
