import TemplateEngine.Proofs.Script.Printing
import TemplateEngine.Proofs.Syntax.Phrases
import TemplateEngine.Render.Renderer

/-!
# Templates printed on a page

A page reaches the functions of its renderer by the name of the renderer, and prints the text
that they give. The text is safe, so it is printed as it is. If there is none, the page has
none either.
-/
namespace TemplateEngine

open Outline (appendCall filterCall)

/-- An end that came from a line, unless it came from elsewhere. -/
def Stop.atLine (line : Nat) : Stop → Stop
  | .raised r => .raised (r.atLine line)
  | .outOfFuel => .outOfFuel

namespace Run

variable {ω α β : Type}

theorem atLine_error {x : Run ω α} {s s' : State ω} {stop : Stop} (h : x s = .error stop s')
    (line : Nat) : Run.atLine line x s = .error (stop.atLine line) s' := by
  unfold Run.atLine
  rw [h]
  cases stop <;> rfl

end Run

theorem execAll_singleton {ω : Type} (host : Host ω) (fuel : Nat) (stmt : Stmt) :
    execAll host fuel [] [stmt] = stmt.exec host fuel [] := by
  funext s
  rw [execAll]
  show EStateM.bind _ _ s = _
  unfold EStateM.bind
  rcases stmt.exec host fuel [] s with ⟨_ | _ | _, _⟩ | _ <;> rfl

namespace Inclusion

variable {ω : Type}

/-- The function as pages write it. -/
def expr (f : Inclusion) : Expr := .attribute (.name Renderer.globalName) f.name.toList

/-- The name of the renderer leads to the function. -/
def Reachable (f : Inclusion) (s : State ω) : Prop :=
  ∃ own, s.scope.resolve? Renderer.globalName = some (.dict own) ∧
    Entries.get? f.name.toList (s.heap.dict own) = some (.function (.inclusion f))

theorem eval_expr (host : Host ω) {f : Inclusion} {s : State ω} (hreachable : f.Reachable s) :
    f.expr.eval host s = .ok (.function (.inclusion f)) s := by
  obtain ⟨own, hname, hentry⟩ := hreachable
  have hread : Run.effect (readAttribute (.dict own) f.name.toList) s =
      .ok (.function (.inclusion f)) s := by
    have hattribute : readAttribute (.dict own) f.name.toList s.heap =
        Effect.orFail (.noAttribute "dict" f.name.toList)
          (Entries.get? f.name.toList (s.heap.dict own)) s.heap := by
      cases f <;> rfl
    unfold Run.effect
    rw [hattribute, hentry]
    rfl
  rw [expr, Expr.eval, Printing.eval_name, Run.bind_ok (Run.lookup_resolved hname)]
  exact hread

/-- The lexemes of the line that a print of a call of the function becomes, by those of the
arguments. -/
def printLexemes (f : Inclusion) (args : List Lexeme) : List Lexeme :=
  [.word Draft.appendName, .mark '(' .leftParen, .word Draft.filterName, .mark '(' .leftParen,
    .blank, .word Renderer.globalName, .sign .dot, .word f.name.toList, .mark '(' .leftParen] ++
    (args ++ [.mark ')' .rightParen, .blank, .mark ')' .rightParen, .mark ')' .rightParen])

theorem fits_printLexemes (f : Inclusion) {args : List Lexeme} {rest : Text}
    (hargs : Lexeme.fits args (") ))".toList ++ rest)) : Lexeme.fits (f.printLexemes args) rest := by
  have hlatin : (!f.name.toList.isEmpty && f.name.toList.all Letter.isLatin) = true := by
    cases f <;> decide
  have hopen (t : Text) : Lexeme.endsWord ('(' :: t) := Lexeme.endsWord_cons (by decide) t
  have hsign (ls : List Lexeme) (t : Text) :
      Lexeme.endsSign (Lexeme.line (.word f.name.toList :: ls) ++ t) := by
    intro c hc
    cases f <;> (obtain rfl := Option.some.inj hc; decide)
  have hargs' := Lexeme.fits_append hargs
    (show Lexeme.fits [.mark ')' .rightParen, .blank, .mark ')' .rightParen, .mark ')' .rightParen]
      rest from ⟨by decide, by decide, by decide, trivial⟩)
  refine Lexeme.fits_append ?_ hargs'
  exact ⟨Lexeme.isWord_of_isLatin (by decide), hopen _, by decide,
    Lexeme.isWord_of_isLatin (by decide), hopen _, by decide,
    Lexeme.isWord_of_isLatin (by decide), Lexeme.endsWord_cons (by decide) _, hsign _ _,
    Lexeme.isWord_of_isLatin hlatin, hopen _, by decide, trivial⟩

end Inclusion

namespace Printing

variable {ω : Type} (host : Host ω) {e : Expr} {s s' : State ω}

/-- The statement of a tag that prints an expression. -/
def statement (line : Nat) (e : Expr) : Stmt := .at line (appendCall (filterCall e))

/-- Safe text is printed as it is. -/
theorem exec_statement {t : Text} (h : e.eval host s = .ok (.markup t) s') (fuel line : Nat) :
    (statement line e).exec host fuel [] s =
      .ok .normal { s' with scope := s'.scope.append t } :=
  exec_append host fuel line (eval_filterCall host h)

theorem eval_call_error {function : Text} {callee : Value} {stop : Stop}
    (hfunction : s.scope.resolve? function = some callee) (he : e.eval host s = .error stop s') :
    (Expr.call (.name function) [e] []).eval host s = .error stop s' := by
  have hargs : evalAll host [e] s = .error stop s' := by
    rw [evalAll, Run.bind_error _ he]
  rw [Expr.eval, eval_name, Run.bind_ok (Run.lookup_resolved hfunction), Run.bind_error _ hargs]

/-- Nothing is printed of what has no value. -/
theorem exec_statement_error {stop : Stop} (h : e.eval host s = .error stop s')
    (fuel line : Nat) :
    (statement line e).exec host fuel [] s = .error (stop.atLine line) s' := by
  have hfilter : (filterCall e).eval host s = .error stop s' := eval_call_error host rfl h
  have happend : (Expr.call (.name Draft.appendName) [filterCall e] []).eval host s =
      .error stop s' := eval_call_error host rfl hfilter
  have haction : (appendCall (filterCall e)).exec host fuel [] s = .error stop s' := by
    rw [appendCall, Action.exec, Run.bind_error _ happend]
  rw [statement, Stmt.exec]
  exact Run.atLine_error haction line

end Printing

end TemplateEngine
