import TemplateEngine.Proofs.Script.HandlerStack
import TemplateEngine.Proofs.Script.RaisedLines
import TemplateEngine.Render.Page

/-!
# Raising again, and cleaning up with nothing

A statement with a try around a block may raise again whatever it catches, or have a cleanup
that does nothing. Either way the only trace of it would be a line for an exception that has
none. An exception that leaves a statement on a line has one, so there is no trace: the block
behaves as it does alone, whatever is in it and whatever is being handled around it.
-/
namespace TemplateEngine

/-- An exception that has a line keeps it. -/
theorem Raised.atLine_of_placed {r : Raised} (hplaced : 1 ≤ r.line) (line : Nat) :
    r.atLine line = r := by
  unfold Raised.atLine
  rw [if_neg (by omega)]

namespace Run

variable {ω α : Type}

/-- A computation whose exceptions have a line. -/
abbrev Placed (x : Run ω α) : Prop := x.Blames (1 ≤ ·) fun _ => True

/-- On a line, whatever is raised gets a line. -/
theorem placed_atLine {line : Nat} (hline : 1 ≤ line) (x : Run ω α) : Placed (atLine line x) := by
  apply blames_atLine hline
  constructor
  · intro _ _ _ _
    trivial
  · intro _ _ r _
    exact r.line.eq_zero_or_pos

theorem Placed.atLine_eq {x : Run ω α} (hx : Placed x) (line : Nat) : atLine line x = x := by
  funext s
  unfold atLine
  split
  · rename_i r s' hraised
    rw [hraised, Raised.atLine_of_placed (hx.raised hraised)]
  · rfl

/-- What is caught and not handled is as if it had not been caught. -/
theorem attempt_settle (x : Run ω α) : attempt x >>= settle = x := by
  funext s
  show EStateM.bind (attempt x) settle s = x s
  unfold EStateM.bind attempt
  rcases x s with ⟨a, s'⟩ | ⟨⟨r⟩ | _, s'⟩ <;> rfl

/-- A cleanup that comes to nothing leaves what was pending. -/
theorem afterCleanup_normal (pending : Except Raised Flow) :
    afterCleanup (pure .normal : Run ω Flow) pending = settle pending := rfl

end Run

/-- A try around a block that raises again whatever it catches. -/
def Stmt.reraising (line clause inner : Nat) (body : Block) : Stmt :=
  .at line (.attempt body [.clause none none [.at inner (.raise none)] clause] none)

/-- A try around a block with a cleanup that does nothing. -/
def Stmt.cleaning (line inner : Nat) (body : Block) : Stmt :=
  .at line (.attempt body [] (some [.at inner .pass]))

section Transparency

variable {ω : Type} (host : Host ω) (fuel : Nat) (handling : List Raised)

/-- A statement that has a line gives it to whatever it raises. -/
theorem Stmt.placed_exec {stmt : Stmt} (hline : 1 ≤ stmt.line) :
    Run.Placed (stmt.exec host fuel handling) := by
  cases stmt with
  | «at» line action =>
      rw [Stmt.exec]
      exact Run.placed_atLine hline _

theorem placed_execAll {body : Block} (hlines : ∀ stmt ∈ body, 1 ≤ stmt.line) :
    Run.Placed (execAll host fuel handling body) := by
  induction body with
  | nil =>
      rw [execAll]
      exact Run.blames_pure trivial
  | cons stmt body ih =>
      rw [List.forall_mem_cons] at hlines
      rw [execAll]
      apply Run.Blames.bind (stmt.placed_exec host fuel handling hlines.1)
      intro flow _
      cases flow with
      | normal => exact ih hlines.2
      | breakLoop => exact Run.blames_pure trivial
      | continueLoop => exact Run.blames_pure trivial

/-- The bare raise of a handler raises what the handler handles. -/
theorem execHandlers_reraise (r : Raised) (clause inner : Nat) :
    execHandlers host fuel handling r [.clause none none [.at inner (.raise none)] clause] =
      throw (.raised (r.atLine inner)) := rfl

/-- Raising again leaves no trace but the line of the raise, where an exception has none. -/
theorem Stmt.exec_reraising (line clause inner : Nat) (body : Block) :
    (Stmt.reraising line clause inner body).exec host fuel handling =
      Run.atLine line (Run.atLine inner (execAll host fuel handling body)) := by
  rw [Stmt.reraising, Stmt.exec, Action.exec, Run.atLine_eq_attempt inner]
  congr 1
  apply bind_congr
  intro outcome
  cases outcome with
  | ok flow => rfl
  | error r =>
      show Run.attempt (execHandlers host fuel handling r _) >>= _ = _
      rw [execHandlers_reraise]
      rfl

/-- A cleanup that does nothing leaves no trace but the line of its statement, where an exception
has none. -/
theorem Stmt.exec_cleaning (line inner : Nat) (body : Block) :
    (Stmt.cleaning line inner body).exec host fuel handling =
      Run.atLine line (execAll host fuel handling body) := by
  rw [Stmt.cleaning, Stmt.exec, Action.exec]
  congr 1
  refine Eq.trans ?_ (Run.attempt_settle _)
  apply bind_congr
  intro outcome
  cases outcome with
  | ok flow => rfl
  | error r => rfl

end Transparency

/-- Raising again whatever is caught, and a cleanup that does nothing, are transparent: around a
block whose statements have lines, each comes to what the block comes to, whatever is being
handled. With one stack of the exceptions being handled, this holds as well, and the stack is
the same afterwards. -/
theorem exec_transparent {ω : Type} (host : Host ω) (fuel : Nat) (handling : List Raised)
    {body : Block} (hlines : ∀ stmt ∈ body, 1 ≤ stmt.line) (line clause inner : Nat) :
    (Stmt.reraising line clause inner body).exec host fuel handling =
        execAll host fuel handling body ∧
      (Stmt.cleaning line inner body).exec host fuel handling =
        execAll host fuel handling body ∧
      ∀ s : State ω,
        execAllOn host.stacked fuel body (s.stacked handling) =
            Stacked.onState (State.stacked handling) (execAll host fuel handling body s) ∧
          (Stmt.reraising line clause inner body).execOn host.stacked fuel (s.stacked handling) =
            execAllOn host.stacked fuel body (s.stacked handling) ∧
          (Stmt.cleaning line inner body).execOn host.stacked fuel (s.stacked handling) =
            execAllOn host.stacked fuel body (s.stacked handling) := by
  have hplaced : Run.Placed (execAll host fuel handling body) :=
    placed_execAll host fuel handling hlines
  have hreraising : (Stmt.reraising line clause inner body).exec host fuel handling =
      execAll host fuel handling body := by
    rw [Stmt.exec_reraising, hplaced.atLine_eq, hplaced.atLine_eq]
  have hcleaning : (Stmt.cleaning line inner body).exec host fuel handling =
      execAll host fuel handling body := by
    rw [Stmt.exec_cleaning, hplaced.atLine_eq]
  refine ⟨hreraising, hcleaning, fun s => ?_⟩
  have hbody := stacks_execAll host fuel body handling s
  refine ⟨hbody, ?_, ?_⟩
  · rw [hbody, (Stmt.reraising line clause inner body).stacks_exec host fuel handling s, hreraising]
  · rw [hbody, (Stmt.cleaning line inner body).stacks_exec host fuel handling s, hcleaning]

/-- Catches a key error of its own, takes a note of it, and raises it again. -/
def notedKeyError : Block :=
  [.at 2 (.attempt [.at 3 (.raise (some (.name "KeyError")))]
    [.clause none none
      [.at 5 (.assign (.name ['x']) (.constant (.int 7))), .at 6 (.raise none)] 4] none)]

/-- A page that nothing has happened to. -/
def blankPage : State Unit := ⟨⟨.empty, ()⟩, Scope.start ⟨[], none⟩ [] 0⟩

/-- The page with the note. -/
def notedPage : State Unit := { blankPage with scope := blankPage.scope.assign ['x'] (.int 7) }

/-- Another exception that is being handled around. -/
def handledAround : List Raised := [⟨.raised .valueError ['o'], 9⟩]

theorem exec_transparent_noted :
    (∀ stmt ∈ notedKeyError, 1 ≤ stmt.line) ∧
      (Stmt.reraising 1 7 8 notedKeyError).exec Host.absent 0 handledAround blankPage =
        .error (.raised ⟨.raised .keyError [], 3⟩) notedPage ∧
      (Stmt.cleaning 1 8 notedKeyError).exec Host.absent 0 handledAround blankPage =
        .error (.raised ⟨.raised .keyError [], 3⟩) notedPage ∧
      (Stmt.reraising 1 7 8 notedKeyError).execOn Host.absent.stacked 0
          (blankPage.stacked handledAround) =
        .error (.raised ⟨.raised .keyError [], 3⟩) (notedPage.stacked handledAround) := by
  have hlines : ∀ stmt ∈ notedKeyError, 1 ≤ stmt.line := by decide
  obtain ⟨hreraising, hcleaning, hmachine⟩ :=
    exec_transparent (Host.absent : Host Unit) 0 handledAround hlines 1 7 8
  obtain ⟨hbody, hstacked, -⟩ := hmachine blankPage
  refine ⟨hlines, ?_, ?_, ?_⟩
  · rw [hreraising]
    rfl
  · rw [hcleaning]
    rfl
  · rw [hstacked, hbody]
    rfl

end TemplateEngine
