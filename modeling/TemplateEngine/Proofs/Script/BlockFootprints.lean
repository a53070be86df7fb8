import TemplateEngine.Proofs.Script.Footprints

/-!
# What blocks leave alone

What a block does to its page are the doings of its expressions, assignments of names, and
output that is taken back for a name. So a relation of states to later ones that has room
for these has room for all that a block does, however it ends.
-/
namespace TemplateEngine

variable {ω : Type}

/-- Room for whatever statements are put together from. -/
structure State.Roomy (host : Host ω) (rel : State ω → State ω → Prop) : Prop where
  effect : ∀ {α : Type} (x : Effect α), (Run.effect x).Leaves rel
  eval : ∀ e : Expr, (e.eval host).Leaves rel
  assign : ∀ name v, (Run.assign name v : Run ω Unit).Leaves rel
  takeSince : ∀ mark, (Run.takeSince mark : Run ω Text).Leaves rel

namespace Run

variable {α : Type} {rel : State ω → State ω → Prop}

/-- Where an exception comes from makes no difference to the state. -/
theorem Leaves.atLine {x : Run ω α} (hx : x.Leaves rel) (line : Nat) :
    Leaves rel (atLine line x) := by
  intro s
  have hsame : left (Run.atLine line x) s = x.left s := by
    unfold left Run.atLine
    rcases x s with ⟨a, s'⟩ | ⟨⟨r⟩ | _, s'⟩ <;> rfl
  rw [hsame]
  exact hx s

/-- Nor does catching it. -/
theorem Leaves.attempt {x : Run ω α} (hx : x.Leaves rel) : Leaves rel (attempt x) := by
  intro s
  have hsame : left (Run.attempt x) s = x.left s := by
    unfold left Run.attempt
    rcases x s with ⟨a, s'⟩ | ⟨⟨r⟩ | _, s'⟩ <;> rfl
  rw [hsame]
  exact hx s

variable [State.Growing rel]

theorem leaves_throw (stop : Stop) : Leaves rel (throw stop : Run ω α) :=
  fun s => State.Growing.refl s

theorem leaves_settle (outcome : Except Raised α) : Leaves rel (settle outcome : Run ω α) := by
  cases outcome with
  | ok a => exact leaves_pure a
  | error r => exact leaves_throw _

section Loops

variable {step : Value → Run ω Flow} (hstep : ∀ v, (step v).Leaves rel)
include hstep

theorem leaves_overList (items : List Value) : Leaves rel (overList step items) := by
  induction items with
  | nil => exact leaves_pure _
  | cons v items ih =>
      unfold overList
      apply (hstep v).bind
      intro flow
      split
      · exact ih
      · exact leaves_pure _

theorem leaves_overRange (distance : Int) (count : Nat) (n : Int) :
    Leaves rel (overRange step distance count n) := by
  induction count generalizing n with
  | zero => exact leaves_pure _
  | succ count ih =>
      unfold overRange
      apply (hstep (.int n)).bind
      intro flow
      split
      · exact ih (n + distance)
      · exact leaves_pure _

end Loops

theorem leaves_whileHolds {condition : Run ω Bool} {step : Run ω Flow}
    (hcondition : condition.Leaves rel) (hstep : step.Leaves rel) (fuel : Nat) :
    Leaves rel (whileHolds condition step fuel) := by
  induction fuel with
  | zero => exact leaves_throw _
  | succ fuel ih =>
      unfold whileHolds
      apply hcondition.bind
      intro holds
      split
      · apply hstep.bind
        intro flow
        split
        · exact ih
        · exact leaves_pure _
      · exact leaves_pure _

theorem leaves_captureName (v : Value) : Leaves rel (captureName v : Run ω Text) := by
  cases v with
  | capture name => exact leaves_pure _
  | _ => exact leaves_fail _

theorem leaves_afterCleanup {cleanup : Run ω Flow} (hcleanup : cleanup.Leaves rel)
    (pending : Except Raised Flow) : Leaves rel (afterCleanup cleanup pending) := by
  apply hcleanup.bind
  intro flow
  cases flow with
  | normal => exact leaves_settle pending
  | breakLoop => exact leaves_pure _
  | continueLoop => exact leaves_pure _

section Assigning

variable {host : Host ω} (hroomy : State.Roomy host rel)
include hroomy

theorem leaves_unpack (names : List Text) (v : Value) :
    Leaves rel (unpack names v : Run ω Unit) := by
  have hassign (pairs : List (Text × Value)) (s : State ω) : rel s { s with
      scope := pairs.foldl (fun s pair => s.assign pair.1 pair.2) s.scope } := by
    induction pairs generalizing s with
    | nil => exact State.Growing.refl s
    | cons pair pairs ih =>
        exact State.Growing.trans (hroomy.assign pair.1 pair.2 s) (ih _)
  unfold unpack
  apply (hroomy.effect _).bind
  intro items
  split
  · exact leaves_fail _
  · split
    · exact leaves_fail _
    · exact hassign _

theorem leaves_bind (target : Target) (v : Value) : Leaves rel (bind host target v) := by
  cases target with
  | name name => exact hroomy.assign name v
  | index object key =>
      apply (hroomy.eval object).bind
      intro container
      apply (hroomy.eval key).bind
      intro k
      exact hroomy.effect _
  | unpack names => exact leaves_unpack hroomy names v

theorem leaves_current (target : Target) : Leaves rel (current host target) := by
  cases target with
  | name name => exact leaves_lookup name
  | index object key =>
      apply (hroomy.eval object).bind
      intro container
      apply (hroomy.eval key).bind
      intro k
      exact hroomy.effect _
  | unpack names => exact leaves_fail _

theorem leaves_exception (handling : List Raised) (e : Option Expr) :
    Leaves rel (exception host handling e) := by
  cases e with
  | none => exact leaves_pure _
  | some e =>
      apply (hroomy.eval e).bind
      intro v
      split
      · exact leaves_pure _
      · exact leaves_pure _
      · exact leaves_fail _

theorem leaves_caught (matcher : Option Expr) (line : Nat) (r : Raised) :
    Leaves rel (caught host matcher line r) := by
  cases matcher with
  | none => exact leaves_pure _
  | some e =>
      apply Leaves.atLine
      apply (hroomy.eval e).bind
      intro v
      exact hroomy.effect _

theorem leaves_bindException (name : Option Text) (r : Raised) :
    Leaves rel (bindException name r : Run ω Unit) := by
  cases name with
  | none => exact leaves_pure _
  | some name =>
      apply (hroomy.effect _).bind
      intro identity
      exact hroomy.assign name _

theorem leaves_captured (name : Text) {body : Run ω Flow} (hbody : body.Leaves rel) :
    Leaves rel (captured name body) := by
  refine Leaves.bind (leaves_ofScope _) fun mark => ?_
  apply hbody.bind
  intro flow
  apply (hroomy.takeSince mark).bind
  intro text
  apply (hroomy.assign name _).bind
  intro _
  exact leaves_pure _

end Assigning

end Run

section Execution

variable {host : Host ω} (fuel : Nat) {rel : State ω → State ω → Prop}

open Run

mutual

/-- A statement has room wherever what it is put together from has. -/
theorem Stmt.leaves_exec [State.Growing rel] (hroomy : State.Roomy host rel) (stmt : Stmt)
    (handling : List Raised) : (stmt.exec host fuel handling).Leaves rel := by
  match stmt with
  | .at line action =>
      rw [Stmt.exec]
      exact (action.leaves_exec hroomy handling).atLine line

theorem Action.leaves_exec [State.Growing rel] (hroomy : State.Roomy host rel) (action : Action)
    (handling : List Raised) : (action.exec host fuel handling).Leaves rel := by
  match action with
  | .expr value =>
      rw [Action.exec]
      apply (hroomy.eval value).bind
      intro v
      exact leaves_pure _
  | .assign target value =>
      rw [Action.exec]
      apply (hroomy.eval value).bind
      intro v
      apply (leaves_bind hroomy target v).bind
      intro _
      exact leaves_pure _
  | .augAssign target op value =>
      rw [Action.exec]
      apply (leaves_current hroomy target).bind
      intro old
      apply (hroomy.eval value).bind
      intro v
      apply (hroomy.effect _).bind
      intro new
      apply (leaves_bind hroomy target new).bind
      intro _
      exact leaves_pure _
  | .branch branches otherwise =>
      rw [Action.exec]
      exact leaves_execBranches hroomy branches handling
        (leaves_execOption hroomy otherwise handling)
  | .forEach target items body =>
      have hstep (v : Value) : Leaves rel
          (Run.bind host target v >>= fun _ => execAll host fuel handling body) := by
        apply (leaves_bind hroomy target v).bind
        intro _
        exact leaves_execAll hroomy body handling
      rw [Action.exec]
      apply (hroomy.eval items).bind
      intro v
      split
      · apply (leaves_overRange hstep _ _ _).bind
        intro _
        exact leaves_pure _
      · apply (hroomy.effect _).bind
        intro values
        apply (leaves_overList hstep values).bind
        intro _
        exact leaves_pure _
  | .whileTrue condition body =>
      rw [Action.exec]
      apply (leaves_whileHolds ?_ (leaves_execAll hroomy body handling) fuel).bind
      · intro _
        exact leaves_pure _
      · apply (hroomy.eval condition).bind
        intro v
        exact leaves_truthy v
  | .attempt body handlers cleanup =>
      have hcleanup := leaves_execOption hroomy cleanup handling
      rw [Action.exec]
      apply (leaves_execAll hroomy body handling).attempt.bind
      intro outcome
      cases outcome with
      | ok flow =>
          refine Leaves.bind (leaves_pure _) fun outcome => ?_
          exact leaves_afterCleanup hcleanup outcome
      | error r =>
          apply (leaves_execHandlers hroomy handlers handling r).attempt.bind
          intro outcome
          exact leaves_afterCleanup hcleanup outcome
  | .raise e =>
      rw [Action.exec]
      apply (leaves_exception hroomy handling e).bind
      intro r
      exact leaves_throw _
  | .within context name body =>
      have hcaptured (target : Text) :
          (captured target (execAll host fuel handling body)).Leaves rel :=
        leaves_captured hroomy target (leaves_execAll hroomy body handling)
      rw [Action.exec]
      apply (hroomy.eval context).bind
      intro v
      refine Leaves.bind (leaves_captureName v) fun target => ?_
      cases name with
      | none => exact hcaptured target
      | some name =>
          apply (hroomy.assign name v).bind
          intro _
          exact hcaptured target
  | .pass =>
      rw [Action.exec]
      exact leaves_pure _
  | .breakLoop =>
      rw [Action.exec]
      exact leaves_pure _
  | .continueLoop =>
      rw [Action.exec]
      exact leaves_pure _

/-- So has a block. -/
theorem leaves_execAll [State.Growing rel] (hroomy : State.Roomy host rel) (stmts : List Stmt)
    (handling : List Raised) : (execAll host fuel handling stmts).Leaves rel := by
  match stmts with
  | [] =>
      rw [execAll]
      exact leaves_pure _
  | stmt :: stmts =>
      rw [execAll]
      apply (stmt.leaves_exec hroomy handling).bind
      intro flow
      cases flow with
      | normal => exact leaves_execAll hroomy stmts handling
      | breakLoop => exact leaves_pure _
      | continueLoop => exact leaves_pure _

theorem leaves_execOption [State.Growing rel] (hroomy : State.Roomy host rel)
    (block : Option (List Stmt)) (handling : List Raised) : (execOption host fuel handling block).Leaves rel := by
  match block with
  | none =>
      rw [execOption]
      exact leaves_pure _
  | some body =>
      rw [execOption]
      exact leaves_execAll hroomy body handling

theorem leaves_execBranches [State.Growing rel] (hroomy : State.Roomy host rel)
    (branches : List (Expr × List Stmt)) (handling : List Raised) {otherwise : Run ω Flow}
    (hotherwise : otherwise.Leaves rel) :
    (execBranches host fuel handling branches otherwise).Leaves rel := by
  match branches with
  | [] =>
      rw [execBranches]
      exact hotherwise
  | (condition, body) :: branches =>
      rw [execBranches]
      apply (hroomy.eval condition).bind
      intro v
      refine Leaves.bind (leaves_truthy v) fun holds => ?_
      split
      · exact leaves_execAll hroomy body handling
      · exact leaves_execBranches hroomy branches handling hotherwise

theorem leaves_execHandlers [State.Growing rel] (hroomy : State.Roomy host rel) (handlers : List Handler)
    (handling : List Raised) (r : Raised) :
    (execHandlers host fuel handling r handlers).Leaves rel := by
  match handlers with
  | [] =>
      rw [execHandlers]
      exact leaves_throw _
  | .clause matcher name body line :: handlers =>
      rw [execHandlers]
      apply (leaves_caught hroomy matcher line r).bind
      intro caught
      split
      · apply (leaves_bindException hroomy name r).bind
        intro _
        exact leaves_execAll hroomy body (r :: handling)
      · exact leaves_execHandlers hroomy handlers handling r

end

end Execution

end TemplateEngine
