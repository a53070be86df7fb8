import TemplateEngine.Script.Evaluation.Statement

/-!
# Parametricity of evaluation

A script is put together from results, failures, effects on the heap, looks at the scope,
changes of it, and what a host answers, one after the other; statements also throw and
catch. So a relation between runs that all of these keep relates the runs of one script
under hosts that are related.
-/
namespace TemplateEngine

/-- A relation between runs that whatever expressions are put together from keeps. -/
structure Run.Parametric {ω ω' : Type} (rel : ∀ α : Type, Run ω α → Run ω' α → Prop) : Prop where
  pure : ∀ {α : Type} (a : α), rel α (pure a) (pure a)
  fail : ∀ {α : Type} (cause : Cause), rel α (Run.fail cause) (Run.fail cause)
  effect : ∀ {α : Type} (x : Effect α), rel α (Run.effect x) (Run.effect x)
  ofScope : ∀ {α : Type} (f : Scope → α), rel α (Run.ofScope f) (Run.ofScope f)
  change : ∀ f : Scope → Scope, rel Unit (Run.change f) (Run.change f)
  bind : ∀ {α β : Type} {x : Run ω α} {y : Run ω' α} {f : α → Run ω β} {g : α → Run ω' β},
    rel α x y → (∀ a, rel β (f a) (g a)) → rel β (x >>= f) (y >>= g)

/-- A relation between runs that whatever statements are put together from keeps. -/
structure Run.FullyParametric {ω ω' : Type} (rel : ∀ α : Type, Run ω α → Run ω' α → Prop) :
    Prop extends Run.Parametric rel where
  throw : ∀ {α : Type} (stop : Stop), rel α (throw stop) (throw stop)
  attempt : ∀ {α : Type} {x : Run ω α} {y : Run ω' α}, rel α x y →
    rel (Except Raised α) (Run.attempt x) (Run.attempt y)

/-- Hosts whose answers are related. -/
def Host.Related {ω ω' : Type} (rel : ∀ α : Type, Run ω α → Run ω' α → Prop) (host : Host ω)
    (host' : Host ω') : Prop :=
  ∀ request vars, rel Text (Run.request host request vars) (Run.request host' request vars)

namespace Run.Parametric

variable {ω ω' : Type} {rel : ∀ α : Type, Run ω α → Run ω' α → Prop} (hrel : Run.Parametric rel)
include hrel

theorem reading {α : Type} (f : Heap → α) : rel α (Run.reading f) (Run.reading f) :=
  hrel.effect (Effect.reading f)

theorem lookup? (name : Text) : rel (Option Value) (Run.lookup? name) (Run.lookup? name) :=
  hrel.bind (hrel.ofScope id) fun s => hrel.effect (s.lookup name)

theorem takeSince (mark : Nat) : rel Text (Run.takeSince mark) (Run.takeSince mark) :=
  hrel.bind (hrel.ofScope fun s => (s.takeSince mark).1) fun taken =>
    hrel.bind (hrel.change fun s => (s.takeSince mark).2) fun _ => hrel.pure taken

theorem lookup (name : Text) : rel Value (Run.lookup name) (Run.lookup name) := by
  apply hrel.bind (hrel.lookup? name)
  intro found
  split
  · exact hrel.pure _
  · exact hrel.fail _

end Run.Parametric

section Calls

variable {ω ω' : Type} {rel : ∀ α : Type, Run ω α → Run ω' α → Prop} {host : Host ω}
  {host' : Host ω'}

theorem Helper.related_call (hrel : Run.Parametric rel) (f : Helper) (args : Arguments) :
    rel Value (f.call args) (f.call args) := by
  unfold Helper.call
  apply hrel.bind (hrel.effect _)
  intro v
  apply hrel.bind (hrel.reading _)
  intro text
  split
  · exact hrel.bind (hrel.change _) fun _ => hrel.pure _
  · exact hrel.bind (hrel.change _) fun _ => hrel.pure _
  · split
    · exact hrel.pure _
    · exact hrel.fail _
  · apply hrel.bind (hrel.lookup? text)
    intro found
    split
    · exact hrel.pure _
    · exact hrel.fail _
  · exact hrel.pure _

theorem Inclusion.related_call (hrel : Run.Parametric rel) (hhost : host.Related rel host')
    (f : Inclusion) (args : Arguments) : rel Value (f.call host args) (f.call host' args) := by
  unfold Inclusion.call
  dsimp only
  split
  · apply hrel.bind (hrel.effect _)
    intro _
    apply hrel.bind (hrel.effect _)
    intro name
    apply hrel.bind
    · apply hrel.bind (hrel.takeSince 0)
      intro body
      apply hrel.bind (hrel.ofScope _)
      intro visible
      exact hhost _ _
    · intro output
      exact hrel.pure _
  · apply hrel.bind (hrel.effect _)
    intro _
    apply hrel.bind (hrel.effect _)
    intro text
    apply hrel.bind (hrel.effect _)
    intro given
    apply hrel.bind (hhost _ _)
    intro output
    exact hrel.pure _

theorem Function.related_call (hrel : Run.Parametric rel) (hhost : host.Related rel host')
    (f : Function) (args : Arguments) : rel Value (f.call host args) (f.call host' args) := by
  cases f with
  | builtin f => exact hrel.effect _
  | helper f => exact Helper.related_call hrel f args
  | inclusion f => exact Inclusion.related_call hrel hhost f args
  | filter identity =>
      apply hrel.bind (hrel.effect _)
      intro v
      apply hrel.bind (hrel.reading _)
      intro text
      exact hrel.ofScope _
  | method identity m => exact hrel.effect _

theorem ExceptionKind.related_call (hrel : Run.Parametric rel) (kind : ExceptionKind)
    (args : Arguments) : rel Value (kind.call args) (kind.call args) := by
  apply hrel.bind (hrel.effect _)
  intro _
  apply hrel.bind (hrel.reading _)
  intro message
  apply hrel.bind (hrel.effect _)
  intro identity
  exact hrel.pure _

theorem Value.related_call (hrel : Run.Parametric rel) (hhost : host.Related rel host')
    (callee : Value) (args : Arguments) :
    rel Value (callee.call host args) (callee.call host' args) := by
  cases callee with
  | function f => exact Function.related_call hrel hhost f args
  | exceptionClass kind => exact ExceptionKind.related_call hrel kind args
  | _ => exact hrel.fail _

end Calls

section Evaluation

variable {ω ω' : Type} {rel : ∀ α : Type, Run ω α → Run ω' α → Prop} {host : Host ω}
  {host' : Host ω'}

mutual

/-- The values of an expression under related hosts are related. -/
theorem Expr.related_eval (hrel : Run.Parametric rel) (hhost : host.Related rel host')
    (e : Expr) : rel Value (e.eval host) (e.eval host') := by
  match e with
  | .constant c =>
      rw [Expr.eval, Expr.eval]
      exact hrel.pure _
  | .name name =>
      rw [Expr.eval, Expr.eval]
      exact hrel.lookup name
  | .list items =>
      rw [Expr.eval, Expr.eval]
      apply hrel.bind (related_evalAll hrel hhost items)
      intro values
      exact hrel.effect _
  | .tuple items =>
      rw [Expr.eval, Expr.eval]
      apply hrel.bind (related_evalAll hrel hhost items)
      intro values
      exact hrel.effect _
  | .dict entries =>
      rw [Expr.eval, Expr.eval]
      apply hrel.bind (related_evalEntries hrel hhost [] entries)
      intro values
      exact hrel.effect _
  | .attribute object name =>
      rw [Expr.eval, Expr.eval]
      apply hrel.bind (object.related_eval hrel hhost)
      intro v
      exact hrel.effect _
  | .index object key =>
      rw [Expr.eval, Expr.eval]
      apply hrel.bind (object.related_eval hrel hhost)
      intro v
      apply hrel.bind (key.related_eval hrel hhost)
      intro k
      exact hrel.effect _
  | .slice object start stop =>
      rw [Expr.eval, Expr.eval]
      apply hrel.bind (object.related_eval hrel hhost)
      intro v
      apply hrel.bind (related_evalBound hrel hhost start)
      intro first
      apply hrel.bind (related_evalBound hrel hhost stop)
      intro last
      exact hrel.effect _
  | .call function args keywords =>
      rw [Expr.eval, Expr.eval]
      apply hrel.bind (function.related_eval hrel hhost)
      intro callee
      apply hrel.bind (related_evalAll hrel hhost args)
      intro positional
      apply hrel.bind (related_evalKeywords hrel hhost keywords)
      intro named
      exact Value.related_call hrel hhost callee _
  | .unary op operand =>
      rw [Expr.eval, Expr.eval]
      apply hrel.bind (operand.related_eval hrel hhost)
      intro v
      exact hrel.effect _
  | .binary op lhs rhs =>
      rw [Expr.eval, Expr.eval]
      apply hrel.bind (lhs.related_eval hrel hhost)
      intro a
      apply hrel.bind (rhs.related_eval hrel hhost)
      intro b
      exact hrel.effect _
  | .compare op lhs rhs =>
      rw [Expr.eval, Expr.eval]
      apply hrel.bind (lhs.related_eval hrel hhost)
      intro a
      apply hrel.bind (rhs.related_eval hrel hhost)
      intro b
      apply hrel.bind (hrel.effect _)
      intro holds
      exact hrel.pure _
  | .and lhs rhs =>
      rw [Expr.eval, Expr.eval]
      apply hrel.bind (lhs.related_eval hrel hhost)
      intro a
      apply hrel.bind (hrel.reading _)
      intro truthy
      split
      · exact rhs.related_eval hrel hhost
      · exact hrel.pure _
  | .or lhs rhs =>
      rw [Expr.eval, Expr.eval]
      apply hrel.bind (lhs.related_eval hrel hhost)
      intro a
      apply hrel.bind (hrel.reading _)
      intro truthy
      split
      · exact hrel.pure _
      · exact rhs.related_eval hrel hhost
  | .not operand =>
      rw [Expr.eval, Expr.eval]
      apply hrel.bind (operand.related_eval hrel hhost)
      intro a
      apply hrel.bind (hrel.reading _)
      intro truthy
      exact hrel.pure _
  | .conditional condition thenValue elseValue =>
      rw [Expr.eval, Expr.eval]
      apply hrel.bind (condition.related_eval hrel hhost)
      intro a
      apply hrel.bind (hrel.reading _)
      intro truthy
      split
      · exact thenValue.related_eval hrel hhost
      · exact elseValue.related_eval hrel hhost

theorem related_evalAll (hrel : Run.Parametric rel) (hhost : host.Related rel host')
    (es : List Expr) : rel (List Value) (evalAll host es) (evalAll host' es) := by
  match es with
  | [] =>
      rw [evalAll, evalAll]
      exact hrel.pure _
  | e :: es =>
      rw [evalAll, evalAll]
      apply hrel.bind (e.related_eval hrel hhost)
      intro first
      apply hrel.bind (related_evalAll hrel hhost es)
      intro others
      exact hrel.pure _

theorem related_evalEntries (hrel : Run.Parametric rel) (hhost : host.Related rel host')
    (known : Entries Value) (entries : List (Expr × Expr)) :
    rel (Entries Value) (evalEntries host known entries) (evalEntries host' known entries) := by
  match entries with
  | [] =>
      rw [evalEntries, evalEntries]
      exact hrel.pure _
  | (key, value) :: entries =>
      rw [evalEntries, evalEntries]
      apply hrel.bind (key.related_eval hrel hhost)
      intro k
      apply hrel.bind (hrel.effect _)
      intro name
      apply hrel.bind (value.related_eval hrel hhost)
      intro v
      exact related_evalEntries hrel hhost _ entries

theorem related_evalKeywords (hrel : Run.Parametric rel) (hhost : host.Related rel host')
    (keywords : List (Text × Expr)) :
    rel (Entries Value) (evalKeywords host keywords) (evalKeywords host' keywords) := by
  match keywords with
  | [] =>
      rw [evalKeywords, evalKeywords]
      exact hrel.pure _
  | (name, value) :: keywords =>
      rw [evalKeywords, evalKeywords]
      apply hrel.bind (value.related_eval hrel hhost)
      intro v
      apply hrel.bind (related_evalKeywords hrel hhost keywords)
      intro others
      exact hrel.pure _

theorem related_evalBound (hrel : Run.Parametric rel) (hhost : host.Related rel host')
    (bound : Option Expr) : rel (Option Value) (evalBound host bound) (evalBound host' bound) := by
  match bound with
  | none =>
      rw [evalBound, evalBound]
      exact hrel.pure _
  | some e =>
      rw [evalBound, evalBound]
      apply hrel.bind (e.related_eval hrel hhost)
      intro v
      exact hrel.pure _

end

end Evaluation

namespace Run

variable {ω ω' : Type} {rel : ∀ α : Type, Run ω α → Run ω' α → Prop}

/-- What is raised without a line gets one when it is caught. -/
theorem atLine_eq_attempt {α : Type} (line : Nat) (x : Run ω α) :
    atLine line x = attempt x >>= fun
      | .ok a => pure a
      | .error r => throw (.raised (r.atLine line)) := by
  funext s
  show atLine line x s = EStateM.bind (attempt x) _ s
  unfold atLine EStateM.bind attempt
  rcases x s with _ | ⟨_ | _, _⟩ <;> rfl

section Steps

variable (hrel : Run.FullyParametric rel)
include hrel

theorem related_atLine {α : Type} (line : Nat) {x : Run ω α} {y : Run ω' α} (hxy : rel α x y) :
    rel α (atLine line x) (atLine line y) := by
  rw [atLine_eq_attempt, atLine_eq_attempt]
  apply hrel.bind (hrel.attempt hxy)
  intro outcome
  cases outcome with
  | ok a => exact hrel.pure a
  | error r => exact hrel.throw _

theorem related_settle {α : Type} (outcome : Except Raised α) :
    rel α (settle outcome) (settle outcome) := by
  cases outcome with
  | ok a => exact hrel.pure a
  | error r => exact hrel.throw _

section Loops

variable {step : Value → Run ω Flow} {step' : Value → Run ω' Flow}
  (hstep : ∀ v, rel Flow (step v) (step' v))
include hstep

theorem related_overList (items : List Value) :
    rel Unit (overList step items) (overList step' items) := by
  induction items with
  | nil => exact hrel.pure _
  | cons v items ih =>
      unfold overList
      apply hrel.bind (hstep v)
      intro flow
      split
      · exact ih
      · exact hrel.pure _

theorem related_overRange (distance : Int) (count : Nat) (n : Int) :
    rel Unit (overRange step distance count n) (overRange step' distance count n) := by
  induction count generalizing n with
  | zero => exact hrel.pure _
  | succ count ih =>
      unfold overRange
      apply hrel.bind (hstep (.int n))
      intro flow
      split
      · exact ih (n + distance)
      · exact hrel.pure _

end Loops

theorem related_whileHolds {condition : Run ω Bool} {condition' : Run ω' Bool}
    {step : Run ω Flow} {step' : Run ω' Flow} (hcondition : rel Bool condition condition')
    (hstep : rel Flow step step') (fuel : Nat) :
    rel Unit (whileHolds condition step fuel) (whileHolds condition' step' fuel) := by
  induction fuel with
  | zero => exact hrel.throw _
  | succ fuel ih =>
      unfold whileHolds
      apply hrel.bind hcondition
      intro holds
      split
      · apply hrel.bind hstep
        intro flow
        split
        · exact ih
        · exact hrel.pure _
      · exact hrel.pure _

theorem related_unpack (names : List Text) (v : Value) :
    rel Unit (unpack names v) (unpack names v) := by
  unfold unpack
  apply hrel.bind (hrel.effect _)
  intro items
  split
  · exact hrel.fail _
  · split
    · exact hrel.fail _
    · exact hrel.change _

theorem related_bindException (name : Option Text) (r : Raised) :
    rel Unit (bindException name r) (bindException name r) := by
  cases name with
  | none => exact hrel.pure _
  | some name =>
      apply hrel.bind (hrel.effect _)
      intro identity
      exact hrel.change _

theorem related_captureName (v : Value) : rel Text (captureName v) (captureName v) := by
  cases v with
  | capture name => exact hrel.pure _
  | _ => exact hrel.fail _

theorem related_captured {name : Text} {body : Run ω Flow} {body' : Run ω' Flow}
    (hbody : rel Flow body body') : rel Flow (captured name body) (captured name body') := by
  apply hrel.bind (hrel.ofScope _)
  intro mark
  apply hrel.bind hbody
  intro flow
  apply hrel.bind (hrel.takeSince mark)
  intro text
  apply hrel.bind (hrel.change _)
  intro _
  exact hrel.pure _

theorem related_afterCleanup {cleanup : Run ω Flow} {cleanup' : Run ω' Flow}
    (hcleanup : rel Flow cleanup cleanup') (pending : Except Raised Flow) :
    rel Flow (afterCleanup cleanup pending) (afterCleanup cleanup' pending) := by
  apply hrel.bind hcleanup
  intro flow
  cases flow with
  | normal => exact related_settle hrel pending
  | breakLoop => exact hrel.pure _
  | continueLoop => exact hrel.pure _

section Hosted

variable {host : Host ω} {host' : Host ω'} (hhost : host.Related rel host')
include hhost

theorem related_bind (target : Target) (v : Value) :
    rel Unit (bind host target v) (bind host' target v) := by
  cases target with
  | name name => exact hrel.change _
  | index object key =>
      apply hrel.bind (object.related_eval hrel.toParametric hhost)
      intro container
      apply hrel.bind (key.related_eval hrel.toParametric hhost)
      intro k
      exact hrel.effect _
  | unpack names => exact related_unpack hrel names v

theorem related_current (target : Target) :
    rel Value (current host target) (current host' target) := by
  cases target with
  | name name => exact hrel.lookup name
  | index object key =>
      apply hrel.bind (object.related_eval hrel.toParametric hhost)
      intro container
      apply hrel.bind (key.related_eval hrel.toParametric hhost)
      intro k
      exact hrel.effect _
  | unpack names => exact hrel.fail _

theorem related_exception (handling : List Raised) (e : Option Expr) :
    rel Raised (exception host handling e) (exception host' handling e) := by
  cases e with
  | none => exact hrel.pure _
  | some e =>
      apply hrel.bind (e.related_eval hrel.toParametric hhost)
      intro v
      split
      · exact hrel.pure _
      · exact hrel.pure _
      · exact hrel.fail _

theorem related_caught (matcher : Option Expr) (line : Nat) (r : Raised) :
    rel Bool (caught host matcher line r) (caught host' matcher line r) := by
  cases matcher with
  | none => exact hrel.pure _
  | some e =>
      apply related_atLine hrel
      apply hrel.bind (e.related_eval hrel.toParametric hhost)
      intro v
      exact hrel.effect _

end Hosted

end Steps

end Run

section Execution

variable {ω ω' : Type} {rel : ∀ α : Type, Run ω α → Run ω' α → Prop} {host : Host ω}
  {host' : Host ω'} (fuel : Nat)

mutual

/-- The runs of a statement under related hosts are related. -/
theorem Stmt.related_exec (hrel : Run.FullyParametric rel) (hhost : host.Related rel host')
    (handling : List Raised) (stmt : Stmt) :
    rel Flow (stmt.exec host fuel handling) (stmt.exec host' fuel handling) := by
  match stmt with
  | .at line action =>
      rw [Stmt.exec, Stmt.exec]
      exact Run.related_atLine hrel line (action.related_exec hrel hhost handling)

theorem Action.related_exec (hrel : Run.FullyParametric rel) (hhost : host.Related rel host')
    (handling : List Raised) (action : Action) :
    rel Flow (action.exec host fuel handling) (action.exec host' fuel handling) := by
  have heval (e : Expr) : rel Value (e.eval host) (e.eval host') :=
    e.related_eval hrel.toParametric hhost
  match action with
  | .expr value =>
      rw [Action.exec, Action.exec]
      apply hrel.bind (heval value)
      intro v
      exact hrel.pure _
  | .assign target value =>
      rw [Action.exec, Action.exec]
      apply hrel.bind (heval value)
      intro v
      apply hrel.bind (Run.related_bind hrel hhost target v)
      intro _
      exact hrel.pure _
  | .augAssign target op value =>
      rw [Action.exec, Action.exec]
      apply hrel.bind (Run.related_current hrel hhost target)
      intro old
      apply hrel.bind (heval value)
      intro v
      apply hrel.bind (hrel.effect _)
      intro new
      apply hrel.bind (Run.related_bind hrel hhost target new)
      intro _
      exact hrel.pure _
  | .branch branches otherwise =>
      rw [Action.exec, Action.exec]
      exact related_execBranches hrel hhost handling branches
        (related_execOption hrel hhost handling otherwise)
  | .forEach target items body =>
      have hstep (v : Value) : rel Flow
          (Run.bind host target v >>= fun _ => execAll host fuel handling body)
          (Run.bind host' target v >>= fun _ => execAll host' fuel handling body) := by
        apply hrel.bind (Run.related_bind hrel hhost target v)
        intro _
        exact related_execAll hrel hhost handling body
      rw [Action.exec, Action.exec]
      apply hrel.bind (heval items)
      intro v
      split
      · apply hrel.bind (Run.related_overRange hrel hstep _ _ _)
        intro _
        exact hrel.pure _
      · apply hrel.bind (hrel.effect _)
        intro values
        apply hrel.bind (Run.related_overList hrel hstep values)
        intro _
        exact hrel.pure _
  | .whileTrue condition body =>
      rw [Action.exec, Action.exec]
      apply hrel.bind (Run.related_whileHolds hrel ?_ (related_execAll hrel hhost handling body) fuel)
      · intro _
        exact hrel.pure _
      · apply hrel.bind (heval condition)
        intro v
        exact hrel.reading _
  | .attempt body handlers cleanup =>
      have hcleanup := related_execOption hrel hhost handling cleanup
      rw [Action.exec, Action.exec]
      apply hrel.bind (hrel.attempt (related_execAll hrel hhost handling body))
      intro outcome
      cases outcome with
      | ok flow =>
          apply hrel.bind (hrel.pure _)
          intro outcome
          exact Run.related_afterCleanup hrel hcleanup outcome
      | error r =>
          apply hrel.bind (hrel.attempt (related_execHandlers hrel hhost handling r handlers))
          intro outcome
          exact Run.related_afterCleanup hrel hcleanup outcome
  | .raise e =>
      rw [Action.exec, Action.exec]
      apply hrel.bind (Run.related_exception hrel hhost handling e)
      intro r
      exact hrel.throw _
  | .within context name body =>
      have hcaptured (target : Text) : rel Flow
          (Run.captured target (execAll host fuel handling body))
          (Run.captured target (execAll host' fuel handling body)) :=
        Run.related_captured hrel (related_execAll hrel hhost handling body)
      rw [Action.exec, Action.exec]
      apply hrel.bind (heval context)
      intro v
      apply hrel.bind (Run.related_captureName hrel v)
      intro target
      cases name with
      | none => exact hcaptured target
      | some name =>
          apply hrel.bind (hrel.change _)
          intro _
          exact hcaptured target
  | .pass =>
      rw [Action.exec, Action.exec]
      exact hrel.pure _
  | .breakLoop =>
      rw [Action.exec, Action.exec]
      exact hrel.pure _
  | .continueLoop =>
      rw [Action.exec, Action.exec]
      exact hrel.pure _

/-- The runs of a block under related hosts are related. -/
theorem related_execAll (hrel : Run.FullyParametric rel) (hhost : host.Related rel host')
    (handling : List Raised) (stmts : List Stmt) :
    rel Flow (execAll host fuel handling stmts) (execAll host' fuel handling stmts) := by
  match stmts with
  | [] =>
      rw [execAll, execAll]
      exact hrel.pure _
  | stmt :: stmts =>
      rw [execAll, execAll]
      apply hrel.bind (stmt.related_exec hrel hhost handling)
      intro flow
      cases flow with
      | normal => exact related_execAll hrel hhost handling stmts
      | breakLoop => exact hrel.pure _
      | continueLoop => exact hrel.pure _

theorem related_execOption (hrel : Run.FullyParametric rel) (hhost : host.Related rel host')
    (handling : List Raised) (block : Option (List Stmt)) :
    rel Flow (execOption host fuel handling block) (execOption host' fuel handling block) := by
  match block with
  | none =>
      rw [execOption, execOption]
      exact hrel.pure _
  | some body =>
      rw [execOption, execOption]
      exact related_execAll hrel hhost handling body

theorem related_execBranches (hrel : Run.FullyParametric rel) (hhost : host.Related rel host')
    (handling : List Raised) (branches : List (Expr × List Stmt)) {otherwise : Run ω Flow}
    {otherwise' : Run ω' Flow} (hotherwise : rel Flow otherwise otherwise') :
    rel Flow (execBranches host fuel handling branches otherwise)
      (execBranches host' fuel handling branches otherwise') := by
  match branches with
  | [] =>
      rw [execBranches, execBranches]
      exact hotherwise
  | (condition, body) :: branches =>
      rw [execBranches, execBranches]
      apply hrel.bind (condition.related_eval hrel.toParametric hhost)
      intro v
      apply hrel.bind (hrel.reading _)
      intro holds
      split
      · exact related_execAll hrel hhost handling body
      · exact related_execBranches hrel hhost handling branches hotherwise

theorem related_execHandlers (hrel : Run.FullyParametric rel) (hhost : host.Related rel host')
    (handling : List Raised) (r : Raised) (handlers : List Handler) :
    rel Flow (execHandlers host fuel handling r handlers)
      (execHandlers host' fuel handling r handlers) := by
  match handlers with
  | [] =>
      rw [execHandlers, execHandlers]
      exact hrel.throw _
  | .clause matcher name body line :: handlers =>
      rw [execHandlers, execHandlers]
      apply hrel.bind (Run.related_caught hrel hhost matcher line r)
      intro caught
      split
      · apply hrel.bind (Run.related_bindException hrel name r)
        intro _
        exact related_execAll hrel hhost (r :: handling) body
      · exact related_execHandlers hrel hhost handling r handlers

end

/-- The runs of a program under related hosts are related. -/
theorem Run.related_program (hrel : Run.FullyParametric rel) (hhost : host.Related rel host')
    (body : Block) : rel Unit (Run.program host body) (Run.program host' body) := by
  apply hrel.bind (related_execAll Run.maxRounds hrel hhost [] body)
  intro flow
  exact hrel.pure _

end Execution

end TemplateEngine
