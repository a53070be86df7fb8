import TemplateEngine.Proofs.Script.Parametricity

/-!
# The stack of exceptions being handled

`Stmt.exec` is given the exceptions being handled. An interpreter with one record of them
for a whole page puts an exception on top when a handler starts, and takes the top off when
the handler ends, in whatever way. Here is that machine, statement by statement. It does what
`Stmt.exec` does with the exceptions it has on its stack, and leaves the stack as it was.
-/
namespace TemplateEngine

/-- What lies outside of heap and scope, with the exceptions being handled, innermost first. -/
structure Stacked (ω : Type) where
  world : ω
  handling : List Raised

/-- A result whose state is seen in another way. -/
def Stacked.onState {ε σ τ α : Type} (f : σ → τ) : EStateM.Result ε σ α → EStateM.Result ε τ α
  | .ok a s => .ok a (f s)
  | .error e s => .error e (f s)

variable {ω α : Type}

/-- What is shared, with exceptions on the stack. -/
def Shared.stacked (stack : List Raised) (shared : Shared ω) : Shared (Stacked ω) :=
  ⟨shared.heap, ⟨shared.world, stack⟩⟩

/-- A state with exceptions on the stack. -/
def State.stacked (stack : List Raised) (s : State ω) : State (Stacked ω) :=
  ⟨s.toShared.stacked stack, s.scope⟩

/-- A change of the stack. -/
def State.onHandling (f : List Raised → List Raised) (s : State (Stacked ω)) :
    State (Stacked ω) :=
  { s with world := { s.world with handling := f s.world.handling } }

@[simp] theorem State.onHandling_stacked (f : List Raised → List Raised) (stack : List Raised)
    (s : State ω) : (s.stacked stack).onHandling f = s.stacked (f stack) := rfl

/-- A host that leaves the stack of the page alone; the pages it renders have their own. -/
def Host.stacked (host : Host ω) : Host (Stacked ω) := fun request vars shared =>
  Stacked.onState (Shared.stacked shared.world.handling)
    (host request vars ⟨shared.heap, shared.world.world⟩)

namespace Run

/-- The exceptions on the stack. -/
def handlingNow : Run (Stacked ω) (List Raised) := fun s => .ok s.world.handling s

/-- Runs with an exception on top of the stack, and takes the top off however the run ends. -/
def whileHandling (r : Raised) (x : Run (Stacked ω) α) : Run (Stacked ω) α := fun s =>
  Stacked.onState (State.onHandling List.tail) (x (s.onHandling (r :: ·)))

end Run

mutual

/-- Runs a statement on the machine. -/
def Stmt.execOn (host : Host (Stacked ω)) (fuel : Nat) (s : Stmt) : Run (Stacked ω) Flow :=
  match s with
  | .at line action => Run.atLine line (action.execOn host fuel)
  termination_by structural s

/-- Does what a statement does, on the machine. -/
def Action.execOn (host : Host (Stacked ω)) (fuel : Nat) (a : Action) : Run (Stacked ω) Flow :=
  match a with
  | .expr value => do
    let _ ← value.eval host
    return .normal
  | .assign target value => do
    let v ← value.eval host
    Run.bind host target v
    return .normal
  | .augAssign target op value => do
    let old ← Run.current host target
    let v ← value.eval host
    let new ← Run.effect (Operator.binary op old v)
    Run.bind host target new
    return .normal
  | .branch branches otherwise =>
    execBranchesOn host fuel branches (execOptionOn host fuel otherwise)
  | .forEach target items body => do
    let step (v : Value) : Run (Stacked ω) Flow := do
      Run.bind host target v
      execAllOn host fuel body
    match ← items.eval host with
    | .range r => Run.overRange step r.step r.length r.start
    | v => Run.overList step (← Run.effect (Effect.checking fun h => h.iterate v))
    return .normal
  | .whileTrue condition body => do
    let holds : Run (Stacked ω) Bool := do Run.truthy (← condition.eval host)
    Run.whileHolds holds (execAllOn host fuel body) fuel
    return .normal
  | .attempt body handlers cleanup => do
    let outcome ← Run.attempt (execAllOn host fuel body)
    let outcome ← match outcome with
      | .ok flow => pure (.ok flow)
      | .error r => Run.attempt (execHandlersOn host fuel r handlers)
    Run.afterCleanup (execOptionOn host fuel cleanup) outcome
  | .raise e => do
    let stack ← Run.handlingNow
    throw (.raised (← Run.exception host stack e))
  | .within context name body => do
    let v ← context.eval host
    let target ← Run.captureName v
    match name with
    | some name => Run.assign name v
    | none => pure ()
    Run.captured target (execAllOn host fuel body)
  | .pass => return .normal
  | .breakLoop => return .breakLoop
  | .continueLoop => return .continueLoop
  termination_by structural a

/-- Runs statements one after the other on the machine, until one jumps. -/
def execAllOn (host : Host (Stacked ω)) (fuel : Nat) (stmts : List Stmt) :
    Run (Stacked ω) Flow :=
  match stmts with
  | [] => return .normal
  | s :: stmts => do
    match ← s.execOn host fuel with
    | .normal => execAllOn host fuel stmts
    | flow => return flow
  termination_by structural stmts

/-- Runs a block that may be absent, on the machine. -/
def execOptionOn (host : Host (Stacked ω)) (fuel : Nat) (block : Option (List Stmt)) :
    Run (Stacked ω) Flow :=
  match block with
  | none => return .normal
  | some body => execAllOn host fuel body
  termination_by structural block

/-- Runs the first branch whose condition holds, on the machine. -/
def execBranchesOn (host : Host (Stacked ω)) (fuel : Nat) (branches : List (Expr × List Stmt))
    (otherwise : Run (Stacked ω) Flow) : Run (Stacked ω) Flow :=
  match branches with
  | [] => otherwise
  | (condition, body) :: branches => do
    if ← Run.truthy (← condition.eval host) then execAllOn host fuel body
    else execBranchesOn host fuel branches otherwise
  termination_by structural branches

/-- Runs the first except clause that catches an exception, with the exception on the stack, or
raises it again. -/
def execHandlersOn (host : Host (Stacked ω)) (fuel : Nat) (r : Raised)
    (handlers : List Handler) : Run (Stacked ω) Flow :=
  match handlers with
  | [] => throw (.raised r)
  | .clause matcher name body line :: handlers => do
    if ← Run.caught host matcher line r then
      Run.bindException name r
      Run.whileHandling r (execAllOn host fuel body)
    else execHandlersOn host fuel r handlers
  termination_by structural handlers

end

namespace Run

variable {stack : List Raised}

/-- From every state with these exceptions on the stack, the machine comes to what the run comes
to, and has the same exceptions on its stack. -/
def Stacks (stack : List Raised) (α : Type) (x : Run (Stacked ω) α) (y : Run ω α) : Prop :=
  ∀ s, x (s.stacked stack) = Stacked.onState (State.stacked stack) (y s)

theorem stacks_effect (x : Effect α) :
    Stacks stack α (effect x : Run (Stacked ω) α) (effect x) := by
  intro s
  have hheap : (s.stacked stack).heap = s.heap := rfl
  unfold effect
  rw [hheap]
  cases x s.heap <;> rfl

theorem Stacks.bind {β : Type} {x : Run (Stacked ω) α} {y : Run ω α}
    {f : α → Run (Stacked ω) β} {g : α → Run ω β} (hxy : Stacks stack α x y)
    (hfg : ∀ a, Stacks stack β (f a) (g a)) : Stacks stack β (x >>= f) (y >>= g) := by
  intro s
  show EStateM.bind x f (s.stacked stack) = Stacked.onState _ (EStateM.bind y g s)
  unfold EStateM.bind
  rw [hxy s]
  cases y s with
  | ok a s' => exact hfg a s'
  | error stop s' => rfl

theorem Stacks.attempt {x : Run (Stacked ω) α} {y : Run ω α} (hxy : Stacks stack α x y) :
    Stacks stack (Except Raised α) (attempt x) (attempt y) := by
  intro s
  unfold Run.attempt
  rw [hxy s]
  rcases y s with ⟨a, s'⟩ | ⟨⟨r⟩ | _, s'⟩ <;> rfl

/-- Whatever statements are put together from leaves the stack alone. -/
theorem fullyParametric_stacks (stack : List Raised) :
    FullyParametric (Stacks stack : ∀ α : Type, Run (Stacked ω) α → Run ω α → Prop) where
  pure _ _ := rfl
  fail _ _ := rfl
  effect := stacks_effect
  ofScope _ _ := rfl
  change _ _ := rfl
  bind := Stacks.bind
  throw _ _ := rfl
  attempt := Stacks.attempt

/-- The exception that a handler puts on the stack is off it again afterwards. -/
theorem Stacks.whileHandling {r : Raised} {x : Run (Stacked ω) α} {y : Run ω α}
    (hxy : Stacks (r :: stack) α x y) : Stacks stack α (whileHandling r x) y := by
  intro s
  unfold Run.whileHandling
  rw [State.onHandling_stacked, hxy s]
  cases y s <;> rfl

/-- What is raised without an expression is on top of the stack. -/
theorem Stacks.exception {host : Host ω} {host' : Host (Stacked ω)}
    (hhost : host'.Related (Stacks stack) host) (e : Option Expr) :
    Stacks stack Raised (handlingNow >>= fun found => exception host' found e)
      (exception host stack e) := by
  intro s
  exact related_exception (fullyParametric_stacks stack) hhost stack e s

end Run

theorem Host.stacked_related (host : Host ω) (stack : List Raised) :
    host.stacked.Related (Run.Stacks stack) host := by
  intro request vars s
  have hasked : host.stacked request vars (s.stacked stack).toShared =
      Stacked.onState (Shared.stacked stack) (host request vars s.toShared) := rfl
  unfold Run.request
  rw [hasked]
  cases host request vars s.toShared <;> rfl

section Execution

variable (host : Host ω) (fuel : Nat)

mutual

/-- The machine runs a statement as it is run with the exceptions on the stack. -/
theorem Stmt.stacks_exec (stmt : Stmt) (stack : List Raised) :
    Run.Stacks stack Flow (stmt.execOn host.stacked fuel) (stmt.exec host fuel stack) := by
  match stmt with
  | .at line action =>
      rw [Stmt.execOn, Stmt.exec]
      exact Run.related_atLine (Run.fullyParametric_stacks stack) line
        (action.stacks_exec stack)

theorem Action.stacks_exec (action : Action) (stack : List Raised) :
    Run.Stacks stack Flow (action.execOn host.stacked fuel) (action.exec host fuel stack) := by
  have hrel := Run.fullyParametric_stacks (ω := ω) stack
  have hhost := host.stacked_related stack
  have heval (e : Expr) : Run.Stacks stack Value (e.eval host.stacked) (e.eval host) :=
    e.related_eval hrel.toParametric hhost
  match action with
  | .expr value =>
      rw [Action.execOn, Action.exec]
      apply hrel.bind (heval value)
      intro v
      exact hrel.pure _
  | .assign target value =>
      rw [Action.execOn, Action.exec]
      apply hrel.bind (heval value)
      intro v
      apply hrel.bind (Run.related_bind hrel hhost target v)
      intro _
      exact hrel.pure _
  | .augAssign target op value =>
      rw [Action.execOn, Action.exec]
      apply hrel.bind (Run.related_current hrel hhost target)
      intro old
      apply hrel.bind (heval value)
      intro v
      apply hrel.bind (hrel.effect _)
      intro new
      apply hrel.bind (Run.related_bind hrel hhost target new)
      intro _
      exact hrel.pure _
  | .branch branches otherwise =>
      rw [Action.execOn, Action.exec]
      exact stacks_execBranches branches stack (stacks_execOption otherwise stack)
  | .forEach target items body =>
      have hstep (v : Value) : Run.Stacks stack Flow
          (Run.bind host.stacked target v >>= fun _ => execAllOn host.stacked fuel body)
          (Run.bind host target v >>= fun _ => execAll host fuel stack body) := by
        apply hrel.bind (Run.related_bind hrel hhost target v)
        intro _
        exact stacks_execAll body stack
      rw [Action.execOn, Action.exec]
      apply hrel.bind (heval items)
      intro v
      cases v with
      | range r =>
        apply hrel.bind (Run.related_overRange hrel hstep _ _ _)
        intro _
        exact hrel.pure _
      | _ =>
        apply hrel.bind (hrel.effect _)
        intro values
        apply hrel.bind (Run.related_overList hrel hstep values)
        intro _
        exact hrel.pure _
  | .whileTrue condition body =>
      rw [Action.execOn, Action.exec]
      apply hrel.bind (Run.related_whileHolds hrel ?_ (stacks_execAll body stack) fuel)
      · intro _
        exact hrel.pure _
      · apply hrel.bind (heval condition)
        intro v
        exact hrel.reading _
  | .attempt body handlers cleanup =>
      have hcleanup := stacks_execOption cleanup stack
      rw [Action.execOn, Action.exec]
      apply hrel.bind (hrel.attempt (stacks_execAll body stack))
      intro outcome
      cases outcome with
      | ok flow =>
          apply hrel.bind (hrel.pure _)
          intro outcome
          exact Run.related_afterCleanup hrel hcleanup outcome
      | error r =>
          apply hrel.bind (hrel.attempt (stacks_execHandlers handlers stack r))
          intro outcome
          exact Run.related_afterCleanup hrel hcleanup outcome
  | .raise e =>
      -- the only action that looks at the stack
      rw [Action.execOn, Action.exec, ← bind_assoc]
      apply hrel.bind (Run.Stacks.exception hhost e)
      intro r
      exact hrel.throw _
  | .within context name body =>
      have hcaptured (target : Text) : Run.Stacks stack Flow
          (Run.captured target (execAllOn host.stacked fuel body))
          (Run.captured target (execAll host fuel stack body)) :=
        Run.related_captured hrel (stacks_execAll body stack)
      rw [Action.execOn, Action.exec]
      apply hrel.bind (heval context)
      intro v
      apply hrel.bind (Run.related_captureName hrel v)
      intro target
      cases name with
      | none => exact hcaptured target
      | some name =>
          apply hrel.bind (hrel.change _)
          intro _
          exact hcaptured target
  | .pass =>
      rw [Action.execOn, Action.exec]
      exact hrel.pure _
  | .breakLoop =>
      rw [Action.execOn, Action.exec]
      exact hrel.pure _
  | .continueLoop =>
      rw [Action.execOn, Action.exec]
      exact hrel.pure _

/-- The machine runs a block as it is run with the exceptions on the stack. -/
theorem stacks_execAll (stmts : List Stmt) (stack : List Raised) :
    Run.Stacks stack Flow (execAllOn host.stacked fuel stmts) (execAll host fuel stack stmts) := by
  have hrel := Run.fullyParametric_stacks (ω := ω) stack
  match stmts with
  | [] =>
      rw [execAllOn, execAll]
      exact hrel.pure _
  | stmt :: stmts =>
      rw [execAllOn, execAll]
      apply hrel.bind (stmt.stacks_exec stack)
      intro flow
      cases flow with
      | normal => exact stacks_execAll stmts stack
      | breakLoop => exact hrel.pure _
      | continueLoop => exact hrel.pure _

theorem stacks_execOption (block : Option (List Stmt)) (stack : List Raised) :
    Run.Stacks stack Flow (execOptionOn host.stacked fuel block)
      (execOption host fuel stack block) := by
  match block with
  | none =>
      rw [execOptionOn, execOption]
      exact (Run.fullyParametric_stacks stack).pure _
  | some body =>
      rw [execOptionOn, execOption]
      exact stacks_execAll body stack

theorem stacks_execBranches (branches : List (Expr × List Stmt)) (stack : List Raised)
    {otherwise : Run (Stacked ω) Flow} {otherwise' : Run ω Flow}
    (hotherwise : Run.Stacks stack Flow otherwise otherwise') :
    Run.Stacks stack Flow (execBranchesOn host.stacked fuel branches otherwise)
      (execBranches host fuel stack branches otherwise') := by
  have hrel := Run.fullyParametric_stacks (ω := ω) stack
  match branches with
  | [] =>
      rw [execBranchesOn, execBranches]
      exact hotherwise
  | (condition, body) :: branches =>
      rw [execBranchesOn, execBranches]
      apply hrel.bind (condition.related_eval hrel.toParametric (host.stacked_related stack))
      intro v
      apply hrel.bind (hrel.reading _)
      intro holds
      split
      · exact stacks_execAll body stack
      · exact stacks_execBranches branches stack hotherwise

/-- The one place where the stack grows: the body of a handler runs with its exception on top. -/
theorem stacks_execHandlers (handlers : List Handler) (stack : List Raised) (r : Raised) :
    Run.Stacks stack Flow (execHandlersOn host.stacked fuel r handlers)
      (execHandlers host fuel stack r handlers) := by
  have hrel := Run.fullyParametric_stacks (ω := ω) stack
  match handlers with
  | [] =>
      rw [execHandlersOn, execHandlers]
      exact hrel.throw _
  | .clause matcher name body line :: handlers =>
      rw [execHandlersOn, execHandlers]
      apply hrel.bind (Run.related_caught hrel (host.stacked_related stack) matcher line r)
      intro caught
      split
      · apply hrel.bind (Run.related_bindException hrel name r)
        intro _
        exact (stacks_execAll body (r :: stack)).whileHandling
      · exact stacks_execHandlers handlers stack r

end

end Execution

end TemplateEngine
