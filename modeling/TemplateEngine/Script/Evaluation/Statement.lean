import TemplateEngine.Script.Evaluation.Expression

/-!
# Running statements

An exception gets the line of the innermost statement it comes from. A handler is
tried in order; its exception is at hand for a bare raise as long as the handler
runs. Cleanup always runs, and a jump or an exception in it takes the place of what
was pending. A captured block gives its output to a name only if it ends without an
exception.
-/
namespace TemplateEngine

/-- Whether a matcher, which is a class or a tuple of matchers, catches a class, down to a
depth. -/
def Heap.catchesTo (h : Heap) (kind : ExceptionKind) : Nat → Value → Except Cause Bool
  | 0, _ => .ok false
  | depth + 1, v =>
    match v with
    | .exceptionClass handler => .ok (handler.catches kind)
    | .tuple p => anyM (catchesTo h kind depth) (h.tuple p)
    | other => .error (.notMatcher other.typeName)
where
  /-- Whether one of the matchers catches, tried in order. -/
  anyM (test : Value → Except Cause Bool) : List Value → Except Cause Bool
    | [] => .ok false
    | v :: rest => do if ← test v then return true else anyM test rest

namespace Run

variable {ω : Type}

/-- Assigns the items of a value to names, of which there have to be as many. -/
def unpack (names : List Text) (v : Value) : Run ω Unit := do
  let items ← effect (Effect.checking fun h => h.iterate v)
  if names.length < items.length then fail (.tooManyValues names.length)
  else if items.length < names.length then fail (.notEnoughValues names.length items.length)
  else change fun s => (names.zip items).foldl (fun s (name, item) => s.assign name item) s

/-- Binds a target to a value. -/
def bind (host : Host ω) (target : Target) (v : Value) : Run ω Unit :=
  match target with
  | .name name => assign name v
  | .index object key => do
    let object ← object.eval host
    let key ← key.eval host
    effect (Subscript.set object key v)
  | .unpack names => unpack names v

/-- The value that a target has. -/
def current (host : Host ω) (target : Target) : Run ω Value :=
  match target with
  | .name name => lookup name
  | .index object key => do
    let object ← object.eval host
    let key ← key.eval host
    effect (Effect.checking fun h => Subscript.get h object key)
  | .unpack _ => fail .illegalAugmentedTarget

/-- The exception that a raise statement raises; without an expression, the one at hand. -/
def exception (host : Host ω) (handling : List Raised) (e : Option Expr) : Run ω Raised :=
  match e with
  | none => return handling.headD ⟨.nothingToReraise, 0⟩
  | some e => do
    match ← e.eval host with
    | .exceptionClass kind => return ⟨.raised kind [], 0⟩
    | .exception _ kind message => return ⟨.raised kind message, 0⟩
    | other => fail (.notException other.typeName)

/-- Whether an except clause catches an exception. -/
def caught (host : Host ω) (matcher : Option Expr) (line : Nat) (r : Raised) : Run ω Bool :=
  match matcher with
  | none => return true
  | some e => atLine line do
    let v ← e.eval host
    effect (Effect.checking fun h => h.catchesTo r.kind h.depth v)

/-- Binds a name, if there is one, to the value of an exception. -/
def bindException (name : Option Text) (r : Raised) : Run ω Unit :=
  match name with
  | none => pure ()
  | some name => do
    assign name (.exception (← effect Effect.newIdentity) r.kind r.message)

/-- The name that the output of a block is diverted into. -/
def captureName (v : Value) : Run ω Text :=
  match v with
  | .capture name => return name
  | other => fail (.notContext other.typeName)

/-- Runs a block and diverts its output into a name. -/
def captured (name : Text) (body : Run ω Flow) : Run ω Flow := do
  let mark ← ofScope Scope.mark
  let flow ← body
  assign name (.markup (← takeSince mark))
  return flow

/-- What is pending, after a cleanup. -/
def afterCleanup (cleanup : Run ω Flow) (pending : Except Raised Flow) : Run ω Flow := do
  match ← cleanup with
  | .normal => settle pending
  | flow => return flow

end Run

mutual

/-- Runs a statement. `handling` holds the exceptions being handled, innermost first, and
`fuel` bounds the rounds of every loop with a condition. -/
def Stmt.exec {ω : Type} (host : Host ω) (fuel : Nat) (handling : List Raised) (s : Stmt) :
    Run ω Flow :=
  match s with
  | .at line action => Run.atLine line (action.exec host fuel handling)
  termination_by structural s

/-- Does what a statement does. -/
def Action.exec {ω : Type} (host : Host ω) (fuel : Nat) (handling : List Raised) (a : Action) :
    Run ω Flow :=
  match a with
  | .expr value => do
    let _ ← value.eval host
    return .normal
  | .assign target value => do
    let v ← value.eval host
    Run.bind host target v
    return .normal
  | .augAssign target op value => do
    let old ← Run.current host target
    let v ← value.eval host
    let new ← Run.effect (Operator.binary op old v)
    Run.bind host target new
    return .normal
  | .branch branches otherwise =>
    execBranches host fuel handling branches (execOption host fuel handling otherwise)
  | .forEach target items body => do
    let step (v : Value) : Run ω Flow := do
      Run.bind host target v
      execAll host fuel handling body
    match ← items.eval host with
    | .range r => Run.overRange step r.step r.length r.start
    | v => Run.overList step (← Run.effect (Effect.checking fun h => h.iterate v))
    return .normal
  | .whileTrue condition body => do
    let holds : Run ω Bool := do Run.truthy (← condition.eval host)
    Run.whileHolds holds (execAll host fuel handling body) fuel
    return .normal
  | .attempt body handlers cleanup => do
    let outcome ← Run.attempt (execAll host fuel handling body)
    let outcome ← match outcome with
      | .ok flow => pure (.ok flow)
      | .error r => Run.attempt (execHandlers host fuel handling r handlers)
    Run.afterCleanup (execOption host fuel handling cleanup) outcome
  | .raise e => do throw (.raised (← Run.exception host handling e))
  | .within context name body => do
    let v ← context.eval host
    let target ← Run.captureName v
    match name with
    | some name => Run.assign name v
    | none => pure ()
    Run.captured target (execAll host fuel handling body)
  | .pass => return .normal
  | .breakLoop => return .breakLoop
  | .continueLoop => return .continueLoop
  termination_by structural a

/-- Runs statements one after the other, until one jumps. -/
def execAll {ω : Type} (host : Host ω) (fuel : Nat) (handling : List Raised)
    (stmts : List Stmt) : Run ω Flow :=
  match stmts with
  | [] => return .normal
  | s :: stmts => do
    match ← s.exec host fuel handling with
    | .normal => execAll host fuel handling stmts
    | flow => return flow
  termination_by structural stmts

/-- Runs a block that may be absent. -/
def execOption {ω : Type} (host : Host ω) (fuel : Nat) (handling : List Raised)
    (block : Option (List Stmt)) : Run ω Flow :=
  match block with
  | none => return .normal
  | some body => execAll host fuel handling body
  termination_by structural block

/-- Runs the first branch whose condition holds. -/
def execBranches {ω : Type} (host : Host ω) (fuel : Nat) (handling : List Raised)
    (branches : List (Expr × List Stmt)) (otherwise : Run ω Flow) : Run ω Flow :=
  match branches with
  | [] => otherwise
  | (condition, body) :: branches => do
    if ← Run.truthy (← condition.eval host) then execAll host fuel handling body
    else execBranches host fuel handling branches otherwise
  termination_by structural branches

/-- Runs the first except clause that catches an exception, or raises it again. -/
def execHandlers {ω : Type} (host : Host ω) (fuel : Nat) (handling : List Raised) (r : Raised)
    (handlers : List Handler) : Run ω Flow :=
  match handlers with
  | [] => throw (.raised r)
  | .clause matcher name body line :: handlers => do
    if ← Run.caught host matcher line r then
      Run.bindException name r
      execAll host fuel (r :: handling) body
    else execHandlers host fuel handling r handlers
  termination_by structural handlers

end

/-- The rounds that a loop with a condition may take. -/
def Run.maxRounds : Nat := 0x4000000000000000

/-- Runs a program. -/
def Run.program {ω : Type} (host : Host ω) (body : Block) : Run ω Unit := do
  let _ ← execAll host Run.maxRounds [] body

end TemplateEngine
