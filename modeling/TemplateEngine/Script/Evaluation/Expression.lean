import TemplateEngine.Script.Evaluation.Call

/-!
# Evaluating expressions

Operands are evaluated from left to right, and a call evaluates what it calls
before its arguments. The logical operators give one of their operands and leave
the other alone where it does not matter.
-/
namespace TemplateEngine

/-- The value of a constant. -/
def Constant.value : Constant → Value
  | none => .none
  | bool b => .bool b
  | int n => .int n
  | float x => .float x
  | str t => .str t

/-- What a name means to a script: on the page, or everywhere. -/
def Run.lookup {ω : Type} (name : Text) : Run ω Value := do
  match (← Run.lookup? name).or (Builtin.lookup? name) with
  | some v => return v
  | none => Run.fail (.undefinedName name)

/-- Whether a value counts as true. -/
def Run.truthy {ω : Type} (v : Value) : Run ω Bool := Run.reading fun h => h.truthy v

mutual

/-- The value of an expression. -/
def Expr.eval {ω : Type} (host : Host ω) (e : Expr) : Run ω Value :=
  match e with
  | .constant c => return c.value
  | .name name => Run.lookup name
  | .list items => do Run.effect (Effect.newList (← evalAll host items))
  | .tuple items => do Run.effect (Effect.newTuple (← evalAll host items))
  | .dict entries => do Run.effect (Effect.newDict (← evalEntries host [] entries))
  | .attribute object name => do Run.effect (readAttribute (← object.eval host) name)
  | .index object key => do
    let object ← object.eval host
    let key ← key.eval host
    Run.effect (Effect.checking fun h => Subscript.get h object key)
  | .slice object start stop => do
    let object ← object.eval host
    let start ← evalBound host start
    let stop ← evalBound host stop
    Run.effect (Subscript.slice object start stop)
  | .call function args keywords => do
    let callee ← function.eval host
    let positional ← evalAll host args
    let keywords ← evalKeywords host keywords
    callee.call host ⟨positional, keywords⟩
  | .unary op operand => do
    let v ← operand.eval host
    Run.effect (Effect.ofExcept (Operator.unary op v))
  | .binary op lhs rhs => do
    let a ← lhs.eval host
    let b ← rhs.eval host
    Run.effect (Operator.binary op a b)
  | .compare op lhs rhs => do
    let a ← lhs.eval host
    let b ← rhs.eval host
    return .bool (← Run.effect (Effect.checking fun h => Operator.compare h op a b))
  | .and lhs rhs => do
    let v ← lhs.eval host
    if ← Run.truthy v then rhs.eval host else return v
  | .or lhs rhs => do
    let v ← lhs.eval host
    if ← Run.truthy v then return v else rhs.eval host
  | .not operand => do return .bool !(← Run.truthy (← operand.eval host))
  | .conditional condition thenValue elseValue => do
    if ← Run.truthy (← condition.eval host) then thenValue.eval host else elseValue.eval host
  termination_by structural e

/-- The values of expressions. -/
def evalAll {ω : Type} (host : Host ω) (es : List Expr) : Run ω (List Value) :=
  match es with
  | [] => return []
  | e :: es => do
    let v ← e.eval host
    return v :: (← evalAll host es)
  termination_by structural es

/-- The entries of a dict put into what there is of it. -/
def evalEntries {ω : Type} (host : Host ω) (known : Entries Value)
    (entries : List (Expr × Expr)) : Run ω (Entries Value) :=
  match entries with
  | [] => return known
  | (key, value) :: entries => do
    let key ← key.eval host
    let name ← Run.effect (Effect.ofExcept (Subscript.key key))
    let v ← value.eval host
    evalEntries host (Entries.put name v known) entries
  termination_by structural entries

/-- The values of named arguments. -/
def evalKeywords {ω : Type} (host : Host ω) (keywords : List (Text × Expr)) :
    Run ω (Entries Value) :=
  match keywords with
  | [] => return []
  | (name, value) :: keywords => do
    let v ← value.eval host
    return (name, v) :: (← evalKeywords host keywords)
  termination_by structural keywords

/-- The value of a bound, if there is one. -/
def evalBound {ω : Type} (host : Host ω) (bound : Option Expr) : Run ω (Option Value) :=
  match bound with
  | none => return none
  | some e => do return some (← e.eval host)
  termination_by structural bound

end

end TemplateEngine
