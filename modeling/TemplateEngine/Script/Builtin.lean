import TemplateEngine.Script.Arguments
import TemplateEngine.Script.Operator
import TemplateEngine.Script.Relation
import TemplateEngine.Text.Blank

/-!
# Built-in functions

Conversions, ranges, sorting and sums. A function checks its arguments before it
does anything.
-/

/-!
## Sorting and extremes

Sorting puts one item after the other into place, from the end of the sorted items
backwards, and stops at the first pair that cannot be ordered. Items that compare
equal keep their order. A reversed sort is a sort turned around. The least and the
greatest item are the first of their kind.
-/
namespace TemplateEngine.Sorting

/-- The sorted items, last one first, with one more item put into place. -/
def place (compare : Value → Value → Except Cause Ordering) (item : Value) :
    List Value → Except Cause (List Value)
  | [] => .ok [item]
  | last :: others => do
    if (← compare item last) == .lt then return last :: (← place compare item others)
    else return item :: last :: others

/-- The items put into place one by one, last one first. -/
def placeAll (compare : Value → Value → Except Cause Ordering) :
    List Value → List Value → Except Cause (List Value)
  | sorted, [] => .ok sorted
  | sorted, item :: items => do placeAll compare (← place compare item sorted) items

/-- The items in ascending order. -/
def ascending (h : Heap) (items : List Value) : Except Cause (List Value) :=
  (placeAll (h.compare "<") [] items).map List.reverse

/-- The items sorted, and turned around if that is wanted. -/
def sorted (h : Heap) (reverse : Bool) (items : List Value) : Except Cause (List Value) :=
  (ascending h items).map fun items => if reverse then items.reverse else items

/-- The first of the items that stands to every item before it as `wanted` says, starting
with one that is known. -/
def extremeFrom (h : Heap) (wanted : Ordering) : Value → List Value → Except Cause Value
  | best, [] => .ok best
  | best, item :: items => do
    let order ← h.compare "<" item best
    extremeFrom h wanted (if order = wanted then item else best) items

/-- The least or the greatest of the items, if there are any. -/
def extreme? (h : Heap) (wanted : Ordering) : List Value → Except Cause (Option Value)
  | [] => .ok none
  | item :: items => (extremeFrom h wanted item items).map some

end TemplateEngine.Sorting

/-! ## Functions -/

namespace TemplateEngine.Builtin

/-- The number of items of a value. -/
def lengthOf (h : Heap) (v : Value) : Except Cause Nat :=
  match v with
  | .str t | .markup t => .ok t.length
  | .list p => .ok (h.list p).length
  | .tuple p => .ok (h.tuple p).length
  | .dict p => .ok (h.dict p).length
  | .range r =>
    if Word.greatest < r.length then .error .rangeLengthTooLong else .ok r.length
  | other => .error (.noLength other.typeName)

/-- The integer that a value is turned into. -/
def integerOf : Option Value → Except Cause Int
  | none => .ok 0
  | some (.bool b) => .ok (if b then 1 else 0)
  | some (.int n) => .ok n
  | some (.float x) => Format.integerPart x
  | some (.str t) | some (.markup t) =>
    match Word.ofText? ((Text.trim t).filter (· ≠ '_')) with
    | some n => .ok n
    | none => .error (.notNumberText t)
  | some other => .error (.notNumberArgument "int" other.typeName)

/-- The double that a value is turned into. -/
def floatOf (h : Heap) : Option Value → Except Cause Float
  | none => .ok 0.0
  | some v =>
    match v.number?, v.text? with
    | some n, _ => .ok n.toFloat
    | none, some t =>
      match Double.ofText? (Text.trim t) with
      | some x => .ok x
      | none => .error (.notFloatText (h.repr v))
    | none, none => .error (.notNumberArgument "float" v.typeName)

/-- The range with the bounds and the step that are given. -/
def rangeOf (args : Arguments) : Except Cause Range := do
  args.check "range" 1 (some 3) []
  let numbers ← args.positional.mapM (integerArgument "range")
  let r : Range := match numbers with
    | [stop] => ⟨0, stop, 1⟩
    | [start, stop] => ⟨start, stop, 1⟩
    | start :: stop :: step :: _ => ⟨start, stop, step⟩
    | [] => ⟨0, 0, 1⟩
  if r.step = 0 then throw .zeroStep
  return r

/-- Items with their numbers, the numbers taken modulo the size of a machine word. -/
def numbered : Int → List Value → Effect (List Value)
  | _, [] => return []
  | n, item :: items => do
    let pair ← Effect.newTuple [.int n, item]
    return pair :: (← numbered (Word.wrap (n + 1)) items)

/-- A list of the items of a value with their numbers. -/
def enumerateOf (args : Arguments) : Effect Value := do
  Effect.ofExcept (args.check "enumerate" 1 (some 2) ["start".toList])
  let start ← match args.named? "start" 1 with
    | some v => Effect.ofExcept (integerArgument "enumerate" v)
    | none => pure 0
  let items ← Effect.checking fun h => h.iterate ((args.at? 0).getD .none)
  Effect.newList (← numbered start items)

/-- A new list of the items of a value. -/
def listOf (args : Arguments) : Effect Value := do
  Effect.ofExcept (args.check "list" 0 (some 1) [])
  match args.at? 0 with
  | some v => Effect.newList (← Effect.checking fun h => h.iterate v)
  | none => Effect.newList []

/-- A new list of the items of a value, sorted. -/
def sortedOf (args : Arguments) : Effect Value := do
  Effect.ofExcept (args.check "sorted" 1 (some 1) ["reverse".toList])
  let items ← Effect.checking fun h => h.iterate ((args.at? 0).getD .none)
  let reverse ← Effect.reading fun h => (Entries.get? "reverse" args.keywords).any h.truthy
  Effect.newList (← Effect.checking fun h => Sorting.sorted h reverse items)

/-- The least or greatest of the arguments, or of the items of the only one. -/
def extremeOf (function : Text) (wanted : Ordering) (args : Arguments) : Effect Value := do
  Effect.ofExcept (args.check function 1 none ["default".toList])
  let candidates ← match args.positional with
    | [v] => Effect.checking fun h => h.iterate v
    | values => pure values
  let found ← Effect.checking fun h => Sorting.extreme? h wanted candidates
  Effect.orFail (.emptySequence function) (found.or (Entries.get? "default" args.keywords))

/-- The items added one after the other to what there is. -/
def total : Value → List Value → Effect Value
  | v, [] => return v
  | v, item :: items => do total (← Operator.binary .add v item) items

/-- The sum of the items of a value. -/
def sumOf (args : Arguments) : Effect Value := do
  Effect.ofExcept (args.check "sum" 1 (some 2) ["start".toList])
  let start := (args.named? "start" 1).getD (.int 0)
  if start.text?.isSome then Effect.fail .sumOfText
  let items ← Effect.checking fun h => h.iterate ((args.at? 0).getD .none)
  total start items

/-- The absolute value of a number. -/
def absoluteOf (v : Value) : Except Cause Value :=
  match v.number? with
  | some (.int n) => Number.checked n.natAbs
  | some (.float x) => .ok (.float x.abs)
  | none => .error (.noAbsoluteValue v.typeName)

/-- The result of a built-in function. -/
def call (function : Builtin) (args : Arguments) : Effect Value :=
  match function with
  | len => do
    let v ← Effect.ofExcept (args.single "len")
    return .int (← Effect.checking fun h => lengthOf h v)
  | str => do
    Effect.ofExcept (args.check "str" 0 (some 1) [])
    return .str (← Effect.reading fun h => ((args.at? 0).map h.display).getD [])
  | repr => do
    let v ← Effect.ofExcept (args.single "repr")
    return .str (← Effect.reading fun h => h.repr v)
  | int => do
    Effect.ofExcept (args.check "int" 0 (some 1) [])
    return .int (← Effect.ofExcept (integerOf (args.at? 0)))
  | float => do
    Effect.ofExcept (args.check "float" 0 (some 1) [])
    return .float (← Effect.checking fun h => floatOf h (args.at? 0))
  | bool => do
    Effect.ofExcept (args.check "bool" 0 (some 1) [])
    return .bool (← Effect.reading fun h => (args.at? 0).any h.truthy)
  | range => do return .range (← Effect.ofExcept (rangeOf args))
  | enumerate => enumerateOf args
  | list => listOf args
  | sorted => sortedOf args
  | min => extremeOf "min" .lt args
  | max => extremeOf "max" .gt args
  | sum => sumOf args
  | abs => do
    let v ← Effect.ofExcept (args.single "abs")
    Effect.ofExcept (absoluteOf v)
  | markup => do
    let v ← Effect.ofExcept (args.single "markup")
    return .markup (← Effect.reading fun h => h.display v)

/-- What a name means to every script, whatever the page defines. -/
def lookup? (name : Text) : Option Value :=
  match Builtin.all.find? fun f => f.name.toList = name with
  | some f => some (.function (.builtin f))
  | none => (ExceptionKind.ofName? name).map .exceptionClass

/-- The names that every script knows, in order. -/
def names : List Text :=
  Builtin.all.map (fun f => f.name.toList) ++ ExceptionKind.all.map fun k => k.name.toList

end TemplateEngine.Builtin
