import TemplateEngine.Script.Printed

/-!
# Subscripts and slices

A subscript counts from the start, or from the end if it is negative, and has to
meet an item. The bounds of a slice are moved into the sequence instead, so a
slice never fails on their account. Dicts are read by name.
-/
namespace TemplateEngine.Subscript

/-- The place that an index means in a sequence of some length. -/
def place? (index : Int) (length : Nat) : Option Nat :=
  let place := if index < 0 then index + length else index
  if 0 ≤ place && place < length then some place.toNat else none

/-- The integer that an index is. -/
def index (container v : Value) : Except Cause Int :=
  match v.integer? with
  | some n => .ok n
  | none => .error (.notIntegerIndex container.typeName v.typeName)

/-- The name that a key of a dict is. -/
def key (v : Value) : Except Cause Text :=
  match v.text? with
  | some name => .ok name
  | none => .error (.notTextKey v.typeName)

/-- The item at an index. -/
def itemAt {α : Type} (sequence : SequenceKind) (items : List α) (index : Int) :
    Except Cause α :=
  match (place? index items.length).bind fun place => items[place]? with
  | some item => .ok item
  | none => .error (.indexOutOfRange sequence)

/-- What a subscript reads. -/
def get (h : Heap) (object v : Value) : Except Cause Value := do
  match object with
  | .list p => itemAt .list (h.list p) (← index object v)
  | .tuple p => itemAt .tuple (h.tuple p) (← index object v)
  | .range r =>
    match place? (← index object v) r.length with
    | some place => return .int (r.item place)
    | none => throw (.indexOutOfRange .range)
  | .str t | .markup t =>
    let c ← itemAt .string t (← index object v)
    return object.textLike [c]
  | .dict p =>
    let name ← key v
    match Entries.get? name (h.dict p) with
    | some value => return value
    | none => throw (.missingKey name)
  | other => throw (.notSubscriptable other.typeName)

/-- A bound of a slice, if there is one. -/
def bound? : Option Value → Except Cause (Option Int)
  | none | some .none => .ok none
  | some v =>
    match v.integer? with
    | some n => .ok (some n)
    | none => .error .notIntegerBound

/-- A bound moved into a sequence of some length. -/
def clamp (length : Nat) (bound : Int) : Nat :=
  if bound < 0 then (bound + length).toNat else min bound.toNat length

/-- The items from one bound up to but excluding another. -/
def sliceItems {α : Type} (items : List α) (start stop : Option Int) : List α :=
  let first := (start.map (clamp items.length)).getD 0
  let last := max first ((stop.map (clamp items.length)).getD items.length)
  (items.take last).drop first

/-- What a slice reads: a new sequence of the same kind. -/
def slice (object : Value) (start stop : Option Value) : Effect Value := do
  let start ← Effect.ofExcept (bound? start)
  let stop ← Effect.ofExcept (bound? stop)
  match object with
  | .list p => Effect.newList (sliceItems (← Effect.reading (·.list p)) start stop)
  | .tuple p => Effect.newTuple (sliceItems (← Effect.reading (·.tuple p)) start stop)
  | .str t | .markup t => return object.textLike (sliceItems t start stop)
  | other => Effect.fail (.notSubscriptable other.typeName)

/-- Puts a value where a subscript points. -/
def set (object v value : Value) : Effect Unit := do
  match object with
  | .list p =>
    let n ← Effect.ofExcept (index object v)
    let items ← Effect.reading (·.list p)
    match place? n items.length with
    | some place => Effect.setList p (items.set place value)
    | none => Effect.fail .assignmentOutOfRange
  | .dict p =>
    let name ← Effect.ofExcept (key v)
    let entries ← Effect.reading (·.dict p)
    Effect.setDict p (Entries.put name value entries)
  | other => Effect.fail (.noItemAssignment other.typeName)

end TemplateEngine.Subscript
