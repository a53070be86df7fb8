import TemplateEngine.Script.Format
import TemplateEngine.Script.Relation
import TemplateEngine.Syntax.Tree

/-!
# Operators

Arithmetic on integers is exact and fails where the result is no machine integer;
as soon as a double takes part, it is that of doubles. Floor division and its
remainder follow the sign of the divisor. Text, lists and tuples can be joined and
repeated, and text can be filled in.
-/
namespace TemplateEngine

namespace Number

/-- An integer result, if it is a machine integer. -/
def checked (n : Int) : Except Cause Value :=
  match Word.checked? n with
  | some n => .ok (.int n)
  | none => .error .overflow

/-- Arithmetic on two integers. -/
def ofInts (op : BinaryOp) (a b : Int) : Except Cause Value :=
  match op with
  | .add => checked (a + b)
  | .sub => checked (a - b)
  | .mul => checked (a * b)
  | .div =>
    if b = 0 then .error (.divisionByZero .true false)
    else .ok (.float (Double.ofInt a / Double.ofInt b))
  | .floorDiv =>
    if b = 0 then .error (.divisionByZero .floor false)
    else
      match Word.floorDiv? a b with
      | some quotient => .ok (.int quotient)
      | none => .error .overflow
  | .mod =>
    if b = 0 then .error (.divisionByZero .remainder false) else .ok (.int (Word.floorMod a b))

/-- The remainder of doubles that has the sign of the divisor. -/
def floatRemainder (a b : Float) : Float :=
  let rest := Double.remainder a b
  if rest != 0.0 && (decide (rest < 0.0) != decide (b < 0.0)) then rest + b else rest

/-- Arithmetic on two doubles. -/
def ofFloats (op : BinaryOp) (a b : Float) : Except Cause Value :=
  match op with
  | .add => .ok (.float (a + b))
  | .sub => .ok (.float (a - b))
  | .mul => .ok (.float (a * b))
  | .div => if b == 0.0 then .error (.divisionByZero .true true) else .ok (.float (a / b))
  | .floorDiv =>
    if b == 0.0 then .error (.divisionByZero .floor true)
    else .ok (.float (Double.floor (a / b)))
  | .mod =>
    if b == 0.0 then .error (.divisionByZero .remainder true)
    else .ok (.float (floatRemainder a b))

/-- Arithmetic on two numbers. -/
def arithmetic (op : BinaryOp) : Number → Number → Except Cause Value
  | int a, int b => ofInts op a b
  | a, b => ofFloats op a.toFloat b.toFloat

end Number

namespace Operator

/-- The greatest length that repetition may reach, in bytes or items. -/
def maxRepeated : Nat := 0x10000000

/-- The number of bytes of a text. -/
def byteLength (t : Text) : Nat := t.foldl (fun n c => n + c.utf8Size) 0

/-- Items, repeated. -/
def cycle {α : Type} (items : List α) (count : Nat) : List α :=
  (List.replicate count items).flatten

/-- Items of a given size, repeated, unless that is too much of them. -/
def repeated {α : Type} (sequence : SequenceKind) (size : Nat) (items : List α) (count : Int) :
    Except Cause (List α) :=
  if maxRepeated < size * count.toNat then .error (.repeatTooLong sequence)
  else .ok (if items.isEmpty then [] else cycle items count.toNat)

/-- A value repeated, if it is a sequence that can be. -/
def repeat? (v : Value) (count : Int) : Option (Effect Value) :=
  match v with
  | .str t =>
    some ((Effect.ofExcept (repeated .string (byteLength t) t count)).map fun t => .str t)
  | .markup t =>
    some ((Effect.ofExcept (repeated .string (byteLength t) t count)).map fun t => .markup t)
  | .list p => some do
    let items ← Effect.reading (·.list p)
    Effect.newList (← Effect.ofExcept (repeated .list items.length items count))
  | .tuple p => some do
    let items ← Effect.reading (·.tuple p)
    Effect.newTuple (← Effect.ofExcept (repeated .tuple items.length items count))
  | _ => none

/-- Two sequences of one kind, joined. Joined text is safe if both parts are. -/
def join? (a b : Value) : Option (Effect Value) :=
  match a, b with
  | .markup s, .markup t => some (return .markup (s ++ t))
  | .list p, .list q => some do
    Effect.newList (← Effect.reading fun h => h.list p ++ h.list q)
  | .tuple p, .tuple q => some do
    Effect.newTuple (← Effect.reading fun h => h.tuple p ++ h.tuple q)
  | a, b =>
    match a.text?, b.text? with
    | some s, some t => some (return .str (s ++ t))
    | _, _ => none

/-- A sequence times a count, in either order. -/
def times? (a b : Value) : Option (Effect Value) :=
  match b.integer?.bind (repeat? a) with
  | some effect => some effect
  | none => a.integer?.bind (repeat? b)

/-- What an operator does to values that are not both numbers. -/
def onOthers? (op : BinaryOp) (a b : Value) : Option (Effect Value) :=
  match op with
  | .add => join? a b
  | .mul => times? a b
  | .mod => a.text?.map fun format => do
    return .str (← Effect.checking fun h => Format.apply h format b)
  | _ => none

/-- The result of an operator between two values. -/
def binary (op : BinaryOp) (a b : Value) : Effect Value :=
  match a.number?, b.number? with
  | some x, some y => Effect.ofExcept (Number.arithmetic op x y)
  | _, _ =>
    (onOthers? op a b).getD
      (Effect.fail (.unsupportedOperands op.symbol a.typeName b.typeName))

/-- The result of an operator before a value. -/
def unary (op : UnaryOp) (v : Value) : Except Cause Value :=
  match op, v.number? with
  | .neg, some (.int n) => Number.checked (-n)
  | .neg, some (.float x) => .ok (.float (-x))
  | .pos, some (.int n) => .ok (.int n)
  | .pos, some (.float x) => .ok (.float x)
  | .neg, none => .error (.unsupportedOperand "-".toList v.typeName)
  | .pos, none => .error (.unsupportedOperand "+".toList v.typeName)

/-- Whether a comparison holds. -/
def compare (h : Heap) (op : CompareOp) (a b : Value) : Except Cause Bool :=
  match op with
  | .eq => .ok (h.equal a b)
  | .ne => .ok (!h.equal a b)
  | .lt => (h.compare "<" a b).map (· == .lt)
  | .le => (h.compare "<=" a b).map (· != .gt)
  | .gt => (h.compare ">" a b).map (· == .gt)
  | .ge => (h.compare ">=" a b).map (· != .lt)
  | .isIn => h.holds b a
  | .notIn => (h.holds b a).map (!·)
  | .is => .ok (h.identical a b)
  | .isNot => .ok (!h.identical a b)

end Operator

end TemplateEngine
