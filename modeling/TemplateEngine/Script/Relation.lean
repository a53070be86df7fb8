import TemplateEngine.Script.Heap

/-!
# Equality, order and membership

Numbers are equal and ordered by their value, whatever their type, and text by its
characters, whether it is safe or not. Sequences compare item by item. Dicts are
equal if they have equal values under the same names, in any order. Identity is
narrower: containers are the same only if they stand at the same place.

A comparison follows values down into containers. The depth of the heap bounds how
far, so the bound is met by no value that does not contain itself.
-/
namespace TemplateEngine

/-- How two texts are ordered, by the code points of their characters. -/
def Text.compare : Text → Text → Ordering
  | [], [] => .eq
  | [], _ :: _ => .lt
  | _ :: _, [] => .gt
  | c :: s, d :: t => if c < d then .lt else if d < c then .gt else compare s t

/-- How two integers are ordered. -/
def Word.compare (a b : Int) : Ordering := if a < b then .lt else if b < a then .gt else .eq

namespace Number

/-- Whether two numbers are equal. -/
def equal : Number → Number → Bool
  | int a, int b => a == b
  | a, b => a.toFloat == b.toFloat

/-- How two numbers are ordered; there is no order if one of them is no number. -/
def compare : Number → Number → Except Cause Ordering
  | int a, int b => .ok (Word.compare a b)
  | a, b =>
    match Double.compare? a.toFloat b.toFloat with
    | some order => .ok order
    | none => .error .unorderableNumber

end Number

/-- Whether two lists have items that are pairwise equal. -/
def sameItems (equal : Value → Value → Bool) : List Value → List Value → Bool
  | [], [] => true
  | a :: as, b :: bs => equal a b && sameItems equal as bs
  | _, _ => false

/-- Whether every entry has an equal value under its name elsewhere. -/
def sameEntries (equal : Value → Value → Bool) (entries others : Entries Value) : Bool :=
  entries.length == others.length &&
    entries.all fun entry => (Entries.get? entry.1 others).any (equal entry.2)

/-- How two lists of items are ordered: by the first pair that differs, or by length. -/
def compareItems (equal : Value → Value → Bool) (compare : Value → Value → Except Cause Ordering) :
    List Value → List Value → Except Cause Ordering
  | [], [] => .ok .eq
  | [], _ :: _ => .ok .lt
  | _ :: _, [] => .ok .gt
  | a :: as, b :: bs => if equal a b then compareItems equal compare as bs else compare a b

namespace Heap

/-- Equality of values down to a depth. -/
def equalTo (h : Heap) : Nat → Value → Value → Bool
  | 0, _, _ => false
  | depth + 1, a, b =>
    match a.number?, b.number? with
    | some x, some y => Number.equal x y
    | _, _ =>
      match a, b with
      | .none, .none => true
      | .list p, .list q => p == q || sameItems (equalTo h depth) (h.list p) (h.list q)
      | .tuple p, .tuple q => sameItems (equalTo h depth) (h.tuple p) (h.tuple q)
      | .dict p, .dict q => p == q || sameEntries (equalTo h depth) (h.dict p) (h.dict q)
      | .function f, .function g => f.same g
      | .exceptionClass k, .exceptionClass l => k = l
      | .exception i _ _, .exception j _ _ => i == j
      | .capture s, .capture t => s = t
      | .range r, .range s => r.same s
      | a, b =>
        match a.text?, b.text? with
        | some s, some t => s = t
        | _, _ => false

/-- Whether two values are equal. -/
def equal (h : Heap) (a b : Value) : Bool := h.equalTo h.depth a b

/-- Whether two values are the same. -/
def identical (h : Heap) (a b : Value) : Bool :=
  match a, b with
  | .list p, .list q | .tuple p, .tuple q | .dict p, .dict q => p == q
  | .bool b, .bool c => b == c
  | .bool _, _ | _, .bool _ => false
  | a, b => a.typeName = b.typeName && h.equal a b

/-- The order of values down to a depth; `operator` is the one that asks. -/
def compareTo (h : Heap) (operator : Text) : Nat → Value → Value → Except Cause Ordering
  | 0, _, _ => .ok .eq
  | depth + 1, a, b =>
    match a.number?, b.number? with
    | some x, some y => Number.compare x y
    | _, _ =>
      match a, b with
      | .list p, .list q =>
        compareItems h.equal (compareTo h operator depth) (h.list p) (h.list q)
      | .tuple p, .tuple q =>
        compareItems h.equal (compareTo h operator depth) (h.tuple p) (h.tuple q)
      | a, b =>
        match a.text?, b.text? with
        | some s, some t => .ok (Text.compare s t)
        | _, _ => .error (.unorderable operator a.typeName b.typeName)

/-- How two values are ordered; `operator` is the one that asks. -/
def compare (h : Heap) (operator : Text) (a b : Value) : Except Cause Ordering :=
  h.compareTo operator h.depth a b

/-- Whether a number is an item of a range. -/
def rangeHas (r : Range) : Number → Bool
  | .int n => r.hasItem n
  | .float x =>
    x.isFinite && Double.isWhole x && Word.least ≤ Double.truncate x &&
      Double.truncate x ≤ Word.greatest && r.hasItem (Double.truncate x)

/-- Whether a container holds a value. -/
def holds (h : Heap) (container item : Value) : Except Cause Bool :=
  match container with
  | .str t | .markup t =>
    match item.text? with
    | some piece => .ok (Text.hasPiece piece t)
    | none => .error (.notTextInText item.typeName)
  | .list p => .ok ((h.list p).any fun v => h.equal v item)
  | .tuple p => .ok ((h.tuple p).any fun v => h.equal v item)
  | .dict p => .ok (item.text?.any fun key => (Entries.get? key (h.dict p)).isSome)
  | .range r => .ok (item.number?.any (rangeHas r))
  | other => .error (.notContainer other.typeName)

end Heap

end TemplateEngine
