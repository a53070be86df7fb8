import TemplateEngine.Script.Cause
import TemplateEngine.Script.Value
import TemplateEngine.Text.Entries

/-!
# The heap

The heap holds the items of lists, tuples and dicts, each at a place that is never
given out twice. Lists and dicts may change; tuples never do. An effect is a
computation that reads and changes the heap and may fail. When it fails there is
no new heap, so the one before it stays in force.
-/
namespace TemplateEngine

/-- The items of all lists, tuples and dicts, and the identities given out so far. -/
structure Heap where
  lists : Array (List Value)
  tuples : Array (List Value)
  dicts : Array (Entries Value)
  identities : Nat
  deriving Inhabited

namespace Heap

/-- Nothing is on the heap. -/
def empty : Heap := ⟨#[], #[], #[], 0⟩

/-- The items of a list. -/
def list (h : Heap) (place : Nat) : List Value := h.lists.getD place []

/-- The items of a tuple. -/
def tuple (h : Heap) (place : Nat) : List Value := h.tuples.getD place []

/-- The entries of a dict. -/
def dict (h : Heap) (place : Nat) : Entries Value := h.dicts.getD place []

/-- The heap after something that nothing else can see any more: the heap before it, if
everything that was there is as it was, for then nothing leads to what was added. -/
def settle (before after : Heap) : Heap :=
  if after.lists.toList.take before.lists.size = before.lists.toList ∧
      after.tuples.toList.take before.tuples.size = before.tuples.toList ∧
      after.dicts.toList.take before.dicts.size = before.dicts.toList then before
  else after

/-- How deep values can be nested unless one contains itself: no container is met twice
on the way down. -/
def depth (h : Heap) : Nat := h.lists.size + h.tuples.size + h.dicts.size + 1

end Heap

/-- A computation on the heap that may fail, and then leaves the heap alone. -/
abbrev Effect := StateT Heap (Except Cause)

namespace Effect

/-- Failure. -/
def fail {α : Type} (cause : Cause) : Effect α := fun _ => .error cause

/-- What can be read off the heap. -/
def reading {α : Type} (f : Heap → α) : Effect α := fun h => .ok (f h, h)

/-- What can be read off the heap, or the failure to do so. -/
def checking {α : Type} (f : Heap → Except Cause α) : Effect α := fun h =>
  (f h).map fun a => (a, h)

/-- A new list. -/
def newList (items : List Value) : Effect Value := fun h =>
  .ok (.list h.lists.size, { h with lists := h.lists.push items })

/-- A new tuple. -/
def newTuple (items : List Value) : Effect Value := fun h =>
  .ok (.tuple h.tuples.size, { h with tuples := h.tuples.push items })

/-- A new dict. -/
def newDict (entries : Entries Value) : Effect Value := fun h =>
  .ok (.dict h.dicts.size, { h with dicts := h.dicts.push entries })

/-- An identity that nothing has yet. -/
def newIdentity : Effect Nat := fun h =>
  .ok (h.identities, { h with identities := h.identities + 1 })

/-- Other items for a list. -/
def setList (place : Nat) (items : List Value) : Effect Unit := fun h =>
  .ok ((), { h with lists := h.lists.setIfInBounds place items })

/-- Other entries for a dict. -/
def setDict (place : Nat) (entries : Entries Value) : Effect Unit := fun h =>
  .ok ((), { h with dicts := h.dicts.setIfInBounds place entries })

/-- Success or failure that does not depend on the heap. -/
def ofExcept {α : Type} : Except Cause α → Effect α
  | .ok a => fun h => .ok (a, h)
  | .error cause => fail cause

/-- A value, or the failure that there is none. -/
def orFail {α : Type} (cause : Cause) : Option α → Effect α
  | some a => fun h => .ok (a, h)
  | none => fail cause

end Effect

end TemplateEngine
