import TemplateEngine.Script.Scope

/-!
# Running scripts

A script reads and changes the heap, the scope of its page and whatever lies
outside of both, which is left open here. It ends early by an exception or by
running out of rounds for a loop, and what it has done by then stays done.
-/
namespace TemplateEngine

/-- What a page shares with the templates it includes. -/
structure Shared (ω : Type) where
  heap : Heap
  world : ω

/-- What a script can change. -/
structure State (ω : Type) extends Shared ω where
  scope : Scope

/-- Why a script ends early. -/
inductive Stop where
  | raised (exception : Raised)
  | outOfFuel
  deriving DecidableEq, Repr

/-- A computation of a script. -/
abbrev Run (ω : Type) := EStateM Stop (State ω)

/-- Another template that a page asks for. -/
inductive Request where
  | file (name : Text)
  | template (text : Text)
  deriving DecidableEq, Repr

/-- How other templates are rendered on behalf of a page. -/
abbrev Host (ω : Type) := Request → Entries Value → EStateM Stop (Shared ω) Text

/-- How a block ended. -/
inductive Flow where
  | normal
  | breakLoop
  | continueLoop
  deriving DecidableEq, Repr

namespace Run

variable {ω α : Type}

/-- Ends with an exception that no line is known of yet. -/
def fail (cause : Cause) : Run ω α := throw (.raised ⟨cause, 0⟩)

/-- An effect on the heap. -/
def effect (x : Effect α) : Run ω α := fun s =>
  match x s.heap with
  | .ok (a, heap) => .ok a { s with heap := heap }
  | .error cause => .error (.raised ⟨cause, 0⟩) s

/-- What can be read off the heap. -/
def reading (f : Heap → α) : Run ω α := fun s => .ok (f s.heap) s

/-- What can be read off the scope. -/
def ofScope (f : Scope → α) : Run ω α := fun s => .ok (f s.scope) s

/-- A change of the scope. -/
def change (f : Scope → Scope) : Run ω Unit := fun s => .ok () { s with scope := f s.scope }

/-- Assigns a name. -/
def assign (name : Text) (v : Value) : Run ω Unit := change (Scope.assign name v)

/-- Takes back the output after a mark. -/
def takeSince (mark : Nat) : Run ω Text := fun s =>
  let (taken, scope) := s.scope.takeSince mark
  .ok taken { s with scope := scope }

/-- What a name means on the page. -/
def lookup? (name : Text) : Run ω (Option Value) := fun s => effect (s.scope.lookup name) s

/-- The text of another template. -/
def request (host : Host ω) (request : Request) (vars : Entries Value) : Run ω Text :=
  fun s =>
    match host request vars s.toShared with
    | .ok t shared => .ok t { s with toShared := shared }
    | .error stop shared => .error stop { s with toShared := shared }

/-- A computation whose exceptions get a line, unless they have one. -/
def atLine (line : Nat) (x : Run ω α) : Run ω α := fun s =>
  match x s with
  | .error (.raised r) s => .error (.raised (r.atLine line)) s
  | other => other

/-- A computation whose exception is a result. -/
def attempt (x : Run ω α) : Run ω (Except Raised α) := fun s =>
  match x s with
  | .ok a s => .ok (.ok a) s
  | .error (.raised r) s => .ok (.error r) s
  | .error .outOfFuel s => .error .outOfFuel s

/-- A result, or the exception in its place. -/
def settle (outcome : Except Raised α) : Run ω α :=
  match outcome with
  | .ok a => pure a
  | .error r => throw (.raised r)

/-- A step for every value of a list, until one breaks off. -/
def overList (step : Value → Run ω Flow) : List Value → Run ω Unit
  | [] => pure ()
  | v :: rest => do if (← step v) ≠ .breakLoop then overList step rest

/-- A step for so many integers at equal distances, until one breaks off. -/
def overRange (step : Value → Run ω Flow) (distance : Int) : Nat → Int → Run ω Unit
  | 0, _ => pure ()
  | count + 1, n => do
    if (← step (.int n)) ≠ .breakLoop then overRange step distance count (n + distance)

/-- A step as long as a condition holds, until one breaks off. -/
def whileHolds (condition : Run ω Bool) (step : Run ω Flow) : Nat → Run ω Unit
  | 0 => throw .outOfFuel
  | fuel + 1 => do
    if ← condition then
      if (← step) ≠ .breakLoop then whileHolds condition step fuel

end Run

end TemplateEngine
