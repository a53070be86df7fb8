import TemplateEngine.Script.Heap

/-!
# Arguments of calls

A call hands over values by position and by name. A function first checks how many
there are by position, and then that it knows every name.
-/
namespace TemplateEngine

/-- The values handed over by a call. -/
structure Arguments where
  positional : List Value
  keywords : Entries Value

namespace Arguments

/-- Whether a function with these bounds and names accepts the arguments. No upper bound
means any number of them. -/
def check (args : Arguments) (function : Text) (least : Nat) (most : Option Nat)
    (names : List Text) : Except Cause Unit :=
  let given := args.positional.length
  if given < least || most.any (· < given) then
    .error (.argumentCount function least most given)
  else
    match args.keywords.find? fun entry => !names.contains entry.1 with
    | some entry => .error (.unexpectedKeyword function entry.1)
    | none => .ok ()

/-- The only argument of a function of one. -/
def single (args : Arguments) (function : Text) : Except Cause Value := do
  args.check function 1 (some 1) []
  return args.positional.headD .none

/-- The argument at a place. -/
def at? (args : Arguments) (place : Nat) : Option Value := args.positional[place]?

/-- The argument under a name, or at a place. -/
def named? (args : Arguments) (name : Text) (place : Nat) : Option Value :=
  (Entries.get? name args.keywords).or (args.at? place)

end Arguments

/-- The text that an argument is. -/
def textArgument (function : Text) (v : Value) : Except Cause Text :=
  match v.text? with
  | some t => .ok t
  | none => .error (.notText function v.typeName)

/-- The integer that an argument is. -/
def integerArgument (function : Text) (v : Value) : Except Cause Int :=
  match v.integer? with
  | some n => .ok n
  | none => .error (.notIntegerArgument function v.typeName)

end TemplateEngine
