import TemplateEngine.Script.Builtin
import TemplateEngine.Script.Evaluation.Basic
import TemplateEngine.Script.Method

/-!
# Calls

Built-in functions and methods are effects on the heap. Helpers also reach the
output and the names of the page. A page that includes another template hands it
variables and gets its output back as safe text; a layout is handed everything the
page can see, with the output so far as its body.
-/
namespace TemplateEngine

namespace Helper

/-- The result of a helper. -/
def call {ω : Type} (helper : Helper) (args : Arguments) : Run ω Value := do
  let v ← Run.effect (Effect.ofExcept (args.single helper.name.toList))
  let text ← Run.reading fun h => h.display v
  match helper with
  | append | concat =>
    Run.change (Scope.append text)
    return .none
  | capture =>
    match v with
    | .str name => return .capture name
    | other => Run.fail (.notCaptureName other.typeName)
  | captured =>
    match ← Run.lookup? text with
    | some value => return value
    | none => Run.fail (.uncapturedName text)
  | htmlquote => return .markup (Entity.escape text)

end Helper

namespace Inclusion

/-- The variables that a call hands to a template. -/
def vars (h : Heap) (function : Text) (args : Arguments) : Except Cause (Entries Value) :=
  match (args.at? 1).or (Entries.get? "vars" args.keywords) with
  | none | some .none => .ok []
  | some (.dict p) => .ok (h.dict p)
  | some other => .error (.variablesNotDict function other.typeName)

/-- The output of the page so far is taken back, and a layout is rendered around it. -/
def layout {ω : Type} (host : Host ω) (name : Text) : Run ω Text := do
  let body ← Run.takeSince 0
  let visible ← Run.ofScope Scope.visible
  Run.request host (.file name) (Entries.put "body" (.markup body) visible)

/-- The result of a way to render another template. -/
def call {ω : Type} (host : Host ω) (inclusion : Inclusion) (args : Arguments) : Run ω Value := do
  let function := inclusion.name.toList
  match inclusion with
  | withLayout =>
    Run.effect (Effect.ofExcept (args.check function 1 (some 1) []))
    let name ← Run.effect (Effect.ofExcept (textArgument function ((args.at? 0).getD .none)))
    return .markup (← layout host name)
  | _ =>
    Run.effect (Effect.ofExcept (args.check function 1 (some 2) ["vars".toList]))
    let text ← Run.effect (Effect.ofExcept (textArgument function ((args.at? 0).getD .none)))
    let given ← Run.effect (Effect.checking fun h => vars h function args)
    let request := if inclusion = render then Request.file text else Request.template text
    return .markup (← Run.request host request given)

end Inclusion

/-- The result of a function. -/
def Function.call {ω : Type} (host : Host ω) (function : Function) (args : Arguments) :
    Run ω Value :=
  match function with
  | .builtin f => Run.effect (f.call args)
  | .helper f => f.call args
  | .inclusion f => f.call host args
  | .filter _ => do
    let v ← Run.effect (Effect.ofExcept (args.single "__filter"))
    let text ← Run.reading fun h => h.display v
    Run.ofScope fun s => s.filtered text v
  | .method _ m => Run.effect (m.call args)

/-- An exception of a class, made by calling the class. -/
def ExceptionKind.call {ω : Type} (kind : ExceptionKind) (args : Arguments) : Run ω Value := do
  Run.effect (Effect.ofExcept (args.check kind.name.toList 0 (some 1) []))
  let message ← Run.reading fun h => ((args.at? 0).map h.display).getD []
  return .exception (← Run.effect Effect.newIdentity) kind message

/-- The result of calling a value. -/
def Value.call {ω : Type} (host : Host ω) (callee : Value) (args : Arguments) : Run ω Value :=
  match callee with
  | .function f => f.call host args
  | .exceptionClass kind => kind.call args
  | other => Run.fail (.notCallable other.typeName)

end TemplateEngine
