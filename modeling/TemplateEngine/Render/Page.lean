import TemplateEngine.Script.Evaluation.Statement
import TemplateEngine.Template.Program

/-!
# Rendering a page

A page is a compiled program run in a scope of its own, with variables from its
caller and names from its site. Its output is what its program appended, unless an
exception escapes: that becomes an error which says where in the program, and where
in the template, it was raised.
-/
namespace TemplateEngine

/-- Why a page has no output. -/
inductive RenderFailure where
  | template (error : TemplateError)
  | outOfFuel
  deriving DecidableEq, Repr

/-- A computation that renders pages. -/
abbrev Rendering (ω : Type) := EStateM RenderFailure (Shared ω)

/-- The host of a page that can reach no other templates. -/
def Host.absent {ω : Type} : Host ω := fun _ _ => throw (.raised ⟨.noRenderer, 0⟩)

namespace Program

/-- The error of an exception that escaped a program. -/
def failure (p : Program) (r : Raised) : TemplateError :=
  .runtime ⟨p.name, r.kind, r.message, r.line, p.templateLine? r.line, p.window r.line⟩

/-- The state in which a page begins. -/
def begin {ω : Type} (site : Site) (vars : Entries Value) (shared : Shared ω) : State ω :=
  let identity := shared.heap.identities
  { heap := { shared.heap with identities := identity + 1 }
    world := shared.world
    scope := Scope.start site vars identity }

/-- The output of a program. -/
def render {ω : Type} (host : Host ω) (site : Site) (vars : Entries Value) (p : Program) :
    Rendering ω Text := fun shared =>
  match Run.program host p.body (begin site vars shared) with
  | .ok _ s => .ok s.scope.output s.toShared
  | .error (.raised r) s => .error (.template (p.failure r)) s.toShared
  | .error .outOfFuel s => .error .outOfFuel s.toShared

end Program

/-- The output of a template that is compiled on the spot and reaches no other. -/
def renderText (name text : Text) (site : Site) (vars : Entries Value) :
    Rendering Unit Text :=
  match Program.ofTemplate name text with
  | .ok program => program.render Host.absent site vars
  | .error error => throw (.template error)

end TemplateEngine
