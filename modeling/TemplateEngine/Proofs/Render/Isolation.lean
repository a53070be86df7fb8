import Mathlib
import TemplateEngine.Render.Renderer

/-!
# What one render leaves to the next

The pages of a renderer share the heap and the workspace. Renders that leave both as
they found them do not affect each other, in whatever order they come. One that puts
something into the dict by which pages reach their renderer leaves it to all that
come after it.
-/
namespace TemplateEngine.Renderer

/-- A template given as text, with its variables. -/
abbrev Call := Text × Entries Value

/-- What a render gives, and the state it leaves. -/
def outcome (r : Renderer) (call : Call) (s : Shared Workspace) :
    Except RenderFailure Text × Shared Workspace :=
  match r.renderString call.1 call.2 s with
  | .ok t s => (.ok t, s)
  | .error e s => (.error e, s)

/-- What renders give one after another. -/
def outcomes (r : Renderer) : List Call → Shared Workspace → List (Except RenderFailure Text)
  | [], _ => []
  | call :: calls, s => (r.outcome call s).1 :: outcomes r calls (r.outcome call s).2

/-- The state that a render leaves before the heap is settled. -/
def unsettled (r : Renderer) (call : Call) (s : Shared Workspace) : Shared Workspace :=
  match r.renderWith r.host r.encoding (.template call.1) call.2 s with
  | .ok _ t => t
  | .error _ t => t

/-- A render from a state changes no list, tuple or dict that it finds, and nothing outside the
heap. -/
structure Discreet (r : Renderer) (s : Shared Workspace) (call : Call) : Prop where
  lists : (r.unsettled call s).heap.lists.toList.take s.heap.lists.size = s.heap.lists.toList
  tuples : (r.unsettled call s).heap.tuples.toList.take s.heap.tuples.size = s.heap.tuples.toList
  dicts : (r.unsettled call s).heap.dicts.toList.take s.heap.dicts.size = s.heap.dicts.toList
  world : (r.unsettled call s).world = s.world

theorem outcome_state (r : Renderer) (call : Call) (s : Shared Workspace) :
    (r.outcome call s).2 =
      { r.unsettled call s with heap := s.heap.settle (r.unsettled call s).heap } := by
  unfold outcome unsettled renderString settled
  cases r.renderWith r.host r.encoding (.template call.1) call.2 s <;> rfl

/-- A discreet render leaves the state that it finds: what it added to the heap is out of reach. -/
theorem Discreet.outcome_state_eq {r : Renderer} {s : Shared Workspace} {call : Call}
    (h : r.Discreet s call) : (r.outcome call s).2 = s := by
  have hheap : s.heap.settle (r.unsettled call s).heap = s.heap :=
    if_pos ⟨h.lists, h.tuples, h.dicts⟩
  rw [outcome_state, hheap]
  exact congrArg (Shared.mk s.heap) h.world

theorem renderWith_of_compile (r : Renderer) {text : Text} (vars : Entries Value) {p : Program}
    (h : (Source.ofText text).compile = .ok p) :
    r.renderWith r.host r.encoding (.template text) vars = p.render r.host r.site vars := by
  unfold Renderer.renderWith
  dsimp only
  rw [h]

theorem outcome_of_compile (r : Renderer) {text : Text} (vars : Entries Value) {p : Program}
    (h : (Source.ofText text).compile = .ok p) (s : Shared Workspace) :
    r.outcome (text, vars) s =
      match settled (p.render r.host r.site vars) s with
      | .ok t s => (.ok t, s)
      | .error e s => (.error e, s) := by
  unfold outcome renderString
  rw [renderWith_of_compile r vars h]

/-- A renderer without any globals of its caller, and the state in which it starts. -/
def bare : Renderer := ⟨none, none, ⟨[(globalName, .dict 0)], none⟩, .utf8⟩

/-- Nothing is on the heap but the dict by which pages reach the renderer. -/
def bareState : Shared Workspace := ⟨⟨#[], #[], #[inclusions], 0⟩, .ofFiles .fresh 0⟩

theorem create_bare : create ⟨none, none, [], none, .utf8⟩ .empty = .ok (bare, bareState.heap) :=
  rfl

theorem unsettled_of_compile (r : Renderer) {text : Text} (vars : Entries Value) {p : Program}
    (h : (Source.ofText text).compile = .ok p) (s : Shared Workspace) :
    r.unsettled (text, vars) s =
      match p.render r.host r.site vars s with
      | .ok _ t => t
      | .error _ t => t := by
  unfold unsettled
  rw [renderWith_of_compile r vars h]

/-- A template that does nothing, twice. -/
def idle : List Call := [("<%pass%>", []), ("<%pass%>", [])]

/-- A template that puts something into the dict of its renderer. -/
def putting : Text := "<%renderer['x']=1%>"

/-- A template that prints what is there. -/
def printing : Text := "<%=renderer['x']%>"

theorem compile_putting : (Source.ofText putting).compile = .ok ⟨"<string>", "renderer['x']=1\n",
    [.at 1 (.assign (.index (.name "renderer") (.constant (.str "x"))) (.constant (.int 1)))],
    [1]⟩ := by cbv

theorem compile_printing : (Source.ofText printing).compile =
    .ok ⟨"<string>", "__buffer_append(__filter(renderer['x']))\n",
      [.at 1 (.expr (.call (.name "__buffer_append") [.call (.name "__filter")
        [.index (.name "renderer") (.constant (.str "x"))] []] []))], [1]⟩ := by cbv

/-- The state that is left with one more entry in the dict of the renderer. -/
def taintedState : Shared Workspace :=
  ⟨⟨#[], #[], #[Entries.put "x" (.int 1) inclusions], 1⟩, .ofFiles .fresh 0⟩

end TemplateEngine.Renderer
