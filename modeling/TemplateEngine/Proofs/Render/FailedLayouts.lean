import TemplateEngine.Proofs.Render.Layouts
import TemplateEngine.Proofs.Script.Footprints

/-!
# Layouts that fail

A call for a layout checks its arguments first and then takes all output of the page back
for the body, before anything is known of the layout. So a call that is refused leaves the
page as it was, but a layout that fails, for whatever reason, leaves the page without the
output it had: an exception that the page catches finds it empty. What the names of the
page mean is the same either way.
-/
namespace TemplateEngine

namespace Layout

/-- The layout that a call asks for, if its arguments are in order. -/
def asked? (args : Arguments) : Option Text :=
  match args.positional, args.keywords with
  | [v], [] => v.text?
  | _, _ => none

section Call

variable {ω : Type} (host : Host ω) {args : Arguments} {s s' : State ω}

/-- A call with one argument goes on with the text that it is. -/
theorem call_single (v : Value) (s : State ω) :
    Inclusion.withLayout.call host ⟨[v], []⟩ s =
      (Run.effect (Effect.ofExcept (textArgument Inclusion.withLayout.name.toList v)) >>= fun name =>
        Inclusion.layout host name >>= fun t => pure (.markup t)) s := by
  have hcheck : Run.effect (Effect.ofExcept
      (Arguments.check ⟨[v], []⟩ Inclusion.withLayout.name.toList 1 (some 1) [])) s = .ok () s := rfl
  unfold Inclusion.call
  dsimp only
  rw [Run.bind_ok hcheck]
  rfl

/-- Arguments that are not in order are refused, and nothing has happened. -/
theorem call_refused (hargs : asked? args = none) (s : State ω) :
    ∃ cause, Inclusion.withLayout.call host args s = .error (.raised ⟨cause, 0⟩) s := by
  obtain ⟨positional, keywords⟩ := args
  match positional, keywords with
  | [], _ => exact ⟨_, rfl⟩
  | _ :: _ :: _, _ => exact ⟨_, rfl⟩
  | [v], _ :: _ => exact ⟨_, rfl⟩
  | [v], [] =>
      have htext : v.text? = none := hargs
      rw [call_single, textArgument, htext]
      exact ⟨_, rfl⟩

/-- Otherwise the output is taken back, and the host is asked for the layout. -/
theorem call_asked {name : Text} (hargs : asked? args = some name) (s : State ω) :
    Inclusion.withLayout.call host args s =
      match host (.file name) (vars s.scope.output s.scope.visible) s.toShared with
      | .ok t shared => .ok (.markup t) (drained s shared)
      | .error stop shared => .error stop (drained s shared) := by
  obtain ⟨positional, keywords⟩ := args
  match positional, keywords with
  | [], _ => cases hargs
  | _ :: _ :: _, _ => cases hargs
  | [v], _ :: _ => cases hargs
  | [v], [] =>
      have htext : v.text? = some name := hargs
      have hname : Run.effect (Effect.ofExcept
          (textArgument Inclusion.withLayout.name.toList v)) s = .ok name s := by
        rw [textArgument, htext]
        rfl
      rw [call_single, Run.bind_ok hname]
      have hlayout : Inclusion.layout host name s = _ := layout_eq host
      cases hhost : host (.file name) (vars s.scope.output s.scope.visible) s.toShared with
      | ok t shared =>
          rw [hhost] at hlayout
          exact Run.bind_ok hlayout
      | error stop shared =>
          rw [hhost] at hlayout
          exact Run.bind_error _ hlayout

/-- A call that fails was refused, or the layout failed. -/
theorem call_error {stop : Stop} (hfailed : Inclusion.withLayout.call host args s = .error stop s') :
    (asked? args = none ∧ s' = s) ∨
      ∃ name shared, asked? args = some name ∧
        host (.file name) (vars s.scope.output s.scope.visible) s.toShared = .error stop shared ∧
        s' = drained s shared := by
  cases hargs : asked? args with
  | none =>
      obtain ⟨cause, hrefused⟩ := call_refused host hargs s
      rw [hrefused] at hfailed
      exact .inl ⟨rfl, (EStateM.Result.error.inj hfailed).2.symm⟩
  | some name =>
      rw [call_asked host hargs] at hfailed
      cases hhost : host (.file name) (vars s.scope.output s.scope.visible) s.toShared with
      | ok t shared =>
          rw [hhost] at hfailed
          cases hfailed
      | error failure shared =>
          rw [hhost] at hfailed
          cases hfailed
          exact .inr ⟨name, shared, rfl, hhost, rfl⟩

theorem output_drained (s : State ω) (shared : Shared ω) : (drained s shared).scope.output = [] :=
  rfl

/-- The exception of a call for a layout can be caught, and whoever catches it finds every name
as it was. The output is what it was if the call was refused, or if there was none; else it is
gone. -/
theorem output_kept_iff {r : Raised}
    (hfailed : Inclusion.withLayout.call host args s = .error (.raised r) s') :
    Run.attempt (Inclusion.withLayout.call host args) s = .ok (.error r) s' ∧
      s.KeepsNames s' ∧
      (s'.scope.output = s.scope.output ↔ asked? args = none ∨ s.scope.output = []) := by
  refine ⟨?_, ?_, ?_⟩
  · unfold Run.attempt
    rw [hfailed]
  · rcases call_error host hfailed with ⟨-, rfl⟩ | ⟨name, shared, -, -, rfl⟩
    · exact State.growing_keepsNames.refl s'
    · rfl
  · rcases call_error host hfailed with ⟨hargs, rfl⟩ | ⟨name, shared, hargs, -, rfl⟩
    · simp [hargs]
    · rw [output_drained, hargs]
      simp only [reduceCtorEq, false_or]
      exact eq_comm

/-- A page that catches what a layout raised goes on without the output it had. -/
theorem exec_attempt_failed {layout : Text} {shared : Shared ω} {r : Raised}
    (hreachable : Inclusion.withLayout.Reachable s)
    (hhost : host (.file layout) (vars s.scope.output s.scope.visible) s.toShared =
      .error (.raised r) shared) (fuel line : Nat) (handlers : List Handler)
    (cleanup : Option (List Stmt)) :
    (Action.attempt [statement line layout] handlers cleanup).exec host fuel [] s =
      (Run.attempt (execHandlers host fuel [] (r.atLine line) handlers) >>=
        Run.afterCleanup (execOption host fuel [] cleanup)) (drained s shared) := by
  have hcaught : Run.attempt (execAll host fuel [] [statement line layout]) s =
      .ok (.error (r.atLine line)) (drained s shared) := by
    unfold Run.attempt
    rw [execAll_singleton, exec_statement_error host hreachable fuel line hhost]
    rfl
  rw [Action.exec, Run.bind_ok hcaught]

end Call

end Layout

namespace Renderer

open Layout

/-- A page that has begun. -/
def opening : State Workspace := Program.begin bare.site [] bareState

/-- A page that has put out something. -/
def opened : State Workspace := { opening with scope := opening.scope.append "A" }

/-- A layout that is not there. -/
def missing : Arguments := ⟨[.str "missing.html"], []⟩

/-- A page that has put out nothing loses nothing. -/
theorem output_kept_opening :
    ∃ cause s', Inclusion.withLayout.call bare.host missing opening =
      .error (.raised ⟨cause, 0⟩) s' ∧ s'.scope.output = opening.scope.output := by
  have hfailed : ∃ cause, Inclusion.withLayout.call bare.host missing opening =
      .error (.raised ⟨cause, 0⟩) (drained opening opening.toShared) := ⟨_, rfl⟩
  obtain ⟨cause, hfailed⟩ := hfailed
  exact ⟨cause, _, hfailed, (output_kept_iff bare.host hfailed).2.2.mpr (.inr rfl)⟩

/-- A page that goes on after a layout that is not there. -/
def hardened : Text :=
  "A<% try: %><%= renderer.with_layout('missing.html') %><% except RuntimeError: %><% end %>B"

/-- A page that has put out something loses it, and so does one that goes on. -/
theorem output_lost_opened :
    (∃ cause s', Inclusion.withLayout.call bare.host missing opened =
      .error (.raised ⟨cause, 0⟩) s' ∧ s'.scope.output ≠ opened.scope.output) ∧
    (bare.renderString hardened []).text? bareState = some "B" := by
  have hfailed : ∃ cause, Inclusion.withLayout.call bare.host missing opened =
      .error (.raised ⟨cause, 0⟩) (drained opened opened.toShared) := ⟨_, rfl⟩
  obtain ⟨cause, hfailed⟩ := hfailed
  constructor
  · exact ⟨cause, _, hfailed, fun hkept => nomatch hkept⟩
  · decide +kernel

end Renderer

end TemplateEngine
