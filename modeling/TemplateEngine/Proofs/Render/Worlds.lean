import TemplateEngine.Proofs.Render.Library

/-!
# Worlds that are alike

Two worlds outside of the pages may differ in what no page can find out. A renderer that loads
the same programs in both, and leaves them alike, renders the same in both.
-/
namespace TemplateEngine

/-- Results in two worlds that differ in nothing but what makes the worlds alike. -/
inductive Alike.Outcome {ε σ σ' ω α : Type} (within : σ → ω → σ') (rel : ω → ω → Prop) :
    EStateM.Result ε σ' α → EStateM.Result ε σ' α → Prop
  | ok {a : α} {s : σ} {w w' : ω} : rel w w' → Outcome within rel (.ok a (within s w))
      (.ok a (within s w'))
  | error {e : ε} {s : σ} {w w' : ω} : rel w w' → Outcome within rel (.error e (within s w))
      (.error e (within s w'))

/-- Two computations come to the same in worlds that are alike, and leave them alike. -/
def Alike {ε σ σ' ω α : Type} (within : σ → ω → σ') (rel : ω → ω → Prop)
    (x y : EStateM ε σ' α) : Prop :=
  ∀ (s : σ) (w w' : ω), rel w w' → Alike.Outcome within rel (x (within s w)) (y (within s w'))

namespace Alike

variable {ε σ σ' ω α β : Type} {within : σ → ω → σ'} {rel : ω → ω → Prop}

theorem pure (a : α) : Alike within rel (pure a : EStateM ε σ' α) (pure a) :=
  fun _ _ _ hw => .ok hw

theorem throw (e : ε) : Alike within rel (throw e : EStateM ε σ' α) (throw e) :=
  fun _ _ _ hw => .error hw

theorem bind {x y : EStateM ε σ' α} {f g : α → EStateM ε σ' β} (hx : Alike within rel x y)
    (hf : ∀ a, Alike within rel (f a) (g a)) : Alike within rel (x >>= f) (y >>= g) := by
  intro s w w' hw
  have h := hx s w w' hw
  show Outcome within rel (EStateM.bind x f (within s w)) (EStateM.bind y g (within s w'))
  unfold EStateM.bind
  generalize x (within s w) = found at h ⊢
  generalize y (within s w') = found' at h ⊢
  cases h with
  | ok hw' => exact hf _ _ _ _ hw'
  | error hw' => exact .error hw'

end Alike

section Pages

variable {ω : Type} {rel : ω → ω → Prop}

/-- Scripts that come to the same in worlds that are alike. -/
abbrev Run.Alike (rel : ω → ω → Prop) (α : Type) (x y : Run ω α) : Prop :=
  TemplateEngine.Alike State.within rel x y

/-- Renders that come to the same in worlds that are alike. -/
abbrev Rendering.Alike {α : Type} (rel : ω → ω → Prop) (x y : Rendering ω α) : Prop :=
  TemplateEngine.Alike Shared.within rel x y

/-- A host answers the same in worlds that are alike. -/
def Host.Alike (rel : ω → ω → Prop) (host : Host ω) : Prop :=
  ∀ request vars, TemplateEngine.Alike Shared.within rel (host request vars) (host request vars)

theorem Run.alike_effect {α : Type} (x : Effect α) :
    Run.Alike rel α (Run.effect x) (Run.effect x) := by
  intro s w w' hw
  rw [effect_within, effect_within]
  cases x s.heap with
  | ok found => exact .ok hw
  | error cause => exact .error hw

theorem Run.alike_attempt {α : Type} {x y : Run ω α} (hx : Run.Alike rel α x y) :
    Run.Alike rel (Except Raised α) (Run.attempt x) (Run.attempt y) := by
  intro s w w' hw
  have h := hx s w w' hw
  unfold Run.attempt
  generalize x (s.within w) = found at h ⊢
  generalize y (s.within w') = found' at h ⊢
  cases h with
  | ok hw' => exact .ok hw'
  | @error stop _ _ _ hw' =>
      cases stop with
      | raised r => exact .ok hw'
      | outOfFuel => exact .error hw'

/-- Whatever scripts are put together from comes to the same in worlds that are alike. -/
theorem Run.fullyParametric_alike (rel : ω → ω → Prop) :
    Run.FullyParametric (Run.Alike rel) where
  pure := Alike.pure
  fail := fun _ => Alike.throw _
  effect := Run.alike_effect
  ofScope := fun _ _ _ _ hw => .ok hw
  change := fun f s _ _ hw => .ok (s := { s with scope := f s.scope }) hw
  bind := Alike.bind
  throw := Alike.throw
  attempt := Run.alike_attempt

theorem Host.Alike.related {host : Host ω} (hhost : host.Alike rel) :
    host.Related (Run.Alike rel) host := by
  intro request vars s w w' hw
  have h := hhost request vars s.toShared w w' hw
  rw [Run.request_within, Run.request_within]
  generalize host request vars (s.toShared.within w) = found at h ⊢
  generalize host request vars (s.toShared.within w') = found' at h ⊢
  cases h with
  | @ok t shared _ _ hw' => exact .ok (s := (⟨shared, s.scope⟩ : State Unit)) hw'
  | @error stop shared _ _ hw' => exact .error (s := (⟨shared, s.scope⟩ : State Unit)) hw'

/-- A page comes to the same in worlds that are alike, if its host does. -/
theorem Program.alike_render {host : Host ω} (hhost : host.Alike rel) (site : Site)
    (vars : Entries Value) (p : Program) :
    Rendering.Alike rel (p.render host site vars) (p.render host site vars) := by
  intro s w w' hw
  have h := Run.related_program (Run.fullyParametric_alike rel) hhost.related p.body
    (begin site vars s) w w' hw
  have hbegin (w : ω) : begin site vars (s.within w) = (begin site vars s).within w := rfl
  unfold Program.render
  rw [hbegin, hbegin]
  generalize Run.program host p.body ((begin site vars s).within w) = found at h ⊢
  generalize Run.program host p.body ((begin site vars s).within w') = found' at h ⊢
  cases h with
  | @ok _ s _ _ hw' => exact .ok (s := s.toShared) hw'
  | @error stop s _ _ hw' =>
      cases stop with
      | raised r => exact .error (s := s.toShared) hw'
      | outOfFuel => exact .error (s := s.toShared) hw'

theorem Rendering.Alike.answer {x y : Rendering ω Text} (hx : Rendering.Alike rel x y) :
    TemplateEngine.Alike Shared.within rel (Rendering.answer x) (Rendering.answer y) := by
  intro s w w' hw
  have h := hx s w w' hw
  unfold Rendering.answer
  generalize x (s.within w) = found at h ⊢
  generalize y (s.within w') = found' at h ⊢
  cases h with
  | ok hw' => exact .ok hw'
  | @error failure _ _ _ hw' =>
      cases failure with
      | template error => exact .error hw'
      | outOfFuel => exact .error hw'

/-- The world that a render leaves, however it ends. -/
def Rendering.worldAfter {α : Type} (x : Rendering ω α) (s : Shared ω) : ω :=
  match x s with
  | .ok _ t => t.world
  | .error _ t => t.world

theorem Rendering.Alike.worldAfter {α : Type} {x y : Rendering ω α} (hx : Rendering.Alike rel x y)
    (s : Shared ω) {w : ω} (hw : rel s.world w) :
    rel (x.worldAfter s) (y.worldAfter { s with world := w }) := by
  have h := hx ⟨s.heap, ()⟩ s.world w hw
  change Alike.Outcome _ _ (x s) (y { s with world := w }) at h
  unfold Rendering.worldAfter
  generalize x s = found at h ⊢
  generalize y { s with world := w } = found' at h ⊢
  cases h with
  | ok hw' => exact hw'
  | error hw' => exact hw'

end Pages

namespace Renderer

variable {r : Renderer} {rel : Workspace → Workspace → Prop}

/-- The settling of a heap does not depend on the world. -/
theorem alike_settled {α : Type} {x y : Rendering Workspace α} (hx : Rendering.Alike rel x y) :
    Rendering.Alike rel (settled x) (settled y) := by
  intro s w w' hw
  have h := hx s w w' hw
  unfold settled
  generalize x (s.within w) = found at h ⊢
  generalize y (s.within w') = found' at h ⊢
  cases h with
  | @ok a t _ _ hw' => exact .ok (s := { t with heap := s.heap.settle t.heap }) hw'
  | @error e t _ _ hw' => exact .error (s := { t with heap := s.heap.settle t.heap }) hw'

/-- A renderer loads the same in workspaces that are alike, and leaves them alike. -/
structure LoadsAlike (r : Renderer) (rel : Workspace → Workspace → Prop) : Prop where
  answers : ∀ {w w' : Workspace}, rel w w' → ∀ (name : Text) (encoding : Encoding),
    (r.load (r.resolve name) encoding w).1.map Loaded.program =
      (r.load (r.resolve name) encoding w').1.map Loaded.program
  keeps : ∀ {w w' : Workspace}, rel w w' → ∀ (name : Text) (encoding : Encoding),
    rel (r.load (r.resolve name) encoding w).2 (r.load (r.resolve name) encoding w').2

section Loading

variable (hloads : r.LoadsAlike rel)
include hloads

theorem LoadsAlike.renderWith {host : Host Workspace} (hhost : host.Alike rel)
    (encoding : Encoding) (request : Request) (vars : Entries Value) :
    Rendering.Alike rel (r.renderWith host encoding request vars)
      (r.renderWith host encoding request vars) := by
  cases request with
  | template text =>
      unfold Renderer.renderWith
      dsimp only
      cases (Source.ofText text).compile with
      | ok p => exact Program.alike_render hhost r.site vars p
      | error e => exact Alike.throw _
  | file name =>
      intro s w w' hw
      have hanswers := hloads.answers hw name encoding
      have hkeeps := hloads.keeps hw name encoding
      rw [renderWith_file, renderWith_file]
      dsimp only [Shared.within]
      generalize r.load (r.resolve name) encoding w = found at hanswers hkeeps ⊢
      generalize r.load (r.resolve name) encoding w' = found' at hanswers hkeeps ⊢
      obtain ⟨found, v⟩ := found
      obtain ⟨found', v'⟩ := found'
      cases found with
      | ok loaded =>
          cases found' with
          | ok loaded' =>
              have hprogram : loaded.program = loaded'.program := Except.ok.inj hanswers
              dsimp only
              rw [hprogram]
              exact Program.alike_render hhost r.site vars loaded'.program s v v' hkeeps
          | error e' => exact nomatch hanswers
      | error e =>
          cases found' with
          | ok loaded' => exact nomatch hanswers
          | error e' =>
              obtain rfl : e = e' := Except.error.inj hanswers
              exact .error (s := s) hkeeps

theorem LoadsAlike.hostTo (depth : Nat) : (r.hostTo depth).Alike rel := by
  induction depth with
  | zero => exact fun _ _ => Alike.throw _
  | succ depth ih =>
      intro request vars
      rw [hostTo_succ]
      exact (hloads.renderWith ih r.encoding request vars).answer

/-- A renderer that loads the same in workspaces that are alike renders the same in them. -/
theorem LoadsAlike.renderFileIn (encoding : Encoding) (name : Text) (vars : Entries Value) :
    Rendering.Alike rel (r.renderFileIn encoding name vars) (r.renderFileIn encoding name vars) :=
  alike_settled (hloads.renderWith (hloads.hostTo maxNested) encoding (.file name) vars)

end Loading

end Renderer

end TemplateEngine
