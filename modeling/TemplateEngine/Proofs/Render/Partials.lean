import TemplateEngine.Proofs.Artifact.Transparency
import TemplateEngine.Proofs.Render.Inclusions
import TemplateEngine.Proofs.Render.Isolation
import TemplateEngine.Proofs.Render.Library
import TemplateEngine.Proofs.Template.ClosingPrint

/-!
# Partials

Templates may be followed only so deep, and what is deeper left open. A render that leaves nothing
open does not reach down to where renders are refused, so it comes to the same wherever it is
nested, as long as so many renders may be nested in it.

A page may print what another template comes to that is given to it as text, with the entries of a
dict as its variables. The page then comes to what the other template comes to on its own, as it
is: safe text is not filtered again. Where the other template has no output, the page fails with an
exception of the same class, or with one that says what is wrong with the template. Whatever
happens, the page that asks keeps its names and the output that it has.
-/
namespace TemplateEngine

/-- A computation foretells another one: it leaves open what it comes to, or both come to the
same. -/
def Foretells {ε σ α : Type} (leftOpen : ε) (x y : EStateM ε σ α) : Prop :=
  ∀ s, (∃ t, x s = .error leftOpen t) ∨ y s = x s

namespace Foretells

variable {ε σ α β : Type} {leftOpen : ε}

theorem refl (x : EStateM ε σ α) : Foretells leftOpen x x := fun _ => .inr rfl

theorem bind {x y : EStateM ε σ α} {f g : α → EStateM ε σ β} (hx : Foretells leftOpen x y)
    (hf : ∀ a, Foretells leftOpen (f a) (g a)) : Foretells leftOpen (x >>= f) (y >>= g) := by
  intro s
  show (∃ t, EStateM.bind x f s = _) ∨ EStateM.bind y g s = EStateM.bind x f s
  unfold EStateM.bind
  rcases hx s with ⟨t, hopen⟩ | hsame
  · rw [hopen]
    exact .inl ⟨t, rfl⟩
  · rw [hsame]
    cases x s with
    | ok a t => exact hf a t
    | error e t => exact .inr rfl

/-- A computation that leaves nothing open comes to the same as one that it foretells. -/
theorem eq {x y : EStateM ε σ α} (hxy : Foretells leftOpen x y) {s : σ}
    (hclosed : ∀ t, x s ≠ .error leftOpen t) : y s = x s := by
  rcases hxy s with ⟨t, hopen⟩ | hsame
  · exact absurd hopen (hclosed t)
  · exact hsame

end Foretells

section Pages

variable {ω : Type}

/-- A script foretells another one. -/
abbrev Run.Foretells (α : Type) (x y : Run ω α) : Prop :=
  TemplateEngine.Foretells Stop.outOfFuel x y

/-- The answers of a host foretell those of another one. -/
def Host.Foretells (host host' : Host ω) : Prop :=
  ∀ request vars, TemplateEngine.Foretells Stop.outOfFuel (host request vars) (host' request vars)

/-- Left open cannot be caught, so scripts foretell what they are put together to. -/
theorem Run.foretells_attempt {α : Type} {x y : Run ω α} (hx : Run.Foretells α x y) :
    Run.Foretells (Except Raised α) (Run.attempt x) (Run.attempt y) := by
  intro s
  unfold Run.attempt
  rcases hx s with ⟨t, hopen⟩ | hsame
  · rw [hopen]
    exact .inl ⟨t, rfl⟩
  · rw [hsame]
    exact .inr rfl

/-- Whatever scripts are put together from is foretold. -/
theorem Run.fullyParametric_foretells : Run.FullyParametric (Run.Foretells (ω := ω)) where
  pure := fun _ => Foretells.refl _
  fail := fun _ => Foretells.refl _
  effect := fun _ => Foretells.refl _
  ofScope := fun _ => Foretells.refl _
  change := fun _ => Foretells.refl _
  bind := Foretells.bind
  throw := fun _ => Foretells.refl _
  attempt := Run.foretells_attempt

theorem Host.Foretells.related {host host' : Host ω} (hhost : host.Foretells host') :
    host.Related Run.Foretells host' := by
  intro request vars s
  unfold Run.request
  rcases hhost request vars s.toShared with ⟨t, hopen⟩ | hsame
  · rw [hopen]
    exact .inl ⟨_, rfl⟩
  · rw [hsame]
    exact .inr rfl

/-- A page foretells what it comes to under another host, if its host does. -/
theorem Program.foretells_render {host host' : Host ω} (hhost : host.Foretells host') (site : Site)
    (vars : Entries Value) (p : Program) :
    Foretells RenderFailure.outOfFuel (p.render host site vars) (p.render host' site vars) := by
  intro s
  unfold Program.render
  rcases Run.related_program Run.fullyParametric_foretells hhost.related p.body
    (begin site vars s) with ⟨t, hopen⟩ | hsame
  · rw [hopen]
    exact .inl ⟨_, rfl⟩
  · rw [hsame]
    exact .inr rfl

theorem Rendering.foretells_answer {x y : Rendering ω Text}
    (hx : Foretells RenderFailure.outOfFuel x y) :
    Foretells Stop.outOfFuel (Rendering.answer x) (Rendering.answer y) := by
  intro s
  unfold Rendering.answer
  rcases hx s with ⟨t, hopen⟩ | hsame
  · rw [hopen]
    exact .inl ⟨t, rfl⟩
  · rw [hsame]
    exact .inr rfl

end Pages

namespace Renderer

variable (r : Renderer)

/-- How pages of a renderer reach other templates, so many renders deep; what is deeper is left to
another host. -/
def hostOver (bottom : Host Workspace) : Nat → Host Workspace
  | 0 => bottom
  | depth + 1 => fun request vars =>
    Rendering.answer (r.renderWith (hostOver bottom depth) r.encoding request vars)

theorem hostOver_hostTo (above depth : Nat) :
    r.hostOver (r.hostTo above) depth = r.hostTo (above + depth) := by
  induction depth with
  | zero => rfl
  | succ depth ih =>
      funext request vars
      rw [← Nat.add_assoc, hostTo_succ, hostOver, ih]

theorem foretells_renderWith {host host' : Host Workspace} (hhost : host.Foretells host')
    (encoding : Encoding) (request : Request) (vars : Entries Value) :
    Foretells RenderFailure.outOfFuel (r.renderWith host encoding request vars)
      (r.renderWith host' encoding request vars) := by
  cases request with
  | file name =>
      apply Foretells.bind (Foretells.refl (r.compileFile name encoding))
      intro loaded
      exact Program.foretells_render hhost r.site vars loaded.program
  | template text =>
      unfold renderWith
      dsimp only
      cases (Source.ofText text).compile with
      | ok p => exact Program.foretells_render hhost r.site vars p
      | error e => exact Foretells.refl _

theorem foretells_hostOver {bottom bottom' : Host Workspace} (hbottom : bottom.Foretells bottom')
    (depth : Nat) : (r.hostOver bottom depth).Foretells (r.hostOver bottom' depth) := by
  induction depth with
  | zero => exact hbottom
  | succ depth ih =>
      intro request vars
      exact Rendering.foretells_answer (r.foretells_renderWith ih r.encoding request vars)

/-- The host that leaves open what templates nested in others come to. -/
def leavingOpen : Host Workspace := fun _ _ => throw .outOfFuel

/-- A render stays within a depth: no page in it asks for a template that is nested deeper, and no
loop in it runs out of rounds. -/
def StaysWithin (depth : Nat) (request : Request) (vars : Entries Value) (s : Shared Workspace) :
    Prop :=
  ∀ t, r.renderWith (r.hostOver leavingOpen depth) r.encoding request vars s ≠ .error .outOfFuel t

/-- A render that stays within a depth comes to the same however much deeper renders might be
nested. -/
theorem StaysWithin.renderWith_eq {depth : Nat} {request : Request} {vars : Entries Value}
    {s : Shared Workspace} (h : r.StaysWithin depth request vars s) (above : Nat) :
    r.renderWith (r.hostTo (above + depth)) r.encoding request vars s =
      r.renderWith (r.hostOver leavingOpen depth) r.encoding request vars s := by
  have hbottom : leavingOpen.Foretells (r.hostTo above) := fun _ _ s => .inl ⟨s, rfl⟩
  have hdeeper := r.foretells_renderWith (r.foretells_hostOver hbottom depth) r.encoding request vars
  rw [hostOver_hostTo] at hdeeper
  exact hdeeper.eq h

end Renderer

/-- The state after one more identity was given out. -/
def Shared.numbered {ω : Type} (s : Shared ω) : Shared ω :=
  { s with heap := { s.heap with identities := s.heap.identities + 1 } }

namespace Run

variable {ω α β : Type}

/-- The scope that a script leaves, however it ends. -/
def scopeAfter (x : Run ω α) (s : State ω) : Scope :=
  match x s with
  | .ok _ t => t.scope
  | .error _ t => t.scope

/-- A script leaves the scope that it finds. -/
def KeepsScope (x : Run ω α) : Prop := ∀ s, x.scopeAfter s = s.scope

namespace KeepsScope

theorem pure (a : α) : KeepsScope (pure a : Run ω α) := fun _ => rfl

theorem effect (x : Effect α) : KeepsScope (Run.effect x : Run ω α) := by
  intro s
  unfold scopeAfter Run.effect
  cases x s.heap <;> rfl

theorem request (host : Host ω) (request : Request) (vars : Entries Value) :
    KeepsScope (Run.request host request vars) := by
  intro s
  unfold scopeAfter Run.request
  cases host request vars s.toShared <;> rfl

theorem bind {x : Run ω α} {f : α → Run ω β} (hx : KeepsScope x) (hf : ∀ a, KeepsScope (f a)) :
    KeepsScope (x >>= f) := by
  intro s
  have hfirst := hx s
  show scopeAfter (EStateM.bind x f) s = s.scope
  unfold scopeAfter at hfirst ⊢
  unfold EStateM.bind
  cases hresult : x s with
  | ok a t =>
      rw [hresult] at hfirst
      exact (hf a t).trans hfirst
  | error stop t =>
      rw [hresult] at hfirst
      exact hfirst

end KeepsScope

end Run

/-- A page that renders text keeps its names and its output. -/
theorem Inclusion.keepsScope_renderString {ω : Type} (host : Host ω) (args : Arguments) :
    (Inclusion.renderString.call host args).KeepsScope := by
  unfold Inclusion.call
  dsimp only
  apply Run.KeepsScope.bind (Run.KeepsScope.effect _)
  intro _
  apply Run.KeepsScope.bind (Run.KeepsScope.effect _)
  intro text
  apply Run.KeepsScope.bind (Run.KeepsScope.effect _)
  intro given
  apply Run.KeepsScope.bind (Run.KeepsScope.request host _ given)
  intro output
  exact Run.KeepsScope.pure _

namespace Partial

/-- The call by which a page renders the text of one name with the entries of another. -/
def call : Expr := .call Inclusion.renderString.expr [.name "t", .name "d"] []

/-- The tag that prints the call. -/
def print : Outline.ClosingPrint where
  body := " renderer.render_string(t, d) "
  lexemes := Inclusion.renderString.printLexemes
    [.word "t".toList, .mark ',' .comma, .blank, .word "d".toList]
  expr := call
  line_lexemes := rfl
  fits_lexemes := fun _ => Inclusion.fits_printLexemes _
    ⟨Lexeme.isWord_of_isLatin (by decide), Lexeme.endsWord_cons (by decide) _, by decide,
      Lexeme.isWord_of_isLatin (by decide), Lexeme.endsWord_cons (by decide) _, trivial⟩
  brackets_lexemes := by decide
  reads := fun depth p s => ⟨⟨_, _, rfl, rfl⟩, fun inLoop rest _ => rfl⟩
  visible := by decide
  opener_body := rfl
  body?_body := rfl

/-- The template that prints the call. -/
def text : Text := "<%= renderer.render_string(t, d) %>"

theorem compile_text : ∃ p line, (Source.ofText text).compile = .ok p ∧
    p.name = Program.anonymous ∧ p.body = [Printing.statement line call] :=
  Outline.program_closingPrint Program.anonymous (show Outline.Valid [] from trivial)
    (Nat.zero_le _) print

/-- What the template is given: the text of another one, and a dict. -/
def given (inner : Text) (place : Nat) : Entries Value := [("t", .str inner), ("d", .dict place)]

section Call

variable {ω : Type} (host : Host ω) {s : State ω} {inner : Text} {place : Nat}

/-- The value of the call is the text of the other template. -/
theorem eval_call (hreachable : Inclusion.renderString.Reachable s)
    (htext : s.scope.resolve? "t" = some (.str inner))
    (hdict : s.scope.resolve? "d" = some (.dict place)) : call.eval host s =
    match host (.template inner) (s.heap.dict place) s.toShared with
    | .ok t shared => .ok (.markup t) { s with toShared := shared }
    | .error stop shared => .error stop { s with toShared := shared } := by
  have hargs : evalAll host [.name "t", .name "d"] s = .ok [.str inner, .dict place] s := by
    simp only [evalAll, Printing.eval_name]
    rw [Run.bind_ok (Run.lookup_resolved htext)]
    change ((Run.lookup "d" >>= fun v => pure [v]) >>= fun others => pure (_ :: others)) s = _
    have hlast : (Run.lookup "d" >>= fun v => pure [v] : Run ω (List Value)) s =
        .ok [.dict place] s := by
      rw [Run.bind_ok (Run.lookup_resolved hdict)]
      rfl
    rw [Run.bind_ok hlast]
    rfl
  have hcall : call.eval host s =
      (Run.request host (.template inner) (s.heap.dict place) >>= fun t => pure (.markup t)) s := by
    rw [call, Expr.eval, Run.bind_ok (Inclusion.eval_expr host hreachable), Run.bind_ok hargs,
      evalKeywords]
    rfl
  rw [hcall]
  show EStateM.bind (Run.request host _ _) _ s = _
  unfold EStateM.bind Run.request
  cases host (.template inner) (s.heap.dict place) s.toShared <;> rfl

end Call

/-- The page that prints the call comes to what the host answers, with a line on its errors. -/
theorem render_program {ω : Type} (host : Host ω) {p : Program} {line : Nat}
    (hbody : p.body = [Printing.statement line call]) (site : Site) {inner : Text} {place : Nat}
    {s : Shared ω}
    (hreachable : Inclusion.renderString.Reachable (Program.begin site (given inner place) s)) :
    p.render host site (given inner place) s =
      match host (.template inner) (s.heap.dict place) s.numbered with
      | .ok t shared => .ok t shared
      | .error (.raised r) shared => .error (.template (p.failure (r.atLine line))) shared
      | .error .outOfFuel shared => .error .outOfFuel shared := by
  have hcall : call.eval host _ = _ := eval_call host hreachable rfl rfl
  have hprogram : Run.program host p.body (Program.begin site (given inner place) s) =
      ((Printing.statement line call).exec host Run.maxRounds [] >>= fun _ => pure ())
        (Program.begin site (given inner place) s) := by
    rw [Run.program, hbody, execAll_singleton]
  unfold Program.render
  rw [hprogram]
  change call.eval host (Program.begin site (given inner place) s) =
    match host (.template inner) (s.heap.dict place) s.numbered with
    | .ok t shared => _
    | .error stop shared => _ at hcall
  cases hhost : host (.template inner) (s.heap.dict place) s.numbered with
  | ok t shared =>
      rw [hhost] at hcall
      rw [Run.bind_ok (Printing.exec_statement host hcall Run.maxRounds line)]
      dsimp only [pure, EStateM.pure]
      have houtput : (Scope.append t (Scope.start site (given inner place) s.heap.identities)).output
          = t := by
        simp [Scope.append, Scope.start, Scope.output]
      exact congrArg (EStateM.Result.ok · shared) houtput
  | error stop shared =>
      rw [hhost] at hcall
      rw [Run.bind_error _ (Printing.exec_statement_error host hcall Run.maxRounds line)]
      cases stop <;> rfl

/-- Why the page has no output, by why the partial has none. -/
def failure (p : Program) (line : Nat) : RenderFailure → RenderFailure
  | .template e => .template (p.failure ⟨Renderer.causeOf e, line⟩)
  | .outOfFuel => .outOfFuel

/-- An exception that escapes the partial is raised in the page. -/
theorem failure_runtime (p : Program) (line : Nat) {f : RuntimeFailure}
    (hname : f.name = Program.anonymous) :
    ∃ g, failure p line (.template (.runtime f)) = .template (.runtime g) ∧
      g.kind = f.kind ∧ g.message = "<string>: ".toList ++ f.message := by
  refine ⟨_, rfl, rfl, ?_⟩
  have hmessage : (Cause.inTemplate f.name f.kind f.message).message =
      f.name ++ ": ".toList ++ f.message := rfl
  exact hmessage.trans (by rw [hname]; rfl)

/-- What else is wrong with the partial is said by an exception. -/
theorem failure_broken (p : Program) (line : Nat) {e : TemplateError} (he : ∀ f, e ≠ .runtime f) :
    ∃ g, failure p line (.template e) = .template (.runtime g) ∧
      g.kind = .runtimeError ∧ g.message = e.message := by
  have hcause : Renderer.causeOf e = .brokenTemplate e.message := by
    cases e with
    | runtime f => exact absurd rfl (he f)
    | structural _ _ | unreadable _ _ | undecodable _ _ | unknownEncoding _ => rfl
  exact ⟨_, rfl, congrArg Cause.kind hcause, congrArg Cause.message hcause⟩

end Partial

/-- What is on the heap, whatever identities were given out. -/
def Heap.contents (h : Heap) : Array (List Value) × Array (List Value) × Array (Entries Value) :=
  (h.lists, h.tuples, h.dicts)

theorem Heap.settle_contents {before before' : Heap} (h : before.contents = before'.contents)
    (after : Heap) : (before.settle after).contents = (before'.settle after).contents := by
  obtain ⟨hlists, htuples, hdicts⟩ : before.lists = before'.lists ∧
      before.tuples = before'.tuples ∧ before.dicts = before'.dicts := by
    simpa [Heap.contents] using h
  unfold Heap.settle
  rw [hlists, htuples, hdicts]
  split
  · exact h
  · rfl

namespace Renderer

variable (r : Renderer)

/-- Under the name of the renderer, pages find the function that renders text. -/
def Offers (s : Shared Workspace) : Prop :=
  ∃ own, Entries.get? globalName r.site.globals = some (.dict own) ∧
    Entries.get? Inclusion.renderString.name.toList (s.heap.dict own) =
      some (.function (.inclusion .renderString))

/-- A new renderer offers its functions, whatever globals it is given. -/
theorem create_offers {options : RendererOptions} {heap after : Heap} {r : Renderer}
    (h : create options heap = .ok (r, after)) (w : Workspace) : r.Offers ⟨after, w⟩ := by
  obtain ⟨rfl, rfl⟩ := Prod.mk.inj (Except.ok.inj h)
  refine ⟨heap.dicts.size, Entries.get?_put_self _ _ _, ?_⟩
  have hentries : Heap.dict { heap with dicts := heap.dicts.push inclusions } heap.dicts.size =
      inclusions := by
    simp [Heap.dict]
  exact (congrArg (Entries.get? Inclusion.renderString.name.toList) hentries).trans rfl

variable {r} {s : Shared Workspace} {inner : Text} {place : Nat}

theorem Offers.reachable (h : r.Offers s) :
    Inclusion.renderString.Reachable (Program.begin r.site (Partial.given inner place) s) := by
  obtain ⟨own, hglobal, hentry⟩ := h
  refine ⟨own, ?_, hentry⟩
  have hresolve : (Scope.start r.site (Partial.given inner place) s.heap.identities).resolve?
      globalName = (Entries.get? globalName r.site.globals).or (Scope.helper? globalName) := rfl
  rw [hglobal] at hresolve
  exact hresolve

/-- A page with a partial comes to what the partial comes to on its own, with errors of its own. -/
theorem renderWith_partial (hoffers : r.Offers s)
    (hwithin : r.StaysWithin (maxNested - 1) (.template inner) (s.heap.dict place) s.numbered) :
    ∃ (p : Program) (line : Nat), r.renderWith r.host r.encoding (.template Partial.text)
        (Partial.given inner place) s =
      match r.renderWith r.host r.encoding (.template inner) (s.heap.dict place) s.numbered with
      | .ok t shared => .ok t shared
      | .error e shared => .error (Partial.failure p line e) shared := by
  obtain ⟨p, line, hcompile, -, hbody⟩ := Partial.compile_text
  refine ⟨p, line, ?_⟩
  have hnested : r.renderWith (r.hostTo (maxNested - 1)) r.encoding (.template inner)
      (s.heap.dict place) s.numbered =
        r.renderWith r.host r.encoding (.template inner) (s.heap.dict place) s.numbered :=
    (hwithin.renderWith_eq r 0).trans (hwithin.renderWith_eq r 1).symm
  rw [renderWith_of_compile r _ hcompile,
    Partial.render_program r.host hbody r.site hoffers.reachable]
  have hlevel : r.host = r.hostTo (maxNested - 1 + 1) := rfl
  rw [← hnested, hlevel, hostTo_succ, Rendering.answer]
  rcases r.renderWith (r.hostTo (maxNested - 1)) r.encoding (.template inner)
    (s.heap.dict place) s.numbered with _ | ⟨_ | _, _⟩ <;> rfl

/-- An exception that escapes a template without a name of its own comes under the name of all
such templates. -/
theorem name_of_renderWith {host : Host Workspace} {encoding : Encoding} {vars : Entries Value}
    {f : RuntimeFailure} {after : Shared Workspace}
    (h : r.renderWith host encoding (.template inner) vars s =
      .error (.template (.runtime f)) after) : f.name = Program.anonymous := by
  unfold renderWith at h
  dsimp only at h
  cases hcompile : (Source.ofText inner).compile with
  | ok p =>
      rw [hcompile] at h
      have hname : p.name = Program.anonymous := Source.name_of_compile hcompile
      change p.render host r.site vars s = _ at h
      unfold Program.render at h
      split at h
      · exact nomatch h
      · cases h
        exact hname
      · exact nomatch h
  | error e =>
      rw [hcompile] at h
      obtain rfl : e = .runtime f :=
        RenderFailure.template.inj (EStateM.Result.error.inj h).1
      unfold Source.compile Program.ofTemplate at hcompile
      split at hcompile
      · exact nomatch hcompile
      · split at hcompile <;> exact nomatch hcompile

theorem outcome_result (r : Renderer) (call : Call) (s : Shared Workspace) :
    (r.outcome call s).1 =
      match r.renderWith r.host r.encoding (.template call.1) call.2 s with
      | .ok t _ => .ok t
      | .error e _ => .error e := by
  unfold outcome renderString settled
  cases r.renderWith r.host r.encoding (.template call.1) call.2 s <;> rfl

theorem name_of_outcome {vars : Entries Value} {f : RuntimeFailure}
    (h : (r.outcome (inner, vars) s).1 = .error (.template (.runtime f))) :
    f.name = Program.anonymous := by
  rw [outcome_result] at h
  cases hresult : r.renderWith r.host r.encoding (.template inner) vars s with
  | ok t after =>
      simp only [hresult] at h
      exact nomatch h
  | error e after =>
      simp only [hresult] at h
      obtain rfl := Except.error.inj h
      exact name_of_renderWith hresult

/-- The outcome of a page with a partial is that of the partial, and so is what it leaves. -/
theorem outcome_partial (hoffers : r.Offers s)
    (hwithin : r.StaysWithin (maxNested - 1) (.template inner) (s.heap.dict place) s.numbered) :
    ∃ (p : Program) (line : Nat), (r.outcome (Partial.text, Partial.given inner place) s).1 =
        (r.outcome (inner, s.heap.dict place) s.numbered).1.mapError (Partial.failure p line) ∧
      r.unsettled (Partial.text, Partial.given inner place) s =
        r.unsettled (inner, s.heap.dict place) s.numbered := by
  obtain ⟨p, line, hrender⟩ := renderWith_partial hoffers hwithin
  refine ⟨p, line, ?_, ?_⟩
  · rw [outcome_result, outcome_result, hrender]
    cases r.renderWith r.host r.encoding (.template inner) (s.heap.dict place) s.numbered <;> rfl
  · unfold unsettled
    rw [hrender]
    cases r.renderWith r.host r.encoding (.template inner) (s.heap.dict place) s.numbered <;> rfl

/-- What a page with a partial comes to, by what the partial comes to on its own. The page has an
identity of its own, which is given out before. -/
structure Composes (r : Renderer) (s : Shared Workspace) (inner : Text) (place : Nat) : Prop where
  /-- The output of the partial is that of the page. -/
  printed : ∀ out, (r.outcome (Partial.text, Partial.given inner place) s).1 = .ok out ↔
    (r.outcome (inner, s.heap.dict place) s.numbered).1 = .ok out
  /-- An exception that escapes the partial is raised in the page. -/
  failed : ∀ f, (r.outcome (inner, s.heap.dict place) s.numbered).1 =
      .error (.template (.runtime f)) →
    ∃ g, (r.outcome (Partial.text, Partial.given inner place) s).1 =
        .error (.template (.runtime g)) ∧
      g.kind = f.kind ∧ g.message = "<string>: ".toList ++ f.message
  /-- What else is wrong with the partial is said by an exception. -/
  broken : ∀ e, (∀ f, e ≠ .runtime f) →
    (r.outcome (inner, s.heap.dict place) s.numbered).1 = .error (.template e) →
    ∃ g, (r.outcome (Partial.text, Partial.given inner place) s).1 =
        .error (.template (.runtime g)) ∧
      g.kind = .runtimeError ∧ g.message = e.message
  /-- The page leaves what the partial leaves. -/
  leaves : (r.outcome (Partial.text, Partial.given inner place) s).2.world =
      (r.outcome (inner, s.heap.dict place) s.numbered).2.world ∧
    (r.outcome (Partial.text, Partial.given inner place) s).2.heap.contents =
      (r.outcome (inner, s.heap.dict place) s.numbered).2.heap.contents
  /-- A page that asks for a partial, anywhere and with any arguments, keeps its names and its
  output. -/
  keeps : ∀ (depth : Nat) (args : Arguments),
    (Inclusion.renderString.call (r.hostTo depth) args).KeepsScope

/-- Partials compose, as long as renders are not nested too deep. -/
theorem partials_compose (r : Renderer) (s : Shared Workspace) (inner : Text) (place : Nat)
    (hoffers : r.Offers s)
    (hwithin : r.StaysWithin (maxNested - 1) (.template inner) (s.heap.dict place) s.numbered) :
    r.Composes s inner place := by
  obtain ⟨p, line, hresult, hleft⟩ := outcome_partial hoffers hwithin
  refine ⟨?_, ?_, ?_, ?_, ?_⟩
  · intro out
    rw [hresult]
    cases (r.outcome (inner, s.heap.dict place) s.numbered).1 <;> simp [Except.mapError]
  · intro f hf
    obtain ⟨g, hfailure, hkind, hmessage⟩ := Partial.failure_runtime p line (name_of_outcome hf)
    rw [hf, Except.mapError, hfailure] at hresult
    exact ⟨g, hresult, hkind, hmessage⟩
  · intro e he hf
    obtain ⟨g, hfailure, hkind, hmessage⟩ := Partial.failure_broken p line he
    rw [hf, Except.mapError, hfailure] at hresult
    exact ⟨g, hresult, hkind, hmessage⟩
  · rw [outcome_state, outcome_state, hleft]
    have hcontents : s.heap.contents = s.numbered.heap.contents := rfl
    exact ⟨rfl, Heap.settle_contents hcontents _⟩
  · intro depth args
    exact Inclusion.keepsScope_renderString (r.hostTo depth) args

/-- A renderer that escapes what its pages print, and a state with a dict for a partial. -/
def escaping : Renderer := ⟨none, none, ⟨[(globalName, .dict 0)], some Entity.escape⟩, .utf8⟩

/-- The heap holds what pages find under the name of the renderer, and variables for a partial. -/
def escapingState : Shared Workspace :=
  ⟨⟨#[], #[], #[inclusions, [("x", .str "<")]], 0⟩, .ofFiles .fresh 0⟩

/-- A partial that prints a variable. -/
def emphasis : Text := "<b><%= x %></b>"

theorem partials_compose_escaping : escaping.Offers escapingState ∧
    escaping.StaysWithin (maxNested - 1) (.template emphasis) [("x", .str "<")]
      escapingState.numbered ∧
    (escaping.outcome (Partial.text, Partial.given emphasis 1) escapingState).1 =
      .ok "<b>&lt;</b>" := by
  have hoffers : escaping.Offers escapingState := ⟨0, rfl, rfl⟩
  have hwithin : escaping.StaysWithin (maxNested - 1) (.template emphasis) [("x", .str "<")]
      escapingState.numbered := by
    have hends : Rendering.ends (escaping.renderWith
        (escaping.hostOver leavingOpen (maxNested - 1)) escaping.encoding (.template emphasis)
        [("x", .str "<")]) escapingState.numbered = true := by decide +kernel
    exact Rendering.ne_outOfFuel hends
  have halone : (escaping.outcome (emphasis, [("x", .str "<")]) escapingState.numbered).1 =
      .ok "<b>&lt;</b>" := by decide +kernel
  have hcomposes := partials_compose escaping escapingState emphasis 1 hoffers hwithin
  exact ⟨hoffers, hwithin, (hcomposes.printed _).mpr halone⟩

end Renderer

end TemplateEngine
