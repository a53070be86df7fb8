import TemplateEngine.Proofs.Render.FailedLayouts
import TemplateEngine.Proofs.Script.BlockFootprints

/-!
# What layouts see

A page finds a name in four places, one after the other, and hands its layout one table for
the first two of them: what it was given, with what it assigned put over that. The layout is
a page of its own and starts with that table as what it was given, and with the globals and
helpers of all pages below it. So the layout sees what the page saw, whichever of the places
a name stands in and however many of them, and the two names that cannot be shadowed mean on
both what they always mean. Only its body is the layout's own. In turn nothing of the layout
comes back to the page but the value of the call.
-/
namespace TemplateEngine

namespace Scope

/-- The scopes that pages of a site have: one without anything in it, and whatever assignments
and output make of it. -/
inductive Reached (site : Site) : Scope → Prop
  | start (vars : Entries Value) (identity : Nat) : Reached site (Scope.start site vars identity)
  | assign {s : Scope} (name : Text) (v : Value) : Reached site s → Reached site (s.assign name v)
  | output {s : Scope} (chunks : Array Text) :
      Reached site s → Reached site { s with chunks := chunks }

section Reached

variable {site : Site} {s : Scope}

/-- What the pages share is never changed. -/
theorem Reached.site_eq (hs : s.Reached site) : (⟨s.globals, s.filter⟩ : Site) = site := by
  induction hs with
  | start vars identity => rfl
  | assign name v _ ih => exact ih
  | output chunks _ ih => exact ih

/-- No name is among the assigned ones twice. -/
theorem Reached.nodup_locals (hs : s.Reached site) : s.locals.names.Nodup := by
  induction hs with
  | start vars identity => exact List.nodup_nil
  | assign name v _ ih => exact Entries.nodup_put ih name v
  | output chunks _ ih => exact ih

/-- In the table for the layout, too, what was assigned goes before what was given. -/
theorem Reached.get?_visible (hs : s.Reached site) (name : Text) :
    Entries.get? name s.visible = (Entries.get? name s.locals).or (Entries.get? name s.vars) := by
  rw [visible, Entries.get?_putAll, Entries.get?_reverse hs.nodup_locals]

/-- A name that resolves on the page resolves to the same in its layout, and no other does. -/
theorem Reached.resolve?_start (hs : s.Reached site) {name : Text} (hbody : name ≠ "body".toList)
    (hfilter : name ≠ "__filter".toList) (body : Text) (identity : Nat) :
    (Scope.start site (Layout.vars body s.visible) identity).resolve? name = s.resolve? name := by
  have hgiven : Entries.get? name (Layout.vars body s.visible) =
      (Entries.get? name s.locals).or (Entries.get? name s.vars) := by
    rw [Layout.vars, Entries.get?_put_of_ne hbody.symm, hs.get?_visible]
  have hlocals : Entries.get? name (Scope.start site (Layout.vars body s.visible) identity).locals =
      none := rfl
  have hglobals : s.globals = site.globals := congrArg Site.globals hs.site_eq
  -- the function that appends is found first on both sides, so it needs no case of its own
  unfold resolve?
  rw [if_neg hfilter, if_neg hfilter, hlocals, Option.none_or, hglobals]
  dsimp only [Scope.start]
  rw [hgiven, Option.or_assoc]

/-- The body is found before anything else of its name. -/
theorem resolve?_body (site : Site) (body : Text) (visible : Entries Value) (identity : Nat) :
    (Scope.start site (Layout.vars body visible) identity).resolve? "body" =
      some (.markup body) := by
  have hgiven : Entries.get? "body" (Layout.vars body visible) = some (.markup body) :=
    Entries.get?_put_self _ _ _
  have hplain : ("body" : Text) ≠ Helper.append.name.toList ∧
      ("body" : Text) ≠ "__filter".toList := by decide
  have hlocals : Entries.get? "body" (Scope.start site (Layout.vars body visible) identity).locals =
      none := rfl
  unfold resolve?
  rw [if_neg hplain.1, if_neg hplain.2, hlocals, Option.none_or]
  dsimp only [start]
  rw [hgiven, Option.some_or]

end Reached

end Scope

namespace State

variable {ω : Type}

/-- A later state whose scope is one of a site's pages, if the earlier was. -/
def StaysReached (site : Site) (s s' : State ω) : Prop :=
  s.scope.Reached site → s'.scope.Reached site

instance growing_staysReached (site : Site) : Growing (StaysReached (ω := ω) site) where
  refl _ hs := hs
  trans hfirst hsecond hs := hsecond (hfirst hs)
  grows _ hs := hs

theorem KeepsNames.staysReached {s s' : State ω} (h : s.KeepsNames s') (site : Site) :
    s.StaysReached site s' := by
  intro hs
  rw [h]
  exact hs.output _

theorem roomy_staysReached (host : Host ω) (site : Site) : Roomy host (StaysReached site) where
  effect x s := (Run.keepsNames_effect x s).staysReached site
  eval e s := (e.keepsNames_eval host s).staysReached site
  assign name v _ hs := hs.assign name v
  takeSince _ _ hs := hs.output _

/-- What a page has run of its program leaves it with a scope of the site's pages. -/
theorem reached_execAll (host : Host ω) (fuel : Nat) (handling : List Raised) (stmts : List Stmt)
    {site : Site} {s : State ω} (hs : s.scope.Reached site) :
    (Run.left (execAll host fuel handling stmts) s).scope.Reached site :=
  leaves_execAll fuel (roomy_staysReached host site) stmts handling s hs

theorem reached_begin (site : Site) (vars : Entries Value) (shared : Shared ω) :
    (Program.begin site vars shared).scope.Reached site := .start vars _

/-- A name means the same in two states. The filter is one and the same under two identities,
and the dict of helpers one of the same entries. -/
inductive SameName (s t : State ω) (name : Text) : Prop
  | value (v : Value) (hs : Run.lookup name s = .ok v s) (ht : Run.lookup name t = .ok v t)
  | undefined (hs : Run.lookup name s = .error (.raised ⟨.undefinedName name, 0⟩) s)
      (ht : Run.lookup name t = .error (.raised ⟨.undefinedName name, 0⟩) t)
  | filter (hname : name = "__filter".toList) (i j : Nat)
      (hs : Run.lookup name s = .ok (.function (.filter i)) s)
      (ht : Run.lookup name t = .ok (.function (.filter j)) t)
      (hfilter : s.scope.filter = t.scope.filter)
  | helpers (hname : name = "h".toList) (p q : Nat) (hp hq : Heap)
      (hs : Run.lookup name s = .ok (.dict p) { s with heap := hp })
      (ht : Run.lookup name t = .ok (.dict q) { t with heap := hq })
      (hsame : hp.dict p = Scope.helperEntries ∧ hq.dict q = Scope.helperEntries)

/-- Where a name resolves to the same, or in neither state, it means the same. -/
theorem sameName_of_resolve {s t : State ω} {name : Text}
    (h : t.scope.resolve? name = s.scope.resolve? name) : SameName s t name := by
  cases hs : s.scope.resolve? name with
  | some v =>
      have ht : t.scope.resolve? name = some v := h.trans hs
      exact .value v (Run.lookup_resolved hs) (Run.lookup_resolved ht)
  | none =>
      have ht : t.scope.resolve? name = none := h.trans hs
      by_cases hname : name = "h".toList
      · refine .helpers hname _ _ _ _ (Run.lookup_helpers hs hname) (Run.lookup_helpers ht hname) ?_
        constructor <;> simp [Heap.dict, Array.getD_eq_getD_getElem?]
      · have hlookup := Run.lookup_builtin hs hname
        have hlookup' := Run.lookup_builtin ht hname
        cases hbuiltin : Builtin.lookup? name with
        | some v =>
            rw [hbuiltin] at hlookup hlookup'
            exact .value v hlookup hlookup'
        | none =>
            rw [hbuiltin] at hlookup hlookup'
            exact .undefined hlookup hlookup'

theorem sameName_filter {s t : State ω} (h : s.scope.filter = t.scope.filter) :
    SameName s t "__filter" :=
  .filter rfl _ _ (Run.lookup_resolved rfl) (Run.lookup_resolved rfl) h

end State

namespace Layout

variable {ω : Type}

/-- The page of a layout that a page in some state calls for, before anything of it is run. -/
def begun (site : Site) (s : State ω) (world : ω) : State ω :=
  Program.begin site (vars s.scope.output s.scope.visible) ⟨s.heap, world⟩

/-- The page of a layout sees what another page does, with that page's output as its body. -/
structure Sees (page layout : State ω) : Prop where
  names : ∀ name, name ≠ "body".toList → page.SameName layout name
  body : Run.lookup "body" layout = .ok (.markup page.scope.output) layout

/-- The page of a layout sees what the page in it does, as long as it assigns nothing. -/
theorem sees_of_keepsNames {site : Site} {s t : State ω} {world : ω} (hs : s.scope.Reached site)
    (ht : (begun site s world).KeepsNames t) : Sees s t := by
  have hresolve (name : Text) :
      t.scope.resolve? name = (begun site s world).scope.resolve? name := by
    rw [ht]
    rfl
  have hfilter : s.scope.filter = t.scope.filter := by
    rw [ht]
    exact congrArg Site.filter hs.site_eq
  constructor
  · intro name hbody
    by_cases hname : name = "__filter".toList
    · subst hname
      exact State.sameName_filter hfilter
    · exact State.sameName_of_resolve ((hresolve name).trans (hs.resolve?_start hbody hname _ _))
  · exact Run.lookup_resolved ((hresolve "body").trans (Scope.resolve?_body _ _ _ _))

/-- What a call for a layout comes to, by how the program of the layout ended. -/
def answer (p : Program) (s : State ω) :
    EStateM.Result Stop (State ω) Unit → EStateM.Result Stop (State ω) Value
  | .ok _ t => .ok (.markup t.scope.output) (drained s t.toShared)
  | .error (.raised r) t =>
    .error (.raised ⟨Renderer.causeOf (p.failure r), 0⟩) (drained s t.toShared)
  | .error .outOfFuel t => .error .outOfFuel (drained s t.toShared)

/-- However the call ends, and whatever the host does, the page is left with its names and
without its output. -/
theorem scope_left (host : Host ω) {args : Arguments} {name : Text}
    (hargs : asked? args = some name) (s : State ω) :
    (Run.left (Inclusion.withLayout.call host args) s).scope = { s.scope with chunks := #[] } := by
  unfold Run.left
  rw [call_asked host hargs]
  cases host (.file name) (vars s.scope.output s.scope.visible) s.toShared <;> rfl

end Layout

namespace Renderer

open Layout

variable {r : Renderer} {depth : Nat} {args : Arguments} {name : Text} {s : State Workspace}
  {w : Workspace}

/-- The program of a layout that is there is run on a page of its own. -/
theorem call_loaded (hargs : asked? args = some name) {loaded : Loaded}
    (hload : r.load (r.resolve name) r.encoding s.world = (.ok loaded, w)) :
    Inclusion.withLayout.call (r.hostTo (depth + 1)) args s =
      answer loaded.program s
        (Run.program (r.hostTo depth) loaded.program.body (begun r.site s w)) := by
  rw [call_asked _ hargs, hostTo_succ, Rendering.answer, renderWith_file, hload]
  dsimp only
  unfold Program.render begun
  generalize Run.program (r.hostTo depth) loaded.program.body _ = ended
  rcases ended with ⟨-, t⟩ | ⟨⟨raised⟩ | _, t⟩ <;> rfl

theorem call_unloaded (hargs : asked? args = some name) {error : TemplateError}
    (hload : r.load (r.resolve name) r.encoding s.world = (.error error, w)) :
    Inclusion.withLayout.call (r.hostTo (depth + 1)) args s =
      .error (.raised ⟨causeOf error, 0⟩) (drained s ⟨s.heap, w⟩) := by
  rw [call_asked _ hargs, hostTo_succ, Rendering.answer, renderWith_file, hload]

/-- A layout runs on a page of its own that sees what the page in it sees, until it assigns
something itself. Of that page only the output comes back, as the value of the call, and the
page that called has its names and no output. -/
theorem layout_sees_page (hs : s.scope.Reached r.site) (hargs : asked? args = some name) :
    (∀ depth loaded w, r.load (r.resolve name) r.encoding s.world = (.ok loaded, w) →
      Inclusion.withLayout.call (r.hostTo (depth + 1)) args s =
          answer loaded.program s
            (Run.program (r.hostTo depth) loaded.program.body (begun r.site s w)) ∧
        (begun r.site s w).scope.Reached r.site ∧ (begun r.site s w).scope.output = [] ∧
        (∀ v, s.heap.agrees (begun r.site s w).heap v) ∧
        ∀ t, (begun r.site s w).KeepsNames t → Sees s t) ∧
    (∀ depth error w, r.load (r.resolve name) r.encoding s.world = (.error error, w) →
      Inclusion.withLayout.call (r.hostTo (depth + 1)) args s =
        .error (.raised ⟨causeOf error, 0⟩) (drained s ⟨s.heap, w⟩)) ∧
    (∀ host : Host Workspace,
      (Run.left (Inclusion.withLayout.call host args) s).scope = { s.scope with chunks := #[] }) ∧
    (Inclusion.withLayout.Reachable s → ∀ host : Host Workspace,
      (Layout.call name).eval host s = Inclusion.withLayout.call host ⟨[.str name], []⟩ s) := by
  refine ⟨?_, ?_, ?_, ?_⟩
  · intro depth loaded w hload
    refine ⟨call_loaded hargs hload, .start _ _, rfl, ?_, ?_⟩
    · intro v
      cases v <;> trivial
    · intro t ht
      exact sees_of_keepsNames hs ht
  · intro depth error w hload
    exact call_unloaded hargs hload
  · intro host
    exact scope_left host hargs s
  · intro hreachable host
    have hasked := call_asked host (rfl : asked? ⟨[.str name], []⟩ = some name) s
    exact (eval_call host hreachable).trans hasked.symm

/-- Statements that assign the names of a builtin, of the filter and of the dict of helpers, and
put something out. -/
def shadowing : List Stmt :=
  [.at 1 (.assign (.name "len") (.constant (.int 1))),
   .at 2 (.assign (.name "__filter") (.constant (.int 2))),
   .at 3 (.assign (.name "h") (.constant (.int 3))),
   .at 4 (.expr (.call (.name "__buffer_append") [.constant (.str "A")] []))]

/-- A page, with the files of a layout at hand, that has run these statements. -/
def shadowed : State Workspace :=
  Run.left (execAll bare.host Run.maxRounds [] shadowing)
    (Program.begin bare.site [] ⟨bareState.heap, .ofFiles bracketed 1⟩)

theorem layout_sees_page_shadowed :
    ∃ loaded w, bare.load (bare.resolve "layout.html") bare.encoding shadowed.world =
        (.ok loaded, w) ∧
      Sees shadowed (begun bare.site shadowed w) ∧
      Run.lookup "len" shadowed = .ok (.int 1) shadowed ∧
      Run.lookup "body" (begun bare.site shadowed w) =
        .ok (.markup "A") (begun bare.site shadowed w) ∧
      (Run.left (Inclusion.withLayout.call bare.host ⟨[.str "layout.html"], []⟩)
        shadowed).scope.output = [] := by
  have hreached : shadowed.scope.Reached bare.site :=
    State.reached_execAll bare.host Run.maxRounds [] shadowing (State.reached_begin _ _ _)
  have hthere : (bare.load (bare.resolve "layout.html") bare.encoding shadowed.world).1.isOk :=
    by decide +kernel
  obtain ⟨hloads, -, hleft, -⟩ := layout_sees_page hreached
    (rfl : asked? ⟨[.str "layout.html"], []⟩ = some "layout.html")
  cases hload : bare.load (bare.resolve "layout.html") bare.encoding shadowed.world with
  | mk found w =>
      rw [hload] at hthere
      cases found with
      | error error => exact nomatch hthere
      | ok loaded =>
          obtain ⟨-, -, -, -, hsees⟩ := hloads 15 loaded w hload
          have hbegun := hsees _ (State.growing_keepsNames.refl _)
          refine ⟨loaded, w, rfl, hbegun, rfl, hbegun.body, ?_⟩
          rw [hleft]
          rfl

end Renderer

end TemplateEngine
