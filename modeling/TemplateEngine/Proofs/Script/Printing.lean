import TemplateEngine.Proofs.Script.Containers
import TemplateEngine.Proofs.Template.Translation
import TemplateEngine.Render.Page

/-!
# Printing on a page

As long as a page only prints names, its scope is the one it began with, apart
from the output, and its heap has only grown: looking up the dict of helpers
makes a new one each time. So a name prints the same wherever it stands.
-/
namespace TemplateEngine

namespace Run

variable {ω α β : Type}

theorem bind_ok {x : Run ω α} {f : α → Run ω β} {s s' : State ω} {a : α}
    (h : x s = .ok a s') : (x >>= f) s = f a s' := by
  show EStateM.bind x f s = f a s'
  unfold EStateM.bind
  rw [h]

theorem bind_error {x : Run ω α} (f : α → Run ω β) {s s' : State ω} {stop : Stop}
    (h : x s = .error stop s') : (x >>= f) s = .error stop s' := by
  show EStateM.bind x f s = .error stop s'
  unfold EStateM.bind
  rw [h]

theorem effect_of_ok {x : Effect α} {s : State ω} {a : α} {heap : Heap}
    (h : x s.heap = .ok (a, heap)) : effect x s = .ok a { s with heap := heap } := by
  unfold effect
  rw [h]

theorem effect_of_error {x : Effect α} {s : State ω} {cause : Cause}
    (h : x s.heap = .error cause) : effect x s = .error (.raised ⟨cause, 0⟩) s := by
  unfold effect
  rw [h]

theorem lookup_resolved {s : State ω} {name : Text} {v : Value}
    (h : s.scope.resolve? name = some v) : Run.lookup name s = .ok v s := by
  have hlookup : Run.lookup? name s = .ok (some v) s := by
    simp only [Run.lookup?, Run.effect, Scope.lookup, h]
    rfl
  unfold Run.lookup
  rw [bind_ok hlookup]
  rfl

/-- The dict of helpers is a new one each time. -/
theorem lookup_helpers {s : State ω} {name : Text} (h : s.scope.resolve? name = none)
    (hname : name = "h".toList) : Run.lookup name s =
      .ok (.dict s.heap.dicts.size)
        { s with heap := { s.heap with dicts := s.heap.dicts.push Scope.helperEntries } } := by
  have hlookup : Run.lookup? name s = .ok (some (.dict s.heap.dicts.size))
      { s with heap := { s.heap with dicts := s.heap.dicts.push Scope.helperEntries } } := by
    simp only [Run.lookup?, Run.effect, Scope.lookup, h, if_pos hname]
    rfl
  unfold Run.lookup
  rw [bind_ok hlookup]
  rfl

theorem lookup_builtin {s : State ω} {name : Text} (h : s.scope.resolve? name = none)
    (hname : name ≠ "h".toList) : Run.lookup name s =
      match Builtin.lookup? name with
      | some v => .ok v s
      | none => .error (.raised ⟨.undefinedName name, 0⟩) s := by
  have hlookup : Run.lookup? name s = .ok none s := by
    simp only [Run.lookup?, Run.effect, Scope.lookup, h, if_neg hname]
    rfl
  unfold Run.lookup
  rw [bind_ok hlookup]
  cases Builtin.lookup? name <;> rfl

end Run

/-- What a print shows of a value with a text: the text itself, or what the filter makes of
it if the print is not raw, the value no safe text and a filter set. -/
def Site.shown (site : Site) (raw : Bool) (v : Value) (display : Text) : Text :=
  if raw then display
  else
    match v, site.filter with
    | .markup _, _ => display
    | _, some filter => filter display
    | _, none => display

namespace Printing

open Draft Outline

variable {ω : Type}

/-- A state of a page that has done no more than print. -/
structure Since (begun s : State ω) : Prop where
  scope : s.scope = { begun.scope with chunks := s.scope.chunks }
  heap : begun.heap.Extends s.heap

theorem Since.refl (s : State ω) : Since s s := ⟨rfl, .refl _⟩

theorem resolve_eq {begun s : State ω} (hs : Since begun s) (name : Text) :
    s.scope.resolve? name = begun.scope.resolve? name := by
  rw [hs.scope]
  rfl

/-- A new dict of helpers is printed as any other of them. -/
theorem display_helpers (h h' : Heap) :
    ({ h with dicts := h.dicts.push Scope.helperEntries } : Heap).display (.dict h.dicts.size) =
      ({ h' with dicts := h'.dicts.push Scope.helperEntries } : Heap).display
        (.dict h'.dicts.size) := by
  have htext : ∀ g : Heap, ∃ d,
      ({ g with dicts := g.dicts.push Scope.helperEntries } : Heap).depth = d + 2 := by
    intro g
    refine ⟨g.lists.size + g.tuples.size + g.dicts.size, ?_⟩
    unfold Heap.depth
    simp only [Array.size_push]
    omega
  have hentries : ∀ g : Heap,
      ({ g with dicts := g.dicts.push Scope.helperEntries } : Heap).dict g.dicts.size =
        Scope.helperEntries := by
    intro g
    simp [Heap.dict, Array.getD_eq_getD_getElem?]
  obtain ⟨d, hd⟩ := htext h
  obtain ⟨e, he⟩ := htext h'
  unfold Heap.display Heap.repr
  simp only [hd, he, Heap.reprTo_dict, hentries]
  rfl

/-- A name that could be looked up when the page began still can, and what it means is
shown in the same way. -/
theorem lookup_since {begun s begun' : State ω} (hs : Since begun s) {name : Text} {v : Value}
    (hbegun : Run.lookup name begun = .ok v begun') (hv : begun'.heap.Acyclic v) :
    ∃ w s', Run.lookup name s = .ok w s' ∧ Since begun s' ∧ s'.scope = s.scope ∧
      ∀ (site : Site) (raw : Bool),
        site.shown raw w (s'.heap.display w) = site.shown raw v (begun'.heap.display v) := by
  have hresolve := resolve_eq hs name
  cases hname : begun.scope.resolve? name with
  | some u =>
      rw [Run.lookup_resolved hname] at hbegun
      cases hbegun
      have hdisplay := hv.display_extends hs.heap
      refine ⟨v, s, Run.lookup_resolved (hresolve.trans hname), hs, rfl, ?_⟩
      intro site raw
      rw [hdisplay]
  | none =>
      by_cases hh : name = "h".toList
      · rw [Run.lookup_helpers hname hh] at hbegun
        cases hbegun
        refine ⟨_, _, Run.lookup_helpers (hresolve.trans hname) hh, ?_, rfl, ?_⟩
        · exact ⟨hs.scope, hs.heap.trans (Heap.extends_newDict _ _)⟩
        · intro site raw
          have hplace : ∀ (p q : Nat) (t : Text),
              site.shown raw (.dict p) t = site.shown raw (.dict q) t := by
            intro p q t
            unfold Site.shown
            cases site.filter <;> rfl
          rw [display_helpers s.heap begun.heap]
          exact hplace _ _ _
      · rw [Run.lookup_builtin hname hh] at hbegun
        cases hbuiltin : Builtin.lookup? name with
        | none =>
            rw [hbuiltin] at hbegun
            cases hbegun
        | some u =>
            rw [hbuiltin] at hbegun
            cases hbegun
            have hlookup := Run.lookup_builtin (hresolve.trans hname) hh
            rw [hbuiltin] at hlookup
            refine ⟨v, s, hlookup, hs, rfl, ?_⟩
            intro site raw
            rw [hv.display_extends hs.heap]

theorem eval_name (host : Host ω) (name : Text) :
    (Expr.name name).eval host = Run.lookup name := by
  simp only [Expr.eval]

/-- The text of a value is appended to the output. -/
theorem exec_append (host : Host ω) (fuel line : Nat) {e : Expr} {s s' : State ω} {v : Value}
    (h : e.eval host s = .ok v s') :
    (Stmt.at line (appendCall e)).exec host fuel [] s =
      .ok .normal { s' with scope := s'.scope.append (s'.heap.display v) } := by
  have happend : (Expr.name appendName).eval host s =
      .ok (.function (.helper .append)) s := by
    rw [eval_name]
    exact Run.lookup_resolved rfl
  have hargs : evalAll host [e] s = .ok [v] s' := by
    simp only [evalAll]
    rw [Run.bind_ok h]
    rfl
  have hcall : (Expr.call (.name appendName) [e] []).eval host s =
      .ok .none { s' with scope := s'.scope.append (s'.heap.display v) } := by
    simp only [Expr.eval, evalKeywords] at happend ⊢
    rw [Run.bind_ok happend, Run.bind_ok hargs]
    rfl
  have haction : (appendCall e).exec host fuel [] s =
      .ok .normal { s' with scope := s'.scope.append (s'.heap.display v) } := by
    simp only [appendCall, Action.exec]
    rw [Run.bind_ok hcall]
    rfl
  simp only [Stmt.exec, Run.atLine, haction]

/-- The filter sees the text of a value unless it is safe. -/
theorem eval_filterCall (host : Host ω) {e : Expr} {s s' : State ω} {v : Value}
    (h : e.eval host s = .ok v s') :
    (filterCall e).eval host s = .ok (s'.scope.filtered (s'.heap.display v) v) s' := by
  have hfilter : (Expr.name filterName).eval host s =
      .ok (.function (.filter s.scope.filterIdentity)) s := by
    rw [eval_name]
    exact Run.lookup_resolved rfl
  have hargs : evalAll host [e] s = .ok [v] s' := by
    simp only [evalAll]
    rw [Run.bind_ok h]
    rfl
  simp only [filterCall, Expr.eval, evalKeywords] at hfilter ⊢
  rw [Run.bind_ok hfilter, Run.bind_ok hargs]
  rfl

/-- What a print of a name shows on a page that begins in a state. -/
def Shows (begun : State ω) (site : Site) (raw : Bool) (name shown : Text) : Prop :=
  ∃ v begun', Run.lookup name begun = .ok v begun' ∧ begun'.heap.Acyclic v ∧
    shown = site.shown raw v (begun'.heap.display v)

/-- What an item that is no block appends to the output. -/
def Appends (begun : State ω) (site : Site) : Item → Text → Prop
  | .text t, chunk => chunk = t
  | .print raw n, chunk => Shows begun site raw n.text chunk
  | .block _ _ _ _, _ => False

theorem exec_literal (host : Host ω) (fuel line : Nat) (t : Text) (s : State ω) :
    (Stmt.at line (appendCall (.constant (.str t)))).exec host fuel [] s =
      .ok .normal { s with scope := s.scope.append t } := by
  have hconstant : (Expr.constant (.str t)).eval host s = .ok (.str t) s := by
    simp only [Expr.eval]
    rfl
  rw [exec_append host fuel line hconstant]
  rfl

theorem exec_print (host : Host ω) (fuel : Nat) (label : Place → Nat) (place : Place)
    {site : Site} {begun s : State ω} (hsite : begun.scope.filter = site.filter)
    (hs : Since begun s) {raw : Bool} {n : Name} {chunk : Text}
    (h : Shows begun site raw n.text chunk) :
    ∃ s', ((Item.print raw n).translate label place).exec host fuel [] s = .ok .normal s' ∧
      Since begun s' ∧ s'.scope.chunks = s.scope.chunks.push chunk := by
  obtain ⟨v, begun', hbegun, hacyclic, hchunk⟩ := h
  obtain ⟨w, s', hlookup, hsince, hscope, hshown⟩ := lookup_since hs hbegun hacyclic
  have hname : (Expr.name n.text).eval host s = .ok w s' := by
    rw [eval_name]
    exact hlookup
  have hfilter : s'.scope.filter = site.filter := by
    rw [hsince.scope]
    exact hsite
  rw [← hshown site raw] at hchunk
  simp only [Item.translate]
  cases raw with
  | true =>
      have hexec := exec_append host fuel (label place) hname
      refine ⟨_, hexec, ⟨?_, hsince.heap⟩, ?_⟩
      · rw [Scope.append, hsince.scope]
      · rw [hchunk, ← hscope]
        rfl
  | false =>
      have hexec := exec_append host fuel (label place) (eval_filterCall host hname)
      refine ⟨_, hexec, ⟨?_, hsince.heap⟩, ?_⟩
      · rw [Scope.append, hsince.scope]
      · have hdisplay : s'.heap.display (s'.scope.filtered (s'.heap.display w) w) = chunk := by
          rw [hchunk]
          unfold Site.shown Scope.filtered
          rw [hfilter]
          cases site.filter <;> cases w <;> rfl
        rw [← hscope, ← hdisplay]
        rfl

/-- The output of a page without blocks: what its items append, one after the other. -/
theorem exec_translate (host : Host ω) (fuel : Nat) (label : Place → Nat) {site : Site}
    {begun : State ω} (hsite : begun.scope.filter = site.filter) {items : List Item}
    {chunks : List Text} (h : List.Forall₂ (Appends begun site) items chunks) (place : Place)
    {s : State ω} (hs : Since begun s) :
    ∃ s', execAll host fuel [] (translate label place items) s = .ok .normal s' ∧
      Since begun s' ∧ s'.scope.chunks.toList = s.scope.chunks.toList ++ chunks := by
  induction h generalizing place s with
  | nil =>
      refine ⟨s, ?_, hs, ?_⟩
      · simp only [Outline.translate, execAll]
        rfl
      · rw [List.append_nil]
  | @cons item chunk items chunks hitem _ ih =>
      have hfirst : ∃ s', (item.translate label place).exec host fuel [] s = .ok .normal s' ∧
          Since begun s' ∧ s'.scope.chunks = s.scope.chunks.push chunk := by
        cases item with
        | text t =>
            have hchunk : chunk = t := hitem
            subst hchunk
            simp only [Item.translate]
            refine ⟨_, exec_literal host fuel (label place) chunk s, ⟨?_, hs.heap⟩, rfl⟩
            rw [Scope.append, hs.scope]
        | print raw n => exact exec_print host fuel label place hsite hs hitem
        | block header body clauses closer => exact hitem.elim
      obtain ⟨s', hexec, hsince, hchunks⟩ := hfirst
      obtain ⟨s'', hrest, hsince', hchunks'⟩ := ih (place.past item.parts) hsince
      refine ⟨s'', ?_, hsince', ?_⟩
      · simp only [Outline.translate, execAll]
        rw [Run.bind_ok hexec]
        exact hrest
      · rw [hchunks', hchunks, Array.toList_push, List.append_assoc, List.singleton_append]

end Printing

end TemplateEngine
