import TemplateEngine.Proofs.Script.Footprints
import TemplateEngine.Proofs.Script.Printing

/-!
# Augmented assignment to an item

An augmented assignment evaluates the object and the key of its target twice: once for
the old item, once to store the new one. A target made up of names, of arithmetic in the
key and of attributes and items on the way is the same the second time, provided that
the value on the right leaves alone what such a way reads; then the assignment does what
it would if it evaluated its target once. A target that calls something is another
matter.
-/
namespace TemplateEngine

/-- Whether evaluating an expression again gives the same, as long as names keep their
meaning. Where `reads` holds it may go through containers, which then have to keep their
items; `asKey` tells a key, which may be computed, from an object, which may not. The dict
of helpers is new each time it is named. -/
def Expr.isSteady (reads : Bool) (asKey : Bool) (e : Expr) : Bool :=
  match e with
  | .constant _ => true
  | .name n => n ≠ "h".toList
  | .attribute object _ => reads && object.isSteady reads false
  | .index object key => reads && (object.isSteady reads false && key.isSteady reads true)
  | .unary _ operand => operand.isSteady reads true
  | .binary op lhs rhs =>
    asKey && (op ≠ .mod && (lhs.isSteady reads true && rhs.isSteady reads true))
  | _ => false
  termination_by structural e

/-- What an augmented assignment to an item is meant to do: its object and its key are
evaluated once. -/
def Run.augmentItem {ω : Type} (host : Host ω) (object key : Expr) (op : BinaryOp)
    (value : Expr) : Run ω Flow := do
  let object ← object.eval host
  let key ← key.eval host
  let old ← effect (Effect.checking fun h => Subscript.get h object key)
  let v ← value.eval host
  let new ← effect (Operator.binary op old v)
  effect (Subscript.set object key new)
  return .normal

namespace Value

/-- A number or a text. -/
def IsScalar (v : Value) : Prop := v.number?.isSome ∨ v.text?.isSome

/-- What a steady expression is asked for: a number or a text as a key, anything but a
method as an object. -/
def Suits (asKey : Bool) (v : Value) : Prop :=
  if asKey then v.IsScalar else ∀ identity m, v ≠ .function (.method identity m)

theorem IsScalar.suits {v : Value} (hv : v.IsScalar) (asKey : Bool) : v.Suits asKey := by
  cases asKey with
  | true => exact hv
  | false =>
      intro identity m hmethod
      rw [hmethod] at hv
      rcases hv with hv | hv <;> cases hv

theorem Suits.toObject {asKey : Bool} {v : Value} (hv : v.Suits asKey) : v.Suits false := by
  cases asKey with
  | true => exact IsScalar.suits hv false
  | false => exact hv

theorem isScalar_of_integer {v : Value} {n : Int} (hv : v.integer? = some n) : v.IsScalar := by
  left
  cases v with
  | bool b => rfl
  | int n => rfl
  | _ => cases hv

end Value

namespace Effect

/-- An effect that only tells what it is, without the heap. -/
theorem run_ofExcept {α : Type} {e : Except Cause α} {a : α} {h h' : Heap}
    (hrun : ofExcept e h = .ok (a, h')) : h' = h ∧ ∀ g, ofExcept e g = .ok (a, g) := by
  cases e with
  | error cause => cases hrun
  | ok b =>
      cases hrun
      exact ⟨rfl, fun g => rfl⟩

theorem ofExcept_ok {α : Type} {e : Except Cause α} {a : α} {h h' : Heap}
    (hrun : ofExcept e h = .ok (a, h')) : e = .ok a := by
  cases e with
  | error cause => cases hrun
  | ok b =>
      cases hrun
      rfl

theorem run_map_ofExcept {α β : Type} {e : Except Cause α} {f : α → β} {b : β} {h h' : Heap}
    (hrun : (StateT.map f (ofExcept e) : Effect β) h = .ok (b, h')) :
    h' = h ∧ ∀ g, (StateT.map f (ofExcept e) : Effect β) g = .ok (b, g) := by
  cases e with
  | error cause => cases hrun
  | ok a =>
      cases hrun
      exact ⟨rfl, fun g => rfl⟩

end Effect

namespace Operator

variable {v a b r : Value} {h h' : Heap}

theorem scalar_of_repeat {count : Int} {effect : Effect Value}
    (heffect : repeat? v count = some effect) (hrun : effect h = .ok (r, h')) (hr : r.IsScalar) :
    v.IsScalar ∧ h' = h ∧ ∀ g, effect g = .ok (r, g) := by
  cases v with
  | str t =>
      cases heffect
      exact ⟨.inr rfl, Effect.run_map_ofExcept hrun⟩
  | markup t =>
      cases heffect
      exact ⟨.inr rfl, Effect.run_map_ofExcept hrun⟩
  | list p =>
      cases heffect
      obtain ⟨items, h₁, -, hrun⟩ := Effect.exists_of_bind hrun
      obtain ⟨found, h₂, -, hrun⟩ := Effect.exists_of_bind hrun
      cases hrun
      rcases hr with hr | hr <;> cases hr
  | tuple p =>
      cases heffect
      obtain ⟨items, h₁, -, hrun⟩ := Effect.exists_of_bind hrun
      obtain ⟨found, h₂, -, hrun⟩ := Effect.exists_of_bind hrun
      cases hrun
      rcases hr with hr | hr <;> cases hr
  | _ => cases heffect

theorem scalar_of_join {effect : Effect Value} (heffect : join? a b = some effect)
    (hrun : effect h = .ok (r, h')) (hr : r.IsScalar) :
    a.IsScalar ∧ b.IsScalar ∧ h' = h ∧ ∀ g, effect g = .ok (r, g) := by
  unfold join? at heffect
  split at heffect
  · cases heffect
    cases hrun
    exact ⟨.inr rfl, .inr rfl, rfl, fun g => rfl⟩
  · cases heffect
    cases hrun
    rcases hr with hr | hr <;> cases hr
  · cases heffect
    cases hrun
    rcases hr with hr | hr <;> cases hr
  · split at heffect
    · rename_i s t hs ht
      cases heffect
      cases hrun
      exact ⟨.inr (by rw [hs]; rfl), .inr (by rw [ht]; rfl), rfl, fun g => rfl⟩
    · cases heffect

theorem scalar_of_times {effect : Effect Value} (heffect : times? a b = some effect)
    (hrun : effect h = .ok (r, h')) (hr : r.IsScalar) :
    a.IsScalar ∧ b.IsScalar ∧ h' = h ∧ ∀ g, effect g = .ok (r, g) := by
  unfold times? at heffect
  split at heffect
  · rename_i found hfound
    cases heffect
    obtain ⟨count, hcount, hrepeat⟩ := Option.bind_eq_some_iff.mp hfound
    obtain ⟨ha, hsame⟩ := scalar_of_repeat hrepeat hrun hr
    exact ⟨ha, Value.isScalar_of_integer hcount, hsame⟩
  · obtain ⟨count, hcount, hrepeat⟩ := Option.bind_eq_some_iff.mp heffect
    obtain ⟨hb, hsame⟩ := scalar_of_repeat hrepeat hrun hr
    exact ⟨Value.isScalar_of_integer hcount, hb, hsame⟩

theorem binary_cases (op : BinaryOp) (a b : Value) :
    (∃ x y, a.number? = some x ∧ b.number? = some y ∧
      binary op a b = Effect.ofExcept (Number.arithmetic op x y)) ∨
    binary op a b = (onOthers? op a b).getD
      (Effect.fail (.unsupportedOperands op.symbol a.typeName b.typeName)) := by
  unfold binary
  split
  · rename_i x y hx hy
    exact .inl ⟨x, y, hx, hy, rfl⟩
  · exact .inr rfl

/-- Arithmetic that gives a number or a text was done on numbers and texts, so it needs no heap.
Filling in text is left out, since that shows whatever it is given. -/
theorem scalar_of_binary {op : BinaryOp} (hop : op ≠ .mod)
    (hrun : binary op a b h = .ok (r, h')) (hr : r.IsScalar) :
    a.IsScalar ∧ b.IsScalar ∧ h' = h ∧ ∀ g, binary op a b g = .ok (r, g) := by
  rcases binary_cases op a b with ⟨x, y, hx, hy, heq⟩ | heq
  · rw [heq] at hrun ⊢
    have ha : a.IsScalar := .inl (by rw [hx]; rfl)
    have hb : b.IsScalar := .inl (by rw [hy]; rfl)
    exact ⟨ha, hb, Effect.run_ofExcept hrun⟩
  · rw [heq] at hrun ⊢
    cases heffect : onOthers? op a b with
    | none =>
        rw [heffect] at hrun
        cases hrun
    | some effect =>
        rw [heffect] at hrun
        cases op with
        | add => exact scalar_of_join heffect hrun hr
        | mul => exact scalar_of_times heffect hrun hr
        | mod => exact absurd rfl hop
        | _ => cases heffect

theorem scalar_of_unary {op : UnaryOp} (hrun : unary op v = .ok r) : v.IsScalar := by
  left
  cases hv : v.number? with
  | none =>
      unfold unary at hrun
      rw [hv] at hrun
      cases op <;> cases hrun
  | some n => rfl

end Operator

namespace Heap.Extends

variable {h h' : Heap} (hext : h.Extends h')
include hext

/-- A place where something is was given out. -/
theorem list_eq {p : Nat} (hp : h.list p ≠ []) : h'.list p = h.list p := by
  apply hext.agrees (.list p)
  by_contra hout
  apply hp
  unfold Heap.list
  rw [Array.getD_eq_getD_getElem?, Array.getElem?_eq_none (Nat.not_lt.mp hout)]
  rfl

theorem tuple_eq {p : Nat} (hp : h.tuple p ≠ []) : h'.tuple p = h.tuple p := by
  apply hext.agrees (.tuple p)
  by_contra hout
  apply hp
  unfold Heap.tuple
  rw [Array.getD_eq_getD_getElem?, Array.getElem?_eq_none (Nat.not_lt.mp hout)]
  rfl

theorem dict_eq {p : Nat} (hp : h.dict p ≠ []) : h'.dict p = h.dict p := by
  apply hext.agrees (.dict p)
  by_contra hout
  apply hp
  unfold Heap.dict
  rw [Array.getD_eq_getD_getElem?, Array.getElem?_eq_none (Nat.not_lt.mp hout)]
  rfl

end Heap.Extends

namespace Subscript

variable {h h' : Heap} {object key r : Value}

theorem ne_nil_of_itemAt {α : Type} {sequence : SequenceKind} {items : List α} {n : Int} {a : α}
    (hitem : itemAt sequence items n = .ok a) : items ≠ [] :=
  List.ne_nil_of_mem (mem_of_itemAt hitem)

theorem scalar_of_index {n : Int} (hindex : index object key = .ok n) : key.IsScalar := by
  unfold index at hindex
  split at hindex
  · rename_i m hm
    exact Value.isScalar_of_integer hm
  · cases hindex

theorem scalar_of_key {name : Text} (hname : Subscript.key key = .ok name) : key.IsScalar := by
  unfold Subscript.key at hname
  split at hname
  · rename_i t ht
    exact .inr (by rw [ht]; rfl)
  · cases hname

/-- A subscript that reads an item has a number or a text as its key, and no method as its
object. -/
theorem suits_of_get (hget : get h object key = .ok r) :
    object.Suits false ∧ key.IsScalar := by
  cases object with
  | list p =>
      obtain ⟨n, hindex, -⟩ := exists_of_bind_ok hget
      exact ⟨fun _ _ hmethod => Value.noConfusion hmethod, scalar_of_index hindex⟩
  | tuple p =>
      obtain ⟨n, hindex, -⟩ := exists_of_bind_ok hget
      exact ⟨fun _ _ hmethod => Value.noConfusion hmethod, scalar_of_index hindex⟩
  | range range =>
      obtain ⟨n, hindex, -⟩ := exists_of_bind_ok hget
      exact ⟨fun _ _ hmethod => Value.noConfusion hmethod, scalar_of_index hindex⟩
  | str t =>
      obtain ⟨n, hindex, -⟩ := exists_of_bind_ok hget
      exact ⟨fun _ _ hmethod => Value.noConfusion hmethod, scalar_of_index hindex⟩
  | markup t =>
      obtain ⟨n, hindex, -⟩ := exists_of_bind_ok hget
      exact ⟨fun _ _ hmethod => Value.noConfusion hmethod, scalar_of_index hindex⟩
  | dict p =>
      obtain ⟨name, hname, -⟩ := exists_of_bind_ok hget
      exact ⟨fun _ _ hmethod => Value.noConfusion hmethod, scalar_of_key hname⟩
  | _ => cases hget

/-- An item is still there when the heap has grown. -/
theorem get_extends (hext : h.Extends h') (hget : get h object key = .ok r) :
    get h' object key = .ok r := by
  cases object with
  | list p =>
      have hrun := hget
      obtain ⟨n, -, hitem⟩ := exists_of_bind_ok hrun
      unfold get at hget ⊢
      dsimp only at hget ⊢
      rw [hext.list_eq (ne_nil_of_itemAt hitem)]
      exact hget
  | tuple p =>
      have hrun := hget
      obtain ⟨n, -, hitem⟩ := exists_of_bind_ok hrun
      unfold get at hget ⊢
      dsimp only at hget ⊢
      rw [hext.tuple_eq (ne_nil_of_itemAt hitem)]
      exact hget
  | dict p =>
      have hrun := hget
      obtain ⟨name, -, hentry⟩ := exists_of_bind_ok hrun
      have hentries : h.dict p ≠ [] := by
        intro hnil
        rw [hnil] at hentry
        cases hentry
      unfold get at hget ⊢
      dsimp only at hget ⊢
      rw [hext.dict_eq hentries]
      exact hget
  | _ => exact hget

end Subscript

theorem readAttribute_dict {p : Nat} {name : Text}
    (hname : BoundMethod.ofName? (.dict p) name = none) (h : Heap) :
    readAttribute (.dict p) name h =
      Effect.orFail (.noAttribute "dict".toList name) (Entries.get? name (h.dict p)) h := by
  unfold readAttribute
  rw [hname]
  rfl

/-- An attribute that is no method is an entry of a dict, so it is still there when the heap
has grown. -/
theorem readAttribute_extends {object r : Value} {name : Text} {h h' : Heap}
    (hrun : readAttribute object name h = .ok (r, h')) (hr : r.Suits false) :
    object.Suits false ∧ h' = h ∧
      ∀ g, h.Extends g → readAttribute object name g = .ok (r, g) := by
  cases hname : BoundMethod.ofName? object name with
  | some method =>
      unfold readAttribute at hrun
      rw [hname] at hrun
      obtain ⟨identity, h₁, -, hpure⟩ := Effect.exists_of_bind hrun
      cases hpure
      exact absurd rfl (hr identity method)
  | none =>
      cases object with
      | dict p =>
          rw [readAttribute_dict hname] at hrun
          cases hentry : Entries.get? name (h.dict p) with
          | none =>
              rw [hentry] at hrun
              cases hrun
          | some entry =>
              rw [hentry] at hrun
              cases hrun
              have hentries : h.dict p ≠ [] := by
                intro hnil
                rw [hnil] at hentry
                cases hentry
              refine ⟨fun _ _ hmethod => Value.noConfusion hmethod, rfl, fun g hext => ?_⟩
              rw [readAttribute_dict hname, hext.dict_eq hentries, hentry]
              rfl
      | _ =>
          unfold readAttribute at hrun
          rw [hname] at hrun
          cases hrun

section Steady

variable {ω : Type} {host : Host ω} {reads : Bool} {s s' : State ω}

/-- A later state that a steady expression cannot tell from an earlier one. -/
structure State.Alike (reads : Bool) (s s' : State ω) : Prop where
  names : s.KeepsNames s'
  heap : reads = true → s.heap.Extends s'.heap

theorem Run.lookup_steady {name : Text} (hname : name ≠ "h".toList) (hnames : s.KeepsNames s')
    {v : Value} {s₁ : State ω} (hrun : Run.lookup name s = .ok v s₁) :
    s₁ = s ∧ Run.lookup name s' = .ok v s' := by
  have hresolve : s'.scope.resolve? name = s.scope.resolve? name := by
    rw [hnames]
    rfl
  cases hfound : s.scope.resolve? name with
  | some u =>
      rw [Run.lookup_resolved hfound] at hrun
      cases hrun
      exact ⟨rfl, Run.lookup_resolved (hresolve.trans hfound)⟩
  | none =>
      rw [Run.lookup_builtin hfound hname] at hrun
      rw [Run.lookup_builtin (hresolve.trans hfound) hname]
      cases hbuiltin : Builtin.lookup? name with
      | none =>
          rw [hbuiltin] at hrun
          cases hrun
      | some u =>
          rw [hbuiltin] at hrun
          cases hrun
          exact ⟨rfl, rfl⟩

theorem Run.effect_ok {α : Type} {x : Effect α} {a : α} {s₁ : State ω} :
    Run.effect x s = .ok a s₁ ↔ ∃ heap, x s.heap = .ok (a, heap) ∧ s₁ = { s with heap := heap } := by
  constructor
  · intro hrun
    unfold Run.effect at hrun
    split at hrun
    · rename_i b heap hresult
      cases hrun
      exact ⟨heap, hresult, rfl⟩
    · cases hrun
  · rintro ⟨heap, hresult, rfl⟩
    unfold Run.effect
    rw [hresult]

theorem Run.checking_ok {α : Type} {f : Heap → Except Cause α} {a : α} {s₁ : State ω} :
    Run.effect (Effect.checking f) s = .ok a s₁ ↔ f s.heap = .ok a ∧ s₁ = s := by
  rw [Run.effect_ok]
  unfold Effect.checking
  cases f s.heap with
  | error cause => simp [Except.map]
  | ok b => simp [Except.map]

/-- Two computations agree from a state if what follows the first step agrees. -/
theorem Run.bind_congr {α β : Type} {x : Run ω α} {f g : α → Run ω β}
    (h : ∀ a s₁, x s = .ok a s₁ → f a s₁ = g a s₁) : (x >>= f) s = (x >>= g) s := by
  show EStateM.bind x f s = EStateM.bind x g s
  unfold EStateM.bind
  cases hrun : x s with
  | ok a s₁ => exact h a s₁ hrun
  | error stop s₁ => rfl

/-- A steady expression that has a suitable value leaves everything as it is, and has the same
value later. -/
theorem Expr.eval_steady (e : Expr) {asKey : Bool} (he : e.isSteady reads asKey = true)
    {a : Value} {s₁ : State ω} (hrun : e.eval host s = .ok a s₁) (ha : a.Suits asKey)
    (hlater : s.Alike reads s') : s₁ = s ∧ e.eval host s' = .ok a s' := by
  match e with
  | .constant c =>
      rw [Expr.eval] at hrun ⊢
      cases hrun
      exact ⟨rfl, rfl⟩
  | .name n =>
      rw [Expr.isSteady, decide_eq_true_eq] at he
      rw [Expr.eval] at hrun ⊢
      exact Run.lookup_steady he hlater.names hrun
  | .attribute object field =>
      rw [Expr.isSteady, Bool.and_eq_true] at he
      rw [Expr.eval] at hrun ⊢
      obtain ⟨o, s₂, hobject, hread⟩ := Run.exists_of_bind hrun
      obtain ⟨heap, hresult, rfl⟩ := Run.effect_ok.mp hread
      obtain ⟨ho, rfl, hagain⟩ := readAttribute_extends hresult ha.toObject
      obtain ⟨rfl, hobject'⟩ := object.eval_steady he.2 hobject ho hlater
      refine ⟨rfl, ?_⟩
      rw [Run.bind_ok hobject']
      exact Run.effect_ok.mpr ⟨s'.heap, hagain s'.heap (hlater.heap he.1), rfl⟩
  | .index object key =>
      rw [Expr.isSteady, Bool.and_eq_true, Bool.and_eq_true] at he
      obtain ⟨hreads, hobjectSteady, hkeySteady⟩ := he
      rw [Expr.eval] at hrun ⊢
      obtain ⟨o, s₂, hobject, hrun⟩ := Run.exists_of_bind hrun
      obtain ⟨k, s₃, hkey, hget⟩ := Run.exists_of_bind hrun
      obtain ⟨hget, rfl⟩ := Run.checking_ok.mp hget
      obtain ⟨ho, hk⟩ := Subscript.suits_of_get hget
      obtain ⟨hsame, hobject'⟩ := object.eval_steady hobjectSteady hobject ho hlater
      rw [hsame] at hkey
      obtain ⟨hsame, hkey'⟩ := key.eval_steady hkeySteady hkey (hk.suits true) hlater
      rw [hsame] at hget
      refine ⟨hsame, ?_⟩
      rw [Run.bind_ok hobject', Run.bind_ok hkey']
      exact Run.checking_ok.mpr ⟨Subscript.get_extends (hlater.heap hreads) hget, rfl⟩
  | .unary op operand =>
      rw [Expr.isSteady] at he
      rw [Expr.eval] at hrun ⊢
      obtain ⟨v, s₂, hoperand, hop⟩ := Run.exists_of_bind hrun
      obtain ⟨heap, hresult, rfl⟩ := Run.effect_ok.mp hop
      obtain ⟨rfl, hagain⟩ := Effect.run_ofExcept hresult
      have hv := Operator.scalar_of_unary (Effect.ofExcept_ok hresult)
      obtain ⟨rfl, hoperand'⟩ := operand.eval_steady he hoperand (hv.suits true) hlater
      refine ⟨rfl, ?_⟩
      rw [Run.bind_ok hoperand']
      exact Run.effect_ok.mpr ⟨s'.heap, hagain s'.heap, rfl⟩
  | .binary op lhs rhs =>
      simp only [Expr.isSteady, Bool.and_eq_true, decide_eq_true_eq] at he
      obtain ⟨rfl, hop, hlhs, hrhs⟩ := he
      rw [Expr.eval] at hrun ⊢
      obtain ⟨x, s₂, hleft, hrun⟩ := Run.exists_of_bind hrun
      obtain ⟨y, s₃, hright, hrun⟩ := Run.exists_of_bind hrun
      obtain ⟨heap, hresult, rfl⟩ := Run.effect_ok.mp hrun
      obtain ⟨hx, hy, rfl, hagain⟩ := Operator.scalar_of_binary hop hresult ha
      obtain ⟨hsame, hleft'⟩ := lhs.eval_steady hlhs hleft (hx.suits true) hlater
      rw [hsame] at hright
      obtain ⟨hsame, hright'⟩ := rhs.eval_steady hrhs hright (hy.suits true) hlater
      refine ⟨hsame, ?_⟩
      rw [Run.bind_ok hleft', Run.bind_ok hright']
      exact Run.effect_ok.mpr ⟨s'.heap, hagain s'.heap, rfl⟩

/-- An augmented assignment to an item does what it is meant to, at any state where the value on
the right, if the way to the item goes through containers, leaves those that are there as they
are. -/
theorem Action.exec_augAssign_item {object key value : Expr}
    (hobject : object.isSteady reads false = true) (hkey : key.isSteady reads true = true)
    (hvalue : reads = true →
      ∀ v s', value.eval host s = .ok v s' → s.heap.Extends s'.heap)
    (op : BinaryOp) (fuel : Nat) (handling : List Raised) :
    (Action.augAssign (.index object key) op value).exec host fuel handling s =
      Run.augmentItem host object key op value s := by
  rw [Action.exec]
  simp only [Run.current, Run.bind, Run.augmentItem, bind_assoc]
  apply Run.bind_congr
  intro o s₁ hobjectRun
  apply Run.bind_congr
  intro k s₂ hkeyRun
  apply Run.bind_congr
  intro old s₃ hget
  obtain ⟨hget, rfl⟩ := Run.checking_ok.mp hget
  -- An item was found, so object and key were suitable and nothing has changed so far.
  obtain ⟨ho, hk⟩ := Subscript.suits_of_get hget
  obtain ⟨rfl, -⟩ := object.eval_steady hobject hobjectRun ho ⟨rfl, fun _ => .refl _⟩
  obtain ⟨rfl, -⟩ := key.eval_steady hkey hkeyRun (hk.suits true) ⟨rfl, fun _ => .refl _⟩
  apply Run.bind_congr
  intro v s₄ hv
  apply Run.bind_congr
  intro new s₅ hnew
  obtain ⟨heap, hresult, rfl⟩ := Run.effect_ok.mp hnew
  have hgrown : s₄.heap.Extends heap := Effect.closed_grows.binary op old v _ _ _ hresult
  have hnames : s₃.KeepsNames s₄ := (value.keepsNames_eval host).ok hv
  have hlater : s₃.Alike reads { s₄ with heap := heap } :=
    ⟨hnames, fun hreads => (hvalue hreads v s₄ hv).trans hgrown⟩
  obtain ⟨-, hobject'⟩ := object.eval_steady hobject hobjectRun ho hlater
  obtain ⟨-, hkey'⟩ := key.eval_steady hkey hkeyRun (hk.suits true) hlater
  rw [Run.bind_ok hobject', Run.bind_ok hkey']

end Steady

/-- A page with counts by name, and the name of one of them. -/
def tally : State Unit where
  heap := ⟨#[], #[], #[[("counts", .dict 1)], [("as", .int 1)]], 0⟩
  world := ()
  scope := ⟨[("page", .dict 0), ("k", .str "a"), ("n", .int 3)], [], [], none, 0, #[]⟩

/-- The way to a count: `page.counts[k + 's']`. -/
def countsOfPage : Expr := .attribute (.name "page") "counts"

def pluralKey : Expr := .binary .add (.name "k") (.constant (.str "s"))

def doubled : Expr := .binary .mul (.name "n") (.constant (.int 2))

theorem exec_augAssign_item_count :
    (Action.augAssign (.index countsOfPage pluralKey) .add doubled).exec Host.absent 0 [] tally =
      Run.augmentItem Host.absent countsOfPage pluralKey .add doubled tally ∧
    ((Run.augmentItem Host.absent countsOfPage pluralKey .add doubled).left tally).heap.dict 1 =
      [("as".toList, .int 7)] := by
  have hobject : countsOfPage.isSteady true false = true := by decide
  have hkey : pluralKey.isSteady true true = true := by decide
  have hvalue (v : Value) (s' : State Unit) (hrun : doubled.eval Host.absent tally = .ok v s') :
      tally.heap.Extends s'.heap := by
    obtain ⟨heap, hext, rfl⟩ := (Expr.onlyGrows_eval Host.absent (e := doubled) rfl).ok hrun
    exact hext
  constructor
  · exact Action.exec_augAssign_item hobject hkey (fun _ => hvalue) .add 0 []
  · rfl

/-- A list of two lists, `[[1], [10]]`. -/
def stacked : State Unit where
  heap := ⟨#[[.list 1, .list 2], [.int 1], [.int 10]], #[], #[], 0⟩
  world := ()
  scope := ⟨[("xs", .list 0)], [], [], none, 0, #[]⟩

/-- The list on top, taken off: `xs.pop()`. -/
def popped : Expr := .call (.attribute (.name "xs") "pop") [] []

/-- `xs.pop()[0] += 5` takes off two lists, where it is meant to take off one. -/
theorem exec_augAssign_popped :
    (Action.augAssign (.index popped (.constant (.int 0))) .add (.constant (.int 5))).exec
      Host.absent 0 [] stacked ≠
    Run.augmentItem Host.absent popped (.constant (.int 0)) .add (.constant (.int 5)) stacked := by
  intro hsame
  have hleft : Run.left ((Action.augAssign (.index popped (.constant (.int 0))) .add
        (.constant (.int 5))).exec Host.absent 0 []) stacked =
      Run.left (Run.augmentItem Host.absent popped (.constant (.int 0)) .add
        (.constant (.int 5))) stacked := by
    unfold Run.left
    rw [hsame]
  have hlists : ([] : List Value) = [.list 1] :=
    congrArg (fun s : State Unit => s.heap.list 0) hleft
  cases hlists

end TemplateEngine
