import TemplateEngine.Proofs.Script.SafeEvaluation
import TemplateEngine.Proofs.Script.TameMethods

/-!
# Evaluating expressions on a tame page

A page is tame if all its names mean tame values. Whatever is evaluated there, and
however that ends, the page stays tame and its output only grows: the helpers that
reach the output add a chunk at its end, and only a layout could take one away.
-/
namespace TemplateEngine

/-- The names of a page mean tame values only. -/
structure Scope.Tame (base : Heap) (scope : Scope) : Prop where
  locals : ∀ entry ∈ scope.locals, base.Tame entry.2
  vars : ∀ entry ∈ scope.vars, base.Tame entry.2
  globals : ∀ entry ∈ scope.globals, base.Tame entry.2

/-- A state in which all that the page names was tame, or was not there, on some heap. -/
structure State.Tame {ω : Type} (base : Heap) (s : State ω) : Prop where
  heap : base.Tames s.heap
  scope : s.scope.Tame base

/-- A tame state that comes later, with all the output of the earlier one. -/
structure State.Grows {ω : Type} (base : Heap) (s s' : State ω) : Prop where
  tame : s'.Tame base
  output : s.scope.chunks.toList <+: s'.scope.chunks.toList

theorem State.Tame.grows {ω : Type} {base : Heap} {s : State ω} (hs : s.Tame base) :
    s.Grows base s := ⟨hs, List.prefix_rfl⟩

theorem State.Grows.trans {ω : Type} {base : Heap} {s s' s'' : State ω} (hfirst : s.Grows base s')
    (hsecond : s'.Grows base s'') : s.Grows base s'' :=
  ⟨hsecond.tame, hfirst.output.trans hsecond.output⟩

namespace Run

variable {ω α β : Type} {base : Heap}

/-- A computation that lets tame pages grow, and whose result, if it has one, has a property. -/
structure Tame (base : Heap) (x : Run ω α) (P : α → Prop) : Prop where
  ok : ∀ {s s' a}, s.Tame base → x s = .ok a s' → s.Grows base s' ∧ P a
  error : ∀ {s s' stop}, s.Tame base → x s = .error stop s' → s.Grows base s'

theorem error_of_bind {x : Run ω α} {f : α → Run ω β} {s s' : State ω} {stop : Stop}
    (h : (x >>= f) s = .error stop s') :
    x s = .error stop s' ∨ ∃ a s₁, x s = .ok a s₁ ∧ f a s₁ = .error stop s' := by
  have h : EStateM.bind x f s = .error stop s' := h
  unfold EStateM.bind at h
  split at h
  · rename_i a s₁ hx
    exact .inr ⟨a, s₁, hx, h⟩
  · rename_i hx
    cases h
    exact .inl hx

theorem Tame.bind {x : Run ω α} {f : α → Run ω β} {P : α → Prop} {Q : β → Prop}
    (hx : x.Tame base P) (hf : ∀ a, P a → (f a).Tame base Q) : Tame base (x >>= f) Q where
  ok := by
    intro s s'' b hs hrun
    obtain ⟨a, s', hfirst, hrest⟩ := exists_of_bind hrun
    obtain ⟨hgrows, ha⟩ := hx.ok hs hfirst
    obtain ⟨hgrows', hb⟩ := (hf a ha).ok hgrows.tame hrest
    exact ⟨hgrows.trans hgrows', hb⟩
  error := by
    intro s s'' stop hs hrun
    rcases error_of_bind hrun with hfirst | ⟨a, s', hfirst, hrest⟩
    · exact hx.error hs hfirst
    · obtain ⟨hgrows, ha⟩ := hx.ok hs hfirst
      exact hgrows.trans ((hf a ha).error hgrows.tame hrest)

theorem Tame.weaken {x : Run ω α} {P Q : α → Prop} (hx : x.Tame base P) (hPQ : ∀ a, P a → Q a) :
    x.Tame base Q where
  ok hs hrun := (hx.ok hs hrun).imp id (hPQ _)
  error hs hrun := hx.error hs hrun

theorem tame_pure {a : α} {P : α → Prop} (ha : P a) : Tame base (pure a : Run ω α) P where
  ok := by
    intro s s' b hs hrun
    cases hrun
    exact ⟨hs.grows, ha⟩
  error := by
    intro s s' stop hs hrun
    cases hrun

theorem tame_throw {stop : Stop} {P : α → Prop} : Tame base (throw stop : Run ω α) P where
  ok := by
    intro s s' b hs hrun
    cases hrun
  error := by
    intro s s' stop hs hrun
    cases hrun
    exact hs.grows

theorem tame_fail {cause : Cause} {P : α → Prop} : Tame base (fail cause : Run ω α) P := tame_throw

theorem tame_effect {x : Effect α} {P : α → Prop} (hx : x.Tame base P) :
    Tame base (effect x : Run ω α) P where
  ok := by
    intro s s' a hs hrun
    unfold effect at hrun
    split at hrun
    · rename_i result heap hresult
      cases hrun
      obtain ⟨hheap, ha⟩ := hx s.heap a heap hs.heap hresult
      exact ⟨⟨⟨hheap, hs.scope⟩, List.prefix_rfl⟩, ha⟩
    · cases hrun
  error := by
    intro s s' stop hs hrun
    unfold effect at hrun
    split at hrun
    · cases hrun
    · cases hrun
      exact hs.grows

theorem tame_reading {f : Heap → α} {P : α → Prop} (hf : ∀ h, base.Tames h → P (f h)) :
    Tame base (reading f : Run ω α) P where
  ok := by
    intro s s' a hs hrun
    cases hrun
    exact ⟨hs.grows, hf s.heap hs.heap⟩
  error := by
    intro s s' stop hs hrun
    cases hrun

/-- What is read off the heap without looking for a value. -/
theorem tame_read (f : Heap → α) : Tame base (reading f : Run ω α) fun _ => True :=
  tame_reading fun _ _ => trivial

theorem tame_check {e : Except Cause α} :
    Tame base (effect (Effect.ofExcept e) : Run ω α) fun _ => True :=
  tame_effect Effect.tame_check

theorem tame_ofScope {f : Scope → α} {P : α → Prop} (hf : ∀ scope : Scope, P (f scope)) :
    Tame base (ofScope f : Run ω α) P where
  ok := by
    intro s s' a hs hrun
    cases hrun
    exact ⟨hs.grows, hf s.scope⟩
  error := by
    intro s s' stop hs hrun
    cases hrun

/-- A change of the scope that adds output, or gives names tame meanings. -/
theorem tame_change {f : Scope → Scope} (htame : ∀ scope, scope.Tame base → (f scope).Tame base)
    (houtput : ∀ scope, scope.chunks.toList <+: (f scope).chunks.toList) :
    Tame base (change f : Run ω Unit) fun _ => True where
  ok := by
    intro s s' a hs hrun
    cases hrun
    exact ⟨⟨⟨hs.heap, htame s.scope hs.scope⟩, houtput s.scope⟩, trivial⟩
  error := by
    intro s s' stop hs hrun
    cases hrun

theorem tame_append (t : Text) : Tame base (change (Scope.append t) : Run ω Unit) fun _ => True := by
  apply tame_change
  · intro scope hscope
    exact ⟨hscope.locals, hscope.vars, hscope.globals⟩
  · intro scope
    simp [Scope.append]

end Run

theorem Scope.Tame.assign {base : Heap} {scope : Scope} (hscope : scope.Tame base) {v : Value}
    (hv : base.Tame v) (name : Text) : (scope.assign name v).Tame base where
  locals := by
    intro entry hentry
    rcases Subscript.mem_of_put hentry with hentry | hentry
    · exact hscope.locals entry hentry
    · rw [hentry]
      exact hv
  vars := hscope.vars
  globals := hscope.globals

theorem Run.tame_assign {ω : Type} {base : Heap} (name : Text) {v : Value} (hv : base.Tame v) :
    Run.Tame base (Run.assign name v : Run ω Unit) fun _ => True := by
  apply Run.tame_change
  · intro scope hscope
    exact hscope.assign hv name
  · intro scope
    exact List.prefix_rfl

section Lookup

variable {ω : Type} {base : Heap} {name : Text}

theorem Scope.tame_helper? {v : Value} (hv : Scope.helper? name = some v) : base.Tame v := by
  obtain ⟨f, -, rfl⟩ := Option.map_eq_some_iff.mp hv
  exact Heap.tame_of_leaf rfl rfl

theorem Builtin.tame_lookup? {v : Value} (hv : Builtin.lookup? name = some v) : base.Tame v := by
  unfold Builtin.lookup? at hv
  split at hv
  · cases hv
    exact Heap.tame_of_leaf rfl rfl
  · obtain ⟨kind, -, rfl⟩ := Option.map_eq_some_iff.mp hv
    exact Heap.tame_plain rfl

theorem Scope.Tame.resolve? {scope : Scope} (hscope : scope.Tame base) {v : Value}
    (hv : scope.resolve? name = some v) : base.Tame v := by
  unfold Scope.resolve? at hv
  split at hv
  · cases hv
    exact Heap.tame_of_leaf rfl rfl
  · split at hv
    · cases hv
      exact Heap.tame_of_leaf rfl rfl
    · rcases Option.or_eq_some_iff.mp hv with hv | ⟨-, hv⟩
      · obtain ⟨entry, hentry, rfl⟩ := Subscript.mem_of_get? hv
        exact hscope.locals entry hentry
      · rcases Option.or_eq_some_iff.mp hv with hv | ⟨-, hv⟩
        · obtain ⟨entry, hentry, rfl⟩ := Subscript.mem_of_get? hv
          exact hscope.vars entry hentry
        · rcases Option.or_eq_some_iff.mp hv with hv | ⟨-, hv⟩
          · obtain ⟨entry, hentry, rfl⟩ := Subscript.mem_of_get? hv
            exact hscope.globals entry hentry
          · exact Scope.tame_helper? hv

theorem Scope.tame_helperEntries : ∀ entry ∈ helperEntries, base.Tame entry.2 := by
  intro entry hentry
  obtain ⟨f, -, rfl⟩ := List.mem_map.mp hentry
  exact Heap.tame_of_leaf rfl rfl

theorem Scope.Tame.lookup {scope : Scope} (hscope : scope.Tame base) (name : Text) :
    (scope.lookup name).Tame base fun found => ∀ v, found = some v → base.Tame v := by
  unfold Scope.lookup
  split
  · rename_i v hv
    apply Effect.tame_pure
    rintro w ⟨⟩
    exact hscope.resolve? hv
  · split
    · apply Effect.Tame.bind (Effect.tame_newDict Scope.tame_helperEntries)
      intro v hv
      apply Effect.tame_pure
      rintro w ⟨⟩
      exact hv
    · apply Effect.tame_pure
      rintro w ⟨⟩

theorem Run.tame_lookup? (name : Text) : Run.Tame base (Run.lookup? name : Run ω (Option Value))
    fun found => ∀ v, found = some v → base.Tame v where
  ok hs hrun := (Run.tame_effect (hs.scope.lookup name)).ok hs hrun
  error hs hrun := (Run.tame_effect (hs.scope.lookup name)).error hs hrun

theorem Run.tame_lookup (name : Text) :
    Run.Tame base (Run.lookup name : Run ω Value) base.Tame := by
  unfold Run.lookup
  apply Run.Tame.bind (Run.tame_lookup? name)
  intro found hfound
  split
  · rename_i v hv
    apply Run.tame_pure
    rcases Option.or_eq_some_iff.mp hv with hv | ⟨-, hv⟩
    · exact hfound v hv
    · exact Builtin.tame_lookup? hv
  · exact Run.tame_fail

end Lookup

section Calls

variable {ω : Type} {base : Heap} {args : Arguments}

theorem Helper.tame_call (f : Helper) (args : Arguments) :
    Run.Tame base (f.call args : Run ω Value) base.Tame := by
  unfold Helper.call
  apply Run.Tame.bind Run.tame_check
  intro v _
  apply Run.Tame.bind (Run.tame_read _)
  intro text _
  have happend : Run.Tame base
      (Run.change (Scope.append text) >>= fun _ => pure .none : Run ω Value) base.Tame :=
    Run.Tame.bind (Run.tame_append text) fun _ _ => Run.tame_pure (Heap.tame_plain rfl)
  cases f with
  | append => exact happend
  | concat => exact happend
  | capture =>
      cases v with
      | str name => exact Run.tame_pure (Heap.tame_plain rfl)
      | _ => exact Run.tame_fail
  | captured =>
      apply Run.Tame.bind (Run.tame_lookup? text)
      intro found hfound
      cases found with
      | none => exact Run.tame_fail
      | some value => exact Run.tame_pure (hfound value rfl)
  | htmlquote => exact Run.tame_pure (Heap.tame_markup _)

theorem Scope.tame_filtered (scope : Scope) (display : Text) {v : Value} (hv : base.Tame v) :
    base.Tame (scope.filtered display v) := by
  unfold Scope.filtered
  split
  · exact hv
  · split
    · exact Heap.tame_markup _
    · exact Heap.tame_plain rfl

theorem Function.tame_call (host : Host ω) {f : Function} (hf : base.Tame (.function f))
    (hargs : args.Tame base) : Run.Tame base (f.call host args) base.Tame := by
  cases f with
  | builtin f => exact Run.tame_effect (Builtin.tame_call f hargs)
  | helper f => exact Helper.tame_call f args
  | inclusion f => exact absurd hf.not_inclusion Bool.noConfusion
  | filter identity =>
      unfold Function.call
      apply Run.Tame.bind (Run.tame_effect (hargs.single _))
      intro v hv
      apply Run.Tame.bind (Run.tame_read _)
      intro text _
      exact Run.tame_ofScope fun scope => scope.tame_filtered text hv
  | method identity m => exact Run.tame_effect (BoundMethod.tame_call hf hargs)

theorem ExceptionKind.tame_call (kind : ExceptionKind) (args : Arguments) :
    Run.Tame base (kind.call args : Run ω Value) base.Tame := by
  unfold ExceptionKind.call
  apply Run.Tame.bind Run.tame_check
  intro _ _
  apply Run.Tame.bind (Run.tame_read _)
  intro message _
  apply Run.Tame.bind (Run.tame_effect Effect.tame_newIdentity)
  intro identity _
  exact Run.tame_pure (Heap.tame_plain rfl)

/-- Calling a tame value with tame arguments gives a tame value. -/
theorem Value.tame_call (host : Host ω) {callee : Value} (hcallee : base.Tame callee)
    (hargs : args.Tame base) : Run.Tame base (callee.call host args) base.Tame := by
  cases callee with
  | function f => exact Function.tame_call host hcallee hargs
  | exceptionClass kind => exact ExceptionKind.tame_call kind args
  | _ => exact Run.tame_fail

end Calls

section Evaluation

variable {ω : Type} (host : Host ω) (base : Heap)

mutual

/-- On a tame page an expression has a tame value. -/
theorem Expr.tame_eval (e : Expr) : Run.Tame base (e.eval host) base.Tame := by
  match e with
  | .constant c =>
      rw [Expr.eval]
      exact Run.tame_pure (Heap.tame_plain c.isPlain_value)
  | .name name =>
      rw [Expr.eval]
      exact Run.tame_lookup name
  | .list items =>
      rw [Expr.eval]
      apply Run.Tame.bind (tame_evalAll items)
      intro values hvalues
      exact Run.tame_effect (Effect.tame_newList hvalues)
  | .tuple items =>
      rw [Expr.eval]
      apply Run.Tame.bind (tame_evalAll items)
      intro values hvalues
      exact Run.tame_effect (Effect.tame_newTuple hvalues)
  | .dict entries =>
      rw [Expr.eval]
      apply Run.Tame.bind (tame_evalEntries entries
        (show ∀ entry ∈ ([] : Entries Value), base.Tame entry.2 from fun _ h => nomatch h))
      intro values hvalues
      exact Run.tame_effect (Effect.tame_newDict hvalues)
  | .attribute object name =>
      rw [Expr.eval]
      apply Run.Tame.bind object.tame_eval
      intro v hv
      exact Run.tame_effect (Effect.tame_readAttribute hv name)
  | .index object key =>
      rw [Expr.eval]
      apply Run.Tame.bind object.tame_eval
      intro v hv
      apply Run.Tame.bind key.tame_eval
      intro k _
      exact Run.tame_effect (Effect.tame_checking fun _ hh _ hr => Subscript.tame_get hh hv hr)
  | .slice object start stop =>
      rw [Expr.eval]
      apply Run.Tame.bind object.tame_eval
      intro v hv
      apply Run.Tame.bind (tame_evalBound start)
      intro first _
      apply Run.Tame.bind (tame_evalBound stop)
      intro last _
      exact Run.tame_effect (Subscript.tame_slice hv first last)
  | .call function args keywords =>
      rw [Expr.eval]
      apply Run.Tame.bind function.tame_eval
      intro callee hcallee
      apply Run.Tame.bind (tame_evalAll args)
      intro positional hpositional
      apply Run.Tame.bind (tame_evalKeywords keywords)
      intro named hnamed
      exact Value.tame_call host hcallee ⟨hpositional, hnamed⟩
  | .unary op operand =>
      rw [Expr.eval]
      apply Run.Tame.bind operand.tame_eval
      intro v _
      exact Run.tame_effect (Effect.tame_ofExcept fun r hr =>
        Heap.tame_plain (Operator.isPlain_unary hr))
  | .binary op lhs rhs =>
      rw [Expr.eval]
      apply Run.Tame.bind lhs.tame_eval
      intro a ha
      apply Run.Tame.bind rhs.tame_eval
      intro b hb
      exact Run.tame_effect (Operator.tame_binary op ha hb)
  | .compare op lhs rhs =>
      rw [Expr.eval]
      apply Run.Tame.bind lhs.tame_eval
      intro a _
      apply Run.Tame.bind rhs.tame_eval
      intro b _
      apply Run.Tame.bind (Run.tame_effect
        (Effect.tame_checking (P := fun _ => True) fun _ _ _ _ => trivial))
      intro holds _
      exact Run.tame_pure (Heap.tame_plain rfl)
  | .and lhs rhs =>
      rw [Expr.eval]
      apply Run.Tame.bind lhs.tame_eval
      intro a ha
      apply Run.Tame.bind (Run.tame_read _)
      intro truthy _
      split
      · exact rhs.tame_eval
      · exact Run.tame_pure ha
  | .or lhs rhs =>
      rw [Expr.eval]
      apply Run.Tame.bind lhs.tame_eval
      intro a ha
      apply Run.Tame.bind (Run.tame_read _)
      intro truthy _
      split
      · exact Run.tame_pure ha
      · exact rhs.tame_eval
  | .not operand =>
      rw [Expr.eval]
      apply Run.Tame.bind operand.tame_eval
      intro a _
      apply Run.Tame.bind (Run.tame_read _)
      intro truthy _
      exact Run.tame_pure (Heap.tame_plain rfl)
  | .conditional condition thenValue elseValue =>
      rw [Expr.eval]
      apply Run.Tame.bind condition.tame_eval
      intro a _
      apply Run.Tame.bind (Run.tame_read _)
      intro truthy _
      split
      · exact thenValue.tame_eval
      · exact elseValue.tame_eval

theorem tame_evalAll (es : List Expr) :
    Run.Tame base (evalAll host es) fun values => ∀ v ∈ values, base.Tame v := by
  match es with
  | [] =>
      rw [evalAll]
      apply Run.tame_pure
      intro v hv
      cases hv
  | e :: es =>
      rw [evalAll]
      apply Run.Tame.bind e.tame_eval
      intro first hfirst
      apply Run.Tame.bind (tame_evalAll es)
      intro others hothers
      exact Run.tame_pure (List.forall_mem_cons.mpr ⟨hfirst, hothers⟩)

theorem tame_evalEntries (entries : List (Expr × Expr)) {known : Entries Value}
    (hknown : ∀ entry ∈ known, base.Tame entry.2) :
    Run.Tame base (evalEntries host known entries) fun found =>
      ∀ entry ∈ found, base.Tame entry.2 := by
  match entries with
  | [] =>
      rw [evalEntries]
      exact Run.tame_pure hknown
  | (key, value) :: entries =>
      rw [evalEntries]
      apply Run.Tame.bind key.tame_eval
      intro k _
      apply Run.Tame.bind Run.tame_check
      intro name _
      apply Run.Tame.bind value.tame_eval
      intro v hv
      apply tame_evalEntries entries
      intro entry hentry
      rcases Subscript.mem_of_put hentry with hentry | hentry
      · exact hknown entry hentry
      · rw [hentry]
        exact hv

theorem tame_evalKeywords (keywords : List (Text × Expr)) :
    Run.Tame base (evalKeywords host keywords) fun found =>
      ∀ entry ∈ found, base.Tame entry.2 := by
  match keywords with
  | [] =>
      rw [evalKeywords]
      apply Run.tame_pure
      intro entry hentry
      cases hentry
  | (name, value) :: keywords =>
      rw [evalKeywords]
      apply Run.Tame.bind value.tame_eval
      intro v hv
      apply Run.Tame.bind (tame_evalKeywords keywords)
      intro others hothers
      exact Run.tame_pure (List.forall_mem_cons.mpr ⟨hv, hothers⟩)

theorem tame_evalBound (bound : Option Expr) :
    Run.Tame base (evalBound host bound) fun _ => True := by
  match bound with
  | none =>
      rw [evalBound]
      exact Run.tame_pure trivial
  | some e =>
      rw [evalBound]
      apply Run.Tame.bind e.tame_eval
      intro v _
      exact Run.tame_pure trivial

end

end Evaluation

end TemplateEngine
