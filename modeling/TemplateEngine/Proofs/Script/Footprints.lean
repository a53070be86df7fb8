import TemplateEngine.Proofs.Script.Captures
import TemplateEngine.Proofs.Script.ClosedEffects
import TemplateEngine.Proofs.Script.Containers

/-!
# What expressions leave alone

No expression assigns a name: calls reach the output, the heap and whatever is outside,
but names only ever change by statements. Without a call, nothing happens at all except
that the heap grows, since displays, slices and operators make new containers and an
attribute that is a method is made anew.
-/
namespace TemplateEngine

mutual

/-- Whether an expression calls nothing. -/
def Expr.callFree (e : Expr) : Bool :=
  match e with
  | .constant _ => true
  | .name _ => true
  | .list items => callFreeAll items
  | .tuple items => callFreeAll items
  | .dict entries => callFreeEntries entries
  | .attribute object _ => object.callFree
  | .index object key => object.callFree && key.callFree
  | .slice object start stop =>
    object.callFree && (callFreeBound start && callFreeBound stop)
  | .call _ _ _ => false
  | .unary _ operand => operand.callFree
  | .binary _ lhs rhs => lhs.callFree && rhs.callFree
  | .compare _ lhs rhs => lhs.callFree && rhs.callFree
  | .and lhs rhs => lhs.callFree && rhs.callFree
  | .or lhs rhs => lhs.callFree && rhs.callFree
  | .not operand => operand.callFree
  | .conditional condition thenValue elseValue =>
    condition.callFree && (thenValue.callFree && elseValue.callFree)
  termination_by structural e

/-- Whether expressions call nothing. -/
def callFreeAll (es : List Expr) : Bool :=
  match es with
  | [] => true
  | e :: es => e.callFree && callFreeAll es
  termination_by structural es

/-- Whether the entries of a dict call nothing. -/
def callFreeEntries (entries : List (Expr × Expr)) : Bool :=
  match entries with
  | [] => true
  | (key, value) :: entries => key.callFree && (value.callFree && callFreeEntries entries)
  termination_by structural entries

/-- Whether a bound calls nothing. -/
def callFreeBound (bound : Option Expr) : Bool :=
  match bound with
  | none => true
  | some e => e.callFree
  termination_by structural bound

end

theorem Heap.extends_newIdentity (h : Heap) :
    h.Extends { h with identities := h.identities + 1 } where
  has v hv := by cases v <;> exact hv
  agrees v _ := by cases v <;> first | rfl | trivial
  depth := Nat.le_refl _

namespace Effect

variable {α β : Type}

/-- An effect that leaves all containers that are there as they are. -/
def Grows (x : Effect α) : Prop := ∀ h a h', x h = .ok (a, h') → h.Extends h'

theorem Grows.bind {x : Effect α} {f : α → Effect β} (hx : x.Grows) (hf : ∀ a, (f a).Grows) :
    Grows (x >>= f) := by
  intro h b h'' hrun
  obtain ⟨a, h', hfirst, hrest⟩ := exists_of_bind hrun
  exact (hx h a h' hfirst).trans (hf a h' b h'' hrest)

theorem grows_pure (a : α) : Grows (pure a) := by
  intro h b h' hrun
  cases hrun
  exact .refl h

theorem grows_fail (cause : Cause) : Grows (fail cause : Effect α) := by
  intro h b h' hrun
  cases hrun

theorem grows_reading (f : Heap → α) : Grows (reading f) := by
  intro h b h' hrun
  cases hrun
  exact .refl h

theorem grows_checking (f : Heap → Except Cause α) : Grows (checking f) := by
  intro h b h' hrun
  unfold checking at hrun
  cases hresult : f h with
  | error cause =>
      rw [hresult] at hrun
      cases hrun
  | ok a =>
      rw [hresult] at hrun
      cases hrun
      exact .refl h

theorem grows_ofExcept (e : Except Cause α) : Grows (ofExcept e) := by
  cases e with
  | error cause => exact grows_fail cause
  | ok a => exact grows_pure a

theorem grows_newList (items : List Value) : Grows (newList items) := by
  intro h v h' hrun
  cases hrun
  exact h.extends_newList items

theorem grows_newTuple (items : List Value) : Grows (newTuple items) := by
  intro h v h' hrun
  cases hrun
  exact h.extends_newTuple items

theorem grows_newDict (entries : Entries Value) : Grows (newDict entries) := by
  intro h v h' hrun
  cases hrun
  exact h.extends_newDict entries

theorem grows_newIdentity : Grows newIdentity := by
  intro h n h' hrun
  cases hrun
  exact h.extends_newIdentity

/-- Whatever looks at the heap or adds to it leaves all containers as they are. -/
theorem closed_grows : Closed fun _ x => x.Grows where
  reading := grows_reading
  checking _ := grows_checking _
  bind := Grows.bind
  newList := grows_newList
  newTuple := grows_newTuple
  newDict _ := grows_newDict _
  newIdentity := grows_newIdentity

end Effect

/-- A relation of states to later ones that has room for all growth of the heap. -/
class State.Growing {ω : Type} (rel : State ω → State ω → Prop) : Prop where
  refl : ∀ s, rel s s
  trans : ∀ {s s' s''}, rel s s' → rel s' s'' → rel s s''
  grows : ∀ {s : State ω} {heap : Heap}, s.heap.Extends heap → rel s { s with heap := heap }

namespace Run

variable {ω α β : Type} {rel : State ω → State ω → Prop}

/-- A computation that leaves a related state, however it ends. -/
def Leaves (rel : State ω → State ω → Prop) (x : Run ω α) : Prop := ∀ s, rel s (x.left s)

theorem Leaves.ok {x : Run ω α} (hx : x.Leaves rel) {s s' : State ω} {a : α}
    (hrun : x s = .ok a s') : rel s s' := by
  have hleft := hx s
  unfold left at hleft
  rw [hrun] at hleft
  exact hleft

theorem left_bind (x : Run ω α) (f : α → Run ω β) (s : State ω) :
    left (x >>= f) s = match x s with
      | .ok a s' => (f a).left s'
      | .error _ s' => s' := by
  show left (EStateM.bind x f) s = _
  simp only [left, EStateM.bind]
  cases x s <;> rfl

theorem Leaves.bind [State.Growing rel] {x : Run ω α} {f : α → Run ω β}
    (hx : x.Leaves rel) (hf : ∀ a, (f a).Leaves rel) : Leaves rel (x >>= f) := by
  intro s
  have hfirst := hx s
  rw [left_bind]
  unfold left at hfirst
  split
  · rename_i a s' hrun
    rw [hrun] at hfirst
    exact State.Growing.trans hfirst (hf a s')
  · rename_i stop s' hrun
    rw [hrun] at hfirst
    exact hfirst

section Growing

variable [State.Growing rel]

theorem leaves_pure (a : α) : Leaves rel (pure a : Run ω α) := fun s => State.Growing.refl s

theorem leaves_fail (cause : Cause) : Leaves rel (fail cause : Run ω α) :=
  fun s => State.Growing.refl s

theorem leaves_reading (f : Heap → α) : Leaves rel (reading f : Run ω α) :=
  fun s => State.Growing.refl s

theorem leaves_ofScope (f : Scope → α) : Leaves rel (ofScope f : Run ω α) :=
  fun s => State.Growing.refl s

theorem leaves_effect {x : Effect α} (hx : x.Grows) : Leaves rel (effect x : Run ω α) := by
  intro s
  unfold left effect
  cases hrun : x s.heap with
  | error cause => exact State.Growing.refl s
  | ok result =>
      obtain ⟨a, heap⟩ := result
      exact State.Growing.grows (hx s.heap a heap hrun)

theorem leaves_lookup? (name : Text) : Leaves rel (lookup? name : Run ω (Option Value)) :=
  fun s => leaves_effect (Effect.closed_grows.lookup s.scope name) s

theorem leaves_lookup (name : Text) : Leaves rel (lookup name : Run ω Value) := by
  refine Leaves.bind (leaves_lookup? name) fun found => ?_
  split
  · exact leaves_pure _
  · exact leaves_fail _

theorem leaves_truthy (v : Value) : Leaves rel (truthy v : Run ω Bool) := leaves_reading _

end Growing

end Run

section Evaluation

variable {ω : Type} {rel : State ω → State ω → Prop} [State.Growing rel] {host : Host ω}

open Run

mutual

/-- What calls leave alone, and growth of the heap leaves alone, expressions leave alone. -/
theorem Expr.leaves_eval (e : Expr)
    (hcalls : e.callFree = true ∨ ∀ callee args, (Value.call host callee args).Leaves rel) :
    (e.eval host).Leaves rel := by
  match e with
  | .constant c =>
      rw [Expr.eval]
      exact leaves_pure _
  | .name name =>
      rw [Expr.eval]
      exact leaves_lookup name
  | .list items =>
      rw [Expr.callFree] at hcalls
      rw [Expr.eval]
      refine Leaves.bind (leaves_evalAll items hcalls) fun values => ?_
      exact leaves_effect (Effect.grows_newList values)
  | .tuple items =>
      rw [Expr.callFree] at hcalls
      rw [Expr.eval]
      refine Leaves.bind (leaves_evalAll items hcalls) fun values => ?_
      exact leaves_effect (Effect.grows_newTuple values)
  | .dict entries =>
      rw [Expr.callFree] at hcalls
      rw [Expr.eval]
      refine Leaves.bind (leaves_evalEntries [] entries hcalls) fun found => ?_
      exact leaves_effect (Effect.grows_newDict found)
  | .attribute object name =>
      rw [Expr.callFree] at hcalls
      rw [Expr.eval]
      refine Leaves.bind (object.leaves_eval hcalls) fun v => ?_
      exact leaves_effect (Effect.closed_grows.readAttribute v name)
  | .index object key =>
      rw [Expr.callFree, Bool.and_eq_true] at hcalls
      rw [Expr.eval]
      refine Leaves.bind (object.leaves_eval (hcalls.imp_left And.left)) fun v => ?_
      refine Leaves.bind (key.leaves_eval (hcalls.imp_left And.right)) fun k => ?_
      exact leaves_effect (Effect.grows_checking _)
  | .slice object start stop =>
      rw [Expr.callFree, Bool.and_eq_true, Bool.and_eq_true] at hcalls
      rw [Expr.eval]
      refine Leaves.bind (object.leaves_eval (hcalls.imp_left And.left)) fun v => ?_
      refine Leaves.bind (leaves_evalBound start (hcalls.imp_left fun h => h.2.1)) fun first => ?_
      refine Leaves.bind (leaves_evalBound stop (hcalls.imp_left fun h => h.2.2)) fun last => ?_
      exact leaves_effect (Effect.closed_grows.slice v first last)
  | .call function args keywords =>
      have hall : ∀ callee args, (Value.call host callee args).Leaves rel := by
        rw [Expr.callFree] at hcalls
        exact hcalls.resolve_left Bool.false_ne_true
      rw [Expr.eval]
      refine Leaves.bind (function.leaves_eval (.inr hall)) fun callee => ?_
      refine Leaves.bind (leaves_evalAll args (.inr hall)) fun positional => ?_
      refine Leaves.bind (leaves_evalKeywords keywords hall) fun named => ?_
      exact hall callee ⟨positional, named⟩
  | .unary op operand =>
      rw [Expr.callFree] at hcalls
      rw [Expr.eval]
      refine Leaves.bind (operand.leaves_eval hcalls) fun v => ?_
      exact leaves_effect (Effect.grows_ofExcept _)
  | .binary op lhs rhs =>
      rw [Expr.callFree, Bool.and_eq_true] at hcalls
      rw [Expr.eval]
      refine Leaves.bind (lhs.leaves_eval (hcalls.imp_left And.left)) fun a => ?_
      refine Leaves.bind (rhs.leaves_eval (hcalls.imp_left And.right)) fun b => ?_
      exact leaves_effect (Effect.closed_grows.binary op a b)
  | .compare op lhs rhs =>
      rw [Expr.callFree, Bool.and_eq_true] at hcalls
      rw [Expr.eval]
      refine Leaves.bind (lhs.leaves_eval (hcalls.imp_left And.left)) fun a => ?_
      refine Leaves.bind (rhs.leaves_eval (hcalls.imp_left And.right)) fun b => ?_
      refine Leaves.bind (leaves_effect (Effect.grows_checking _)) fun holds => ?_
      exact leaves_pure _
  | .and lhs rhs =>
      rw [Expr.callFree, Bool.and_eq_true] at hcalls
      rw [Expr.eval]
      refine Leaves.bind (lhs.leaves_eval (hcalls.imp_left And.left)) fun v => ?_
      refine Leaves.bind (leaves_truthy v) fun truthy => ?_
      split
      · exact rhs.leaves_eval (hcalls.imp_left And.right)
      · exact leaves_pure v
  | .or lhs rhs =>
      rw [Expr.callFree, Bool.and_eq_true] at hcalls
      rw [Expr.eval]
      refine Leaves.bind (lhs.leaves_eval (hcalls.imp_left And.left)) fun v => ?_
      refine Leaves.bind (leaves_truthy v) fun truthy => ?_
      split
      · exact leaves_pure v
      · exact rhs.leaves_eval (hcalls.imp_left And.right)
  | .not operand =>
      rw [Expr.callFree] at hcalls
      rw [Expr.eval]
      refine Leaves.bind (operand.leaves_eval hcalls) fun v => ?_
      refine Leaves.bind (leaves_truthy v) fun truthy => ?_
      exact leaves_pure _
  | .conditional condition thenValue elseValue =>
      rw [Expr.callFree, Bool.and_eq_true, Bool.and_eq_true] at hcalls
      rw [Expr.eval]
      refine Leaves.bind (condition.leaves_eval (hcalls.imp_left And.left)) fun v => ?_
      refine Leaves.bind (leaves_truthy v) fun truthy => ?_
      split
      · exact thenValue.leaves_eval (hcalls.imp_left fun h => h.2.1)
      · exact elseValue.leaves_eval (hcalls.imp_left fun h => h.2.2)

theorem leaves_evalAll (es : List Expr)
    (hcalls : callFreeAll es = true ∨ ∀ callee args, (Value.call host callee args).Leaves rel) :
    (evalAll host es).Leaves rel := by
  match es with
  | [] =>
      rw [evalAll]
      exact leaves_pure _
  | e :: es =>
      rw [callFreeAll, Bool.and_eq_true] at hcalls
      rw [evalAll]
      refine Leaves.bind (e.leaves_eval (hcalls.imp_left And.left)) fun v => ?_
      refine Leaves.bind (leaves_evalAll es (hcalls.imp_left And.right)) fun others => ?_
      exact leaves_pure _

theorem leaves_evalEntries (known : Entries Value)
    (entries : List (Expr × Expr))
    (hcalls : callFreeEntries entries = true ∨
      ∀ callee args, (Value.call host callee args).Leaves rel) :
    (evalEntries host known entries).Leaves rel := by
  match entries with
  | [] =>
      rw [evalEntries]
      exact leaves_pure _
  | (key, value) :: entries =>
      rw [callFreeEntries, Bool.and_eq_true, Bool.and_eq_true] at hcalls
      rw [evalEntries]
      refine Leaves.bind (key.leaves_eval (hcalls.imp_left And.left)) fun k => ?_
      refine Leaves.bind (leaves_effect (Effect.grows_ofExcept _)) fun name => ?_
      refine Leaves.bind (value.leaves_eval (hcalls.imp_left fun h => h.2.1)) fun v => ?_
      exact leaves_evalEntries _ entries (hcalls.imp_left fun h => h.2.2)

theorem leaves_evalKeywords (keywords : List (Text × Expr))
    (hcalls : ∀ callee args, (Value.call host callee args).Leaves rel) :
    (evalKeywords host keywords).Leaves rel := by
  match keywords with
  | [] =>
      rw [evalKeywords]
      exact leaves_pure _
  | (name, value) :: keywords =>
      rw [evalKeywords]
      refine Leaves.bind (value.leaves_eval (.inr hcalls)) fun v => ?_
      refine Leaves.bind (leaves_evalKeywords keywords hcalls) fun others => ?_
      exact leaves_pure _

theorem leaves_evalBound (bound : Option Expr)
    (hcalls : callFreeBound bound = true ∨
      ∀ callee args, (Value.call host callee args).Leaves rel) :
    (evalBound host bound).Leaves rel := by
  match bound with
  | none =>
      rw [evalBound]
      exact leaves_pure _
  | some e =>
      rw [callFreeBound] at hcalls
      rw [evalBound]
      refine Leaves.bind (e.leaves_eval hcalls) fun v => ?_
      exact leaves_pure _

end

end Evaluation

namespace State

variable {ω : Type}

/-- A later state in which nothing has happened but that the heap has grown. -/
def OnlyGrows (s s' : State ω) : Prop :=
  ∃ heap, s.heap.Extends heap ∧ s' = { s with heap := heap }

instance growing_onlyGrows : Growing (OnlyGrows (ω := ω)) where
  refl s := ⟨s.heap, .refl _, rfl⟩
  trans := by
    rintro s s' s'' ⟨heap, hfirst, rfl⟩ ⟨heap', hsecond, rfl⟩
    exact ⟨heap', hfirst.trans hsecond, rfl⟩
  grows hext := ⟨_, hext, rfl⟩

/-- A later state in which every name means what it meant. -/
def KeepsNames (s s' : State ω) : Prop :=
  s'.scope = { s.scope with chunks := s'.scope.chunks }

instance growing_keepsNames : Growing (KeepsNames (ω := ω)) where
  refl s := rfl
  trans := by
    intro s s' s'' hfirst hsecond
    unfold KeepsNames at *
    rw [hsecond, hfirst]
  grows hext := rfl

end State

/-- An expression without a call only lets the heap grow. -/
theorem Expr.onlyGrows_eval {ω : Type} (host : Host ω) {e : Expr} (he : e.callFree = true) :
    (e.eval host).Leaves State.OnlyGrows :=
  e.leaves_eval (.inl he)

section Names

variable {ω : Type}

open Run State

theorem Run.keepsNames_effect {α : Type} (x : Effect α) :
    (effect x : Run ω α).Leaves KeepsNames := by
  intro s
  unfold left effect
  cases x s.heap with
  | error cause => rfl
  | ok result => rfl

theorem Run.keepsNames_request (host : Host ω) (wanted : Request) (vars : Entries Value) :
    (request host wanted vars).Leaves KeepsNames := by
  intro s
  unfold left request
  cases host wanted vars s.toShared <;> rfl

theorem Helper.keepsNames_call (f : Helper) (args : Arguments) :
    (f.call args : Run ω Value).Leaves KeepsNames := by
  unfold Helper.call
  refine Leaves.bind (keepsNames_effect _) fun v => ?_
  refine Leaves.bind (leaves_reading _) fun text => ?_
  have hprint : (change (Scope.append text) : Run ω Unit).Leaves KeepsNames := fun s => rfl
  split
  · exact hprint.bind fun _ => leaves_pure _
  · exact hprint.bind fun _ => leaves_pure _
  · split
    · exact leaves_pure _
    · exact leaves_fail _
  · refine Leaves.bind (leaves_lookup? text) fun found => ?_
    split
    · exact leaves_pure _
    · exact leaves_fail _
  · exact leaves_pure _

theorem Inclusion.keepsNames_call (host : Host ω) (f : Inclusion) (args : Arguments) :
    (f.call host args).Leaves KeepsNames := by
  have htake : (takeSince 0 : Run ω Text).Leaves KeepsNames := fun s => rfl
  unfold Inclusion.call
  dsimp only
  split
  · refine Leaves.bind (keepsNames_effect _) fun _ => ?_
    refine Leaves.bind (keepsNames_effect _) fun name => ?_
    apply Leaves.bind
    · apply htake.bind
      intro body
      refine Leaves.bind (leaves_ofScope _) fun visible => ?_
      exact keepsNames_request host _ _
    · intro output
      exact leaves_pure _
  · refine Leaves.bind (keepsNames_effect _) fun _ => ?_
    refine Leaves.bind (keepsNames_effect _) fun text => ?_
    refine Leaves.bind (keepsNames_effect _) fun given => ?_
    refine Leaves.bind (keepsNames_request host _ _) fun output => ?_
    exact leaves_pure _

/-- No call assigns a name. -/
theorem Value.keepsNames_call (host : Host ω) (callee : Value) (args : Arguments) :
    (callee.call host args).Leaves KeepsNames := by
  cases callee with
  | function f =>
      cases f with
      | builtin f => exact keepsNames_effect _
      | helper f => exact f.keepsNames_call args
      | inclusion f => exact f.keepsNames_call host args
      | filter identity =>
          refine Leaves.bind (keepsNames_effect _) fun v => ?_
          refine Leaves.bind (leaves_reading _) fun text => ?_
          exact leaves_ofScope _
      | method identity m => exact keepsNames_effect _
  | exceptionClass kind =>
      refine Leaves.bind (keepsNames_effect _) fun _ => ?_
      refine Leaves.bind (leaves_reading _) fun message => ?_
      refine Leaves.bind (keepsNames_effect _) fun identity => ?_
      exact leaves_pure _
  | _ => exact leaves_fail _

/-- No expression assigns a name, whatever it calls. -/
theorem Expr.keepsNames_eval (host : Host ω) (e : Expr) : (e.eval host).Leaves KeepsNames :=
  e.leaves_eval (.inr (Value.keepsNames_call host))

end Names

end TemplateEngine
