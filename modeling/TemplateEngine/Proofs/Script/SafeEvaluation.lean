import TemplateEngine.Proofs.Script.SafeBuiltins
import TemplateEngine.Script.Evaluation.Call
import TemplateEngine.Script.Evaluation.Expression

/-!
# Evaluating expressions on a guarded page

A page is guarded if its filter escapes, nothing is assigned on it and all that its
names mean is safe. Calling a safe value there leaves the scope alone and gives a
safe value again: the helpers that would declare text safe or reach the output are
no safe values, and what a filter lets through was safe or is escaped.

An expression that names nothing which declares text safe or reaches the output has
a safe value on a guarded page, whatever lists and dicts it changes on the way. The
induction is on the expression; the state is any guarded one, as every operand finds
the page as the operands before it left it.
-/
namespace TemplateEngine

open Entity (Inert inert_escape)

/-- A page whose filter escapes, on which every name that a caller gave means a safe value. -/
structure Guarded {ω : Type} (s : State ω) : Prop where
  locals : s.scope.locals = []
  vars : ∀ entry ∈ s.scope.vars, s.heap.Safe entry.2
  globals : ∀ entry ∈ s.scope.globals, s.heap.Safe entry.2
  filter : s.scope.filter = some Entity.escape

theorem Guarded.keeps {ω : Type} {s s' : State ω} (hs : Guarded s)
    (hkeeps : s.heap.Keeps s'.heap) (hscope : s'.scope = s.scope) : Guarded s' where
  locals := by rw [hscope, hs.locals]
  vars := by
    intro entry hentry
    rw [hscope] at hentry
    exact hkeeps entry.2 (hs.vars entry hentry)
  globals := by
    intro entry hentry
    rw [hscope] at hentry
    exact hkeeps entry.2 (hs.globals entry hentry)
  filter := by rw [hscope, hs.filter]

namespace Run

variable {ω α β : Type} {s : State ω}

theorem exists_of_bind {x : Run ω α} {f : α → Run ω β} {s' : State ω} {b : β}
    (h : (x >>= f) s = .ok b s') : ∃ a s₁, x s = .ok a s₁ ∧ f a s₁ = .ok b s' := by
  have h : EStateM.bind x f s = .ok b s' := h
  unfold EStateM.bind at h
  split at h
  · rename_i a s₁ hx
    exact ⟨a, s₁, hx, h⟩
  · cases h

/-- A computation that leaves the scope alone, keeps the heap, and whose result, if it has
one, has a property. -/
def Keeps (x : Run ω α) (s : State ω) (P : Heap → α → Prop) : Prop :=
  ∀ a s', x s = .ok a s' → s.heap.Keeps s'.heap ∧ s'.scope = s.scope ∧ P s'.heap a

/-- The result of a computation is a value that is safe. -/
abbrev KeepsSafe (x : Run ω Value) (s : State ω) : Prop := x.Keeps s Heap.Safe

theorem Keeps.bind {x : Run ω α} {f : α → Run ω β} {P : Heap → α → Prop}
    {Q : Heap → β → Prop} (hx : x.Keeps s P)
    (hf : ∀ a s', s.heap.Keeps s'.heap → s'.scope = s.scope → P s'.heap a → (f a).Keeps s' Q) :
    Keeps (x >>= f) s Q := by
  intro b s'' hrun
  obtain ⟨a, s', hfirst, hrun⟩ := exists_of_bind hrun
  obtain ⟨hkeeps, hscope, hP⟩ := hx a s' hfirst
  obtain ⟨hkeeps', hscope', hQ⟩ := hf a s' hkeeps hscope hP b s'' hrun
  exact ⟨hkeeps.trans hkeeps', hscope'.trans hscope, hQ⟩

theorem keeps_pure {a : α} {P : Heap → α → Prop} (ha : P s.heap a) :
    Keeps (pure a : Run ω α) s P := by
  intro b s' hrun
  cases hrun
  exact ⟨.refl _, rfl, ha⟩

theorem keeps_fail {cause : Cause} {P : Heap → α → Prop} :
    Keeps (Run.fail cause : Run ω α) s P := by
  intro b s' hrun
  cases hrun

theorem keeps_effect {x : Effect α} {P : Heap → α → Prop} (hx : x.Keeps s.heap P) :
    Keeps (Run.effect x : Run ω α) s P := by
  intro a s' hrun
  unfold Run.effect at hrun
  split at hrun
  · rename_i a' heap hresult
    cases hrun
    obtain ⟨hkeeps, hP⟩ := hx a heap hresult
    exact ⟨hkeeps, rfl, hP⟩
  · cases hrun

theorem keeps_reading {f : Heap → α} {P : Heap → α → Prop} (hf : P s.heap (f s.heap)) :
    Keeps (Run.reading f : Run ω α) s P := by
  intro a s' hrun
  cases hrun
  exact ⟨.refl _, rfl, hf⟩

end Run

section Calls

variable {ω : Type} {s : State ω} {args : Arguments}

theorem Helper.keeps_call {f : Helper} (hf : f = .capture ∨ f = .htmlquote)
    (args : Arguments) : Run.KeepsSafe (f.call args) s := by
  unfold Helper.call
  apply Run.Keeps.bind (P := fun _ _ => True)
  · exact Run.keeps_effect (Effect.keeps_ofExcept fun _ _ => trivial)
  · intro v s₁ _ _ _
    apply Run.Keeps.bind (Run.keeps_reading (P := fun _ _ => True) trivial)
    intro text s₂ _ _ _
    rcases hf with rfl | rfl
    · cases v with
      | str name => exact Run.keeps_pure (Heap.safe_plain rfl)
      | _ => exact Run.keeps_fail
    · exact Run.keeps_pure (Heap.safe_markup (inert_escape text))

/-- A filter that escapes makes every value safe. -/
theorem Scope.safe_filtered {h : Heap} {scope : Scope}
    (hfilter : scope.filter = some Entity.escape) {v : Value} (hv : h.Safe v) (display : Text) :
    h.Safe (scope.filtered display v) := by
  unfold Scope.filtered
  rw [hfilter]
  cases v with
  | markup t => exact hv
  | _ => exact Heap.safe_markup (inert_escape display)

theorem Function.keeps_call (host : Host ω) (hs : Guarded s) {f : Function}
    (hf : s.heap.Safe (.function f)) (hargs : args.Safe s.heap) :
    Run.KeepsSafe (f.call host args) s := by
  have hharmless : f.Harmless := hf.harmless
  cases f with
  | builtin f => exact Run.keeps_effect (Builtin.keeps_call hharmless hargs)
  | helper f => exact Helper.keeps_call hharmless args
  | inclusion f => exact hharmless.elim
  | filter identity =>
      unfold Function.call
      apply Run.Keeps.bind (P := fun h v => h.Safe v)
      · exact Run.keeps_effect (Effect.keeps_ofExcept fun v => hargs.single)
      · intro v s₁ hkeeps hscope hv
        apply Run.Keeps.bind (Run.keeps_reading (P := fun h _ => h.Safe v) hv)
        intro text s₂ hkeeps' hscope' hv
        have hfilter := (hs.keeps hkeeps hscope).keeps hkeeps' hscope'
        intro w s₃ hrun
        cases hrun
        exact ⟨.refl _, rfl, Scope.safe_filtered hfilter.filter hv text⟩
  | method identity m => exact Run.keeps_effect (BoundMethod.keeps_call hf hargs)

theorem ExceptionKind.keeps_call (kind : ExceptionKind) (args : Arguments) :
    Run.KeepsSafe (kind.call args) s := by
  unfold ExceptionKind.call
  apply Run.Keeps.bind (P := fun _ _ => True)
  · exact Run.keeps_effect (Effect.keeps_ofExcept fun _ _ => trivial)
  · intro _ s₁ _ _ _
    apply Run.Keeps.bind (Run.keeps_reading (P := fun _ _ => True) trivial)
    intro message s₂ _ _ _
    apply Run.Keeps.bind (P := fun _ _ => True)
    · exact Run.keeps_effect (Effect.keeps_newIdentity fun _ _ => trivial)
    · intro identity s₃ _ _ _
      exact Run.keeps_pure (Heap.safe_plain rfl)

/-- Calling a safe value with safe arguments gives a safe value. -/
theorem Value.keeps_call (host : Host ω) (hs : Guarded s) {callee : Value}
    (hcallee : s.heap.Safe callee) (hargs : args.Safe s.heap) :
    Run.KeepsSafe (callee.call host args) s := by
  cases callee with
  | function f => exact Function.keeps_call host hs hcallee hargs
  | exceptionClass kind => exact ExceptionKind.keeps_call kind args
  | _ => exact Run.keeps_fail

end Calls

mutual

/-- The names that an expression reads. -/
def Expr.names (e : Expr) : List Text :=
  match e with
  | .constant _ => []
  | .name name => [name]
  | .list items => namesAll items
  | .tuple items => namesAll items
  | .dict entries => namesEntries entries
  | .attribute object _ => object.names
  | .index object key => object.names ++ key.names
  | .slice object start stop => object.names ++ (namesBound start ++ namesBound stop)
  | .call function args keywords =>
    function.names ++ (namesAll args ++ namesKeywords keywords)
  | .unary _ operand => operand.names
  | .binary _ lhs rhs => lhs.names ++ rhs.names
  | .compare _ lhs rhs => lhs.names ++ rhs.names
  | .and lhs rhs => lhs.names ++ rhs.names
  | .or lhs rhs => lhs.names ++ rhs.names
  | .not operand => operand.names
  | .conditional condition thenValue elseValue =>
    condition.names ++ (thenValue.names ++ elseValue.names)
  termination_by structural e

/-- The names that expressions read. -/
def namesAll (es : List Expr) : List Text :=
  match es with
  | [] => []
  | e :: es => e.names ++ namesAll es
  termination_by structural es

/-- The names that the entries of a dict read. -/
def namesEntries (entries : List (Expr × Expr)) : List Text :=
  match entries with
  | [] => []
  | (key, value) :: entries => key.names ++ (value.names ++ namesEntries entries)
  termination_by structural entries

/-- The names that named arguments read. -/
def namesKeywords (keywords : List (Text × Expr)) : List Text :=
  match keywords with
  | [] => []
  | (_, value) :: keywords => value.names ++ namesKeywords keywords
  termination_by structural keywords

/-- The names that a bound reads, if there is one. -/
def namesBound (bound : Option Expr) : List Text :=
  match bound with
  | none => []
  | some e => e.names
  termination_by structural bound

end

/-- The names by which a script declares text safe or reaches the output. -/
def declaring : List Text := ["markup", "concat", "captured", "h", "__buffer_append"]

/-- Names that are none of these. -/
def Modest (names : List Text) : Prop := ∀ name ∈ names, name ∉ declaring

theorem modest_append {names others : List Text} :
    Modest (names ++ others) ↔ Modest names ∧ Modest others := by
  unfold Modest
  simp only [List.mem_append, or_imp, forall_and]

section Lookup

variable {ω : Type} {s : State ω} {name : Text}

theorem Scope.safe_helper? {h : Heap} (hname : name ∉ declaring) {v : Value}
    (hv : Scope.helper? name = some v) : h.Safe v := by
  obtain ⟨f, hf, rfl⟩ := Option.map_eq_some_iff.mp hv
  have hspelled : f.name.toList = name := by simpa using List.find?_some hf
  subst hspelled
  apply Heap.safe_of_leads
  · cases f with
    | capture => exact .inl rfl
    | htmlquote => exact .inr rfl
    | _ => exact absurd (by decide) hname
  · intro w hw
    cases hw

theorem Builtin.safe_lookup? {h : Heap} (hname : name ∉ declaring) {v : Value}
    (hv : Builtin.lookup? name = some v) : h.Safe v := by
  unfold Builtin.lookup? at hv
  split at hv
  · rename_i f hf
    cases hv
    have hspelled : f.name.toList = name := by simpa using List.find?_some hf
    apply Heap.safe_of_leads
    · rintro rfl
      subst hspelled
      exact absurd (by decide) hname
    · intro w hw
      cases hw
  · obtain ⟨kind, -, rfl⟩ := Option.map_eq_some_iff.mp hv
    exact Heap.safe_plain rfl

theorem Guarded.safe_resolve? (hs : Guarded s) (hname : name ∉ declaring) {v : Value}
    (hv : s.scope.resolve? name = some v) : s.heap.Safe v := by
  unfold Scope.resolve? at hv
  split at hv
  · rename_i happend
    subst happend
    exact absurd (by decide) hname
  · split at hv
    · cases hv
      apply Heap.safe_of_leads
      · exact True.intro
      · intro w hw
        cases hw
    · rw [hs.locals] at hv
      rcases Option.or_eq_some_iff.mp hv with hv | ⟨-, hv⟩
      · cases hv
      · rcases Option.or_eq_some_iff.mp hv with hv | ⟨-, hv⟩
        · obtain ⟨entry, hentry, rfl⟩ := Subscript.mem_of_get? hv
          exact hs.vars entry hentry
        · rcases Option.or_eq_some_iff.mp hv with hv | ⟨-, hv⟩
          · obtain ⟨entry, hentry, rfl⟩ := Subscript.mem_of_get? hv
            exact hs.globals entry hentry
          · exact Scope.safe_helper? hname hv

theorem Run.keeps_lookup (hs : Guarded s) (hname : name ∉ declaring) :
    Run.KeepsSafe (Run.lookup name) s := by
  unfold Run.lookup
  apply Run.Keeps.bind (P := fun h found => ∀ v, found = some v → h.Safe v)
  · intro found s' hrun
    have hh : name ≠ "h".toList := by
      rintro rfl
      exact absurd (by decide) hname
    unfold Run.lookup? Scope.lookup at hrun
    rw [if_neg hh] at hrun
    cases hresolve : s.scope.resolve? name with
    | some v =>
        rw [hresolve] at hrun
        cases hrun
        refine ⟨.refl _, rfl, ?_⟩
        rintro w ⟨⟩
        exact hs.safe_resolve? hname hresolve
    | none =>
        rw [hresolve] at hrun
        cases hrun
        refine ⟨.refl _, rfl, ?_⟩
        rintro w ⟨⟩
  · intro found s' _ _ hfound
    split
    · rename_i v hv
      apply Run.keeps_pure
      rcases Option.or_eq_some_iff.mp hv with hv | ⟨-, hv⟩
      · exact hfound v hv
      · exact Builtin.safe_lookup? hname hv
    · exact Run.keeps_fail

end Lookup

theorem Constant.isPlain_value (c : Constant) : c.value.isPlain = true := by
  cases c <;> rfl

section Evaluation

variable {ω : Type} (host : Host ω)

mutual

/-- The value of an expression that names nothing which declares text safe is safe. -/
theorem Expr.keeps_eval (e : Expr) (he : Modest e.names) {s : State ω} (hs : Guarded s) :
    Run.KeepsSafe (e.eval host) s := by
  match e with
  | .constant c =>
      rw [Expr.eval]
      exact Run.keeps_pure (Heap.safe_plain c.isPlain_value)
  | .name name =>
      rw [Expr.names] at he
      rw [Expr.eval]
      exact Run.keeps_lookup hs (he name List.mem_cons_self)
  | .list items =>
      rw [Expr.names] at he
      rw [Expr.eval]
      apply Run.Keeps.bind (keeps_evalAll items he hs)
      intro values s₁ _ _ hvalues
      exact Run.keeps_effect (Effect.keeps_newList hvalues)
  | .tuple items =>
      rw [Expr.names] at he
      rw [Expr.eval]
      apply Run.Keeps.bind (keeps_evalAll items he hs)
      intro values s₁ _ _ hvalues
      exact Run.keeps_effect (Effect.keeps_newTuple hvalues)
  | .dict entries =>
      rw [Expr.names] at he
      rw [Expr.eval]
      apply Run.Keeps.bind (keeps_evalEntries entries he hs
        (show ∀ entry ∈ ([] : Entries Value), s.heap.Safe entry.2 from fun _ h => nomatch h))
      intro values s₁ _ _ hvalues
      exact Run.keeps_effect (Effect.keeps_newDict hvalues)
  | .attribute object name =>
      rw [Expr.names] at he
      rw [Expr.eval]
      apply Run.Keeps.bind (object.keeps_eval he hs)
      intro v s₁ _ _ hv
      exact Run.keeps_effect (Effect.keeps_readAttribute hv name)
  | .index object key =>
      rw [Expr.names, modest_append] at he
      rw [Expr.eval]
      apply Run.Keeps.bind (object.keeps_eval he.1 hs)
      intro v s₁ hkeeps hscope hv
      apply Run.Keeps.bind (key.keeps_eval he.2 (hs.keeps hkeeps hscope))
      intro k s₂ hkeeps' _ _
      exact Run.keeps_effect (Effect.keeps_checking fun r hr =>
        Subscript.safe_get (hkeeps' v hv) hr)
  | .slice object start stop =>
      rw [Expr.names, modest_append, modest_append] at he
      rw [Expr.eval]
      apply Run.Keeps.bind (object.keeps_eval he.1 hs)
      intro v s₁ hkeeps hscope hv
      have hs₁ := hs.keeps hkeeps hscope
      apply Run.Keeps.bind (keeps_evalBound start he.2.1 hs₁)
      intro first s₂ hkeeps' hscope' _
      have hs₂ := hs₁.keeps hkeeps' hscope'
      apply Run.Keeps.bind (keeps_evalBound stop he.2.2 hs₂)
      intro last s₃ hkeeps'' _ _
      exact Run.keeps_effect (Subscript.keeps_slice (hkeeps'' v (hkeeps' v hv)) first last)
  | .call function args keywords =>
      rw [Expr.names, modest_append, modest_append] at he
      rw [Expr.eval]
      apply Run.Keeps.bind (function.keeps_eval he.1 hs)
      intro callee s₁ hkeeps hscope hcallee
      have hs₁ := hs.keeps hkeeps hscope
      apply Run.Keeps.bind (keeps_evalAll args he.2.1 hs₁)
      intro positional s₂ hkeeps' hscope' hpositional
      have hs₂ := hs₁.keeps hkeeps' hscope'
      apply Run.Keeps.bind (keeps_evalKeywords keywords he.2.2 hs₂)
      intro named s₃ hkeeps'' hscope'' hnamed
      have hargs : Arguments.Safe s₃.heap ⟨positional, named⟩ :=
        ⟨fun v hv => hkeeps'' v (hpositional v hv), hnamed⟩
      exact Value.keeps_call host (hs₂.keeps hkeeps'' hscope'')
        (hkeeps'' callee (hkeeps' callee hcallee)) hargs
  | .unary op operand =>
      rw [Expr.names] at he
      rw [Expr.eval]
      apply Run.Keeps.bind (operand.keeps_eval he hs)
      intro v s₁ _ _ _
      exact Run.keeps_effect (Effect.keeps_ofExcept fun r hr =>
        Heap.safe_plain (Operator.isPlain_unary hr))
  | .binary op lhs rhs =>
      rw [Expr.names, modest_append] at he
      rw [Expr.eval]
      apply Run.Keeps.bind (lhs.keeps_eval he.1 hs)
      intro a s₁ hkeeps hscope ha
      apply Run.Keeps.bind (rhs.keeps_eval he.2 (hs.keeps hkeeps hscope))
      intro b s₂ hkeeps' _ hb
      exact Run.keeps_effect (Operator.keeps_binary op (hkeeps' a ha) hb)
  | .compare op lhs rhs =>
      rw [Expr.names, modest_append] at he
      rw [Expr.eval]
      apply Run.Keeps.bind (lhs.keeps_eval he.1 hs)
      intro a s₁ hkeeps hscope _
      apply Run.Keeps.bind (rhs.keeps_eval he.2 (hs.keeps hkeeps hscope))
      intro b s₂ _ _ _
      apply Run.Keeps.bind (P := fun _ _ => True)
      · exact Run.keeps_effect (Effect.keeps_checking fun _ _ => trivial)
      · intro holds s₃ _ _ _
        exact Run.keeps_pure (Heap.safe_plain rfl)
  | .and lhs rhs =>
      rw [Expr.names, modest_append] at he
      rw [Expr.eval]
      apply Run.Keeps.bind (lhs.keeps_eval he.1 hs)
      intro a s₁ hkeeps hscope ha
      apply Run.Keeps.bind (Run.keeps_reading (P := fun h _ => h.Safe a) ha)
      intro truthy s₂ hkeeps' hscope' ha
      split
      · exact rhs.keeps_eval he.2 ((hs.keeps hkeeps hscope).keeps hkeeps' hscope')
      · exact Run.keeps_pure ha
  | .or lhs rhs =>
      rw [Expr.names, modest_append] at he
      rw [Expr.eval]
      apply Run.Keeps.bind (lhs.keeps_eval he.1 hs)
      intro a s₁ hkeeps hscope ha
      apply Run.Keeps.bind (Run.keeps_reading (P := fun h _ => h.Safe a) ha)
      intro truthy s₂ hkeeps' hscope' ha
      split
      · exact Run.keeps_pure ha
      · exact rhs.keeps_eval he.2 ((hs.keeps hkeeps hscope).keeps hkeeps' hscope')
  | .not operand =>
      rw [Expr.names] at he
      rw [Expr.eval]
      apply Run.Keeps.bind (operand.keeps_eval he hs)
      intro a s₁ _ _ _
      apply Run.Keeps.bind (Run.keeps_reading (P := fun _ _ => True) trivial)
      intro truthy s₂ _ _ _
      exact Run.keeps_pure (Heap.safe_plain rfl)
  | .conditional condition thenValue elseValue =>
      rw [Expr.names, modest_append, modest_append] at he
      rw [Expr.eval]
      apply Run.Keeps.bind (condition.keeps_eval he.1 hs)
      intro a s₁ hkeeps hscope _
      apply Run.Keeps.bind (Run.keeps_reading (P := fun _ _ => True) trivial)
      intro truthy s₂ hkeeps' hscope' _
      have hs₂ := (hs.keeps hkeeps hscope).keeps hkeeps' hscope'
      split
      · exact thenValue.keeps_eval he.2.1 hs₂
      · exact elseValue.keeps_eval he.2.2 hs₂

theorem keeps_evalAll (es : List Expr) (hes : Modest (namesAll es)) {s : State ω}
    (hs : Guarded s) : (evalAll host es).Keeps s fun h values => ∀ v ∈ values, h.Safe v := by
  match es with
  | [] =>
      rw [evalAll]
      apply Run.keeps_pure
      intro v hv
      cases hv
  | e :: es =>
      rw [namesAll, modest_append] at hes
      rw [evalAll]
      apply Run.Keeps.bind (e.keeps_eval hes.1 hs)
      intro first s₁ hkeeps hscope hfirst
      apply Run.Keeps.bind (keeps_evalAll es hes.2 (hs.keeps hkeeps hscope))
      intro others s₂ hkeeps' _ hothers
      apply Run.keeps_pure
      intro v hv
      rcases List.mem_cons.mp hv with rfl | hv
      · exact hkeeps' v hfirst
      · exact hothers v hv

theorem keeps_evalEntries (entries : List (Expr × Expr)) (hentries : Modest (namesEntries entries))
    {known : Entries Value} {s : State ω} (hs : Guarded s)
    (hknown : ∀ entry ∈ known, s.heap.Safe entry.2) :
    (evalEntries host known entries).Keeps s fun h found => ∀ entry ∈ found, h.Safe entry.2 := by
  match entries with
  | [] =>
      rw [evalEntries]
      exact Run.keeps_pure hknown
  | (key, value) :: entries =>
      rw [namesEntries, modest_append, modest_append] at hentries
      rw [evalEntries]
      apply Run.Keeps.bind (key.keeps_eval hentries.1 hs)
      intro k s₁ hkeeps hscope _
      have hs₁ := hs.keeps hkeeps hscope
      apply Run.Keeps.bind (P := fun _ _ => True)
      · exact Run.keeps_effect (Effect.keeps_ofExcept fun _ _ => trivial)
      · intro name s₂ hkeeps' hscope' _
        have hs₂ := hs₁.keeps hkeeps' hscope'
        apply Run.Keeps.bind (value.keeps_eval hentries.2.1 hs₂)
        intro v s₃ hkeeps'' hscope'' hv
        apply keeps_evalEntries entries hentries.2.2 (hs₂.keeps hkeeps'' hscope'')
        intro entry hentry
        rcases Subscript.mem_of_put hentry with hentry | hentry
        · exact hkeeps'' _ (hkeeps' _ (hkeeps _ (hknown entry hentry)))
        · rw [hentry]
          exact hv

theorem keeps_evalKeywords (keywords : List (Text × Expr))
    (hkeywords : Modest (namesKeywords keywords)) {s : State ω} (hs : Guarded s) :
    (evalKeywords host keywords).Keeps s fun h found => ∀ entry ∈ found, h.Safe entry.2 := by
  match keywords with
  | [] =>
      rw [evalKeywords]
      apply Run.keeps_pure
      intro entry hentry
      cases hentry
  | (name, value) :: keywords =>
      rw [namesKeywords, modest_append] at hkeywords
      rw [evalKeywords]
      apply Run.Keeps.bind (value.keeps_eval hkeywords.1 hs)
      intro v s₁ hkeeps hscope hv
      apply Run.Keeps.bind (keeps_evalKeywords keywords hkeywords.2 (hs.keeps hkeeps hscope))
      intro others s₂ hkeeps' _ hothers
      apply Run.keeps_pure
      intro entry hentry
      rcases List.mem_cons.mp hentry with rfl | hentry
      · exact hkeeps' v hv
      · exact hothers entry hentry

theorem keeps_evalBound (bound : Option Expr) (hbound : Modest (namesBound bound))
    {s : State ω} (hs : Guarded s) : (evalBound host bound).Keeps s fun _ _ => True := by
  match bound with
  | none =>
      rw [evalBound]
      exact Run.keeps_pure trivial
  | some e =>
      rw [namesBound] at hbound
      rw [evalBound]
      apply Run.Keeps.bind (e.keeps_eval hbound hs)
      intro v s₁ _ _ _
      exact Run.keeps_pure trivial

end

end Evaluation

end TemplateEngine
