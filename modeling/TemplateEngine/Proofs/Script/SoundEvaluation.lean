import TemplateEngine.Proofs.Script.ClosedEffects
import TemplateEngine.Render.Renderer

/-!
# What evaluation keeps and raises

Expressions are put together from sound effects and from what a host answers. So they
keep what effects keep, however they end, and raise nothing that an augmented assignment
to an illegal target raises, as long as the host does.
-/
namespace TemplateEngine

/-- An exception that is not that of an augmented assignment to an illegal target. -/
def Raised.Proper (r : Raised) : Prop := r.cause ≠ .illegalAugmentedTarget

/-- An end that is not the exception of an augmented assignment to an illegal target. -/
def Stop.Proper (stop : Stop) : Prop := ∀ r, stop = .raised r → r.Proper

/-- A host that raises nothing that an augmented assignment to an illegal target raises. -/
def Host.Proper {ω : Type} (host : Host ω) : Prop :=
  ∀ request vars shared stop shared', host request vars shared = .error stop shared' → stop.Proper

/-- A host that keeps a property of heaps, however it ends. -/
def Host.Keeps {ω : Type} (K : Heap → Prop) (host : Host ω) : Prop :=
  ∀ request vars shared, K shared.heap → match host request vars shared with
    | .ok _ shared' | .error _ shared' => K shared'.heap

/-- A host that keeps a property of heaps and raises properly. -/
structure Host.Sound {ω : Type} (K : Heap → Prop) (host : Host ω) : Prop where
  keeps : host.Keeps K
  proper : host.Proper

theorem Host.Proper.sound {ω : Type} {host : Host ω} (hhost : host.Proper) :
    host.Sound fun _ => True where
  keeps request vars shared _ := by split <;> trivial
  proper := hhost

namespace Run

variable {ω α β : Type} {K : Heap → Prop} {P Q : α → Prop}

/-- A computation that keeps a property of heaps however it ends, whose results have a
property and which raises properly. -/
structure Yields (K : Heap → Prop) (x : Run ω α) (Q : α → Prop) : Prop where
  ok : ∀ {s s' a}, x s = .ok a s' → (K s.heap → K s'.heap) ∧ Q a
  error : ∀ {s s' stop}, x s = .error stop s' → (K s.heap → K s'.heap) ∧ stop.Proper

/-- A computation that keeps a property of heaps and raises properly. -/
abbrev Sound (K : Heap → Prop) (x : Run ω α) : Prop := x.Yields K fun _ => True

theorem Yields.bind {x : Run ω α} {f : α → Run ω β} {R : β → Prop} (hx : x.Yields K Q)
    (hf : ∀ a, Q a → (f a).Yields K R) : Yields K (x >>= f) R where
  ok := by
    intro s s'' b hrun
    have hrun : EStateM.bind x f s = .ok b s'' := hrun
    unfold EStateM.bind at hrun
    split at hrun
    · rename_i a s' hfirst
      obtain ⟨hkeeps, ha⟩ := hx.ok hfirst
      obtain ⟨hkeeps', hb⟩ := (hf a ha).ok hrun
      exact ⟨fun hs => hkeeps' (hkeeps hs), hb⟩
    · cases hrun
  error := by
    intro s s'' stop hrun
    have hrun : EStateM.bind x f s = .error stop s'' := hrun
    unfold EStateM.bind at hrun
    split at hrun
    · rename_i a s' hfirst
      obtain ⟨hkeeps, ha⟩ := hx.ok hfirst
      obtain ⟨hkeeps', hstop⟩ := (hf a ha).error hrun
      exact ⟨fun hs => hkeeps' (hkeeps hs), hstop⟩
    · rename_i hfirst
      cases hrun
      exact hx.error hfirst

theorem Yields.weaken {x : Run ω α} (hx : x.Yields K P) (hPQ : ∀ a, P a → Q a) :
    x.Yields K Q where
  ok hrun := (hx.ok hrun).imp_right (hPQ _)
  error := hx.error

theorem Yields.sound {x : Run ω α} (hx : x.Yields K Q) : x.Sound K :=
  hx.weaken fun _ _ => trivial

theorem Sound.bind {x : Run ω α} {f : α → Run ω β} {R : β → Prop} (hx : x.Sound K)
    (hf : ∀ a, (f a).Yields K R) : Yields K (x >>= f) R :=
  Yields.bind hx fun a _ => hf a

/-- A computation that always has a result and leaves the heap alone. -/
theorem yields_of_ok {x : Run ω α} (hx : ∀ s, ∃ a s', x s = .ok a s' ∧ s'.heap = s.heap ∧ Q a) :
    x.Yields K Q where
  ok := by
    intro s s' a hrun
    obtain ⟨b, s'', hok, hheap, hb⟩ := hx s
    rw [hok] at hrun
    cases hrun
    exact ⟨fun hs => hheap ▸ hs, hb⟩
  error := by
    intro s s' stop hrun
    obtain ⟨b, s'', hok, -⟩ := hx s
    rw [hok] at hrun
    cases hrun

theorem yields_pure {a : α} (ha : Q a) : Yields K (pure a : Run ω α) Q :=
  yields_of_ok fun s => ⟨a, s, rfl, rfl, ha⟩

theorem yields_throw {stop : Stop} (hstop : stop.Proper) : Yields K (throw stop : Run ω α) Q where
  ok := by
    intro s s' a hrun
    cases hrun
  error := by
    intro s s' stop' hrun
    cases hrun
    exact ⟨id, hstop⟩

theorem proper_raised {r : Raised} (hr : r.Proper) : Stop.Proper (.raised r) := by
  rintro r' ⟨⟩
  exact hr

theorem yields_fail {cause : Cause} (hcause : cause ≠ .illegalAugmentedTarget) :
    Yields K (fail cause : Run ω α) Q :=
  yields_throw (proper_raised hcause)

theorem sound_pure (a : α) : Sound K (pure a : Run ω α) := yields_pure trivial

theorem sound_effect {x : Effect α} (hx : x.Sound K) : Sound K (effect x : Run ω α) where
  ok := by
    intro s s' a hrun
    unfold effect at hrun
    split at hrun
    · rename_i hresult
      cases hrun
      exact ⟨fun hs => hx.keeps hs hresult, trivial⟩
    · cases hrun
  error := by
    intro s s' stop hrun
    unfold effect at hrun
    split at hrun
    · cases hrun
    · rename_i hresult
      cases hrun
      refine ⟨id, proper_raised ?_⟩
      have hproper := hx.proper s.heap
      rw [hresult] at hproper
      exact Proper.error_iff.mp hproper

theorem sound_reading (f : Heap → α) : Sound K (reading f : Run ω α) :=
  yields_of_ok fun s => ⟨f s.heap, s, rfl, rfl, trivial⟩

theorem sound_ofScope (f : Scope → α) : Sound K (ofScope f : Run ω α) :=
  yields_of_ok fun s => ⟨f s.scope, s, rfl, rfl, trivial⟩

theorem sound_change (f : Scope → Scope) : Sound K (change f : Run ω Unit) :=
  yields_of_ok fun _ => ⟨(), _, rfl, rfl, trivial⟩

theorem sound_takeSince (mark : Nat) : Sound K (takeSince mark : Run ω Text) :=
  yields_of_ok fun _ => ⟨_, _, rfl, rfl, trivial⟩

theorem sound_request {host : Host ω} (hhost : host.Sound K) (request : Request)
    (vars : Entries Value) : Sound K (Run.request host request vars) where
  ok := by
    intro s s' t hrun
    have hkeeps := hhost.keeps request vars s.toShared
    unfold Run.request at hrun
    split at hrun
    · rename_i hresult
      cases hrun
      rw [hresult] at hkeeps
      exact ⟨hkeeps, trivial⟩
    · cases hrun
  error := by
    intro s s' stop hrun
    have hkeeps := hhost.keeps request vars s.toShared
    unfold Run.request at hrun
    split at hrun
    · cases hrun
    · rename_i hresult
      cases hrun
      rw [hresult] at hkeeps
      exact ⟨hkeeps, hhost.proper _ _ _ _ _ hresult⟩

variable [Heap.Steady K]

theorem sound_single (args : Arguments) (function : Text) :
    Sound K (effect (Effect.ofExcept (args.single function)) : Run ω Value) :=
  sound_effect (Effect.closed_sound.single args function)

theorem sound_check (args : Arguments) (function : Text) (least : Nat) (most : Option Nat)
    (names : List Text) : Sound K
      (effect (Effect.ofExcept (args.check function least most names)) : Run ω Unit) :=
  sound_effect (Effect.closed_sound.check args function least most names)

theorem sound_textArgument (function : Text) (v : Value) : Sound K
    (effect (Effect.ofExcept (textArgument function v)) : Run ω Text) :=
  sound_effect (Effect.closed_sound.ofExcept (proper_textArgument function v))

theorem sound_lookup? (name : Text) : Sound K (lookup? name : Run ω (Option Value)) where
  ok {s _ _} hrun := (sound_effect (Effect.closed_sound.lookup s.scope name)).ok hrun
  error {s _ _} hrun := (sound_effect (Effect.closed_sound.lookup s.scope name)).error hrun

theorem sound_lookup (name : Text) : Sound K (lookup name : Run ω Value) := by
  apply (sound_lookup? name).bind
  intro found
  split
  · exact sound_pure _
  · exact yields_fail (by nofun)

end Run

section Calls

open Run

variable {ω : Type} {K : Heap → Prop} [Heap.Steady K] {host : Host ω}

theorem Helper.sound_call (f : Helper) (args : Arguments) :
    Run.Sound K (f.call args : Run ω Value) := by
  unfold Helper.call
  apply (sound_single args _).bind
  intro v
  apply (sound_reading _).bind
  intro text
  split
  · exact (sound_change _).bind fun _ => sound_pure _
  · exact (sound_change _).bind fun _ => sound_pure _
  · split
    · exact sound_pure _
    · exact yields_fail (by nofun)
  · apply (sound_lookup? text).bind
    intro found
    split
    · exact sound_pure _
    · exact yields_fail (by nofun)
  · exact sound_pure _

theorem Inclusion.sound_call (hhost : host.Sound K) (f : Inclusion) (args : Arguments) :
    Run.Sound K (f.call host args) := by
  unfold Inclusion.call
  dsimp only
  split
  · apply (sound_check args _ _ _ _).bind
    intro _
    apply (sound_textArgument _ _).bind
    intro name
    apply Run.Sound.bind
    · apply (sound_takeSince 0).bind
      intro body
      exact (sound_ofScope _).bind fun visible => sound_request hhost _ _
    · intro output
      exact sound_pure _
  · apply (sound_check args _ _ _ _).bind
    intro _
    apply (sound_textArgument _ _).bind
    intro text
    apply (sound_effect (Effect.sound_checking fun h => proper_vars h _ args)).bind
    intro given
    exact (sound_request hhost _ _).bind fun output => sound_pure _

theorem Function.sound_call (hhost : host.Sound K) (f : Function) (args : Arguments) :
    Run.Sound K (f.call host args) := by
  cases f with
  | builtin f => exact sound_effect (Effect.closed_sound.builtin f args)
  | helper f => exact f.sound_call args
  | inclusion f => exact f.sound_call hhost args
  | filter identity =>
      apply (sound_single args _).bind
      intro v
      exact (sound_reading _).bind fun text => sound_ofScope _
  | method identity m => exact sound_effect (Effect.closed_sound.method m args)

theorem ExceptionKind.sound_call (kind : ExceptionKind) (args : Arguments) :
    Run.Sound K (kind.call args : Run ω Value) := by
  apply (sound_check args _ _ _ _).bind
  intro _
  apply (sound_reading _).bind
  intro message
  exact (sound_effect Effect.closed_sound.newIdentity).bind fun identity => sound_pure _

theorem Value.sound_call (hhost : host.Sound K) (callee : Value) (args : Arguments) :
    Run.Sound K (callee.call host args) := by
  cases callee with
  | function f => exact f.sound_call hhost args
  | exceptionClass kind => exact kind.sound_call args
  | _ => exact yields_fail (by nofun)

end Calls

section Evaluation

open Run

variable {ω : Type} {K : Heap → Prop} {host : Host ω}

mutual

/-- The value of an expression is found without breaking anything that effects keep. -/
theorem Expr.sound_eval [Heap.Steady K] (hhost : host.Sound K) (e : Expr) :
    Run.Sound K (e.eval host) := by
  match e with
  | .constant c =>
      rw [Expr.eval]
      exact sound_pure _
  | .name name =>
      rw [Expr.eval]
      exact sound_lookup name
  | .list items =>
      rw [Expr.eval]
      exact (sound_evalAll hhost items).bind fun values =>
        sound_effect (Effect.closed_sound.newList values)
  | .tuple items =>
      rw [Expr.eval]
      exact (sound_evalAll hhost items).bind fun values =>
        sound_effect (Effect.closed_sound.newTuple values)
  | .dict entries =>
      rw [Expr.eval]
      have hnone : (Entries.names ([] : Entries Value)).Nodup := List.nodup_nil
      exact (yields_evalEntries hhost hnone entries).bind fun values hvalues =>
        sound_effect (Effect.closed_sound.newDict hvalues)
  | .attribute object name =>
      rw [Expr.eval]
      exact (object.sound_eval hhost).bind fun v =>
        sound_effect (Effect.closed_sound.readAttribute v name)
  | .index object key =>
      rw [Expr.eval]
      exact (object.sound_eval hhost).bind fun v => (key.sound_eval hhost).bind fun k =>
        sound_effect (Effect.sound_checking fun h => Subscript.proper_get h v k)
  | .slice object start stop =>
      rw [Expr.eval]
      exact (object.sound_eval hhost).bind fun v => (sound_evalBound hhost start).bind fun first =>
        (sound_evalBound hhost stop).bind fun last =>
          sound_effect (Effect.closed_sound.slice v first last)
  | .call function args keywords =>
      rw [Expr.eval]
      exact (function.sound_eval hhost).bind fun callee =>
        (sound_evalAll hhost args).bind fun positional =>
          (sound_evalKeywords hhost keywords).bind fun named => callee.sound_call hhost _
  | .unary op operand =>
      rw [Expr.eval]
      exact (operand.sound_eval hhost).bind fun v =>
        sound_effect (Effect.closed_sound.ofExcept (Operator.proper_unary op v))
  | .binary op lhs rhs =>
      rw [Expr.eval]
      exact (lhs.sound_eval hhost).bind fun a => (rhs.sound_eval hhost).bind fun b =>
        sound_effect (Effect.closed_sound.binary op a b)
  | .compare op lhs rhs =>
      rw [Expr.eval]
      exact (lhs.sound_eval hhost).bind fun a => (rhs.sound_eval hhost).bind fun b =>
        (sound_effect (Effect.sound_checking fun h => Operator.proper_compare h op a b)).bind
          fun holds => sound_pure _
  | .and lhs rhs =>
      rw [Expr.eval]
      apply (lhs.sound_eval hhost).bind
      intro a
      apply (sound_reading _).bind
      intro truthy
      split
      · exact rhs.sound_eval hhost
      · exact sound_pure _
  | .or lhs rhs =>
      rw [Expr.eval]
      apply (lhs.sound_eval hhost).bind
      intro a
      apply (sound_reading _).bind
      intro truthy
      split
      · exact sound_pure _
      · exact rhs.sound_eval hhost
  | .not operand =>
      rw [Expr.eval]
      exact (operand.sound_eval hhost).bind fun a => (sound_reading _).bind fun truthy =>
        sound_pure _
  | .conditional condition thenValue elseValue =>
      rw [Expr.eval]
      apply (condition.sound_eval hhost).bind
      intro a
      apply (sound_reading _).bind
      intro truthy
      split
      · exact thenValue.sound_eval hhost
      · exact elseValue.sound_eval hhost

theorem sound_evalAll [Heap.Steady K] (hhost : host.Sound K) (es : List Expr) :
    Run.Sound K (evalAll host es) := by
  match es with
  | [] =>
      rw [evalAll]
      exact sound_pure _
  | e :: es =>
      rw [evalAll]
      exact (e.sound_eval hhost).bind fun v => (sound_evalAll hhost es).bind fun others =>
        sound_pure _

/-- The entries of a dict have distinct names, since each is put into those before it. -/
theorem yields_evalEntries [Heap.Steady K] (hhost : host.Sound K) {known : Entries Value}
    (hknown : known.names.Nodup) (entries : List (Expr × Expr)) :
    Run.Yields K (evalEntries host known entries) fun found => found.names.Nodup := by
  match entries with
  | [] =>
      rw [evalEntries]
      exact yields_pure hknown
  | (key, value) :: entries =>
      rw [evalEntries]
      exact (key.sound_eval hhost).bind fun k =>
        (sound_effect (Effect.closed_sound.ofExcept (Subscript.proper_key k))).bind fun name =>
          (value.sound_eval hhost).bind fun v =>
            yields_evalEntries hhost (Entries.nodup_put hknown name v) entries

theorem sound_evalKeywords [Heap.Steady K] (hhost : host.Sound K) (keywords : List (Text × Expr)) :
    Run.Sound K (evalKeywords host keywords) := by
  match keywords with
  | [] =>
      rw [evalKeywords]
      exact sound_pure _
  | (name, value) :: keywords =>
      rw [evalKeywords]
      exact (value.sound_eval hhost).bind fun v =>
        (sound_evalKeywords hhost keywords).bind fun others => sound_pure _

theorem sound_evalBound [Heap.Steady K] (hhost : host.Sound K) (bound : Option Expr) :
    Run.Sound K (evalBound host bound) := by
  match bound with
  | none =>
      rw [evalBound]
      exact sound_pure _
  | some e =>
      rw [evalBound]
      exact (e.sound_eval hhost).bind fun v => sound_pure _

end

end Evaluation

section Hosts

/-- A page without a renderer raises properly. -/
theorem Host.proper_absent {ω : Type} : (Host.absent : Host ω).Proper := by
  intro request vars shared stop shared' hrun r hr
  subst hr
  cases hrun
  nofun

theorem Renderer.proper_causeOf (error : TemplateError) :
    Renderer.causeOf error ≠ .illegalAugmentedTarget := by
  cases error <;> nofun

/-- Whatever goes wrong in another template, the page that asked for it gets an exception
of its own. -/
theorem Renderer.proper_hostTo (r : Renderer) (depth : Nat) : (r.hostTo depth).Proper := by
  intro request vars shared stop shared' hrun raised hraised
  subst hraised
  cases depth with
  | zero =>
      cases hrun
      nofun
  | succ depth =>
      unfold Renderer.hostTo at hrun
      split at hrun
      · cases hrun
      · rename_i error _ _
        cases hrun
        exact Renderer.proper_causeOf error
      · cases hrun

end Hosts

end TemplateEngine
