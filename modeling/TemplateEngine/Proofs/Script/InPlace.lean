import TemplateEngine.Proofs.Script.Arithmetic
import TemplateEngine.Proofs.Script.AugmentedAssignment
import TemplateEngine.Proofs.Script.Containers

/-!
# Changes step by step

Methods of lists and dicts, assignments of items and assignments that unpack change what
others may share. Each of them is written out here once more, step by step, with every write
where it stands and never taken back. The two come to the same, since all that can fail
comes before the first write. So what fails has changed nothing.
-/
namespace TemplateEngine

/-- A change, with its operands evaluated. -/
inductive Mutation where
  | onList (identity : Nat) (method : ListMethod) (place : Nat) (args : Arguments)
  | onDict (identity : Nat) (method : DictMethod) (place : Nat) (args : Arguments)
  | item (object key value : Value)
  | unpack (names : List Text) (value : Value)

variable {ω : Type}

/-- What a change does: a call of a bound method, or what an assignment does. -/
def Mutation.run (host : Host ω) : Mutation → Run ω Value
  | .onList identity method place args =>
    (Value.function (.method identity (.list method place))).call host args
  | .onDict identity method place args =>
    (Value.function (.method identity (.dict method place))).call host args
  | .item object key value => do
    Run.effect (Subscript.set object key value)
    return .none
  | .unpack names value => do
    Run.bind host (.unpack names) value
    return .none

/-! ## Step by step -/

namespace InPlace

/-- Puts an item at the end of a list. -/
def push (place : Nat) (item : Value) : Run ω Unit := do
  let items ← Run.reading (·.list place)
  Run.effect (Effect.setList place (items ++ [item]))

/-- Puts items at the end of a list, one by one. -/
def pushAll (place : Nat) : List Value → Run ω Unit
  | [] => pure ()
  | item :: items => do
    push place item
    pushAll place items

/-- Assigns names, one by one. -/
def assignAll : List (Text × Value) → Run ω Unit
  | [] => pure ()
  | (name, v) :: rest => do
    Run.assign name v
    assignAll rest

/-- Calls a method of a list. -/
def onList (method : ListMethod) (place : Nat) (args : Arguments) : Run ω Value :=
  match method with
  | .append => do
    let item ← Run.effect (Effect.ofExcept (args.single "append"))
    push place item
    return .none
  | .extend => do
    let source ← Run.effect (Effect.ofExcept (args.single "extend"))
    let more ← Run.effect (Effect.checking fun h => h.iterate source)
    pushAll place more
    return .none
  | .pop => do
    Run.effect (Effect.ofExcept (args.check "pop" 0 (some 1) []))
    let items ← Run.reading (·.list place)
    let popped ← Run.effect (Effect.ofExcept (ListMethod.popPlace items args))
    Run.effect (Effect.setList place (items.eraseIdx popped))
    return items[popped]?.getD .none
  | .index => do
    let v ← Run.effect (Effect.ofExcept (args.single "index"))
    let items ← Run.reading (·.list place)
    Run.effect (Effect.checking fun h => ListMethod.placeOf h items v)

/-- Calls a method of a dict. -/
def onDict (method : DictMethod) (place : Nat) (args : Arguments) : Run ω Value :=
  match method with
  | .get => do
    Run.effect (Effect.ofExcept (args.check "get" 1 (some 2) []))
    let name ← Run.effect (Effect.ofExcept (Subscript.key ((args.at? 0).getD .none)))
    let entries ← Run.reading (·.dict place)
    return (Entries.get? name entries).getD ((args.at? 1).getD .none)
  | .keys => do
    Run.effect (Effect.ofExcept (args.check "keys" 0 (some 0) []))
    let entries ← Run.reading (·.dict place)
    Run.effect (Effect.newList (entries.map fun entry => .str entry.1))
  | .values => do
    Run.effect (Effect.ofExcept (args.check "values" 0 (some 0) []))
    let entries ← Run.reading (·.dict place)
    Run.effect (Effect.newList (entries.map (·.2)))
  | .items => do
    Run.effect (Effect.ofExcept (args.check "items" 0 (some 0) []))
    let entries ← Run.reading (·.dict place)
    let pairs ← entries.mapM fun entry => Run.effect (Effect.newTuple [.str entry.1, entry.2])
    Run.effect (Effect.newList pairs)

/-- Puts a value where a subscript points. -/
def item (object key value : Value) : Run ω Value :=
  match object with
  | .list p => do
    let n ← Run.effect (Effect.ofExcept (Subscript.index object key))
    let items ← Run.reading (·.list p)
    match Subscript.place? n items.length with
    | some place => Run.effect (Effect.setList p (items.set place value))
    | none => Run.fail .assignmentOutOfRange
    return .none
  | .dict p => do
    let name ← Run.effect (Effect.ofExcept (Subscript.key key))
    let entries ← Run.reading (·.dict p)
    Run.effect (Effect.setDict p (Entries.put name value entries))
    return .none
  | other => Run.fail (.noItemAssignment other.typeName)

/-- Assigns the items of a value to names. -/
def unpack (names : List Text) (value : Value) : Run ω Value := do
  let items ← Run.effect (Effect.checking fun h => h.iterate value)
  if names.length < items.length then Run.fail (.tooManyValues names.length)
  else if items.length < names.length then
    Run.fail (.notEnoughValues names.length items.length)
  else
    assignAll (names.zip items)
    return .none

end InPlace

/-- A change step by step. -/
def Mutation.inPlace : Mutation → Run ω Value
  | .onList _ method place args => InPlace.onList method place args
  | .onDict _ method place args => InPlace.onDict method place args
  | .item object key value => InPlace.item object key value
  | .unpack names value => InPlace.unpack names value

namespace Effect

variable {α β : Type}

/-- An effect that leaves the heap as it is. -/
def Quiet (x : Effect α) : Prop := ∀ h a h', x h = .ok (a, h') → h' = h

/-- An effect that does not fail. -/
def Total (x : Effect α) : Prop := ∀ h, ∃ a h', x h = .ok (a, h')

theorem quiet_reading (f : Heap → α) : Quiet (reading f) := by
  rintro h a h' ⟨⟩
  rfl

theorem quiet_checking (f : Heap → Except Cause α) : Quiet (checking f) := by
  intro h a h' hrun
  unfold checking at hrun
  cases hf : f h with
  | error cause => rw [hf] at hrun; cases hrun
  | ok b => rw [hf] at hrun; cases hrun; rfl

theorem quiet_ofExcept (e : Except Cause α) : Quiet (ofExcept e) := by
  intro h a h' hrun
  cases e with
  | error cause => cases hrun
  | ok b => cases hrun; rfl

theorem total_newList (items : List Value) : Total (newList items) := fun _ => ⟨_, _, rfl⟩

theorem total_newTuple (items : List Value) : Total (newTuple items) := fun _ => ⟨_, _, rfl⟩

theorem total_pure (a : α) : Total (pure a : Effect α) := fun h => ⟨a, h, rfl⟩

theorem Total.bind {x : Effect α} {f : α → Effect β} (hx : x.Total) (hf : ∀ a, (f a).Total) :
    Total (x >>= f) := by
  intro h
  obtain ⟨a, h', hrun⟩ := hx h
  rw [bind_ok hrun]
  exact hf a h'

theorem Total.mapM {f : α → Effect β} (hf : ∀ a, (f a).Total) (items : List α) :
    Total (items.mapM f) := by
  induction items with
  | nil => exact total_pure []
  | cons item items ih =>
      rw [List.mapM_cons]
      exact (hf item).bind fun first => ih.bind fun others => total_pure _

/-- What is read is the same before and after an effect that leaves the heap as it is. -/
theorem reading_comm {γ : Type} {x : Effect α} (hx : x.Quiet) (f : Heap → β)
    (g : β → α → Effect γ) :
    (reading f >>= fun found => x >>= fun a => g found a) =
      x >>= fun a => reading f >>= fun found => g found a := by
  funext h
  have hread : reading f h = .ok (f h, h) := rfl
  rw [bind_ok hread]
  cases hrun : x h with
  | error cause => rw [bind_error hrun, bind_error hrun]
  | ok result =>
      obtain ⟨a, h'⟩ := result
      have hsame := hx h a h' hrun
      subst hsame
      rw [bind_ok hrun, bind_ok hrun]
      rfl

end Effect

namespace Run

variable {α β : Type}

/-- A failure takes nothing back that has been written, unless something is written before it. -/
theorem effect_bind {x : Effect α} {f : α → Effect β} (h : x.Quiet ∨ ∀ a, (f a).Total) :
    (effect (x >>= f) : Run ω β) = effect x >>= fun a => effect (f a) := by
  funext s
  show effect (x >>= f) s = EStateM.bind (effect x) (fun a => effect (f a)) s
  unfold EStateM.bind effect
  cases hx : x s.heap with
  | error cause => rw [Effect.bind_error hx]
  | ok result =>
      obtain ⟨a, h'⟩ := result
      rw [Effect.bind_ok hx]
      rcases h with hquiet | htotal
      · rw [hquiet _ _ _ hx]
      · obtain ⟨b, h'', hf⟩ := htotal a h'
        simp only [hf]

theorem effect_bind_reading (f : Heap → α) (g : α → Effect β) :
    (effect (Effect.reading f >>= g) : Run ω β) = reading f >>= fun a => effect (g a) :=
  effect_bind (.inl (Effect.quiet_reading f))

theorem effect_bind_checking (f : Heap → Except Cause α) (g : α → Effect β) :
    (effect (Effect.checking f >>= g) : Run ω β) =
      effect (Effect.checking f) >>= fun a => effect (g a) :=
  effect_bind (.inl (Effect.quiet_checking f))

theorem effect_bind_ofExcept (e : Except Cause α) (g : α → Effect β) :
    (effect (Effect.ofExcept e >>= g) : Run ω β) =
      effect (Effect.ofExcept e) >>= fun a => effect (g a) :=
  effect_bind (.inl (Effect.quiet_ofExcept e))

theorem effect_bind_pure (x : Effect α) (b : α → β) :
    (effect (x >>= fun a => pure (b a)) : Run ω β) = effect x >>= fun a => pure (b a) :=
  effect_bind (.inr fun a => Effect.total_pure (b a))

end Run

namespace Heap

variable (h : Heap) (p : Nat)

/-- The heap with other items for a list. -/
def withList (items : List Value) : Heap := { h with lists := h.lists.setIfInBounds p items }

/-- The heap with other entries for a dict. -/
def withDict (entries : Entries Value) : Heap :=
  { h with dicts := h.dicts.setIfInBounds p entries }

section Cells

variable {α : Type} (cells : Array (List α)) (items more : List α)

theorem setIfInBounds_getD : cells.setIfInBounds p (cells.getD p []) = cells := by
  apply Array.ext_getElem?
  intro q
  rw [Array.getElem?_setIfInBounds, Array.getD_eq_getD_getElem?]
  split
  · rename_i heq
    subst heq
    split
    · rename_i hlt
      rw [Array.getElem?_eq_getElem hlt]
      rfl
    · rename_i hlt
      exact (Array.getElem?_eq_none (by omega)).symm
  · rfl

theorem getD_setIfInBounds_self (hp : p < cells.size) :
    (cells.setIfInBounds p items).getD p [] = items := by
  rw [Array.getD_eq_getD_getElem?, Array.getElem?_setIfInBounds_self, if_pos hp]
  rfl

theorem getD_setIfInBounds_ne {q : Nat} (hq : p ≠ q) :
    (cells.setIfInBounds p items).getD q [] = cells.getD q [] := by
  rw [Array.getD_eq_getD_getElem?, Array.getElem?_setIfInBounds_ne hq,
    Array.getD_eq_getD_getElem?]

/-- What is appended piece by piece is appended. -/
theorem setIfInBounds_append :
    (cells.setIfInBounds p (cells.getD p [] ++ items)).setIfInBounds p
        ((cells.setIfInBounds p (cells.getD p [] ++ items)).getD p [] ++ more) =
      cells.setIfInBounds p (cells.getD p [] ++ (items ++ more)) := by
  by_cases hp : p < cells.size
  · rw [getD_setIfInBounds_self p cells _ hp, Array.setIfInBounds_setIfInBounds,
      List.append_assoc]
  · have hout (l : List α) : cells.setIfInBounds p l = cells :=
      Array.setIfInBounds_eq_of_size_le (by omega)
    rw [hout, hout, hout]

end Cells

end Heap

/-- The scope with names assigned, one after the other. -/
def Scope.assignAll (pairs : List (Text × Value)) (s : Scope) : Scope :=
  pairs.foldl (fun s pair => s.assign pair.1 pair.2) s

namespace InPlace

/-- Items put at the end one by one have been put there together. -/
theorem pushAll_eq (place : Nat) (items : List Value) (s : State ω) :
    pushAll place items s =
      .ok () { s with heap := s.heap.withList place (s.heap.list place ++ items) } := by
  induction items generalizing s with
  | nil =>
      have hsame : s.heap.withList place (s.heap.list place ++ []) = s.heap := by
        rw [List.append_nil]
        unfold Heap.withList Heap.list
        rw [Heap.setIfInBounds_getD]
      rw [hsame]
      rfl
  | cons item items ih =>
      have hpush : pushAll place (item :: items) s = pushAll place items
          { s with heap := s.heap.withList place (s.heap.list place ++ [item]) } := rfl
      rw [hpush, ih]
      have happend := Heap.setIfInBounds_append place s.heap.lists [item] items
      unfold Heap.withList Heap.list
      simp only [happend, List.cons_append, List.nil_append]

/-- Names assigned one by one have been assigned together. -/
theorem assignAll_eq (pairs : List (Text × Value)) :
    (assignAll pairs : Run ω Unit) = Run.change (Scope.assignAll pairs) := by
  induction pairs with
  | nil => rfl
  | cons pair pairs ih =>
      rw [assignAll, ih]
      rfl

theorem effect_mapM {α β : Type} {f : α → Effect β} (hf : ∀ a, (f a).Total) (items : List α) :
    (Run.effect (items.mapM f) : Run ω (List β)) = items.mapM fun a => Run.effect (f a) := by
  induction items with
  | nil => rfl
  | cons item items ih =>
      rw [List.mapM_cons, List.mapM_cons, Run.effect_bind (.inr fun first =>
        (Effect.Total.mapM hf items).bind fun others => Effect.total_pure (first :: others))]
      apply bind_congr
      intro first
      rw [Run.effect_bind_pure, ih]

/-- Every check of a method of a list comes before the first write. -/
theorem onList_eq (method : ListMethod) (place : Nat) (args : Arguments) :
    (Run.effect (method.call place args) : Run ω Value) = onList method place args := by
  unfold ListMethod.call onList
  cases method with
  | append =>
      dsimp only
      rw [Effect.reading_comm (Effect.quiet_ofExcept _), Run.effect_bind_ofExcept]
      apply bind_congr
      intro item
      rw [Run.effect_bind_reading, push, bind_assoc]
      apply bind_congr
      intro items
      exact Run.effect_bind_pure _ _
  | extend =>
      -- all that is to be added is read before the first of it is put at the end
      dsimp only
      rw [Effect.reading_comm (Effect.quiet_ofExcept _), Run.effect_bind_ofExcept]
      apply bind_congr
      intro source
      rw [Effect.reading_comm (Effect.quiet_checking _), Run.effect_bind_checking]
      apply bind_congr
      intro more
      funext s
      show _ = EStateM.bind (pushAll place more) _ s
      unfold EStateM.bind
      rw [pushAll_eq]
      rfl
  | pop =>
      dsimp only
      rw [Effect.reading_comm (Effect.quiet_ofExcept _), Run.effect_bind_ofExcept]
      apply bind_congr
      intro _
      rw [Run.effect_bind_reading]
      apply bind_congr
      intro items
      rw [Run.effect_bind_ofExcept]
      apply bind_congr
      intro popped
      exact Run.effect_bind_pure _ _
  | index =>
      dsimp only
      rw [Effect.reading_comm (Effect.quiet_ofExcept _), Run.effect_bind_ofExcept]
      apply bind_congr
      intro v
      rw [Run.effect_bind_reading]

theorem onDict_eq (method : DictMethod) (place : Nat) (args : Arguments) :
    (Run.effect (method.call place args) : Run ω Value) = onDict method place args := by
  unfold DictMethod.call onDict
  cases method with
  | get =>
      dsimp only
      rw [Effect.reading_comm (Effect.quiet_ofExcept _), Run.effect_bind_ofExcept]
      apply bind_congr
      intro _
      rw [Effect.reading_comm (Effect.quiet_ofExcept _), Run.effect_bind_ofExcept]
      apply bind_congr
      intro name
      exact Run.effect_bind_reading _ _
  | keys =>
      dsimp only
      rw [Effect.reading_comm (Effect.quiet_ofExcept _), Run.effect_bind_ofExcept]
      apply bind_congr
      intro _
      exact Run.effect_bind_reading _ _
  | values =>
      dsimp only
      rw [Effect.reading_comm (Effect.quiet_ofExcept _), Run.effect_bind_ofExcept]
      apply bind_congr
      intro _
      exact Run.effect_bind_reading _ _
  | items =>
      dsimp only
      rw [Effect.reading_comm (Effect.quiet_ofExcept _), Run.effect_bind_ofExcept]
      apply bind_congr
      intro _
      rw [Run.effect_bind_reading]
      apply bind_congr
      intro entries
      rw [Run.effect_bind (.inr Effect.total_newList),
        effect_mapM fun entry => Effect.total_newTuple _]

theorem item_eq (object key value : Value) :
    (do
      Run.effect (Subscript.set object key value)
      return .none) = (item object key value : Run ω Value) := by
  unfold Subscript.set item
  cases object with
  | list p =>
      dsimp only
      rw [Run.effect_bind_ofExcept, bind_assoc]
      apply bind_congr
      intro n
      rw [Run.effect_bind_reading, bind_assoc]
      apply bind_congr
      intro items
      cases Subscript.place? n items.length with
      | some place => rfl
      | none => rfl
  | dict p =>
      dsimp only
      rw [Run.effect_bind_ofExcept, bind_assoc]
      apply bind_congr
      intro name
      rw [Run.effect_bind_reading, bind_assoc]
  | _ => rfl

theorem unpack_eq (names : List Text) (value : Value) :
    (do
      Run.unpack names value
      return .none) = (unpack names value : Run ω Value) := by
  unfold Run.unpack unpack
  rw [bind_assoc]
  apply bind_congr
  intro items
  -- the items are counted before the first name is assigned
  rw [assignAll_eq]
  split
  · rfl
  · split
    · rfl
    · rfl

end InPlace

/-- A change does what it does step by step. -/
theorem Mutation.run_eq_inPlace (host : Host ω) (m : Mutation) : m.run host = m.inPlace := by
  cases m with
  | onList identity method place args => exact InPlace.onList_eq method place args
  | onDict identity method place args => exact InPlace.onDict_eq method place args
  | item object key value => exact InPlace.item_eq object key value
  | unpack names value => exact InPlace.unpack_eq names value

/-! ## Failures -/

theorem Run.effect_error {α : Type} {x : Effect α} {s s' : State ω} {stop : Stop}
    (hrun : Run.effect x s = .error stop s') : s' = s := by
  unfold Run.effect at hrun
  split at hrun
  · cases hrun
  · cases hrun
    rfl

/-- What an assignment that unpacks comes to. -/
theorem Run.unpack_cases (names : List Text) (value : Value) (s : State ω) :
    (∃ cause, Run.unpack names value s = .error (.raised ⟨cause, 0⟩) s) ∨
      ∃ items, s.heap.iterate value = .ok items ∧ items.length = names.length ∧
        Run.unpack names value s =
          .ok () { s with scope := s.scope.assignAll (names.zip items) } := by
  unfold Run.unpack
  cases hiterate : s.heap.iterate value with
  | error cause =>
      have hfailed : Run.effect (Effect.checking fun h => h.iterate value) s =
          .error (.raised ⟨cause, 0⟩) s := by
        unfold Run.effect Effect.checking
        simp only [hiterate, Except.map]
      exact .inl ⟨cause, Run.bind_error _ hfailed⟩
  | ok items =>
      rw [Run.bind_ok (Run.checking_ok.mpr ⟨hiterate, rfl⟩)]
      split
      · exact .inl ⟨_, rfl⟩
      · split
        · exact .inl ⟨_, rfl⟩
        · exact .inr ⟨items, rfl, by omega, rfl⟩

/-- What fails has changed nothing. -/
theorem Mutation.run_error {host : Host ω} {m : Mutation} {s s' : State ω} {stop : Stop}
    (hrun : m.run host s = .error stop s') : s' = s := by
  cases m with
  | onList identity method place args => exact Run.effect_error hrun
  | onDict identity method place args => exact Run.effect_error hrun
  | item object key value =>
      cases hset : (Run.effect (Subscript.set object key value) : Run ω Unit) s with
      | ok u s₁ =>
          have hdone : run host (item object key value) s = .ok .none s₁ := Run.bind_ok hset
          rw [hdone] at hrun
          cases hrun
      | error stop' s₁ =>
          have hfailed : run host (item object key value) s = .error stop' s₁ :=
            Run.bind_error _ hset
          rw [hfailed] at hrun
          cases hrun
          exact Run.effect_error hset
  | unpack names value =>
      rcases Run.unpack_cases names value s with ⟨cause, hset⟩ | ⟨items, -, -, hset⟩
      · have hfailed : run host (unpack names value) s = .error (.raised ⟨cause, 0⟩) s :=
          Run.bind_error _ hset
        rw [hfailed] at hrun
        cases hrun
        rfl
      · have hdone : run host (unpack names value) s =
            .ok .none { s with scope := s.scope.assignAll (names.zip items) } := Run.bind_ok hset
        rw [hdone] at hrun
        cases hrun

end TemplateEngine
