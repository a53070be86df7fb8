import TemplateEngine.Proofs.Script.Equality
import TemplateEngine.Proofs.Script.ProperResults
import TemplateEngine.Proofs.Script.Tame

/-!
# What operations are put together from

Operators, attributes and slices look at the heap and add containers to it; methods and
built-in functions also give a list other items, and an assignment puts one entry into
a dict. So a property of effects that all of these have is one of every operation.

One such property is to keep what single changes of the heap keep, such as that the names
in every dict are distinct, and to fail only as operations fail.
-/
namespace TemplateEngine

namespace Effect

/-- A property of effects that whatever looks at the heap or adds to it has. -/
structure Closed (P : ∀ α : Type, Effect α → Prop) : Prop where
  reading : ∀ {α : Type} (f : Heap → α), P α (reading f)
  checking : ∀ {α : Type} {f : Heap → Except Cause α}, (∀ h, Proper (f h)) → P α (checking f)
  bind : ∀ {α β : Type} {x : Effect α} {f : α → Effect β},
    P α x → (∀ a, P β (f a)) → P β (x >>= f)
  newList : ∀ items, P Value (newList items)
  newTuple : ∀ items, P Value (newTuple items)
  newDict : ∀ {entries : Entries Value}, entries.names.Nodup → P Value (newDict entries)
  newIdentity : P Nat newIdentity

/-- A property of effects that whatever reads or changes the heap has. -/
structure FullyClosed (P : ∀ α : Type, Effect α → Prop) : Prop extends Closed P where
  setList : ∀ place items, P Unit (setList place items)
  putEntry : ∀ place name v, P Unit do
    let entries ← Effect.reading fun h => h.dict place
    Effect.setDict place (Entries.put name v entries)
  /-- What does on every heap as something with the property does has it. -/
  same : ∀ {α : Type} {x : Effect α}, (∀ h, ∃ y, P α y ∧ x h = y h) → P α x

theorem map_eq_bind {α β : Type} (f : α → β) (x : Effect α) :
    StateT.map f x = x >>= fun a => pure (f a) := rfl

theorem map_checking {α β : Type} (f : Heap → Except Cause α) (g : α → β) (h : Heap) :
    ((f h).map fun a => (g a, h)) = StateT.map g (checking f) h := by
  unfold StateT.map checking
  cases f h <;> rfl

section Closed

variable {P : ∀ α : Type, Effect α → Prop} (hP : Closed P) {α β : Type}
include hP

theorem Closed.pure (a : α) : P α (Pure.pure a) := hP.reading fun _ => a

theorem Closed.fail {cause : Cause} (hcause : cause ≠ .illegalAugmentedTarget) :
    P α (Effect.fail cause) :=
  hP.checking fun _ => Proper.error_iff.mpr hcause

theorem Closed.ofExcept {x : Except Cause α} (hx : Proper x) : P α (Effect.ofExcept x) := by
  cases x with
  | error cause => exact hP.fail (Proper.error_iff.mp hx)
  | ok a => exact hP.pure a

theorem Closed.orFail {cause : Cause} (hcause : cause ≠ .illegalAugmentedTarget) (o : Option α) :
    P α (Effect.orFail cause o) := by
  cases o with
  | none => exact hP.fail hcause
  | some a => exact hP.pure a

theorem Closed.map {x : Effect α} (f : α → β) (hx : P α x) : P β (StateT.map f x) := by
  rw [map_eq_bind]
  exact hP.bind hx fun a => hP.pure (f a)

theorem Closed.mapM {f : α → Effect β} (hf : ∀ a, P β (f a)) (items : List α) :
    P (List β) (items.mapM f) := by
  induction items with
  | nil =>
      rw [List.mapM_nil]
      exact hP.pure []
  | cons item items ih =>
      rw [List.mapM_cons]
      exact hP.bind (hf item) fun b => hP.bind ih fun bs => hP.pure _

theorem Closed.single (args : Arguments) (function : Text) :
    P Value (Effect.ofExcept (args.single function)) :=
  hP.ofExcept (args.proper_single function)

theorem Closed.check (args : Arguments) (function : Text) (least : Nat) (most : Option Nat)
    (names : List Text) : P Unit (Effect.ofExcept (args.check function least most names)) :=
  hP.ofExcept (args.proper_check function least most names)

theorem Closed.iterate (v : Value) : P (List Value) (Effect.checking fun h => h.iterate v) :=
  hP.checking fun h => h.proper_iterate v

theorem Closed.repeat? {v : Value} {count : Int} {effect : Effect Value}
    (heffect : Operator.repeat? v count = some effect) : P Value effect := by
  have hrepeated {α : Type} (sequence : SequenceKind) (size : Nat) (items : List α) :
      P (List α) (Effect.ofExcept (Operator.repeated sequence size items count)) :=
    hP.ofExcept (Operator.proper_repeated sequence size items count)
  cases v with
  | str t =>
      cases heffect
      exact hP.map _ (hrepeated _ _ t)
  | markup t =>
      cases heffect
      exact hP.map _ (hrepeated _ _ t)
  | list p =>
      cases heffect
      exact hP.bind (hP.reading _) fun items => hP.bind (hrepeated _ _ items) hP.newList
  | tuple p =>
      cases heffect
      exact hP.bind (hP.reading _) fun items => hP.bind (hrepeated _ _ items) hP.newTuple
  | _ => cases heffect

theorem Closed.join? {a b : Value} {effect : Effect Value}
    (heffect : Operator.join? a b = some effect) : P Value effect := by
  unfold Operator.join? at heffect
  split at heffect
  · cases heffect
    exact hP.pure _
  · cases heffect
    exact hP.bind (hP.reading _) hP.newList
  · cases heffect
    exact hP.bind (hP.reading _) hP.newTuple
  · split at heffect
    · cases heffect
      exact hP.pure _
    · cases heffect

theorem Closed.times? {a b : Value} {effect : Effect Value}
    (heffect : Operator.times? a b = some effect) : P Value effect := by
  unfold Operator.times? at heffect
  split at heffect
  · rename_i found hfound
    cases heffect
    obtain ⟨count, -, hrepeat⟩ := Option.bind_eq_some_iff.mp hfound
    exact hP.repeat? hrepeat
  · obtain ⟨count, -, hrepeat⟩ := Option.bind_eq_some_iff.mp heffect
    exact hP.repeat? hrepeat

theorem Closed.onOthers? {op : BinaryOp} {a b : Value} {effect : Effect Value}
    (heffect : Operator.onOthers? op a b = some effect) : P Value effect := by
  cases op with
  | add => exact hP.join? heffect
  | mul => exact hP.times? heffect
  | mod =>
      obtain ⟨format, -, hformat⟩ := Option.map_eq_some_iff.mp heffect
      subst hformat
      exact hP.bind (hP.checking fun h => Format.proper_apply h format b) fun t => hP.pure _
  | _ => cases heffect

theorem Closed.binary (op : BinaryOp) (a b : Value) : P Value (Operator.binary op a b) := by
  unfold Operator.binary
  split
  · exact hP.ofExcept (Number.proper_arithmetic op _ _)
  · cases heffect : Operator.onOthers? op a b with
    | none => exact hP.fail (by nofun)
    | some effect => exact hP.onOthers? heffect

theorem Closed.slice (object : Value) (start stop : Option Value) :
    P Value (Subscript.slice object start stop) := by
  unfold Subscript.slice
  apply hP.bind (hP.ofExcept (Subscript.proper_bound? start))
  intro first
  apply hP.bind (hP.ofExcept (Subscript.proper_bound? stop))
  intro last
  split
  · exact hP.bind (hP.reading _) fun items => hP.newList _
  · exact hP.bind (hP.reading _) fun items => hP.newTuple _
  · exact hP.pure _
  · exact hP.pure _
  · exact hP.fail (by nofun)

theorem Closed.readAttribute (object : Value) (name : Text) :
    P Value (TemplateEngine.readAttribute object name) := by
  unfold TemplateEngine.readAttribute
  split
  · exact hP.bind hP.newIdentity fun identity => hP.pure _
  · exact hP.bind (hP.reading _) fun found => hP.orFail (by nofun) found

/-- The dict of helpers is the only new container that a name may mean. -/
theorem Closed.lookup (scope : Scope) (name : Text) : P (Option Value) (scope.lookup name) := by
  have hnames : Scope.helperEntries.names.Nodup := by decide
  unfold Scope.lookup
  split
  · exact hP.pure _
  · split
    · exact hP.bind (hP.newDict hnames) fun v => hP.pure _
    · exact hP.pure _

end Closed

section FullyClosed

variable {P : ∀ α : Type, Effect α → Prop} (hP : FullyClosed P)
include hP

/-- Another entry under a name is the only change of a dict. -/
theorem FullyClosed.setItem (object key v : Value) : P Unit (Subscript.set object key v) := by
  unfold Subscript.set
  split
  · apply hP.bind (hP.ofExcept (Subscript.proper_index _ key))
    intro n
    apply hP.bind (hP.reading _)
    intro items
    split
    · exact hP.setList _ _
    · exact hP.fail (by nofun)
  · apply hP.bind (hP.ofExcept (Subscript.proper_key key))
    intro name
    exact hP.putEntry _ name v
  · exact hP.fail (by nofun)

theorem FullyClosed.text (method : TextMethod) (safe : Bool) (t : Text) (args : Arguments) :
    P Value (method.call safe t args) := by
  apply hP.same
  intro h
  unfold TextMethod.call
  split
  · rename_i result hresult
    refine ⟨_, hP.map (fun t => if safe && method.keepsSafe then Value.markup t else .str t)
      (hP.ofExcept (TextMethod.proper_text? hresult)), ?_⟩
    cases result <;> rfl
  · have hmeets (method : TextMethod) (test : Text → Bool) : ∃ y : Effect Value, P Value y ∧
        (method.meets h test args).map (fun b => (.bool b, h)) = y h :=
      ⟨_, hP.map _ (hP.checking fun h => TextMethod.proper_meets h method test args),
        map_checking (fun h => method.meets h test args) Value.bool h⟩
    split
    · refine ⟨_, hP.bind (hP.ofExcept (TextMethod.proper_pieces args t)) fun pieces =>
        hP.newList (pieces.map .str), ?_⟩
      cases TextMethod.pieces args t <;> rfl
    · exact hmeets _ _
    · exact hmeets _ _

theorem FullyClosed.list (method : ListMethod) (place : Nat) (args : Arguments) :
    P Value (method.call place args) := by
  unfold ListMethod.call
  apply hP.bind (hP.reading _)
  intro items
  cases method with
  | append =>
      exact hP.bind (hP.single args _) fun item => hP.bind (hP.setList _ _) fun _ => hP.pure _
  | extend =>
      exact hP.bind (hP.single args _) fun source => hP.bind (hP.iterate source) fun more =>
        hP.bind (hP.setList _ _) fun _ => hP.pure _
  | pop =>
      exact hP.bind (hP.check args _ _ _ _) fun _ =>
        hP.bind (hP.ofExcept (ListMethod.proper_popPlace items args)) fun popped =>
          hP.bind (hP.setList _ _) fun _ => hP.pure _
  | index =>
      exact hP.bind (hP.single args _) fun v =>
        hP.checking fun h => ListMethod.proper_placeOf h items v

theorem FullyClosed.dict (method : DictMethod) (place : Nat) (args : Arguments) :
    P Value (method.call place args) := by
  unfold DictMethod.call
  apply hP.bind (hP.reading _)
  intro entries
  cases method with
  | get =>
      exact hP.bind (hP.check args _ _ _ _) fun _ =>
        hP.bind (hP.ofExcept (Subscript.proper_key _)) fun name => hP.pure _
  | keys => exact hP.bind (hP.check args _ _ _ _) fun _ => hP.newList _
  | values => exact hP.bind (hP.check args _ _ _ _) fun _ => hP.newList _
  | items =>
      exact hP.bind (hP.check args _ _ _ _) fun _ =>
        hP.bind (hP.mapM (fun entry => hP.newTuple _) entries) hP.newList

theorem FullyClosed.method (method : BoundMethod) (args : Arguments) :
    P Value (method.call args) := by
  cases method with
  | text m safe t => exact hP.text m safe t args
  | list m place => exact hP.list m place args
  | dict m place => exact hP.dict m place args

theorem FullyClosed.numbered (n : Int) (items : List Value) :
    P (List Value) (Builtin.numbered n items) := by
  induction items generalizing n with
  | nil => exact hP.pure []
  | cons item items ih =>
      exact hP.bind (hP.newTuple _) fun pair => hP.bind (ih _) fun rest => hP.pure _

theorem FullyClosed.enumerate (args : Arguments) : P Value (Builtin.enumerateOf args) := by
  have hrest (start : Int) : P Value (do
      let items ← Effect.checking fun h => h.iterate ((args.at? 0).getD .none)
      Effect.newList (← Builtin.numbered start items)) :=
    hP.bind (hP.iterate _) fun items => hP.bind (hP.numbered start items) hP.newList
  apply hP.bind (hP.check args _ _ _ _)
  intro _
  split
  · exact hP.bind (hP.ofExcept (proper_integerArgument _ _)) hrest
  · exact hrest 0

theorem FullyClosed.listOf (args : Arguments) : P Value (Builtin.listOf args) := by
  apply hP.bind (hP.check args _ _ _ _)
  intro _
  split
  · exact hP.bind (hP.iterate _) hP.newList
  · exact hP.newList []

theorem FullyClosed.sorted (args : Arguments) : P Value (Builtin.sortedOf args) := by
  apply hP.bind (hP.check args _ _ _ _)
  intro _
  apply hP.bind (hP.iterate _)
  intro items
  apply hP.bind (hP.reading _)
  intro reverse
  exact hP.bind (hP.checking fun h => Sorting.proper_sorted h reverse items) hP.newList

theorem FullyClosed.extreme (function : Text) (wanted : Ordering) (args : Arguments) :
    P Value (Builtin.extremeOf function wanted args) := by
  have hrest (candidates : List Value) : P Value (do
      let found ← Effect.checking fun h => Sorting.extreme? h wanted candidates
      Effect.orFail (.emptySequence function)
        (found.or (Entries.get? "default" args.keywords))) :=
    hP.bind (hP.checking fun h => Sorting.proper_extreme? h wanted candidates) fun found =>
      hP.orFail (by nofun) _
  apply hP.bind (hP.check args _ _ _ _)
  intro _
  split
  · exact hP.bind (hP.iterate _) hrest
  · exact hrest _

theorem FullyClosed.total (v : Value) (items : List Value) : P Value (Builtin.total v items) := by
  induction items generalizing v with
  | nil => exact hP.pure v
  | cons item items ih => exact hP.bind (hP.binary .add v item) ih

theorem FullyClosed.sum (args : Arguments) : P Value (Builtin.sumOf args) := by
  have hrest : P Value (do
      let items ← Effect.checking fun h => h.iterate ((args.at? 0).getD .none)
      Builtin.total ((args.named? "start" 1).getD (.int 0)) items) :=
    hP.bind (hP.iterate _) fun items => hP.total _ items
  apply hP.bind (hP.check args _ _ _ _)
  intro _
  dsimp only
  split
  · exact hP.bind (hP.fail (by nofun)) fun _ => hrest
  · exact hrest

theorem FullyClosed.builtin (function : Builtin) (args : Arguments) :
    P Value (function.call args) := by
  cases function with
  | len =>
      exact hP.bind (hP.single args _) fun v =>
        hP.bind (hP.checking fun h => Builtin.proper_lengthOf h v) fun n => hP.pure _
  | str =>
      exact hP.bind (hP.check args _ _ _ _) fun _ => hP.bind (hP.reading _) fun t => hP.pure _
  | repr => exact hP.bind (hP.single args _) fun v => hP.bind (hP.reading _) fun t => hP.pure _
  | int =>
      exact hP.bind (hP.check args _ _ _ _) fun _ =>
        hP.bind (hP.ofExcept (Builtin.proper_integerOf _)) fun n => hP.pure _
  | float =>
      exact hP.bind (hP.check args _ _ _ _) fun _ =>
        hP.bind (hP.checking fun h => Builtin.proper_floatOf h _) fun x => hP.pure _
  | bool =>
      exact hP.bind (hP.check args _ _ _ _) fun _ => hP.bind (hP.reading _) fun b => hP.pure _
  | range => exact hP.bind (hP.ofExcept (Builtin.proper_rangeOf args)) fun r => hP.pure _
  | enumerate => exact hP.enumerate args
  | list => exact hP.listOf args
  | sorted => exact hP.sorted args
  | min => exact hP.extreme _ .lt args
  | max => exact hP.extreme _ .gt args
  | sum => exact hP.sum args
  | abs =>
      exact hP.bind (hP.single args _) fun v => hP.ofExcept (Builtin.proper_absoluteOf v)
  | markup => exact hP.bind (hP.single args _) fun v => hP.bind (hP.reading _) fun t => hP.pure _

end FullyClosed

end Effect

/-- A property of heaps that new containers, other items and single entries keep. -/
class Heap.Steady (K : Heap → Prop) : Prop where
  withLists {h : Heap} (lists : Array (List Value)) : K h → K { h with lists := lists }
  withTuples {h : Heap} (tuples : Array (List Value)) : K h → K { h with tuples := tuples }
  withIdentities {h : Heap} (n : Nat) : K h → K { h with identities := n }
  newDict {h : Heap} {entries : Entries Value} : entries.names.Nodup → K h →
    K { h with dicts := h.dicts.push entries }
  put {h : Heap} (p : Nat) (name : Text) (v : Value) : K h →
    K { h with dicts := h.dicts.setIfInBounds p (Entries.put name v (h.dict p)) }

instance : Heap.Steady fun _ => True where
  withLists _ _ := trivial
  withTuples _ _ := trivial
  withIdentities _ _ := trivial
  newDict _ _ := trivial
  put _ _ _ _ := trivial

theorem Entries.nodup_put {entries : Entries Value} (hnames : entries.names.Nodup) (name : Text)
    (v : Value) : (Entries.put name v entries).names.Nodup := by
  rw [names_put]
  split
  · exact hnames
  · rename_i hnew
    rw [← List.concat_eq_append]
    exact hnames.concat hnew

section Cells

variable {α : Type} {cells : Array (List α)} {items : List α} {P : List α → Prop}

theorem forall_getD_push (hcells : ∀ p, P (cells.getD p [])) (hitems : P items) (p : Nat) :
    P ((cells.push items).getD p []) := by
  have hcell := hcells p
  rw [Array.getD_eq_getD_getElem?] at hcell ⊢
  rw [Array.getElem?_push]
  split
  · exact hitems
  · exact hcell

theorem forall_getD_set (hcells : ∀ p, P (cells.getD p [])) (hitems : P items) (place p : Nat) :
    P ((cells.setIfInBounds place items).getD p []) := by
  have hcell := hcells p
  rw [Array.getD_eq_getD_getElem?] at hcell ⊢
  rw [Array.getElem?_setIfInBounds]
  split
  · rename_i hplace
    subst hplace
    split
    · exact hitems
    · rename_i hout
      rwa [Array.getElem?_eq_none (Nat.le_of_not_lt hout)] at hcell
  · exact hcell

end Cells

/-- That the names in every dict are distinct is kept. -/
instance : Heap.Steady Heap.Keyed where
  withLists _ hh := hh
  withTuples _ hh := hh
  withIdentities _ hh := hh
  newDict hentries hh :=
    forall_getD_push (P := fun entries => (Entries.names entries).Nodup) hh hentries
  put place name v hh :=
    forall_getD_set (P := fun entries => (Entries.names entries).Nodup) hh
      (Entries.nodup_put (hh place) name v) place

/-- An effect that keeps a property of heaps and fails properly. -/
structure Effect.Sound {α : Type} (K : Heap → Prop) (x : Effect α) : Prop where
  keeps : ∀ {h a h'}, K h → x h = .ok (a, h') → K h'
  proper : ∀ h, Proper (x h)

section Sound

open Effect

variable {K : Heap → Prop}

/-- What always changes the heap in a way that keeps the property is sound. -/
theorem Effect.sound_of_ok {α : Type} {x : Effect α} {f : Heap → α} {next : Heap → Heap}
    (hx : ∀ h, x h = .ok (f h, next h)) (hnext : ∀ h, K h → K (next h)) : x.Sound K where
  keeps := by
    intro h a h' hh hrun
    rw [hx] at hrun
    cases hrun
    exact hnext h hh
  proper h := by
    rw [hx]
    exact Proper.ok _

theorem Effect.sound_checking {α : Type} {f : Heap → Except Cause α} (hf : ∀ h, Proper (f h)) :
    (checking f).Sound K where
  keeps := by
    intro h a h' hh hrun
    unfold checking at hrun
    cases hresult : f h with
    | error cause =>
        rw [hresult] at hrun
        cases hrun
    | ok a =>
        rw [hresult] at hrun
        cases hrun
        exact hh
  proper h := (hf h).map _

theorem Effect.Sound.bind {α β : Type} {x : Effect α} {f : α → Effect β} (hx : x.Sound K)
    (hf : ∀ a, (f a).Sound K) : (x >>= f).Sound K where
  keeps := by
    intro h b h'' hh hrun
    obtain ⟨a, h', hfirst, hrest⟩ := exists_of_bind hrun
    exact (hf a).keeps (hx.keeps hh hfirst) hrest
  proper h := (hx.proper h).bind fun result => (hf result.1).proper result.2

/-- All that scripts do to the heap is sound, one step after the other. -/
theorem Effect.closed_sound [Heap.Steady K] : FullyClosed fun _ x => x.Sound K where
  reading _ := sound_of_ok (fun _ => rfl) fun _ => id
  checking := sound_checking
  bind := Sound.bind
  newList _ := sound_of_ok (fun _ => rfl) fun _ => Heap.Steady.withLists _
  newTuple _ := sound_of_ok (fun _ => rfl) fun _ => Heap.Steady.withTuples _
  newDict hentries := sound_of_ok (fun _ => rfl) fun _ => Heap.Steady.newDict hentries
  newIdentity := sound_of_ok (fun _ => rfl) fun _ => Heap.Steady.withIdentities _
  setList _ _ := sound_of_ok (fun _ => rfl) fun _ => Heap.Steady.withLists _
  putEntry place name v := sound_of_ok (fun _ => rfl) fun _ => Heap.Steady.put place name v
  same hx := {
    keeps := by
      intro h a h' hh hrun
      obtain ⟨y, hy, hsame⟩ := hx h
      exact hy.keeps hh (hsame ▸ hrun)
    proper := by
      intro h
      obtain ⟨y, hy, hsame⟩ := hx h
      exact hsame ▸ hy.proper h }

end Sound

end TemplateEngine
