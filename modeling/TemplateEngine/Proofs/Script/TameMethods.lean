import TemplateEngine.Proofs.Script.SafeBuiltins
import TemplateEngine.Proofs.Script.Tame

/-!
# Methods and built-in functions on tame values

Methods and built-in functions make plain values and text, or move about what is in
the lists and dicts that they are given, so tame arguments give tame results.
-/
namespace TemplateEngine

theorem Heap.Tames.iterate {base h : Heap} (hh : base.Tames h) {v : Value} (hv : base.Tame v)
    {items : List Value} (hitems : h.iterate v = .ok items) : ∀ item ∈ items, base.Tame item := by
  unfold Heap.iterate at hitems
  split at hitems
  · split at hitems
    · cases hitems
    · cases hitems
      intro item hitem
      obtain ⟨n, -, rfl⟩ := List.mem_map.mp hitem
      exact Heap.tame_plain rfl
  · cases hitems
    intro item hitem
    obtain ⟨c, -, rfl⟩ := List.mem_map.mp hitem
    exact Heap.tame_plain rfl
  · cases hitems
    intro item hitem
    obtain ⟨c, -, rfl⟩ := List.mem_map.mp hitem
    exact Heap.tame_plain rfl
  · cases hitems
    exact hh.list hv
  · cases hitems
    exact hh.tuple hv
  · cases hitems
    intro item hitem
    obtain ⟨name, -, rfl⟩ := List.mem_map.mp hitem
    exact Heap.tame_plain rfl
  · cases hitems

theorem Effect.tame_iterate {base : Heap} {v : Value} (hv : base.Tame v) :
    Effect.Tame base (Effect.checking fun h => h.iterate v)
      fun items => ∀ item ∈ items, base.Tame item :=
  tame_checking fun _ hh _ hitems => hh.iterate hv hitems

/-- Arguments that are all tame. -/
structure Arguments.Tame (base : Heap) (args : Arguments) : Prop where
  positional : ∀ v ∈ args.positional, base.Tame v
  keywords : ∀ entry ∈ args.keywords, base.Tame entry.2

namespace Arguments

variable {base : Heap} {args : Arguments} (hargs : args.Tame base)
include hargs

theorem Tame.single (function : Text) :
    Effect.Tame base (Effect.ofExcept (args.single function)) base.Tame := by
  apply Effect.tame_ofExcept
  intro v hv
  obtain ⟨_, -, hv⟩ := exists_of_bind_ok hv
  cases hv
  cases hpositional : args.positional with
  | nil => exact Heap.tame_plain rfl
  | cons first others =>
      apply hargs.positional
      rw [hpositional]
      exact List.mem_cons_self

theorem Tame.at? {place : Nat} {v : Value} (hv : args.at? place = some v) : base.Tame v :=
  hargs.positional v (List.mem_of_getElem? hv)

theorem Tame.at?_getD (place : Nat) : base.Tame ((args.at? place).getD .none) := by
  cases hv : args.at? place with
  | none => exact Heap.tame_plain rfl
  | some v => exact hargs.at? hv

theorem Tame.get? {name : Text} {v : Value} (hv : Entries.get? name args.keywords = some v) :
    base.Tame v := by
  obtain ⟨entry, hentry, rfl⟩ := Subscript.mem_of_get? hv
  exact hargs.keywords entry hentry

theorem Tame.named?_getD (name : Text) (place : Nat) {other : Value} (hother : base.Tame other) :
    base.Tame ((args.named? name place).getD other) := by
  cases hv : args.named? name place with
  | none => exact hother
  | some v =>
      unfold Arguments.named? at hv
      rcases Option.or_eq_some_iff.mp hv with hv | ⟨-, hv⟩
      · exact hargs.get? hv
      · exact hargs.at? hv

end Arguments

section Methods

variable {base : Heap} {args : Arguments}

theorem TextMethod.tame_call (method : TextMethod) (safe : Bool) (t : Text) (args : Arguments) :
    (call method safe t args).Tame base base.Tame := by
  intro h v h' hh hrun
  simp only [call] at hrun
  split at hrun
  · rename_i result hresult
    cases result with
    | error cause => cases hrun
    | ok r =>
        cases hrun
        refine ⟨hh, ?_⟩
        split
        · exact Heap.tame_markup r
        · exact Heap.tame_plain rfl
  · split at hrun
    · obtain ⟨pieces, -, hrun⟩ := exists_of_bind_ok hrun
      apply Effect.tame_newList _ h v h' hh hrun
      intro item hitem
      obtain ⟨piece, -, rfl⟩ := List.mem_map.mp hitem
      exact Heap.tame_plain rfl
    · cases hmeets : meets h startswith (·.isPrefixOf t) args with
      | error cause =>
          rw [hmeets] at hrun
          cases hrun
      | ok b =>
          rw [hmeets] at hrun
          cases hrun
          exact ⟨hh, Heap.tame_plain rfl⟩
    · cases hmeets : meets h method (·.isSuffixOf t) args with
      | error cause =>
          rw [hmeets] at hrun
          cases hrun
      | ok b =>
          rw [hmeets] at hrun
          cases hrun
          exact ⟨hh, Heap.tame_plain rfl⟩

theorem ListMethod.tame_call (method : ListMethod) {place : Nat} (hplace : base.Tame (.list place))
    (hargs : args.Tame base) : (call method place args).Tame base base.Tame := by
  unfold call
  apply Effect.Tame.bind (Effect.tame_readList hplace)
  intro items hitems
  split
  · apply Effect.Tame.bind (hargs.single _)
    intro item hitem
    apply Effect.Tame.bind (Effect.tame_setList ?_)
    · intro _ _
      exact Effect.tame_pure (Heap.tame_plain rfl)
    · intro v hv
      rcases List.mem_append.mp hv with hv | hv
      · exact hitems v hv
      · rw [List.mem_singleton.mp hv]
        exact hitem
  · apply Effect.Tame.bind (hargs.single _)
    intro source hsource
    apply Effect.Tame.bind (Effect.tame_iterate hsource)
    intro more hmore
    apply Effect.Tame.bind (Effect.tame_setList ?_)
    · intro _ _
      exact Effect.tame_pure (Heap.tame_plain rfl)
    · intro v hv
      rcases List.mem_append.mp hv with hv | hv
      · exact hitems v hv
      · exact hmore v hv
  · apply Effect.Tame.bind Effect.tame_check
    intro _ _
    apply Effect.Tame.bind Effect.tame_check
    intro popped _
    apply Effect.Tame.bind (Effect.tame_setList fun v hv => hitems v (List.mem_of_mem_eraseIdx hv))
    intro _ _
    apply Effect.tame_pure
    cases hpopped : items[popped]? with
    | none => exact Heap.tame_plain rfl
    | some item => exact hitems item (List.mem_of_getElem? hpopped)
  · apply Effect.Tame.bind (hargs.single _)
    intro v _
    apply Effect.tame_checking
    intro h _ found hfound
    unfold placeOf at hfound
    split at hfound
    · cases hfound
      exact Heap.tame_plain rfl
    · cases hfound

theorem Effect.tame_mapM {α : Type} {f : α → Effect Value} {items : List α}
    (hf : ∀ item ∈ items, (f item).Tame base base.Tame) :
    (items.mapM f).Tame base fun found => ∀ v ∈ found, base.Tame v := by
  induction items with
  | nil =>
      rw [List.mapM_nil]
      apply Effect.tame_pure
      intro v hv
      cases hv
  | cons item items ih =>
      rw [List.mapM_cons]
      apply Effect.Tame.bind (hf item List.mem_cons_self)
      intro first hfirst
      apply Effect.Tame.bind (ih fun item hitem => hf item (List.mem_cons_of_mem _ hitem))
      intro others hothers
      exact Effect.tame_pure (List.forall_mem_cons.mpr ⟨hfirst, hothers⟩)

theorem DictMethod.tame_call (method : DictMethod) {place : Nat} (hplace : base.Tame (.dict place))
    (hargs : args.Tame base) : (call method place args).Tame base base.Tame := by
  unfold call
  apply Effect.Tame.bind (Effect.tame_readDict hplace)
  intro entries hentries
  split
  · apply Effect.Tame.bind Effect.tame_check
    intro _ _
    apply Effect.Tame.bind Effect.tame_check
    intro name _
    apply Effect.tame_pure
    cases hfound : Entries.get? name entries with
    | none => exact hargs.at?_getD 1
    | some v =>
        obtain ⟨entry, hentry, rfl⟩ := Subscript.mem_of_get? hfound
        exact hentries entry hentry
  · apply Effect.Tame.bind Effect.tame_check
    intro _ _
    apply Effect.tame_newList
    intro v hv
    obtain ⟨entry, -, rfl⟩ := List.mem_map.mp hv
    exact Heap.tame_plain rfl
  · apply Effect.Tame.bind Effect.tame_check
    intro _ _
    apply Effect.tame_newList
    intro v hv
    obtain ⟨entry, hentry, rfl⟩ := List.mem_map.mp hv
    exact hentries entry hentry
  · apply Effect.Tame.bind Effect.tame_check
    intro _ _
    apply Effect.Tame.bind (Effect.tame_mapM ?_)
    · intro pairs hpairs
      exact Effect.tame_newList hpairs
    · intro entry hentry
      apply Effect.tame_newTuple
      simp only [List.forall_mem_cons, List.not_mem_nil, false_implies, implies_true, and_true]
      exact ⟨Heap.tame_plain rfl, hentries entry hentry⟩

/-- A bound method is as tame as its receiver. -/
theorem BoundMethod.tame_call {identity : Nat} {method : BoundMethod}
    (hmethod : base.Tame (.function (.method identity method))) (hargs : args.Tame base) :
    (method.call args).Tame base base.Tame := by
  cases method with
  | text m safe t => exact TextMethod.tame_call m safe t args
  | list m p => exact ListMethod.tame_call m (hmethod.of_leads List.mem_cons_self) hargs
  | dict m p => exact DictMethod.tame_call m (hmethod.of_leads List.mem_cons_self) hargs

theorem BoundMethod.tame_ofName? {object : Value} {name : Text} {method : BoundMethod}
    (hobject : base.Tame object) (hmethod : ofName? object name = some method) (identity : Nat) :
    base.Tame (.function (.method identity method)) := by
  cases object with
  | str t =>
      obtain ⟨m, -, rfl⟩ := Option.map_eq_some_iff.mp hmethod
      exact Heap.tame_of_leaf rfl rfl
  | markup t =>
      obtain ⟨m, -, rfl⟩ := Option.map_eq_some_iff.mp hmethod
      exact Heap.tame_of_leaf rfl rfl
  | list p =>
      obtain ⟨m, -, rfl⟩ := Option.map_eq_some_iff.mp hmethod
      exact Heap.tame_of_leads rfl fun w hw => List.mem_singleton.mp hw ▸ hobject
  | dict p =>
      obtain ⟨m, -, rfl⟩ := Option.map_eq_some_iff.mp hmethod
      exact Heap.tame_of_leads rfl fun w hw => List.mem_singleton.mp hw ▸ hobject
  | _ => cases hmethod

theorem Effect.tame_readAttribute {object : Value} (hobject : base.Tame object) (name : Text) :
    (readAttribute object name).Tame base base.Tame := by
  unfold readAttribute
  cases hmethod : BoundMethod.ofName? object name with
  | some method =>
      apply Effect.Tame.bind Effect.tame_newIdentity
      intro identity _
      exact Effect.tame_pure (BoundMethod.tame_ofName? hobject hmethod identity)
  | none =>
      apply Effect.Tame.bind (P := fun found => ∀ v, found = some v → base.Tame v)
      · apply Effect.tame_reading
        intro h hh v hv
        cases object with
        | dict p =>
            obtain ⟨entry, hentry, rfl⟩ := Subscript.mem_of_get? hv
            exact hh.dict hobject entry hentry
        | _ => cases hv
      · intro found hfound
        exact Effect.tame_orFail hfound

end Methods

namespace Builtin

variable {base : Heap} {args : Arguments}

theorem tame_numbered {items : List Value} (hitems : ∀ v ∈ items, base.Tame v) (n : Int) :
    (numbered n items).Tame base fun pairs => ∀ v ∈ pairs, base.Tame v := by
  induction items generalizing n with
  | nil =>
      unfold numbered
      apply Effect.tame_pure
      intro v hv
      cases hv
  | cons item items ih =>
      unfold numbered
      rw [List.forall_mem_cons] at hitems
      apply Effect.Tame.bind (Effect.tame_newTuple ?_)
      · intro pair hpair
        apply Effect.Tame.bind (ih hitems.2 _)
        intro pairs hpairs
        exact Effect.tame_pure (List.forall_mem_cons.mpr ⟨hpair, hpairs⟩)
      · simp only [List.forall_mem_cons, List.not_mem_nil, false_implies, implies_true, and_true]
        exact ⟨Heap.tame_plain rfl, hitems.1⟩

theorem tame_enumerateOf (hargs : args.Tame base) : (enumerateOf args).Tame base base.Tame := by
  unfold enumerateOf
  apply Effect.Tame.bind Effect.tame_check
  intro _ _
  have hfrom : ∀ start : Int, Effect.Tame base
      (Effect.checking (fun h => h.iterate ((args.at? 0).getD .none)) >>= fun items =>
        numbered start items >>= Effect.newList) base.Tame := by
    intro start
    apply Effect.Tame.bind (Effect.tame_iterate (hargs.at?_getD 0))
    intro items hitems
    apply Effect.Tame.bind (tame_numbered hitems start)
    intro pairs hpairs
    exact Effect.tame_newList hpairs
  dsimp only
  split
  · exact Effect.Tame.bind Effect.tame_check fun start _ => hfrom start
  · exact hfrom 0

theorem tame_listOf (hargs : args.Tame base) : (listOf args).Tame base base.Tame := by
  unfold listOf
  apply Effect.Tame.bind Effect.tame_check
  intro _ _
  split
  · rename_i v hv
    apply Effect.Tame.bind (Effect.tame_iterate (hargs.at? hv))
    intro items hitems
    exact Effect.tame_newList hitems
  · apply Effect.tame_newList
    intro v hv
    cases hv

theorem tame_sortedOf (hargs : args.Tame base) : (sortedOf args).Tame base base.Tame := by
  unfold sortedOf
  apply Effect.Tame.bind Effect.tame_check
  intro _ _
  apply Effect.Tame.bind (Effect.tame_iterate (hargs.at?_getD 0))
  intro items hitems
  apply Effect.Tame.bind (Effect.tame_reading (P := fun _ => True) fun _ _ => trivial)
  intro reverse _
  apply Effect.Tame.bind (P := fun found => ∀ v ∈ found, base.Tame v)
  · apply Effect.tame_checking
    intro h _ found hfound v hv
    exact hitems v (Sorting.mem_of_sorted hfound hv)
  · intro found hfound
    exact Effect.tame_newList hfound

theorem tame_extremeOf (hargs : args.Tame base) (function : Text) (wanted : Ordering) :
    (extremeOf function wanted args).Tame base base.Tame := by
  unfold extremeOf
  apply Effect.Tame.bind Effect.tame_check
  intro _ _
  have hamong : ∀ candidates : List Value, (∀ v ∈ candidates, base.Tame v) → Effect.Tame base
      (Effect.checking (fun h => Sorting.extreme? h wanted candidates) >>= fun found =>
        Effect.orFail (.emptySequence function)
          (found.or (Entries.get? "default".toList args.keywords))) base.Tame := by
    intro candidates hcandidates
    apply Effect.Tame.bind (P := fun found => ∀ v, found = some v → base.Tame v)
    · apply Effect.tame_checking
      rintro h _ found hfound v rfl
      exact hcandidates v (Sorting.mem_of_extreme? hfound)
    · intro found hfound
      apply Effect.tame_orFail
      intro v hv
      rcases Option.or_eq_some_iff.mp hv with hv | ⟨-, hv⟩
      · exact hfound v hv
      · exact hargs.get? hv
  dsimp only
  split
  · rename_i v hpositional
    have hv : base.Tame v := hargs.positional v (by simp [hpositional])
    exact Effect.Tame.bind (Effect.tame_iterate hv) hamong
  · exact hamong args.positional hargs.positional

theorem tame_total {v : Value} {items : List Value} (hv : base.Tame v)
    (hitems : ∀ item ∈ items, base.Tame item) : (total v items).Tame base base.Tame := by
  induction items generalizing v with
  | nil => exact Effect.tame_pure hv
  | cons item items ih =>
      rw [List.forall_mem_cons] at hitems
      unfold total
      apply Effect.Tame.bind (Operator.tame_binary .add hv hitems.1)
      intro w hw
      exact ih hw hitems.2

theorem tame_sumOf (hargs : args.Tame base) : (sumOf args).Tame base base.Tame := by
  unfold sumOf
  apply Effect.Tame.bind Effect.tame_check
  intro _ _
  dsimp only
  split
  · exact Effect.Tame.bind (P := fun _ => False) Effect.tame_fail fun _ hfalse => hfalse.elim
  · apply Effect.Tame.bind (Effect.tame_iterate (hargs.at?_getD 0))
    intro items hitems
    exact tame_total (hargs.named?_getD _ _ (Heap.tame_plain rfl)) hitems

/-- An effect whose result is only shown in a value that leads nowhere. -/
theorem tame_shown {α : Type} {x : Effect α} (hx : x.Tame base fun _ => True) {f : α → Value}
    (hf : ∀ a, base.Tame (f a)) : Effect.Tame base (x >>= fun a => pure (f a)) base.Tame :=
  Effect.Tame.bind hx fun a _ => Effect.tame_pure (hf a)

theorem tame_call (function : Builtin) (hargs : args.Tame base) :
    (call function args).Tame base base.Tame := by
  have hread : ∀ {α : Type} (f : Heap → α),
      Effect.Tame base (Effect.reading f) fun _ => True :=
    fun f => Effect.tame_reading fun _ _ => trivial
  have hchecking : ∀ {α : Type} (f : Heap → Except Cause α),
      Effect.Tame base (Effect.checking f) fun _ => True :=
    fun f => Effect.tame_checking fun _ _ _ _ => trivial
  cases function with
  | len =>
      apply Effect.Tame.bind Effect.tame_check
      intro v _
      exact tame_shown (hchecking _) fun _ => Heap.tame_plain rfl
  | str =>
      apply Effect.Tame.bind Effect.tame_check
      intro _ _
      exact tame_shown (hread _) fun _ => Heap.tame_plain rfl
  | repr =>
      apply Effect.Tame.bind Effect.tame_check
      intro v _
      exact tame_shown (hread _) fun _ => Heap.tame_plain rfl
  | int =>
      apply Effect.Tame.bind Effect.tame_check
      intro _ _
      exact tame_shown Effect.tame_check fun _ => Heap.tame_plain rfl
  | float =>
      apply Effect.Tame.bind Effect.tame_check
      intro _ _
      exact tame_shown (hchecking _) fun _ => Heap.tame_plain rfl
  | bool =>
      apply Effect.Tame.bind Effect.tame_check
      intro _ _
      exact tame_shown (hread _) fun _ => Heap.tame_plain rfl
  | range => exact tame_shown Effect.tame_check fun _ => Heap.tame_plain rfl
  | enumerate => exact tame_enumerateOf hargs
  | list => exact tame_listOf hargs
  | sorted => exact tame_sortedOf hargs
  | min => exact tame_extremeOf hargs _ _
  | max => exact tame_extremeOf hargs _ _
  | sum => exact tame_sumOf hargs
  | abs =>
      apply Effect.Tame.bind Effect.tame_check
      intro v _
      exact Effect.tame_ofExcept fun r hr => Heap.tame_plain (isPlain_absoluteOf hr)
  | markup =>
      apply Effect.Tame.bind Effect.tame_check
      intro v _
      exact tame_shown (hread _) Heap.tame_markup

end Builtin

end TemplateEngine
