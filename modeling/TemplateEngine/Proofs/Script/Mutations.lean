import TemplateEngine.Proofs.Script.InPlace
import TemplateEngine.Proofs.Script.SafeOperators

/-!
# What changes change

A change that succeeds leaves everything alone but the container it writes to, or the names
it binds. Whoever holds the container, under whatever name or inside whatever else, reads
what the change has left in it.
-/
namespace TemplateEngine

/-! ## One container of a heap -/

namespace Heap

/-- A heap after a change to one container at most: every other container is as it was. -/
structure ChangedOnly (h h' : Heap) (written : Option Value) : Prop where
  has : ∀ v, h.has v → h'.has v
  agrees : ∀ v, h.has v → written ≠ some v → h.agrees h' v

theorem Extends.changedOnly {h h' : Heap} (hext : h.Extends h') (written : Option Value) :
    h.ChangedOnly h' written where
  has := hext.has
  agrees v hv _ := hext.agrees v hv

theorem changedOnly_withList (h : Heap) (p : Nat) (items : List Value) :
    h.ChangedOnly (h.withList p items) (some (.list p)) where
  has v hv := by
    cases v with
    | list q => exact Nat.lt_of_lt_of_eq hv Array.size_setIfInBounds.symm
    | _ => exact hv
  agrees v _ hne := by
    cases v with
    | list q =>
        have hplaces : p ≠ q := fun heq => hne (by rw [heq])
        exact getD_setIfInBounds_ne p h.lists items hplaces
    | _ => first | rfl | trivial

theorem changedOnly_withDict (h : Heap) (p : Nat) (entries : Entries Value) :
    h.ChangedOnly (h.withDict p entries) (some (.dict p)) where
  has v hv := by
    cases v with
    | dict q => exact Nat.lt_of_lt_of_eq hv Array.size_setIfInBounds.symm
    | _ => exact hv
  agrees v _ hne := by
    cases v with
    | dict q =>
        have hplaces : p ≠ q := fun heq => hne (by rw [heq])
        exact getD_setIfInBounds_ne p h.dicts entries hplaces
    | _ => first | rfl | trivial

/-- Values that are the same are of one type. -/
theorem typeName_of_identical {h : Heap} {v w : Value} (hsame : h.identical v w = true) :
    v.typeName = w.typeName := by
  unfold identical at hsame
  split at hsame
  · rfl
  · rfl
  · rfl
  · rfl
  · cases hsame
  · cases hsame
  · rw [Bool.and_eq_true, decide_eq_true_eq] at hsame
    exact hsame.1

/-- Only the list itself is the same as a list. -/
theorem eq_of_identical_list {h : Heap} {v : Value} {p : Nat}
    (hsame : h.identical v (.list p) = true) : v = .list p := by
  have htype : v.typeName = "list".toList := typeName_of_identical hsame
  cases v with
  | list q => exact congrArg Value.list (eq_of_beq hsame)
  | exception i kind message =>
      have htype : kind.name.toList = "list".toList := htype
      cases kind <;> exact absurd htype (by decide)
  | _ =>
      dsimp only [Value.typeName] at htype
      exact absurd htype (by decide)

/-- Only the dict itself is the same as a dict. -/
theorem eq_of_identical_dict {h : Heap} {v : Value} {p : Nat}
    (hsame : h.identical v (.dict p) = true) : v = .dict p := by
  have htype : v.typeName = "dict".toList := typeName_of_identical hsame
  cases v with
  | dict q => exact congrArg Value.dict (eq_of_beq hsame)
  | exception i kind message =>
      have htype : kind.name.toList = "dict".toList := htype
      cases kind <;> exact absurd htype (by decide)
  | _ =>
      dsimp only [Value.typeName] at htype
      exact absurd htype (by decide)

end Heap

/-! ## What succeeds -/

namespace Arguments

variable {args : Arguments} {function : Text}

theorem count_of_check {least : Nat} {most : Option Nat} {names : List Text}
    (hcheck : args.check function least most names = .ok ()) :
    least ≤ args.positional.length ∧ ∀ n ∈ most, args.positional.length ≤ n := by
  unfold check at hcheck
  dsimp only at hcheck
  split at hcheck
  · cases hcheck
  · rename_i hcount
    simp only [Bool.or_eq_true, decide_eq_true_eq, Option.any_eq_true, not_or, not_exists,
      not_and, not_lt] at hcount
    exact hcount

/-- The only argument of a call that has one. -/
theorem single_ok {v : Value} (hsingle : args.single function = .ok v) : args.positional = [v] := by
  unfold single at hsingle
  cases hcheck : args.check function 1 (some 1) [] with
  | error cause =>
      rw [hcheck] at hsingle
      cases hsingle
  | ok u =>
      rw [hcheck] at hsingle
      cases hsingle
      obtain ⟨hleast, hmost⟩ := count_of_check hcheck
      have hone : args.positional.length = 1 := Nat.le_antisymm (hmost 1 rfl) hleast
      obtain ⟨w, hw⟩ := List.length_eq_one_iff.mp hone
      rw [hw]
      rfl

end Arguments

theorem integerArgument_ok {function : Text} {v : Value} {n : Int}
    (hn : integerArgument function v = .ok n) : v.integer? = some n := by
  unfold integerArgument at hn
  split at hn
  · rename_i hinteger
    cases hn
    exact hinteger
  · cases hn

theorem Subscript.index_ok {container v : Value} {n : Int} (hn : index container v = .ok n) :
    v.integer? = some n := by
  unfold index at hn
  split at hn
  · rename_i hinteger
    cases hn
    exact hinteger
  · cases hn

theorem Subscript.key_ok {v : Value} {name : Text} (hname : key v = .ok name) :
    v.text? = some name := by
  unfold Subscript.key at hname
  split at hname
  · rename_i htext
    cases hname
    exact htext
  · cases hname

/-- The place that an index means: counted from the end if the index is negative. -/
def Subscript.Means (n : Int) (place length : Nat) : Prop :=
  place < length ∧ (place : Int) = if n < 0 then n + length else n

theorem Subscript.means_of_place? {n : Int} {place length : Nat}
    (hplace : Subscript.place? n length = some place) : Subscript.Means n place length := by
  simp only [Subscript.place?, Option.ite_none_right_eq_some, Bool.and_eq_true,
    decide_eq_true_eq, Option.some.injEq] at hplace
  obtain ⟨⟨hfirst, hlast⟩, hplace⟩ := hplace
  unfold Subscript.Means
  split at hplace <;> omega

theorem Effect.run_checking {α : Type} {f : Heap → Except Cause α} {a : α} {h h' : Heap}
    (hrun : checking f h = .ok (a, h')) : h' = h ∧ f h = .ok a := by
  unfold checking at hrun
  cases hresult : f h with
  | error cause => rw [hresult] at hrun; cases hrun
  | ok b => rw [hresult] at hrun; cases hrun; exact ⟨rfl, rfl⟩

namespace ListMethod

/-- What a method of a list makes of its items, and its result. -/
def Rewrites (h : Heap) (args : Arguments) (items items' : List Value) (result : Value) :
    ListMethod → Prop
  | append => ∃ item, args.positional = [item] ∧ items' = items ++ [item] ∧ result = .none
  | extend => ∃ source more, args.positional = [source] ∧ h.iterate source = .ok more ∧
      items' = items ++ more ∧ result = .none
  | pop => ∃ n place,
      (args.positional = [] ∧ n = -1 ∨ ∃ v, args.positional = [v] ∧ v.integer? = some n) ∧
        Subscript.Means n place items.length ∧ items' = items.eraseIdx place ∧
        items[place]? = some result
  | index => items' = items

theorem popPlace_ok {items : List Value} {args : Arguments} {place : Nat}
    (hplace : popPlace items args = .ok place) (hargs : args.positional.length ≤ 1) :
    ∃ n, (args.positional = [] ∧ n = -1 ∨ ∃ v, args.positional = [v] ∧ v.integer? = some n) ∧
      Subscript.Means n place items.length := by
  unfold popPlace at hplace
  by_cases hempty : items.isEmpty = true
  · rw [if_pos hempty] at hplace
    cases hplace
  · rw [if_neg hempty] at hplace
    cases hpositional : args.positional with
    | nil =>
        have hat : args.at? 0 = none := by rw [Arguments.at?, hpositional]; rfl
        rw [hat] at hplace
        obtain ⟨n, hn, hplace⟩ := exists_of_bind_ok hplace
        cases hn
        refine ⟨-1, .inl ⟨rfl, rfl⟩, Subscript.means_of_place? ?_⟩
        dsimp only at hplace
        cases hfound : Subscript.place? (-1) items.length with
        | none => rw [hfound] at hplace; cases hplace
        | some found => rw [hfound] at hplace; cases hplace; rfl
    | cons v rest =>
        have hrest : rest = [] := by
          rw [hpositional, List.length_cons] at hargs
          exact List.length_eq_zero_iff.mp (by omega)
        have hat : args.at? 0 = some v := by rw [Arguments.at?, hpositional]; rfl
        rw [hat] at hplace
        obtain ⟨n, hn, hplace⟩ := exists_of_bind_ok hplace
        refine ⟨n, .inr ⟨v, by rw [hrest], integerArgument_ok hn⟩, Subscript.means_of_place? ?_⟩
        dsimp only at hplace
        cases hfound : Subscript.place? n items.length with
        | none => rw [hfound] at hplace; cases hplace
        | some found => rw [hfound] at hplace; cases hplace; rfl

/-- A method of a list that succeeds has given the list other items, or the same. -/
theorem call_ok {method : ListMethod} {p : Nat} {args : Arguments} {h h' : Heap} {result : Value}
    (hrun : method.call p args h = .ok (result, h')) :
    ∃ items', method.Rewrites h args (h.list p) items' result ∧ h' = h.withList p items' := by
  unfold call at hrun
  obtain ⟨items, h₁, hread, hrun⟩ := Effect.exists_of_bind hrun
  cases hread
  cases method with
  | append =>
      obtain ⟨item, h₁, hitem, hrun⟩ := Effect.exists_of_bind hrun
      obtain ⟨rfl, -⟩ := Effect.run_ofExcept hitem
      cases hrun
      exact ⟨_, ⟨item, Arguments.single_ok (Effect.ofExcept_ok hitem), rfl, rfl⟩, rfl⟩
  | extend =>
      obtain ⟨source, h₁, hsource, hrun⟩ := Effect.exists_of_bind hrun
      obtain ⟨rfl, -⟩ := Effect.run_ofExcept hsource
      obtain ⟨more, h₂, hmore, hrun⟩ := Effect.exists_of_bind hrun
      obtain ⟨rfl, hiterate⟩ := Effect.run_checking hmore
      cases hrun
      exact ⟨_, ⟨source, more, Arguments.single_ok (Effect.ofExcept_ok hsource), hiterate, rfl,
        rfl⟩, rfl⟩
  | pop =>
      obtain ⟨u, h₁, hcheck, hrun⟩ := Effect.exists_of_bind hrun
      obtain ⟨rfl, -⟩ := Effect.run_ofExcept hcheck
      obtain ⟨place, h₂, hplace, hrun⟩ := Effect.exists_of_bind hrun
      obtain ⟨rfl, -⟩ := Effect.run_ofExcept hplace
      cases hrun
      have hcount := (Arguments.count_of_check (Effect.ofExcept_ok hcheck)).2 1 rfl
      obtain ⟨n, hn, hmeans⟩ := popPlace_ok (Effect.ofExcept_ok hplace) hcount
      refine ⟨_, ⟨n, place, hn, hmeans, rfl, ?_⟩, rfl⟩
      rw [List.getElem?_eq_getElem hmeans.1]
      rfl
  | index =>
      obtain ⟨v, h₁, hv, hrun⟩ := Effect.exists_of_bind hrun
      obtain ⟨rfl, -⟩ := Effect.run_ofExcept hv
      obtain ⟨rfl, -⟩ := Effect.run_checking hrun
      refine ⟨_, rfl, ?_⟩
      unfold Heap.withList Heap.list
      rw [Heap.setIfInBounds_getD]

end ListMethod

/-- A method of a dict that succeeds leaves every container alone. -/
theorem DictMethod.grows_call (method : DictMethod) (p : Nat) (args : Arguments) :
    (method.call p args).Grows := by
  unfold call
  apply (Effect.grows_reading _).bind
  intro entries
  cases method with
  | get =>
      exact (Effect.grows_ofExcept _).bind fun _ => (Effect.grows_ofExcept _).bind fun _ =>
        Effect.grows_pure _
  | keys => exact (Effect.grows_ofExcept _).bind fun _ => Effect.grows_newList _
  | values => exact (Effect.grows_ofExcept _).bind fun _ => Effect.grows_newList _
  | items =>
      exact (Effect.grows_ofExcept _).bind fun _ =>
        Effect.Grows.bind (Effect.closed_grows.mapM (fun _ => Effect.grows_newTuple _) entries)
          Effect.grows_newList

/-- An assignment of an item that succeeds has put it into a list or a dict. -/
theorem Subscript.set_ok {object key v : Value} {h h' : Heap}
    (hrun : Subscript.set object key v h = .ok ((), h')) :
    (∃ p n place, object = .list p ∧ key.integer? = some n ∧
        Subscript.Means n place (h.list p).length ∧
        h' = h.withList p ((h.list p).set place v)) ∨
      ∃ p name, object = .dict p ∧ key.text? = some name ∧
        h' = h.withDict p (Entries.put name v (h.dict p)) := by
  unfold Subscript.set at hrun
  split at hrun
  · rename_i p
    obtain ⟨n, h₁, hindex, hrest⟩ := Effect.exists_of_bind hrun
    obtain ⟨rfl, -⟩ := Effect.run_ofExcept hindex
    obtain ⟨items, h₂, hread, hset⟩ := Effect.exists_of_bind hrest
    cases hread
    dsimp only at hset
    cases hplace : place? n (h₁.list p).length with
    | none =>
        rw [hplace] at hset
        cases hset
    | some place =>
        rw [hplace] at hset
        cases hset
        exact .inl ⟨p, n, place, rfl, index_ok (Effect.ofExcept_ok hindex), means_of_place? hplace,
          rfl⟩
  · rename_i p
    obtain ⟨name, h₁, hname, hrest⟩ := Effect.exists_of_bind hrun
    obtain ⟨rfl, -⟩ := Effect.run_ofExcept hname
    obtain ⟨entries, h₂, hread, hset⟩ := Effect.exists_of_bind hrest
    cases hread
    cases hset
    exact .inr ⟨p, name, rfl, key_ok (Effect.ofExcept_ok hname), rfl⟩
  · cases hrun

theorem Subscript.get_dict (h : Heap) (p : Nat) (name : Text) :
    Subscript.get h (.dict p) (.str name) =
      (Entries.get? name (h.dict p)).elim (.error (.missingKey name)) .ok := by
  unfold Subscript.get key Value.text?
  dsimp only [Bind.bind, Except.bind]
  cases Entries.get? name (h.dict p) <;> rfl

/-! ## Names that are assigned -/

namespace Scope

theorem assignAll_eq (pairs : List (Text × Value)) (s : Scope) :
    s.assignAll pairs = { s with locals := Entries.putAll pairs s.locals } := by
  induction pairs generalizing s with
  | nil => rfl
  | cons pair pairs ih => exact ih (s.assign pair.1 pair.2)

/-- The last value that is assigned to a name is the one it has. -/
theorem get?_assignAll (name : Text) (pairs : List (Text × Value)) (s : Scope) :
    Entries.get? name (s.assignAll pairs).locals =
      (Entries.get? name pairs.reverse).or (Entries.get? name s.locals) := by
  rw [assignAll_eq]
  exact Entries.get?_putAll name pairs s.locals

end Scope

/-! ## All changes -/

/-- A round of a loop: the target takes an item, and the body runs. -/
def Run.round (host : Host ω) (target : Target) (body : Run ω Flow) (v : Value) : Run ω Flow := do
  Run.bind host target v
  body

namespace Mutation

/-- The container that a change writes to, if it may write to one. -/
def written : Mutation → Option Value
  | .onList _ _ place _ => some (.list place)
  | .onDict _ _ _ _ => none
  | .item object _ _ => some object
  | .unpack _ _ => none

/-- The names that a change assigns. -/
def bound : Mutation → List Text
  | .unpack names _ => names
  | _ => []

/-- All that a change leaves alone: the output, every name but those it assigns, and every
container but the one it writes to. -/
structure Frame (m : Mutation) (s s' : State ω) : Prop where
  world : s'.world = s.world
  scope : s'.scope = { s.scope with locals := s'.scope.locals }
  locals : ∀ name ∉ m.bound,
    Entries.get? name s'.scope.locals = Entries.get? name s.scope.locals
  unbound : m.bound = [] → s'.scope = s.scope
  heap : s.heap.ChangedOnly s'.heap m.written

/-- What a change has made of the container that it writes to, as read by one who holds it. -/
def Rewrites (h h' : Heap) (held result : Value) : Mutation → Prop
  | .onList _ method _ args => ∃ items items', h.iterate held = .ok items ∧
      h'.iterate held = .ok items' ∧ method.Rewrites h args items items' result
  | .item (.list _) key value => ∃ items n place, key.integer? = some n ∧
      h.iterate held = .ok items ∧ Subscript.Means n place items.length ∧
      h'.iterate held = .ok (items.set place value)
  | .item (.dict _) key value => ∃ names names' name, key.text? = some name ∧
      h.iterate held = .ok (names.map .str) ∧ h'.iterate held = .ok (names'.map .str) ∧
      (name ∈ names ∧ names' = names ∨ name ∉ names ∧ names' = names ++ [name]) ∧
      ∀ other, Subscript.get h' held (.str other) =
        if other = name then .ok value else Subscript.get h held (.str other)
  | _ => False

/-- The names that a change assigns have the items of a value afterwards, in order, so that the
last one counts where a name comes twice. -/
def Binds (s s' : State ω) : Mutation → Prop
  | .unpack names value => ∃ items, s.heap.iterate value = .ok items ∧
      items.length = names.length ∧ s'.heap = s.heap ∧ ∀ name,
        Entries.get? name s'.scope.locals =
          (Entries.get? name (names.zip items).reverse).or (Entries.get? name s.scope.locals)
  | _ => True

variable {host : Host ω} {s s' : State ω} {result : Value}

theorem run_onList {identity : Nat} {method : ListMethod} {p : Nat} {args : Arguments}
    (hp : s.heap.has (.list p))
    (hrun : (onList identity method p args).run host s = .ok result s') :
    (onList identity method p args).Frame s s' ∧
      ∀ held, s.heap.identical held (.list p) = true →
        (onList identity method p args).Rewrites s.heap s'.heap held result := by
  obtain ⟨h', hcall, rfl⟩ := Run.effect_ok.mp hrun
  obtain ⟨items', hrewrites, rfl⟩ := ListMethod.call_ok hcall
  refine ⟨⟨rfl, rfl, fun _ _ => rfl, fun _ => rfl, s.heap.changedOnly_withList p items'⟩, ?_⟩
  intro held hheld
  rw [Heap.eq_of_identical_list hheld]
  refine ⟨s.heap.list p, items', rfl, ?_, hrewrites⟩
  exact congrArg Except.ok (Heap.getD_setIfInBounds_self p s.heap.lists items' hp)

theorem run_onDict {identity : Nat} {method : DictMethod} {p : Nat} {args : Arguments}
    (hrun : (onDict identity method p args).run host s = .ok result s') :
    (onDict identity method p args).Frame s s' := by
  obtain ⟨h', hcall, rfl⟩ := Run.effect_ok.mp hrun
  have hextends : s.heap.Extends h' := method.grows_call p args _ _ _ hcall
  exact ⟨rfl, rfl, fun _ _ => rfl, fun _ => rfl, hextends.changedOnly none⟩

theorem run_item {object key value : Value} (hobject : s.heap.has object)
    (hrun : (item object key value).run host s = .ok result s') :
    (item object key value).Frame s s' ∧
      ∀ held, s.heap.identical held object = true →
        (item object key value).Rewrites s.heap s'.heap held result := by
  obtain ⟨u, s₁, hset, hdone⟩ := Run.exists_of_bind hrun
  cases hdone
  obtain ⟨h', hstored, rfl⟩ := Run.effect_ok.mp hset
  rcases Subscript.set_ok hstored with
    ⟨p, n, place, rfl, hn, hmeans, rfl⟩ | ⟨p, name, rfl, hname, rfl⟩
  · refine ⟨⟨rfl, rfl, fun _ _ => rfl, fun _ => rfl, s.heap.changedOnly_withList p _⟩, ?_⟩
    intro held hheld
    rw [Heap.eq_of_identical_list hheld]
    refine ⟨s.heap.list p, n, place, hn, rfl, hmeans, ?_⟩
    exact congrArg Except.ok (Heap.getD_setIfInBounds_self p s.heap.lists _ hobject)
  · refine ⟨⟨rfl, rfl, fun _ _ => rfl, fun _ => rfl, s.heap.changedOnly_withDict p _⟩, ?_⟩
    -- whoever holds the dict holds its place, so all of them read the entries that are there now
    intro held hheld
    have hentries : (s.heap.withDict p (Entries.put name value (s.heap.dict p))).dict p =
        Entries.put name value (s.heap.dict p) :=
      Heap.getD_setIfInBounds_self p s.heap.dicts _ hobject
    rw [Heap.eq_of_identical_dict hheld]
    refine ⟨Entries.names (s.heap.dict p), _, name, hname, rfl,
      congrArg (fun entries => Except.ok ((Entries.names entries).map Value.str)) hentries, ?_, ?_⟩
    · have hnames := Entries.names_put name value (s.heap.dict p)
      by_cases hthere : name ∈ Entries.names (s.heap.dict p)
      · rw [if_pos hthere] at hnames
        exact .inl ⟨hthere, hnames⟩
      · rw [if_neg hthere] at hnames
        exact .inr ⟨hthere, hnames⟩
    · intro other
      rw [Subscript.get_dict, Subscript.get_dict, hentries, Entries.get?_put]
      split
      · rfl
      · rfl

theorem run_unpack {names : List Text} {value : Value}
    (hrun : (unpack names value).run host s = .ok result s') :
    (unpack names value).Frame s s' ∧ (unpack names value).Binds s s' := by
  obtain ⟨u, s₁, hassign, hdone⟩ := Run.exists_of_bind hrun
  cases hdone
  rcases Run.unpack_cases names value s with ⟨cause, hset⟩ | ⟨items, hitems, hlength, hset⟩
  · rw [Run.bind, hset] at hassign
    cases hassign
  · rw [Run.bind, hset] at hassign
    cases hassign
    have hscope : s.scope.assignAll (names.zip items) =
        { s.scope with locals := (s.scope.assignAll (names.zip items)).locals } := by
      rw [Scope.assignAll_eq]
    have hbinds (name : Text) := Scope.get?_assignAll name (names.zip items) s.scope
    refine ⟨⟨rfl, hscope, ?_, ?_, (Heap.Extends.refl _).changedOnly none⟩,
      items, hitems, hlength, rfl, hbinds⟩
    · intro name hname
      have hnames : name ∉ Entries.names (names.zip items).reverse := by
        intro hmem
        obtain ⟨pair, hpair, rfl⟩ := List.mem_map.mp hmem
        exact hname (List.of_mem_zip (List.mem_reverse.mp hpair)).1
      rw [hbinds, Entries.get?_eq_none hnames, Option.none_or]
    · intro hnone
      have hnone : names = [] := hnone
      subst hnone
      rfl

/-- A list extended by itself is doubled: what is put at its end is what was in it before. -/
theorem run_extend_self {identity p : Nat} (hp : s.heap.has (.list p)) :
    ∃ s', (onList identity .extend p ⟨[.list p], []⟩).run host s = .ok .none s' ∧
      ∀ held, s.heap.identical held (.list p) = true →
        s'.heap.iterate held = .ok (s.heap.list p ++ s.heap.list p) := by
  refine ⟨{ s with heap := s.heap.withList p (s.heap.list p ++ s.heap.list p) }, rfl, ?_⟩
  intro held hheld
  rw [Heap.eq_of_identical_list hheld]
  exact congrArg Except.ok (Heap.getD_setIfInBounds_self p s.heap.lists _ hp)

/-- A loop whose target cannot take an item ends there, with all as it was when the item came. -/
theorem round_error {names : List Text} {value : Value} {stop : Stop}
    (hrun : (unpack names value).run host s = .error stop s') (body : Run ω Flow) :
    (∀ rest, Run.overList (Run.round host (.unpack names) body) (value :: rest) s =
        .error stop s) ∧
      ∀ n distance count, value = .int n →
        Run.overRange (Run.round host (.unpack names) body) distance (count + 1) n s =
          .error stop s := by
  have hround : Run.round host (.unpack names) body value s = .error stop s := by
    rcases Run.unpack_cases names value s with ⟨cause, hset⟩ | ⟨items, -, -, hset⟩
    · have hfailed : (unpack names value).run host s = .error (.raised ⟨cause, 0⟩) s :=
        Run.bind_error _ hset
      rw [hfailed] at hrun
      cases hrun
      exact Run.bind_error _ hset
    · have hdone : (unpack names value).run host s =
          .ok .none { s with scope := s.scope.assignAll (names.zip items) } := Run.bind_ok hset
      rw [hdone] at hrun
      cases hrun
  refine ⟨fun rest => Run.bind_error _ hround, ?_⟩
  rintro n distance count rfl
  exact Run.bind_error _ hround

end Mutation

/-- What a change comes to: all or nothing. Step by step it is the same, although no step is ever
taken back. If it fails, the whole state is as before, also where a loop unpacks an item. If it
succeeds, nothing has changed but the container that it writes to, or the names that it assigns;
who holds the container reads the same new contents in it, and a list extended by itself is
doubled. -/
theorem mutations_atomic (host : Host ω) (m : Mutation) (s : State ω)
    (hwritten : ∀ v, m.written = some v → s.heap.has v) :
    m.run host = m.inPlace ∧
    (∀ stop s', m.run host s = .error stop s' → s' = s) ∧
    (∀ result s', m.run host s = .ok result s' →
      m.Frame s s' ∧ m.Binds s s' ∧
        ∀ receiver held, m.written = some receiver → s.heap.identical held receiver = true →
          m.Rewrites s.heap s'.heap held result) ∧
    (∀ identity p, m = .onList identity .extend p ⟨[.list p], []⟩ →
      ∃ s', m.run host s = .ok .none s' ∧
        ∀ held, s.heap.identical held (.list p) = true →
          s'.heap.iterate held = .ok (s.heap.list p ++ s.heap.list p)) ∧
    (∀ names value stop s', m = .unpack names value → m.run host s = .error stop s' →
      ∀ body,
        (∀ rest, Run.overList (Run.round host (.unpack names) body) (value :: rest) s =
          .error stop s) ∧
        ∀ n distance count, value = .int n →
          Run.overRange (Run.round host (.unpack names) body) distance (count + 1) n s =
            .error stop s) := by
  refine ⟨m.run_eq_inPlace host, fun stop s' hrun => Mutation.run_error hrun, ?_, ?_, ?_⟩
  · intro result s' hrun
    cases m with
    | onList identity method p args =>
        obtain ⟨hframe, hrewrites⟩ := Mutation.run_onList (hwritten _ rfl) hrun
        refine ⟨hframe, trivial, ?_⟩
        rintro receiver held ⟨⟩ hheld
        exact hrewrites held hheld
    | onDict identity method p args =>
        refine ⟨Mutation.run_onDict hrun, trivial, ?_⟩
        rintro receiver held ⟨⟩
    | item object key value =>
        obtain ⟨hframe, hrewrites⟩ := Mutation.run_item (hwritten _ rfl) hrun
        refine ⟨hframe, trivial, ?_⟩
        rintro receiver held ⟨⟩ hheld
        exact hrewrites held hheld
    | unpack names value =>
        obtain ⟨hframe, hbinds⟩ := Mutation.run_unpack hrun
        refine ⟨hframe, hbinds, ?_⟩
        rintro receiver held ⟨⟩
  · rintro identity p rfl
    exact Mutation.run_extend_self (hwritten _ rfl)
  · rintro names value stop s' rfl hrun body
    exact Mutation.round_error hrun body

/-- A list under two names, and another list. -/
def sharedList : State Unit :=
  ⟨⟨⟨#[[.int 1, .int 2], [.int 3]], #[], #[], 0⟩, ()⟩,
    ⟨[(['x'], .list 0), (['y'], .list 0), (['z'], .list 1)], [], [], none, 0, #[['a']]⟩⟩

/-- Extends the first list by itself. -/
def extendSelf : Mutation := .onList 0 .extend 0 ⟨[.list 0], []⟩

theorem mutations_atomic_shared :
    (∀ v, extendSelf.written = some v → sharedList.heap.has v) ∧
    ∃ s', extendSelf.run Host.absent sharedList = .ok .none s' ∧
      Run.lookup ['y'] s' = .ok (.list 0) s' ∧
      s'.heap.iterate (.list 0) = .ok [.int 1, .int 2, .int 1, .int 2] ∧
      s'.heap.iterate (.list 1) = .ok [.int 3] ∧ s'.scope = sharedList.scope := by
  have hwritten : ∀ v, extendSelf.written = some v → sharedList.heap.has v := by
    rintro v ⟨⟩
    exact Nat.zero_lt_succ 1
  obtain ⟨-, -, hdone, hself, -⟩ := mutations_atomic Host.absent extendSelf sharedList hwritten
  obtain ⟨s', hrun, hheld⟩ := hself 0 0 rfl
  obtain ⟨hframe, -, -⟩ := hdone .none s' hrun
  have hother : sharedList.heap.agrees s'.heap (.list 1) :=
    hframe.heap.agrees (.list 1) (Nat.lt_succ_self 1) (by rintro ⟨⟩)
  have hscope : s'.scope = sharedList.scope := hframe.unbound rfl
  refine ⟨hwritten, s', hrun, ?_, hheld (.list 0) rfl, congrArg Except.ok hother, hscope⟩
  cases hrun
  rfl

end TemplateEngine
