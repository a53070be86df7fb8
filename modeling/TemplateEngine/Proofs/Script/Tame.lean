import TemplateEngine.Proofs.Script.SafeOperators

/-!
# Tame values

A value is tame if no way to render another template is reached from it. A page that
names only tame values stays among them: whatever is new on the heap since some moment
was not there at that moment, so it led nowhere and was tame already. This makes one
fixed set of values, that of the heap at the start, an invariant of everything that
happens later.
-/
namespace TemplateEngine

/-- Whether a value is a way to render another template. -/
def Value.isInclusion : Value → Bool
  | .function (.inclusion _) => true
  | _ => false

namespace Heap

/-- No way to render another template is reached from a value. -/
def Tame (h : Heap) (v : Value) : Prop :=
  ∀ w, Relation.ReflTransGen (fun a b => b ∈ h.leads a) v w → w.isInclusion = false

section Tame

variable {base : Heap} {v w : Value}

theorem Tame.not_inclusion (hv : base.Tame v) : v.isInclusion = false := hv v .refl

theorem Tame.of_leads (hv : base.Tame v) (hw : w ∈ base.leads v) : base.Tame w := by
  intro u hu
  exact hv u (.head hw hu)

theorem tame_of_leads (hv : v.isInclusion = false) (hleads : ∀ w ∈ base.leads v, base.Tame w) :
    base.Tame v := by
  intro w hw
  rcases hw.cases_head with heq | ⟨u, hu, hw⟩
  · subst heq
    exact hv
  · exact hleads u hu w hw

theorem tame_of_leaf (hv : v.isInclusion = false) (hleaf : base.leads v = []) : base.Tame v := by
  apply tame_of_leads hv
  intro w hw
  rw [hleaf] at hw
  cases hw

theorem tame_plain (hv : v.isPlain = true) : base.Tame v := by
  cases v with
  | markup t => cases hv
  | list p => cases hv
  | tuple p => cases hv
  | dict p => cases hv
  | function f => cases hv
  | _ => exact tame_of_leaf rfl rfl

theorem tame_markup (t : Text) : base.Tame (.markup t) := tame_of_leaf rfl rfl

theorem tame_textLike (v : Value) (t : Text) : base.Tame (v.textLike t) := by
  cases v with
  | markup s => exact tame_markup t
  | _ => exact tame_plain rfl

/-- A later heap, on which the tame values of an earlier one lead to no others. -/
structure Tames (base h : Heap) : Prop where
  lists : base.lists.size ≤ h.lists.size
  tuples : base.tuples.size ≤ h.tuples.size
  dicts : base.dicts.size ≤ h.dicts.size
  leads : ∀ v, base.Tame v → ∀ w ∈ h.leads v, base.Tame w

theorem tames_refl (base : Heap) : base.Tames base where
  lists := Nat.le_refl _
  tuples := Nat.le_refl _
  dicts := Nat.le_refl _
  leads _ hv _ hw := hv.of_leads hw

end Tame

namespace Tames

variable {base h : Heap} {p : Nat} (hh : base.Tames h)
include hh

theorem list (hp : base.Tame (.list p)) : ∀ v ∈ h.list p, base.Tame v := hh.leads _ hp

theorem tuple (hp : base.Tame (.tuple p)) : ∀ v ∈ h.tuple p, base.Tame v := hh.leads _ hp

theorem dict (hp : base.Tame (.dict p)) : ∀ entry ∈ h.dict p, base.Tame entry.2 := by
  intro entry hentry
  exact hh.leads _ hp entry.2 (List.mem_map_of_mem hentry)

/-- New lists, and new items for old ones. -/
theorem withLists {lists : Array (List Value)} (hsize : h.lists.size ≤ lists.size)
    (hlists : ∀ p, ∀ v ∈ lists.getD p [], v ∈ h.list p ∨ base.Tame v) :
    base.Tames { h with lists := lists } where
  lists := hh.lists.trans hsize
  tuples := hh.tuples
  dicts := hh.dicts
  leads := by
    intro v hv w hw
    cases v with
    | list p =>
        rcases hlists p w hw with hw | hw
        · exact hh.list hv w hw
        · exact hw
    | _ => exact hh.leads _ hv w hw

theorem withTuples {tuples : Array (List Value)} (hsize : h.tuples.size ≤ tuples.size)
    (htuples : ∀ p, ∀ v ∈ tuples.getD p [], v ∈ h.tuple p ∨ base.Tame v) :
    base.Tames { h with tuples := tuples } where
  lists := hh.lists
  tuples := hh.tuples.trans hsize
  dicts := hh.dicts
  leads := by
    intro v hv w hw
    cases v with
    | tuple p =>
        rcases htuples p w hw with hw | hw
        · exact hh.tuple hv w hw
        · exact hw
    | _ => exact hh.leads _ hv w hw

theorem withDicts {dicts : Array (Entries Value)} (hsize : h.dicts.size ≤ dicts.size)
    (hdicts : ∀ p, ∀ entry ∈ dicts.getD p [], entry ∈ h.dict p ∨ base.Tame entry.2) :
    base.Tames { h with dicts := dicts } where
  lists := hh.lists
  tuples := hh.tuples
  dicts := hh.dicts.trans hsize
  leads := by
    intro v hv w hw
    cases v with
    | dict p =>
        obtain ⟨entry, hentry, rfl⟩ := List.mem_map.mp hw
        rcases hdicts p entry hentry with hentry | hentry
        · exact hh.dict hv entry hentry
        · exact hentry
    | _ => exact hh.leads _ hv w hw

theorem withIdentities (n : Nat) : base.Tames { h with identities := n } where
  lists := hh.lists
  tuples := hh.tuples
  dicts := hh.dicts
  leads := by
    intro v hv w hw
    cases v <;> exact hh.leads _ hv w hw

/-- A place that has not been given out leads nowhere at the start. -/
theorem tame_list (hp : h.lists.size ≤ p) : base.Tame (.list p) := by
  have hbase := hh.lists.trans hp
  apply tame_of_leaf rfl
  simp [Heap.leads, Heap.list, Array.getD_eq_getD_getElem?, hbase]

theorem tame_tuple (hp : h.tuples.size ≤ p) : base.Tame (.tuple p) := by
  have hbase := hh.tuples.trans hp
  apply tame_of_leaf rfl
  simp [Heap.leads, Heap.tuple, Array.getD_eq_getD_getElem?, hbase]

theorem tame_dict (hp : h.dicts.size ≤ p) : base.Tame (.dict p) := by
  have hbase := hh.dicts.trans hp
  apply tame_of_leaf rfl
  simp [Heap.leads, Heap.dict, Array.getD_eq_getD_getElem?, hbase]

end Tames

end Heap

namespace Effect

variable {α β : Type} {base : Heap}

/-- An effect that leaves every heap tame, and whose result, if it has one, has a property. -/
def Tame (base : Heap) (x : Effect α) (P : α → Prop) : Prop :=
  ∀ h a h', base.Tames h → x h = .ok (a, h') → base.Tames h' ∧ P a

theorem exists_of_bind {x : Effect α} {f : α → Effect β} {h h'' : Heap} {b : β}
    (hrun : (x >>= f) h = .ok (b, h'')) : ∃ a h', x h = .ok (a, h') ∧ f a h' = .ok (b, h'') := by
  obtain ⟨⟨a, h'⟩, hfirst, hrest⟩ := exists_of_bind_ok hrun
  exact ⟨a, h', hfirst, hrest⟩

theorem Tame.bind {x : Effect α} {f : α → Effect β} {P : α → Prop} {Q : β → Prop}
    (hx : Tame base x P) (hf : ∀ a, P a → Tame base (f a) Q) : Tame base (x >>= f) Q := by
  intro h b h'' hh hrun
  obtain ⟨a, h', hfirst, hrest⟩ := exists_of_bind hrun
  obtain ⟨hh', ha⟩ := hx h a h' hh hfirst
  exact hf a ha h' b h'' hh' hrest

theorem Tame.map {x : Effect α} {f : α → β} {P : β → Prop} (hx : Tame base x fun a => P (f a)) :
    Tame base (StateT.map f x) P := by
  intro h b h'' hh hrun
  obtain ⟨⟨a, h'⟩, hfirst, hrest⟩ := exists_of_bind_ok hrun
  cases hrest
  exact hx h a _ hh hfirst

theorem tame_pure {a : α} {P : α → Prop} (ha : P a) : Tame base (pure a) P := by
  intro h b h' hh hrun
  cases hrun
  exact ⟨hh, ha⟩

theorem tame_fail {cause : Cause} {P : α → Prop} : Tame base (fail cause) P := by
  intro h b h' hh hrun
  cases hrun

theorem tame_reading {f : Heap → α} {P : α → Prop} (hf : ∀ h, base.Tames h → P (f h)) :
    Tame base (reading f) P := by
  intro h b h' hh hrun
  cases hrun
  exact ⟨hh, hf h hh⟩

theorem tame_checking {f : Heap → Except Cause α} {P : α → Prop}
    (hf : ∀ h, base.Tames h → ∀ a, f h = .ok a → P a) : Tame base (checking f) P := by
  intro h b h' hh hrun
  unfold checking at hrun
  cases hresult : f h with
  | error cause =>
      rw [hresult] at hrun
      cases hrun
  | ok a =>
      rw [hresult] at hrun
      cases hrun
      exact ⟨hh, hf h hh b hresult⟩

theorem tame_ofExcept {e : Except Cause α} {P : α → Prop} (he : ∀ a, e = .ok a → P a) :
    Tame base (ofExcept e) P := by
  cases e with
  | error cause => exact tame_fail
  | ok a => exact tame_pure (he a rfl)

/-- A check whose result does not matter. -/
theorem tame_check {e : Except Cause α} : Tame base (ofExcept e) fun _ => True :=
  tame_ofExcept fun _ _ => trivial

theorem tame_orFail {cause : Cause} {o : Option α} {P : α → Prop} (ho : ∀ a, o = some a → P a) :
    Tame base (orFail cause o) P := by
  cases o with
  | none => exact tame_fail
  | some a => exact tame_pure (ho a rfl)

theorem tame_newList {items : List Value} (hitems : ∀ v ∈ items, base.Tame v) :
    Tame base (newList items) base.Tame := by
  intro h v h' hh hrun
  cases hrun
  constructor
  · apply hh.withLists
    · simp
    · intro p w hw
      exact (mem_getD_push hw).imp id (hitems w)
  · exact hh.tame_list (Nat.le_refl _)

theorem tame_newTuple {items : List Value} (hitems : ∀ v ∈ items, base.Tame v) :
    Tame base (newTuple items) base.Tame := by
  intro h v h' hh hrun
  cases hrun
  constructor
  · apply hh.withTuples
    · simp
    · intro p w hw
      exact (mem_getD_push hw).imp id (hitems w)
  · exact hh.tame_tuple (Nat.le_refl _)

theorem tame_newDict {entries : Entries Value} (hentries : ∀ entry ∈ entries, base.Tame entry.2) :
    Tame base (newDict entries) base.Tame := by
  intro h v h' hh hrun
  cases hrun
  constructor
  · apply hh.withDicts
    · simp
    · intro p entry hentry
      exact (mem_getD_push hentry).imp id (hentries entry)
  · exact hh.tame_dict (Nat.le_refl _)

theorem tame_readList {p : Nat} (hp : base.Tame (.list p)) :
    Tame base (reading (·.list p)) fun items => ∀ v ∈ items, base.Tame v :=
  tame_reading fun _ hh => hh.list hp

theorem tame_readTuple {p : Nat} (hp : base.Tame (.tuple p)) :
    Tame base (reading (·.tuple p)) fun items => ∀ v ∈ items, base.Tame v :=
  tame_reading fun _ hh => hh.tuple hp

theorem tame_readDict {p : Nat} (hp : base.Tame (.dict p)) :
    Tame base (reading (·.dict p)) fun entries => ∀ entry ∈ entries, base.Tame entry.2 :=
  tame_reading fun _ hh => hh.dict hp

theorem tame_setList {place : Nat} {items : List Value} (hitems : ∀ v ∈ items, base.Tame v) :
    Tame base (setList place items) fun _ => True := by
  intro h u h' hh hrun
  cases hrun
  constructor
  · apply hh.withLists
    · simp
    · intro p w hw
      exact (mem_getD_set hw).imp id (hitems w)
  · trivial

theorem tame_setDict {place : Nat} {entries : Entries Value}
    (hentries : ∀ entry ∈ entries, base.Tame entry.2) :
    Tame base (setDict place entries) fun _ => True := by
  intro h u h' hh hrun
  cases hrun
  constructor
  · apply hh.withDicts
    · simp
    · intro p entry hentry
      exact (mem_getD_set hentry).imp id (hentries entry)
  · trivial

theorem tame_newIdentity : Tame base newIdentity fun _ => True := by
  intro h n h' hh hrun
  cases hrun
  exact ⟨hh.withIdentities _, trivial⟩

end Effect

namespace Operator

variable {base : Heap} {a b v : Value}

open Effect in
theorem tame_repeat {count : Int} {effect : Effect Value} (hv : base.Tame v)
    (heffect : repeat? v count = some effect) : Effect.Tame base effect base.Tame := by
  cases v with
  | str t =>
      cases heffect
      apply Effect.Tame.map
      exact tame_ofExcept fun _ _ => Heap.tame_plain rfl
  | markup t =>
      cases heffect
      apply Effect.Tame.map
      exact tame_ofExcept fun found _ => Heap.tame_markup found
  | list p =>
      cases heffect
      apply Effect.Tame.bind (tame_readList hv)
      intro items hitems
      apply Effect.Tame.bind (P := fun found => ∀ item ∈ found, base.Tame item)
      · apply tame_ofExcept
        intro found hfound item hitem
        exact hitems item (mem_of_repeated hfound item hitem)
      · intro found hfound
        exact tame_newList hfound
  | tuple p =>
      cases heffect
      apply Effect.Tame.bind (tame_readTuple hv)
      intro items hitems
      apply Effect.Tame.bind (P := fun found => ∀ item ∈ found, base.Tame item)
      · apply tame_ofExcept
        intro found hfound item hitem
        exact hitems item (mem_of_repeated hfound item hitem)
      · intro found hfound
        exact tame_newTuple hfound
  | _ => cases heffect

theorem tame_join {effect : Effect Value} (ha : base.Tame a) (hb : base.Tame b)
    (heffect : join? a b = some effect) : effect.Tame base base.Tame := by
  unfold join? at heffect
  split at heffect
  · cases heffect
    exact Effect.tame_pure (Heap.tame_markup _)
  · cases heffect
    apply Effect.Tame.bind (P := fun items => ∀ item ∈ items, base.Tame item)
    · apply Effect.tame_reading
      intro h hh item hitem
      rcases List.mem_append.mp hitem with hitem | hitem
      · exact hh.list ha item hitem
      · exact hh.list hb item hitem
    · intro items hitems
      exact Effect.tame_newList hitems
  · cases heffect
    apply Effect.Tame.bind (P := fun items => ∀ item ∈ items, base.Tame item)
    · apply Effect.tame_reading
      intro h hh item hitem
      rcases List.mem_append.mp hitem with hitem | hitem
      · exact hh.tuple ha item hitem
      · exact hh.tuple hb item hitem
    · intro items hitems
      exact Effect.tame_newTuple hitems
  · split at heffect
    · cases heffect
      exact Effect.tame_pure (Heap.tame_plain rfl)
    · cases heffect

theorem tame_times {effect : Effect Value} (ha : base.Tame a) (hb : base.Tame b)
    (heffect : times? a b = some effect) : effect.Tame base base.Tame := by
  unfold times? at heffect
  split at heffect
  · rename_i found hfound
    cases heffect
    obtain ⟨count, -, hrepeat⟩ := Option.bind_eq_some_iff.mp hfound
    exact tame_repeat ha hrepeat
  · obtain ⟨count, -, hrepeat⟩ := Option.bind_eq_some_iff.mp heffect
    exact tame_repeat hb hrepeat

theorem tame_onOthers {op : BinaryOp} {effect : Effect Value} (ha : base.Tame a)
    (hb : base.Tame b) (heffect : onOthers? op a b = some effect) :
    effect.Tame base base.Tame := by
  cases op with
  | add => exact tame_join ha hb heffect
  | mul => exact tame_times ha hb heffect
  | mod =>
      obtain ⟨format, -, hformat⟩ := Option.map_eq_some_iff.mp heffect
      subst hformat
      apply Effect.Tame.bind (Effect.tame_checking (P := fun _ => True) fun _ _ _ _ => trivial)
      intro t _
      exact Effect.tame_pure (Heap.tame_plain rfl)
  | _ => cases heffect

theorem tame_binary (op : BinaryOp) (ha : base.Tame a) (hb : base.Tame b) :
    (binary op a b).Tame base base.Tame := by
  unfold binary
  split
  · apply Effect.tame_ofExcept
    intro v hv
    exact Heap.tame_plain (Number.isPlain_arithmetic hv)
  · cases heffect : onOthers? op a b with
    | none => exact Effect.tame_fail
    | some effect => exact tame_onOthers ha hb heffect

end Operator

namespace Subscript

variable {base h : Heap} {object v : Value}

theorem tame_get {r : Value} (hh : base.Tames h) (hobject : base.Tame object)
    (hr : get h object v = .ok r) : base.Tame r := by
  unfold get at hr
  split at hr
  · obtain ⟨n, -, hitem⟩ := exists_of_bind_ok hr
    exact hh.list hobject r (mem_of_itemAt hitem)
  · obtain ⟨n, -, hitem⟩ := exists_of_bind_ok hr
    exact hh.tuple hobject r (mem_of_itemAt hitem)
  · obtain ⟨n, -, hplace⟩ := exists_of_bind_ok hr
    split at hplace
    · cases hplace
      exact Heap.tame_plain rfl
    · cases hplace
  · obtain ⟨n, -, hr⟩ := exists_of_bind_ok hr
    obtain ⟨c, -, hr⟩ := exists_of_bind_ok hr
    cases hr
    exact Heap.tame_textLike _ _
  · obtain ⟨n, -, hr⟩ := exists_of_bind_ok hr
    obtain ⟨c, -, hr⟩ := exists_of_bind_ok hr
    cases hr
    exact Heap.tame_textLike _ _
  · obtain ⟨name, -, hr⟩ := exists_of_bind_ok hr
    split at hr
    · rename_i value hvalue
      cases hr
      obtain ⟨entry, hentry, rfl⟩ := mem_of_get? hvalue
      exact hh.dict hobject entry hentry
    · cases hr
  · cases hr

theorem tame_slice (hobject : base.Tame object) (start stop : Option Value) :
    (slice object start stop).Tame base base.Tame := by
  unfold slice
  apply Effect.Tame.bind Effect.tame_check
  intro first _
  apply Effect.Tame.bind Effect.tame_check
  intro last _
  split
  · apply Effect.Tame.bind (Effect.tame_readList hobject)
    intro items hitems
    exact Effect.tame_newList fun item hitem => hitems item (mem_of_sliceItems hitem)
  · apply Effect.Tame.bind (Effect.tame_readTuple hobject)
    intro items hitems
    exact Effect.tame_newTuple fun item hitem => hitems item (mem_of_sliceItems hitem)
  · exact Effect.tame_pure (Heap.tame_textLike _ _)
  · exact Effect.tame_pure (Heap.tame_textLike _ _)
  · exact Effect.tame_fail

theorem tame_set {value : Value} (hobject : base.Tame object) (hvalue : base.Tame value) :
    (set object v value).Tame base fun _ => True := by
  unfold set
  split
  · apply Effect.Tame.bind Effect.tame_check
    intro n _
    apply Effect.Tame.bind (Effect.tame_readList hobject)
    intro items hitems
    split
    · apply Effect.tame_setList
      intro w hw
      rcases List.mem_or_eq_of_mem_set hw with hw | rfl
      · exact hitems w hw
      · exact hvalue
    · exact Effect.tame_fail
  · apply Effect.Tame.bind Effect.tame_check
    intro name _
    apply Effect.Tame.bind (Effect.tame_readDict hobject)
    intro entries hentries
    apply Effect.tame_setDict
    intro entry hentry
    rcases mem_of_put hentry with hentry | hentry
    · exact hentries entry hentry
    · rw [hentry]
      exact hvalue
  · exact Effect.tame_fail

end Subscript

end TemplateEngine
