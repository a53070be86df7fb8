import TemplateEngine.Proofs.Script.Arithmetic
import TemplateEngine.Proofs.Script.Equality

/-!
# Subscripts and slices of sequences

Lists, tuples and texts are seen as the list of their parts, for a text its
characters. A subscript meets a part exactly if it is not further from zero than
there are parts. A slice has the parts between its bounds, each of which is first
moved to a cut of the sequence, and joining has the parts of both sequences.
What is made that way is equal to another sequence of its kind with the same parts,
unless one of them is not equal to itself.
-/
namespace TemplateEngine

namespace Heap

/-- The parts of a sequence that can be cut; those of a text are its characters. -/
def parts? (h : Heap) : Value → Option (List Value)
  | .list p => some (h.list p)
  | .tuple p => some (h.tuple p)
  | .str t => some (t.map fun c => .str [c])
  | .markup t => some (t.map fun c => .markup [c])
  | _ => none

/-- Sequences of one kind. -/
inductive SameKind : Value → Value → Prop
  | list {p q : Nat} : SameKind (.list p) (.list q)
  | tuple {p q : Nat} : SameKind (.tuple p) (.tuple q)
  | str {t u : Text} : SameKind (.str t) (.str u)
  | markup {t u : Text} : SameKind (.markup t) (.markup u)

/-- A sequence on a heap with the given parts. -/
structure HasParts (h : Heap) (v : Value) (items : List Value) : Prop where
  place : h.has v
  parts : h.parts? v = some items

/-- A sequence of the kind of another one, on a heap that has grown to have it. -/
structure Made (h h' : Heap) (like v : Value) (items : List Value) : Prop extends
    h'.HasParts v items where
  kind : SameKind like v
  grown : h.Extends h'
  deeper : v.text? = none → h.depth < h'.depth

variable {h h' h'' : Heap} {a b s u v w : Value} {items : List Value} {d e : Nat}

theorem SameKind.symm (hvw : SameKind v w) : SameKind w v := by
  cases hvw <;> constructor

theorem SameKind.trans (hvw : SameKind v w) (hwu : SameKind w u) : SameKind v u := by
  cases hvw <;> cases hwu <;> constructor

theorem HasParts.extends (hv : h.HasParts v items) (hext : h.Extends h') : h'.HasParts v items where
  place := hext.has v hv.place
  parts := by
    have hagrees := hext.agrees v hv.place
    rw [← hv.parts]
    cases v with
    | list p => exact congrArg some hagrees
    | tuple p => exact congrArg some hagrees
    | _ => rfl

theorem Made.after (hv : h'.Made h'' w v items) (hext : h.Extends h') (hkind : SameKind s w) :
    h.Made h'' s v items where
  toHasParts := hv.toHasParts
  kind := hkind.trans hv.kind
  grown := hext.trans hv.grown
  deeper hv' := Nat.lt_of_le_of_lt hext.depth (hv.deeper hv')

theorem made_list (h : Heap) (p : Nat) (items : List Value) :
    h.Made { h with lists := h.lists.push items } (.list p) (.list h.lists.size) items where
  place := by simp [has]
  parts := congrArg some (getD_push_self items)
  kind := .list
  grown := h.extends_newList items
  deeper _ := by
    simp only [depth, Array.size_push]
    omega

theorem made_tuple (h : Heap) (p : Nat) (items : List Value) :
    h.Made { h with tuples := h.tuples.push items } (.tuple p) (.tuple h.tuples.size) items where
  place := by simp [has]
  parts := congrArg some (getD_push_self items)
  kind := .tuple
  grown := h.extends_newTuple items
  deeper _ := by
    simp only [depth, Array.size_push]
    omega

theorem made_str (h : Heap) (t u : Text) :
    h.Made h (.str t) (.str u) (u.map fun c => .str [c]) :=
  { place := trivial, parts := rfl, kind := .str, grown := .refl h, deeper := nofun }

theorem made_markup (h : Heap) (t u : Text) :
    h.Made h (.markup t) (.markup u) (u.map fun c => .markup [c]) :=
  { place := trivial, parts := rfl, kind := .markup, grown := .refl h, deeper := nofun }

section Equality

/-- Everything that is met on the way down from a value is on the heap. -/
def Placed (h : Heap) (v : Value) : Prop := ∀ w, h.Reaches v w → h.has w

theorem Placed.inside (hv : h.Placed v) (hw : w ∈ h.inside v) : h.Placed w :=
  fun u hu => hv u (.head hw hu)

theorem Acyclic.placed (hv : h.Acyclic v) : h.Placed v := by
  induction hv with
  | intro hplace _ ih =>
      intro w hw
      rcases Relation.ReflTransGen.cases_head hw with rfl | ⟨u, hu, hw⟩
      · exact hplace
      · exact ih u hu w hw

/-- Of the values other than tuples, only a double that is no number is not equal to itself. -/
theorem equal_self (htuple : ∀ p, v ≠ .tuple p) :
    h.equal v v = true ↔ ∀ x, v = .float x → (x == x) = true := by
  cases v with
  | float x => exact ⟨fun hx y hy => by cases hy; exact hx, fun hx => hx x rfl⟩
  | tuple p => exact absurd rfl (htuple p)
  | list p => exact iff_of_true (equalTo_list.mpr (.inl rfl)) nofun
  | dict p => exact iff_of_true (equalTo_dict.mpr (.inl rfl)) nofun
  | _ => exact iff_of_true ((equalTo_face rfl rfl).mpr rfl) nofun

theorem Alike.extends {R : Value → Value → Prop} (hext : h.Extends h') (ha : h.has a)
    (hb : h.has b) (hab : h.Alike R a b) : h'.Alike R a b := by
  have ha := hext.agrees a ha
  have hb := hext.agrees b hb
  cases hab with
  | face hx hy => exact .face hx hy
  | sameList => exact .sameList
  | list hitems => exact .list (by rwa [ha, hb])
  | tuple hitems => exact .tuple (by rwa [ha, hb])
  | sameDict => exact .sameDict
  | dict hentries => exact .dict (by rwa [ha, hb])

/-- What is equal stays equal when the heap grows, and further down. -/
theorem equalTo_extends (hext : h.Extends h') (ha : h.Placed a) (hb : h.Placed b) (hde : d ≤ e)
    (hab : h.equalTo d a b = true) : h'.equalTo e a b = true := by
  induction d generalizing a b e with
  | zero => cases hab
  | succ d ih =>
      obtain ⟨e, rfl⟩ := Nat.exists_eq_add_one.mpr (Nat.lt_of_lt_of_le (Nat.succ_pos d) hde)
      by_cases hfloat : (∃ x, a = .float x) ∨ ∃ x, b = .float x
      · -- the heap has no part in the equality of a float
        rcases hfloat with ⟨x, rfl⟩ | ⟨x, rfl⟩
        · cases b <;> exact hab
        · cases a <;> exact hab
      · have hna (x : Float) : a ≠ .float x := fun heq => hfloat (.inl ⟨x, heq⟩)
        have hnb (x : Float) : b ≠ .float x := fun heq => hfloat (.inr ⟨x, heq⟩)
        rw [equalTo_succ_iff hna hnb] at hab ⊢
        refine Alike.extends hext (ha a .refl) (hb b .refl) (hab.mono fun v hv w hw hvw => ?_)
        exact ih (ha.inside hv) (hb.inside hw) (by omega) hvw

/-- Sequences of one kind are equal if they have the same parts and each is equal to itself. -/
theorem Made.equal (hs : h.HasParts s items) (hplaced : h.Placed s)
    (hself : ∀ v ∈ items, h.equal v v = true) (hw : h.Made h' s w items) :
    h'.equal w s = true := by
  have hs' := hs.extends hw.grown
  have hitems (hinside : items = h.inside s) (hdeeper : h.depth < h'.depth) :
      List.Forall₂ (fun v u => h'.equalTo (h'.depth - 1) v u = true) items items := by
    refine List.forall₂_same.mpr fun v hv => ?_
    have hv' := hplaced.inside (hinside ▸ hv)
    exact equalTo_extends hw.grown hv' hv' (Nat.le_sub_one_of_lt hdeeper) (hself v hv)
  have hparts := hs.parts
  have hparts' := hs'.parts
  have hwparts := hw.parts
  have hdeeper := hw.deeper
  cases hw.kind with
  | @list p q =>
      have hp : h'.list p = items := Option.some.inj hparts'
      have hq : h'.list q = items := Option.some.inj hwparts
      refine equalTo_list.mpr (.inr ?_)
      rw [hp, hq]
      exact hitems (Option.some.inj hparts).symm (hdeeper rfl)
  | @tuple p q =>
      have hp : h'.tuple p = items := Option.some.inj hparts'
      have hq : h'.tuple q = items := Option.some.inj hwparts
      refine equalTo_tuple.mpr ?_
      rw [hp, hq]
      exact hitems (Option.some.inj hparts).symm (hdeeper rfl)
  | str | markup =>
      refine (equalTo_face rfl rfl).mpr (congrArg _ ?_)
      exact (List.map_inj_right (by simp)).mp (Option.some.inj (hwparts.trans hparts.symm))

end Equality
end Heap

namespace Subscript

variable {h h' : Heap} {s v w : Value} {items : List Value}

section Places

/-- An index that meets an item of a sequence of some length. -/
def Meets (length : Nat) (i : Int) : Prop := -length ≤ i ∧ i < length

/-- The place that an index means, counted from the start. -/
def counted (length : Nat) (i : Int) : Nat := (if i < 0 then i + length else i).toNat

variable {α : Type} {items : List α} {i : Int} {length : Nat}

theorem place?_of_meets (hi : Meets length i) : place? i length = some (counted length i) := by
  unfold Meets at hi
  unfold place? counted
  dsimp only
  rw [if_pos]
  simp only [Bool.and_eq_true, decide_eq_true_eq]
  split <;> omega

theorem place?_of_not_meets (hi : ¬ Meets length i) : place? i length = none := by
  unfold Meets at hi
  unfold place?
  dsimp only
  rw [if_neg]
  simp only [Bool.and_eq_true, decide_eq_true_eq]
  split <;> omega

theorem counted_lt (hi : Meets length i) : counted length i < length := by
  unfold Meets at hi
  unfold counted
  split <;> omega

theorem itemAt_of_meets (sequence : SequenceKind) {item : α} (hi : Meets items.length i)
    (hitem : items[counted items.length i]? = some item) : itemAt sequence items i = .ok item := by
  unfold itemAt
  rw [place?_of_meets hi, Option.bind_some, hitem]

theorem itemAt_of_not_meets (sequence : SequenceKind) (hi : ¬ Meets items.length i) :
    itemAt sequence items i = .error (.indexOutOfRange sequence) := by
  unfold itemAt
  rw [place?_of_not_meets hi]
  rfl

/-- An item at an index, turned into a part. -/
theorem itemAt_part (sequence : SequenceKind) (items : List α) (part : α → Value) (i : Int) :
    (Meets (items.map part).length i →
      ∃ v, (items.map part)[counted (items.map part).length i]? = some v ∧
        (itemAt sequence items i).map part = .ok v) ∧
    (¬ Meets (items.map part).length i →
      Raises .indexError ((itemAt sequence items i).map part)) := by
  rw [List.length_map, List.getElem?_map]
  constructor
  · intro hi
    have hitem := List.getElem?_eq_getElem (counted_lt hi)
    rw [itemAt_of_meets sequence hi hitem, hitem]
    exact ⟨_, rfl, rfl⟩
  · intro hi
    exact ⟨.indexOutOfRange sequence, by rw [itemAt_of_not_meets sequence hi]; rfl, rfl⟩

end Places

/-- A subscript gives the part that it meets, if it meets one, and otherwise fails. -/
theorem get_part {i : Int} (hs : h.parts? s = some items) (hv : v.integer? = some i) :
    (Meets items.length i →
      ∃ part, items[counted items.length i]? = some part ∧ get h s v = .ok part) ∧
    (¬ Meets items.length i → Raises .indexError (get h s v)) := by
  have hindex (container : Value) : index container v = .ok i := by
    unfold index
    rw [hv]
  have hid {x : Except Cause Value} : x.map id = x := by cases x <;> rfl
  unfold get
  rw [hindex]
  cases s with
  | list p =>
      cases hs
      have hpart := itemAt_part .list (h.list p) id i
      rwa [List.map_id, hid] at hpart
  | tuple p =>
      cases hs
      have hpart := itemAt_part .tuple (h.tuple p) id i
      rwa [List.map_id, hid] at hpart
  | str t =>
      cases hs
      exact itemAt_part .string t (fun c => .str [c]) i
  | markup t =>
      cases hs
      exact itemAt_part .string t (fun c => .markup [c]) i
  | _ => cases hs

section Slices

/-- Where a bound cuts a sequence of `n` items: a negative one counts from the end, and one beyond
the sequence is moved to its nearer end. -/
def cut (n : Nat) (k : Int) : Nat := (if k < 0 then max (k + n) 0 else min k n).toNat

/-- Where a slice starts. -/
def first (n : Nat) (start : Option Int) : Nat := start.elim 0 (cut n)

/-- Where a slice stops, not before its start. -/
def last (n : Nat) (start stop : Option Int) : Nat := max (first n start) (stop.elim n (cut n))

theorem cut_le (n : Nat) (k : Int) : cut n k ≤ n := by
  unfold cut
  split <;> omega

theorem last_front (n : Nat) (j : Int) : last n none (some j) = cut n j := Nat.zero_max _

theorem last_back (n : Nat) (i : Int) : last n (some i) none = n := Nat.max_eq_right (cut_le n i)

theorem last_middle {n : Nat} {i j : Int} (hij : cut n i ≤ cut n j) :
    last n (some i) (some j) = cut n j := Nat.max_eq_right hij

theorem clamp_eq_cut (n : Nat) (k : Int) : clamp n k = cut n k := by
  unfold clamp cut
  split <;> omega

theorem sliceItems_eq {α : Type} (items : List α) (start stop : Option Int) :
    sliceItems items start stop =
      items.extract (first items.length start) (last items.length start stop) := by
  have hstart : (start.map (clamp items.length)).getD 0 = first items.length start := by
    cases start with
    | none => rfl
    | some k => exact clamp_eq_cut _ k
  have hstop : (stop.map (clamp items.length)).getD items.length =
      stop.elim items.length (cut items.length) := by
    cases stop with
    | none => rfl
    | some k => exact clamp_eq_cut _ k
  unfold sliceItems
  dsimp only
  rw [hstart, hstop, List.extract_eq_take_drop, List.drop_take]
  rfl

theorem sliceItems_map {α β : Type} (f : α → β) (items : List α) (start stop : Option Int) :
    sliceItems (items.map f) start stop = (sliceItems items start stop).map f := by
  unfold sliceItems
  simp only [List.length_map, List.map_drop, List.map_take]

/-- Neighbouring pieces of a list, joined. -/
theorem extract_append {α : Type} (items : List α) {a b c : Nat} (hab : a ≤ b) (hbc : b ≤ c) :
    items.extract a b ++ items.extract b c = items.extract a c := by
  simp only [List.extract_eq_take_drop]
  have hdrop : items.drop b = (items.drop a).drop (b - a) := by
    rw [List.drop_drop, Nat.add_sub_cancel' hab]
  have hwidth : c - a = (b - a) + (c - b) := by omega
  rw [hdrop, hwidth, List.take_add]

theorem extract_whole {α : Type} (items : List α) : items.extract 0 items.length = items := by
  rw [List.extract_eq_take_drop, List.drop_zero, Nat.sub_zero, List.take_length]

/-- A slice is a sequence of the same kind with the parts between its bounds. -/
theorem slice_made (start stop : Option Value) {i j : Option Int} (hs : h.HasParts s items)
    (hstart : bound? start = .ok i) (hstop : bound? stop = .ok j) :
    ∃ w h', slice s start stop h = .ok (w, h') ∧
      h.Made h' s w (items.extract (first items.length i) (last items.length i j)) := by
  rw [← sliceItems_eq]
  have hslice {x : Option Int → Option Int → Effect Value} {outcome : Except Cause (Value × Heap)}
      (hx : x i j h = outcome) : (do
        let i ← Effect.ofExcept (bound? start)
        let j ← Effect.ofExcept (bound? stop)
        x i j : Effect Value) h = outcome :=
    (Effect.bind_ok (Effect.ofExcept_eq_ok hstart)).trans
      ((Effect.bind_ok (Effect.ofExcept_eq_ok hstop)).trans hx)
  have hparts := hs.parts
  unfold slice
  cases s with
  | list p =>
      cases hparts
      exact ⟨_, _, hslice rfl, h.made_list p _⟩
  | tuple p =>
      cases hparts
      exact ⟨_, _, hslice rfl, h.made_tuple p _⟩
  | str t =>
      cases hparts
      rw [sliceItems_map]
      exact ⟨_, _, hslice rfl, h.made_str t _⟩
  | markup t =>
      cases hparts
      rw [sliceItems_map]
      exact ⟨_, _, hslice rfl, h.made_markup t _⟩
  | _ => cases hparts

end Slices

end Subscript

/-- Two sequences of one kind, joined: one of that kind with the parts of both. -/
theorem Operator.join_made {h : Heap} {v w : Value} {items others : List Value}
    (hkind : Heap.SameKind v w) (hv : h.HasParts v items) (hw : h.HasParts w others) :
    ∃ u h', binary .add v w h = .ok (u, h') ∧ h.Made h' v u (items ++ others) := by
  have hitems := hv.parts
  have hothers := hw.parts
  cases hkind <;> cases hitems <;> cases hothers
  case list p q => exact ⟨_, _, rfl, h.made_list p _⟩
  case tuple p q => exact ⟨_, _, rfl, h.made_tuple p _⟩
  case str t u =>
    rw [← List.map_append]
    exact ⟨_, _, rfl, h.made_str t _⟩
  case markup t u =>
    rw [← List.map_append]
    exact ⟨_, _, rfl, h.made_markup t _⟩

end TemplateEngine
