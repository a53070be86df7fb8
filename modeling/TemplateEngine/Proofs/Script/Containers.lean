import Mathlib.Data.Finset.Card
import Mathlib.Data.Finset.Union
import Mathlib.Logic.Relation
import TemplateEngine.Script.Printed

/-!
# Containers on the heap

The text of a value follows containers down to the depth of the heap. A value
that does not contain itself is never cut off there: on the way down no container
is met twice, and there are fewer of them than the depth allows. So its text
stays what it is when the heap grows.
-/
namespace TemplateEngine.Heap

/-- The values that a value contains. -/
def inside (h : Heap) : Value → List Value
  | .list p => h.list p
  | .tuple p => h.tuple p
  | .dict p => (h.dict p).map Prod.snd
  | _ => []

/-- A container is on the heap; any other value needs no place there. -/
def has (h : Heap) : Value → Prop
  | .list p => p < h.lists.size
  | .tuple p => p < h.tuples.size
  | .dict p => p < h.dicts.size
  | _ => True

/-- A value that is on the heap with everything in it, and that does not contain itself. -/
inductive Acyclic (h : Heap) : Value → Prop
  | intro {v : Value} : h.has v → (∀ w ∈ h.inside v, Acyclic h w) → Acyclic h v

/-- The way down from a value into what it contains. -/
abbrev Reaches (h : Heap) : Value → Value → Prop :=
  Relation.ReflTransGen fun v w => w ∈ h.inside v

theorem Acyclic.not_reaches {h : Heap} {v : Value} (hv : h.Acyclic v) :
    ∀ w ∈ h.inside v, ¬ h.Reaches w v := by
  induction hv with
  | @intro v _ _ ih =>
      intro w hw hback
      rcases hback.cases_head with heq | ⟨u, hu, hback⟩
      · subst heq
        exact ih w hw w hw .refl
      · exact ih w hw u hu (hback.tail hw)

/-- All containers of a heap. -/
def containers (h : Heap) : Finset Value :=
  (Finset.range h.lists.size).image .list ∪ (Finset.range h.tuples.size).image .tuple ∪
    (Finset.range h.dicts.size).image .dict

theorem card_containers (h : Heap) : h.containers.card < h.depth := by
  have hlists : ((Finset.range h.lists.size).image Value.list).card ≤ h.lists.size :=
    Finset.card_image_le.trans_eq (Finset.card_range _)
  have htuples : ((Finset.range h.tuples.size).image Value.tuple).card ≤ h.tuples.size :=
    Finset.card_image_le.trans_eq (Finset.card_range _)
  have hdicts : ((Finset.range h.dicts.size).image Value.dict).card ≤ h.dicts.size :=
    Finset.card_image_le.trans_eq (Finset.card_range _)
  have hfirst := Finset.card_union_le ((Finset.range h.lists.size).image Value.list)
    ((Finset.range h.tuples.size).image Value.tuple)
  have hall := Finset.card_union_le ((Finset.range h.lists.size).image Value.list ∪
    (Finset.range h.tuples.size).image Value.tuple) ((Finset.range h.dicts.size).image Value.dict)
  unfold containers depth
  omega

theorem mem_containers {h : Heap} {v w : Value} (hv : h.has v) (hw : w ∈ h.inside v) :
    v ∈ h.containers := by
  cases v with
  | list p => simpa [containers, has] using hv
  | tuple p => simpa [containers, has] using hv
  | dict p => simpa [containers, has] using hv
  | _ => cases hw

open scoped Classical in
/-- The containers that are met on the way down from a value. -/
noncomputable def below (h : Heap) (v : Value) : Finset Value :=
  h.containers.filter fun c => h.Reaches v c

open scoped Classical in
theorem mem_below {h : Heap} {v c : Value} :
    c ∈ h.below v ↔ c ∈ h.containers ∧ h.Reaches v c := by
  unfold below
  exact Finset.mem_filter

open scoped Classical in
theorem card_below (h : Heap) (v : Value) : (h.below v).card < h.depth :=
  Nat.lt_of_le_of_lt (Finset.card_filter_le _ _) h.card_containers

theorem Acyclic.card_below_lt {h : Heap} {v w : Value} (hv : h.Acyclic v)
    (hw : w ∈ h.inside v) : (h.below w).card < (h.below v).card := by
  have hplace : h.has v := by
    cases hv
    assumption
  apply Finset.card_lt_card
  constructor
  · intro c hc
    rw [mem_below] at hc ⊢
    exact ⟨hc.1, .head hw hc.2⟩
  · intro hsubset
    have hself : v ∈ h.below v := mem_below.mpr ⟨mem_containers hplace hw, .refl⟩
    have hback := mem_below.mp (hsubset hself)
    exact hv.not_reaches w hw hback.2

/-- Two heaps give the same items to a value. -/
def agrees (h h' : Heap) : Value → Prop
  | .list p => h'.list p = h.list p
  | .tuple p => h'.tuple p = h.tuple p
  | .dict p => h'.dict p = h.dict p
  | _ => True

theorem agrees_refl (h : Heap) (v : Value) : h.agrees h v := by
  cases v <;> trivial

section Written

variable (h : Heap) (d p : Nat)

theorem reprTo_list : h.reprTo (d + 1) (.list p) =
    '[' :: Text.join ", " ((h.list p).map (h.reprTo d)) ++ [']'] := rfl

theorem reprTo_tuple : h.reprTo (d + 1) (.tuple p) =
    match h.tuple p with
    | [item] => '(' :: h.reprTo d item ++ ",)"
    | items => '(' :: Text.join ", " (items.map (h.reprTo d)) ++ [')'] := rfl

theorem reprTo_dict : h.reprTo (d + 1) (.dict p) =
    '\x7b' :: Text.join ", " ((h.dict p).map fun entry =>
      Quoted.encode entry.1 ++ ": " ++ h.reprTo d entry.2) ++ ['\x7d'] := rfl

end Written

theorem reprTo_congr {h h' : Heap} {d e : Nat} {v : Value} (hv : h.agrees h' v)
    (hinside : ∀ w ∈ h.inside v, h'.reprTo e w = h.reprTo d w) :
    h'.reprTo (e + 1) v = h.reprTo (d + 1) v := by
  cases v with
  | list p =>
      have hv : h'.list p = h.list p := hv
      have hitems : (h.list p).map (h'.reprTo e) = (h.list p).map (h.reprTo d) :=
        List.map_congr_left hinside
      rw [reprTo_list, reprTo_list, hv, hitems]
  | tuple p =>
      have hv : h'.tuple p = h.tuple p := hv
      have hitems : (h.tuple p).map (h'.reprTo e) = (h.tuple p).map (h.reprTo d) :=
        List.map_congr_left hinside
      rw [reprTo_tuple, reprTo_tuple, hv]
      split
      · rename_i item htuple
        rw [hinside item (by simp [inside, htuple])]
      · rw [hitems]
  | dict p =>
      have hv : h'.dict p = h.dict p := hv
      have hentries : ∀ entry ∈ h.dict p,
          Quoted.encode entry.1 ++ ": " ++ h'.reprTo e entry.2 =
            Quoted.encode entry.1 ++ ": " ++ h.reprTo d entry.2 := by
        intro entry hentry
        rw [hinside entry.2 (List.mem_map_of_mem hentry)]
      rw [reprTo_dict, reprTo_dict, hv, List.map_congr_left hentries]
  | bool b => cases b <;> rfl
  | _ => rfl

/-- Any depth that is greater than the number of containers below a value shows all of it. -/
theorem Acyclic.reprTo_enough {h : Heap} {v : Value} (hv : h.Acyclic v) {d e : Nat}
    (hd : (h.below v).card < d) (he : (h.below v).card < e) : h.reprTo e v = h.reprTo d v := by
  induction hv generalizing d e with
  | @intro v hplace hinside ih =>
      obtain ⟨d, rfl⟩ := Nat.exists_eq_add_one.mpr (Nat.lt_of_le_of_lt (Nat.zero_le _) hd)
      obtain ⟨e, rfl⟩ := Nat.exists_eq_add_one.mpr (Nat.lt_of_le_of_lt (Nat.zero_le _) he)
      apply reprTo_congr (h.agrees_refl v)
      intro w hw
      have hfewer := (Acyclic.intro hplace hinside).card_below_lt hw
      exact ih w hw (by omega) (by omega)

/-- A heap that has grown: what was there is there, with the same items. -/
structure Extends (h h' : Heap) : Prop where
  has : ∀ v, h.has v → h'.has v
  agrees : ∀ v, h.has v → h.agrees h' v
  depth : h.depth ≤ h'.depth

theorem Extends.refl (h : Heap) : h.Extends h :=
  ⟨fun _ hv => hv, fun v _ => h.agrees_refl v, Nat.le_refl _⟩

theorem Extends.trans {h h' h'' : Heap} (hfirst : h.Extends h') (hsecond : h'.Extends h'') :
    h.Extends h'' := by
  constructor
  · intro v hv
    exact hsecond.has v (hfirst.has v hv)
  · intro v hv
    have hfirst' := hfirst.agrees v hv
    have hsecond' := hsecond.agrees v (hfirst.has v hv)
    cases v with
    | list p => exact Eq.trans hsecond' hfirst'
    | tuple p => exact Eq.trans hsecond' hfirst'
    | dict p => exact Eq.trans hsecond' hfirst'
    | _ => trivial
  · exact Nat.le_trans hfirst.depth hsecond.depth

theorem Acyclic.reprTo_extends {h h' : Heap} (hext : h.Extends h') {v : Value}
    (hv : h.Acyclic v) (d : Nat) : h'.reprTo d v = h.reprTo d v := by
  induction hv generalizing d with
  | @intro v hplace _ ih =>
      cases d with
      | zero => rfl
      | succ d =>
          apply reprTo_congr (hext.agrees v hplace)
          intro w hw
          exact ih w hw d

/-- The text of an acyclic value stays what it is when the heap grows. -/
theorem Acyclic.display_extends {h h' : Heap} (hext : h.Extends h') {v : Value}
    (hv : h.Acyclic v) : h'.display v = h.display v := by
  have hrepr : h'.repr v = h.repr v := by
    have hdepth := h.card_below v
    have hgrown := hext.depth
    unfold repr
    rw [hv.reprTo_extends hext, hv.reprTo_enough hdepth (by omega)]
  cases v with
  | str t => rfl
  | markup t => rfl
  | exception i kind message => rfl
  | _ => exact hrepr

section Growth

variable {α : Type} {places : Array (List α)} {p : Nat} (more : List α)

theorem getD_push_of_lt (hp : p < places.size) : (places.push more).getD p [] = places.getD p [] := by
  simp only [Array.getD_eq_getD_getElem?, Array.getElem?_push]
  rw [if_neg (Nat.ne_of_lt hp)]

theorem getD_push_self : (places.push more).getD places.size [] = more := by
  simp [Array.getD_eq_getD_getElem?]

end Growth

theorem extends_newList (h : Heap) (items : List Value) :
    h.Extends { h with lists := h.lists.push items } := by
  constructor
  · intro v hv
    cases v with
    | list p => exact Nat.lt_of_lt_of_eq (Nat.lt_succ_of_lt hv) (Array.size_push _).symm
    | _ => exact hv
  · intro v hv
    cases v with
    | list p => exact getD_push_of_lt items hv
    | _ => first | rfl | trivial
  · simp only [depth, Array.size_push]
    omega

theorem extends_newTuple (h : Heap) (items : List Value) :
    h.Extends { h with tuples := h.tuples.push items } := by
  constructor
  · intro v hv
    cases v with
    | tuple p => exact Nat.lt_of_lt_of_eq (Nat.lt_succ_of_lt hv) (Array.size_push _).symm
    | _ => exact hv
  · intro v hv
    cases v with
    | tuple p => exact getD_push_of_lt items hv
    | _ => first | rfl | trivial
  · simp only [depth, Array.size_push]
    omega

theorem extends_newDict (h : Heap) (entries : Entries Value) :
    h.Extends { h with dicts := h.dicts.push entries } := by
  constructor
  · intro v hv
    cases v with
    | dict p => exact Nat.lt_of_lt_of_eq (Nat.lt_succ_of_lt hv) (Array.size_push _).symm
    | _ => exact hv
  · intro v hv
    cases v with
    | dict p => exact getD_push_of_lt entries hv
    | _ => first | rfl | trivial
  · simp only [depth, Array.size_push]
    omega

end TemplateEngine.Heap
