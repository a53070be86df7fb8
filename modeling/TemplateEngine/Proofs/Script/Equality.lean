import Mathlib.Data.List.Perm.Subperm
import TemplateEngine.Proofs.Script.Containers
import TemplateEngine.Script.Relation

/-!
# Equality of values

A value that is no container has a face, and such values are equal if they show
the same one: numbers show what they count, whatever their type, texts their
characters, ranges their items. Containers are equal if they stand at the same
place or if what they contain is equal, so one step down says all about
equality, and its laws go through from one depth to the next.
-/
namespace TemplateEngine

namespace Range

theorem length_toList (r : Range) : r.toList.length = r.length := by
  simp [toList]

theorem getElem?_toList (r : Range) {i : Nat} (hi : i < r.length) :
    r.toList[i]? = some (r.item i) := by
  simp [toList, List.getElem?_range hi]

/-- Ranges are the same if they have the same items. -/
theorem same_iff {r s : Range} : r.same s = true ↔ r.toList = s.toList := by
  constructor
  · intro h
    unfold same at h
    simp only [Bool.and_eq_true, Bool.or_eq_true, beq_iff_eq] at h
    obtain ⟨hlength, hempty | ⟨hstart, hone | hstep⟩⟩ := h
    · unfold toList
      rw [← hlength, hempty]
      rfl
    · unfold toList
      rw [← hlength, hone]
      simp [item, hstart, List.range_succ]
    · unfold toList item
      rw [← hlength, hstart, hstep]
  · intro h
    have hlength : r.length = s.length := by rw [← r.length_toList, h, s.length_toList]
    have hitem (i : Nat) (hi : i < r.length) : r.item i = s.item i := by
      have hat := congrArg (·[i]?) h
      simpa [getElem?_toList, hi, hlength ▸ hi] using hat
    unfold same
    simp only [Bool.and_eq_true, Bool.or_eq_true, beq_iff_eq]
    refine ⟨hlength, ?_⟩
    by_cases hempty : r.length = 0
    · exact .inl hempty
    · have hfirst := hitem 0 (by omega)
      have hstart : r.start = s.start := by simpa [item] using hfirst
      refine .inr ⟨hstart, ?_⟩
      by_cases hone : r.length = 1
      · exact .inl hone
      · have hsecond := hitem 1 (by omega)
        simp only [item, hstart] at hsecond
        exact .inr (by omega)

end Range

/-- What a function is compared by: a method by its number, any other by itself. -/
def Function.face : Function → Function ⊕ Nat
  | .method i _ => .inr i
  | f => .inl f

theorem Function.same_iff {f g : Function} : f.same g = true ↔ f.face = g.face := by
  cases f <;> cases g <;> simp [Function.same, Function.face]

/-- What a value is compared by, apart from floats and containers. -/
inductive Face where
  | nothing
  | number (n : Int)
  | text (t : Text)
  | range (items : List Int)
  | function (face : Function ⊕ Nat)
  | exceptionClass (kind : ExceptionKind)
  | exception (identity : Nat)
  | capture (name : Text)

/-- What a value shows, if it is no float and no container. -/
def Value.face? : Value → Option Face
  | .none => some .nothing
  | .bool b => some (.number (if b then 1 else 0))
  | .int n => some (.number n)
  | .str t | .markup t => some (.text t)
  | .function f => some (.function f.face)
  | .exceptionClass k => some (.exceptionClass k)
  | .exception i _ _ => some (.exception i)
  | .capture s => some (.capture s)
  | .range r => some (.range r.toList)
  | .float _ | .list _ | .tuple _ | .dict _ => Option.none

/-- Entries that have values under the same names, in any order, that are pairwise related. -/
def Entries.Alike (R : Value → Value → Prop) (entries others : Entries Value) : Prop :=
  entries.length = others.length ∧
    ∀ entry ∈ entries, ∃ v, Entries.get? entry.1 others = some v ∧ R entry.2 v

theorem Entries.mem_of_get? {name : Text} {entries : Entries Value} {v : Value}
    (hv : Entries.get? name entries = some v) : (name, v) ∈ entries := by
  induction entries with
  | nil => cases hv
  | cons entry entries ih =>
      simp only [Entries.get?] at hv
      split at hv
      · rename_i hname
        cases hv
        rw [← hname]
        exact List.mem_cons_self
      · exact List.mem_cons_of_mem _ (ih hv)

theorem Entries.get?_of_mem {name : Text} {entries : Entries Value} {v : Value}
    (hnames : entries.names.Nodup) (hv : (name, v) ∈ entries) :
    Entries.get? name entries = some v := by
  induction entries with
  | nil => cases hv
  | cons entry entries ih =>
      obtain ⟨known, value⟩ := entry
      rw [Entries.names, List.map_cons, List.nodup_cons] at hnames
      simp only [Entries.get?]
      rcases List.mem_cons.mp hv with heq | hv
      · cases heq
        exact if_pos rfl
      · have hne : known ≠ name := by
          rintro rfl
          exact hnames.1 (List.mem_map.mpr ⟨_, hv, rfl⟩)
        rw [if_neg hne]
        exact ih hnames.2 hv

theorem Entries.Alike.symm {R : Value → Value → Prop} {entries others : Entries Value}
    (hnames : entries.names.Nodup) (hnames' : others.names.Nodup) (hR : ∀ v w, R v w → R w v)
    (h : Entries.Alike R entries others) : Entries.Alike R others entries := by
  have hsubset : entries.names ⊆ others.names := by
    intro name hname
    obtain ⟨entry, hentry, rfl⟩ := List.mem_map.mp hname
    obtain ⟨v, hv, -⟩ := h.2 entry hentry
    exact List.mem_map.mpr ⟨_, Entries.mem_of_get? hv, rfl⟩
  have hperm : entries.names.Perm others.names :=
    (List.subperm_of_subset hnames hsubset).perm_of_length_le (by simp [Entries.names, h.1])
  refine ⟨h.1.symm, fun other hother => ?_⟩
  obtain ⟨entry, hentry, hname⟩ := List.mem_map.mp (hperm.symm.subset (List.mem_map_of_mem hother))
  obtain ⟨v, hv, hrelated⟩ := h.2 entry hentry
  rw [hname, Entries.get?_of_mem hnames' hother, Option.some.injEq] at hv
  exact ⟨entry.2, hname ▸ Entries.get?_of_mem hnames hentry, hR _ _ (hv ▸ hrelated)⟩

theorem Entries.Alike.trans {R : Value → Value → Prop} {entries others more : Entries Value}
    (hfirst : Entries.Alike R entries others) (hsecond : Entries.Alike R others more)
    (hR : ∀ u v w, R u v → R v w → R u w) : Entries.Alike R entries more := by
  refine ⟨hfirst.1.trans hsecond.1, fun entry hentry => ?_⟩
  obtain ⟨v, hv, hrelated⟩ := hfirst.2 entry hentry
  obtain ⟨w, hw, hrelated'⟩ := hsecond.2 _ (Entries.mem_of_get? hv)
  exact ⟨w, hw, hR _ _ _ hrelated hrelated'⟩

namespace Heap

/-- No dict has two entries for one name. -/
def Keyed (h : Heap) : Prop := ∀ p, (h.dict p).names.Nodup

/-- Values are alike, one step down. -/
inductive Alike (h : Heap) (R : Value → Value → Prop) : Value → Value → Prop
  | face {a b : Value} {x : Face} : a.face? = some x → b.face? = some x → Alike h R a b
  | sameList {p : Nat} : Alike h R (.list p) (.list p)
  | list {p q : Nat} : List.Forall₂ R (h.list p) (h.list q) → Alike h R (.list p) (.list q)
  | tuple {p q : Nat} : List.Forall₂ R (h.tuple p) (h.tuple q) → Alike h R (.tuple p) (.tuple q)
  | sameDict {p : Nat} : Alike h R (.dict p) (.dict p)
  | dict {p q : Nat} : Entries.Alike R (h.dict p) (h.dict q) → Alike h R (.dict p) (.dict q)

variable {h : Heap} {a b c v : Value} {d : Nat}

theorem sameItems_iff {equal : Value → Value → Bool} {vs ws : List Value} :
    sameItems equal vs ws = true ↔ List.Forall₂ (fun v w => equal v w = true) vs ws := by
  induction vs generalizing ws with
  | nil => cases ws <;> simp [sameItems]
  | cons v vs ih => cases ws <;> simp [sameItems, ih]

theorem sameEntries_iff {equal : Value → Value → Bool} {entries others : Entries Value} :
    sameEntries equal entries others = true ↔
      Entries.Alike (fun v w => equal v w = true) entries others := by
  simp only [sameEntries, Bool.and_eq_true, beq_iff_eq, List.all_eq_true, Option.any_eq_true]
  rfl

theorem equalTo_face {x y : Face} (ha : a.face? = some x) (hb : b.face? = some y) :
    h.equalTo (d + 1) a b = true ↔ x = y := by
  cases a <;> cases ha <;> cases b <;> cases hb <;>
    simp [equalTo, Value.number?, Value.text?, Number.equal, Range.same_iff, Function.same_iff]

theorem equalTo_list {p q : Nat} : h.equalTo (d + 1) (.list p) (.list q) = true ↔
    p = q ∨ List.Forall₂ (fun v w => h.equalTo d v w = true) (h.list p) (h.list q) := by
  simp [equalTo, Value.number?, sameItems_iff]

theorem equalTo_tuple {p q : Nat} : h.equalTo (d + 1) (.tuple p) (.tuple q) = true ↔
    List.Forall₂ (fun v w => h.equalTo d v w = true) (h.tuple p) (h.tuple q) := by
  simp [equalTo, Value.number?, sameItems_iff]

theorem equalTo_dict {p q : Nat} : h.equalTo (d + 1) (.dict p) (.dict q) = true ↔
    p = q ∨ Entries.Alike (fun v w => h.equalTo d v w = true) (h.dict p) (h.dict q) := by
  simp [equalTo, Value.number?, sameEntries_iff]

/-- Values other than floats are equal if they are alike, with equal values one step down. -/
theorem equalTo_succ_iff (ha : ∀ x, a ≠ .float x) (hb : ∀ x, b ≠ .float x) :
    h.equalTo (d + 1) a b = true ↔ h.Alike (fun v w => h.equalTo d v w = true) a b := by
  constructor
  · intro hab
    cases a with
    | float x => exact absurd rfl (ha x)
    | list p =>
        cases b with
        | float x => exact absurd rfl (hb x)
        | list q =>
            obtain rfl | hitems := equalTo_list.mp hab
            · exact .sameList
            · exact .list hitems
        | _ => simp [equalTo, Value.number?, Value.text?] at hab
    | tuple p =>
        cases b with
        | float x => exact absurd rfl (hb x)
        | tuple q => exact .tuple (equalTo_tuple.mp hab)
        | _ => simp [equalTo, Value.number?, Value.text?] at hab
    | dict p =>
        cases b with
        | float x => exact absurd rfl (hb x)
        | dict q =>
            obtain rfl | hentries := equalTo_dict.mp hab
            · exact .sameDict
            · exact .dict hentries
        | _ => simp [equalTo, Value.number?, Value.text?] at hab
    | _ =>
        cases b with
        | float x => exact absurd rfl (hb x)
        | list q | tuple q | dict q => simp [equalTo, Value.number?, Value.text?] at hab
        | _ => exact .face rfl (congrArg some ((equalTo_face rfl rfl).mp hab).symm)
  · intro hab
    cases hab with
    | face ha hb => exact (equalTo_face ha hb).mpr rfl
    | sameList => exact equalTo_list.mpr (.inl rfl)
    | list hitems => exact equalTo_list.mpr (.inr hitems)
    | tuple hitems => exact equalTo_tuple.mpr hitems
    | sameDict => exact equalTo_dict.mpr (.inl rfl)
    | dict hentries => exact equalTo_dict.mpr (.inr hentries)

/-- What holds of the values inside is all that a step down depends on. -/
theorem Alike.mono {R S : Value → Value → Prop}
    (hRS : ∀ v ∈ h.inside a, ∀ w ∈ h.inside b, R v w → S v w) (hab : h.Alike R a b) :
    h.Alike S a b := by
  have hitems {vs ws : List Value} (hinside : ∀ v ∈ vs, ∀ w ∈ ws, R v w → S v w)
      (hvw : List.Forall₂ R vs ws) : List.Forall₂ S vs ws := by
    rw [List.forall₂_iff_zip] at hvw ⊢
    refine ⟨hvw.1, fun hpair => ?_⟩
    obtain ⟨hv, hw⟩ := List.of_mem_zip hpair
    exact hinside _ hv _ hw (hvw.2 hpair)
  cases hab with
  | face ha hb => exact .face ha hb
  | sameList => exact .sameList
  | list hvw => exact .list (hitems hRS hvw)
  | tuple hvw => exact .tuple (hitems hRS hvw)
  | sameDict => exact .sameDict
  | dict hentries =>
      refine .dict ⟨hentries.1, fun entry hentry => ?_⟩
      obtain ⟨v, hv, hR⟩ := hentries.2 entry hentry
      exact ⟨v, hv, hRS _ (List.mem_map_of_mem hentry) _
        (List.mem_map_of_mem (Entries.mem_of_get? hv)) hR⟩

theorem Alike.symm {R : Value → Value → Prop} (hkeys : h.Keyed) (hR : ∀ v w, R v w → R w v)
    (hab : h.Alike R a b) : h.Alike R b a := by
  have hitems {vs ws : List Value} (hvw : List.Forall₂ R vs ws) : List.Forall₂ R ws vs :=
    (hvw.imp hR).flip
  cases hab with
  | face ha hb => exact .face hb ha
  | sameList => exact .sameList
  | list hvw => exact .list (hitems hvw)
  | tuple hvw => exact .tuple (hitems hvw)
  | sameDict => exact .sameDict
  | dict hentries => exact .dict (hentries.symm (hkeys _) (hkeys _) hR)

theorem Alike.trans {R : Value → Value → Prop} (hR : ∀ u v w, R u v → R v w → R u w)
    (hab : h.Alike R a b) (hbc : h.Alike R b c) : h.Alike R a c := by
  have hitems {us vs ws : List Value} (huv : List.Forall₂ R us vs) (hvw : List.Forall₂ R vs ws) :
      List.Forall₂ R us ws := by
    induction huv generalizing ws with
    | nil => exact hvw
    | cons hu _ ih =>
        cases hvw with
        | cons hv hvw => exact .cons (hR _ _ _ hu hv) (ih hvw)
  cases hab with
  | face ha hb =>
      cases hbc with
      | face hb' hc =>
          rw [hb] at hb'
          cases hb'
          exact .face ha hc
      | _ => cases hb
  | sameList => exact hbc
  | list hvw =>
      cases hbc with
      | face hb _ => cases hb
      | sameList => exact .list hvw
      | list hwu => exact .list (hitems hvw hwu)
  | tuple hvw =>
      cases hbc with
      | face hb _ => cases hb
      | tuple hwu => exact .tuple (hitems hvw hwu)
  | sameDict => exact hbc
  | dict hentries =>
      cases hbc with
      | face hb _ => cases hb
      | sameDict => exact .dict hentries
      | dict hothers => exact .dict (hentries.trans hothers hR)

section Laws

/-- No float is met on the way down from a value. -/
def FloatFree (h : Heap) (v : Value) : Prop := ∀ x, ¬ h.Reaches v (.float x)

theorem FloatFree.inside {w : Value} (hv : h.FloatFree v) (hw : w ∈ h.inside v) :
    h.FloatFree w := fun x hx => hv x (.head hw hx)

theorem FloatFree.ne (hv : h.FloatFree v) (x : Float) : v ≠ .float x := by
  rintro rfl
  exact hv x .refl

/-- Two values without floats that are equal down to a depth. -/
structure EqualTo (h : Heap) (d : Nat) (a b : Value) : Prop where
  left : h.FloatFree a
  right : h.FloatFree b
  equal : h.equalTo d a b = true

theorem equalTo_succ (ha : h.FloatFree a) (hb : h.FloatFree b) :
    h.equalTo (d + 1) a b = true ↔ h.Alike (h.EqualTo d) a b := by
  rw [equalTo_succ_iff ha.ne hb.ne]
  constructor
  · intro hab
    exact hab.mono fun v hv w hw hvw => ⟨ha.inside hv, hb.inside hw, hvw⟩
  · intro hab
    exact hab.mono fun _ _ _ _ hvw => hvw.equal

theorem EqualTo.symm (hkeys : h.Keyed) (hab : h.EqualTo d a b) : h.EqualTo d b a := by
  induction d generalizing a b with
  | zero => exact nomatch hab.equal
  | succ d ih =>
      refine ⟨hab.right, hab.left, (equalTo_succ hab.right hab.left).mpr ?_⟩
      exact ((equalTo_succ hab.left hab.right).mp hab.equal).symm hkeys fun _ _ => ih

theorem EqualTo.trans (hab : h.EqualTo d a b) (hbc : h.EqualTo d b c) : h.EqualTo d a c := by
  induction d generalizing a b c with
  | zero => exact nomatch hab.equal
  | succ d ih =>
      refine ⟨hab.left, hbc.right, (equalTo_succ hab.left hbc.right).mpr ?_⟩
      exact ((equalTo_succ hab.left hab.right).mp hab.equal).trans (fun _ _ _ => ih)
        ((equalTo_succ hbc.left hbc.right).mp hbc.equal)

/-- What is equal down to a depth is equal further down. -/
theorem EqualTo.succ (hab : h.EqualTo d a b) : h.EqualTo (d + 1) a b := by
  induction d generalizing a b with
  | zero => exact nomatch hab.equal
  | succ d ih =>
      refine ⟨hab.left, hab.right, (equalTo_succ hab.left hab.right).mpr ?_⟩
      exact ((equalTo_succ hab.left hab.right).mp hab.equal).mono fun _ _ _ _ => ih

/-- Below a value that does not contain itself, more depth than there are containers makes no
difference. -/
theorem Acyclic.equalTo_enough (ha : h.Acyclic a) {e : Nat} (hd : (h.below a).card < d)
    (he : (h.below a).card < e) (hab : h.EqualTo d a b) : h.EqualTo e a b := by
  induction ha generalizing b d e with
  | @intro v hplace hinside ih =>
      obtain ⟨d, rfl⟩ := Nat.exists_eq_add_one.mpr (Nat.lt_of_le_of_lt (Nat.zero_le _) hd)
      obtain ⟨e, rfl⟩ := Nat.exists_eq_add_one.mpr (Nat.lt_of_le_of_lt (Nat.zero_le _) he)
      refine ⟨hab.left, hab.right, (equalTo_succ hab.left hab.right).mpr ?_⟩
      refine ((equalTo_succ hab.left hab.right).mp hab.equal).mono fun w hw u _ hwu => ?_
      have hfewer := (Acyclic.intro hplace hinside).card_below_lt hw
      exact ih w hw (by omega) (by omega) hwu

theorem Acyclic.equalTo_self (ha : h.Acyclic a) (hfree : h.FloatFree a)
    (hd : (h.below a).card < d) : h.EqualTo d a a := by
  induction ha generalizing d with
  | @intro v hplace hinside ih =>
      obtain ⟨d, rfl⟩ := Nat.exists_eq_add_one.mpr (Nat.lt_of_le_of_lt (Nat.zero_le _) hd)
      refine ⟨hfree, hfree, (equalTo_succ hfree hfree).mpr ?_⟩
      cases v with
      | float x => exact absurd rfl (hfree.ne x)
      | list p => exact .sameList
      | dict p => exact .sameDict
      | tuple p =>
          refine .tuple (List.forall₂_same.mpr fun w hw => ?_)
          have hfewer := (Acyclic.intro hplace hinside).card_below_lt hw
          exact ih w hw (hfree.inside hw) (by omega)
      | _ => exact .face rfl rfl

end Laws

end Heap
end TemplateEngine
