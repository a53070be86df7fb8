import Mathlib.Data.Char
import Mathlib.Data.List.Lex
import Mathlib.Data.Ordering.Lemmas
import Mathlib.Order.Compare
import TemplateEngine.Proofs.Script.Equality

/-!
# The order of values

Numbers and texts are ordered by what they show, sequences by their first items that
are not equal, or by their lengths. The order is turned around with its sides, goes
along with equality on both of them, and is transitive, as far as values are ordered
at all; each law of lists of items comes from the same law of the items, one step down.
-/
namespace TemplateEngine

theorem Word.compare_eq_cmp (m n : Int) : Word.compare m n = cmp m n := rfl

theorem Text.compare_eq_cmp (s t : Text) : Text.compare s t = cmp s t := by
  induction s generalizing t with
  | nil => cases t <;> simp [Text.compare, cmp, cmpUsing]
  | cons c s ih =>
      cases t with
      | nil => simp [Text.compare, cmp, cmpUsing]
      | cons d t =>
          have ih := ih t
          simp only [Text.compare, cmp, cmpUsing, List.cons_lt_cons_iff] at ih ⊢
          rcases lt_trichotomy c d with hlt | rfl | hgt
          · simp [hlt]
          · simpa using ih
          · simp [hgt, hgt.asymm, hgt.ne']
theorem Text.cmp_eq_iff {s t : Text} : cmp s t = .eq ↔ s = t := by
  have hsides : cmp s t = .eq ↔ ¬ s < t ∧ ¬ t < s := cmpUsing_eq_eq s t
  rw [hsides]
  constructor
  · intro h
    exact le_antisymm (not_lt.mp h.2) (not_lt.mp h.1)
  · rintro rfl
    exact ⟨lt_irrefl s, lt_irrefl s⟩

namespace Heap

/-- How lists of items are ordered, by what tells items apart and how those are ordered. -/
inductive RankedItems (E : Value → Value → Prop) (R : Value → Value → Ordering → Prop) :
    List Value → List Value → Ordering → Prop
  | nil : RankedItems E R [] [] .eq
  | shorter {w : Value} {ws : List Value} : RankedItems E R [] (w :: ws) .lt
  | longer {v : Value} {vs : List Value} : RankedItems E R (v :: vs) [] .gt
  | same {v w : Value} {vs ws : List Value} {o : Ordering} : E v w → RankedItems E R vs ws o →
      RankedItems E R (v :: vs) (w :: ws) o
  | differ {v w : Value} {vs ws : List Value} {o : Ordering} : ¬ E v w → R v w o →
      RankedItems E R (v :: vs) (w :: ws) o

section Items

variable {E : Value → Value → Prop} {R S : Value → Value → Ordering → Prop}
  {us vs ws : List Value} {o : Ordering}

theorem RankedItems.mono {E' : Value → Value → Prop}
    (hE : ∀ v ∈ vs, ∀ w ∈ ws, (E v w ↔ E' v w)) (hRS : ∀ v ∈ vs, ∀ w ∈ ws, R v w o → S v w o)
    (hvw : RankedItems E R vs ws o) : RankedItems E' S vs ws o := by
  induction hvw with
  | nil => exact .nil
  | shorter => exact .shorter
  | longer => exact .longer
  | same hvw _ ih =>
      rw [List.forall_mem_cons] at hE hRS
      have hhead := hE.1 _ List.mem_cons_self
      exact .same (hhead.mp hvw) (ih (fun v hv w hw => hE.2 v hv w (List.mem_cons_of_mem _ hw))
        fun v hv w hw => hRS.2 v hv w (List.mem_cons_of_mem _ hw))
  | differ hvw hR =>
      have hhead := hE _ List.mem_cons_self _ List.mem_cons_self
      exact .differ (mt hhead.mpr hvw) (hRS _ List.mem_cons_self _ List.mem_cons_self hR)

theorem RankedItems.swap (hE : ∀ v w, E v w → E w v) (hR : ∀ v w o, R v w o → R w v o.swap)
    (hvw : RankedItems E R vs ws o) : RankedItems E R ws vs o.swap := by
  induction hvw with
  | nil => exact .nil
  | shorter => exact .longer
  | longer => exact .shorter
  | same hvw _ ih => exact .same (hE _ _ hvw) ih
  | differ hvw hrank => exact .differ (mt (hE _ _) hvw) (hR _ _ _ hrank)

theorem RankedItems.self (hvs : ∀ v ∈ vs, E v v ∨ R v v .eq) : RankedItems E R vs vs .eq := by
  induction vs with
  | nil => exact .nil
  | cons v vs ih =>
      rw [List.forall_mem_cons] at hvs
      by_cases hv : E v v
      · exact .same hv (ih hvs.2)
      · exact .differ hv (hvs.1.resolve_left hv)

/-- Items that are equal, each to its counterpart, are ordered alike. -/
theorem RankedItems.congr (hsymm : ∀ v w, E v w → E w v) (htrans : ∀ u v w, E u v → E v w → E u w)
    (hR : ∀ u v w o, E u v → R v w o → R u w o) (huv : List.Forall₂ E us vs)
    (hvw : RankedItems E R vs ws o) : RankedItems E R us ws o := by
  induction hvw generalizing us with
  | nil =>
      cases huv
      exact .nil
  | shorter =>
      cases huv
      exact .shorter
  | longer =>
      cases huv
      exact .longer
  | same hvw _ ih =>
      cases huv with
      | cons hu huv => exact .same (htrans _ _ _ hu hvw) (ih huv)
  | differ hvw hrank =>
      cases huv with
      | cons hu huv =>
          exact .differ (fun huw => hvw (htrans _ _ _ (hsymm _ _ hu) huw)) (hR _ _ _ _ hu hrank)

/-- The order of what orders items is transitive, as far as it goes with what is equal. -/
theorem RankedItems.trans (hsymm : ∀ v w, E v w → E w v)
    (htrans : ∀ u v w, E u v → E v w → E u w) (hswap : ∀ v w o, R v w o → R w v o.swap)
    (hunique : ∀ v w o o', R v w o → R v w o' → o = o')
    (hcongr : ∀ u v w o, E u v → R v w o → R u w o)
    (hR : ∀ u v w, R u v .lt → R v w .lt → R u w .lt)
    (huv : RankedItems E R us vs .lt) (hvw : RankedItems E R vs ws .lt) :
    RankedItems E R us ws .lt := by
  -- what is equal to a greater value is greater as well
  have hright {u v w : Value} (huv : R u v .lt) (hvw : E v w) : R u w .lt :=
    hswap w u .gt (hcongr w v u .gt (hsymm v w hvw) (hswap u v .lt huv))
  induction us generalizing vs ws with
  | nil =>
      cases huv with
      | shorter => cases hvw <;> exact .shorter
  | cons u us ih =>
      cases huv with
      | same hu huv =>
          cases hvw with
          | same hv hvw => exact .same (htrans _ _ _ hu hv) (ih huv hvw)
          | differ hv hrank =>
              exact .differ (fun huw => hv (htrans _ _ _ (hsymm _ _ hu) huw)) (hcongr _ _ _ _ hu hrank)
      | differ hu hrank =>
          cases hvw with
          | same hv hvw =>
              exact .differ (fun huw => hu (htrans _ _ _ huw (hsymm _ _ hv))) (hright hrank hv)
          | differ hv hrank' =>
              refine .differ (fun huw => ?_) (hR _ _ _ hrank hrank')
              have hback := hswap _ _ _ (hcongr _ _ _ _ (hsymm _ _ huw) hrank)
              cases hunique _ _ _ _ hrank' hback

theorem RankedItems.unique (hR : ∀ v w o o', R v w o → R v w o' → o = o') {o' : Ordering}
    (hvw : RankedItems E R vs ws o) (hvw' : RankedItems E R vs ws o') : o = o' := by
  induction hvw with
  | nil | shorter | longer => cases hvw'; rfl
  | same hvw _ ih =>
      cases hvw' with
      | same _ hvw' => exact ih hvw'
      | differ hne _ => exact absurd hvw hne
  | differ hne hrank =>
      cases hvw' with
      | same hvw _ => exact absurd hvw hne
      | differ _ hrank' => exact hR _ _ _ _ hrank hrank'

end Items

theorem compareItems_iff {equal : Value → Value → Bool}
    {compare : Value → Value → Except Cause Ordering} {vs ws : List Value} {o : Ordering} :
    compareItems equal compare vs ws = .ok o ↔
      RankedItems (fun v w => equal v w = true) (fun v w o => compare v w = .ok o) vs ws o := by
  constructor
  · intro hrank
    induction vs generalizing ws with
    | nil =>
        cases ws <;> cases hrank
        · exact .nil
        · exact .shorter
    | cons v vs ih =>
        cases ws with
        | nil =>
            cases hrank
            exact .longer
        | cons w ws =>
            rw [compareItems] at hrank
            split at hrank
            · rename_i hequal
              exact .same hequal (ih hrank)
            · rename_i hdiffer
              exact .differ hdiffer hrank
  · intro hrank
    induction hrank with
    | nil | shorter | longer => rfl
    | same hequal _ ih => rw [compareItems, if_pos hequal, ih]
    | differ hdiffer hrank => rw [compareItems, if_neg hdiffer, hrank]

variable {h : Heap} {a b c : Value} {d : Nat}

/-- How values are ordered, one step down. -/
inductive Ranked (h : Heap) (E : Value → Value → Prop) (R : Value → Value → Ordering → Prop) :
    Value → Value → Ordering → Prop
  | number {a b : Value} {m n : Int} {o : Ordering} : a.face? = some (.number m) →
      b.face? = some (.number n) → cmp m n = o → Ranked h E R a b o
  | text {a b : Value} {s t : Text} {o : Ordering} : a.face? = some (.text s) →
      b.face? = some (.text t) → cmp s t = o → Ranked h E R a b o
  | list {p q : Nat} {o : Ordering} : RankedItems E R (h.list p) (h.list q) o →
      Ranked h E R (.list p) (.list q) o
  | tuple {p q : Nat} {o : Ordering} : RankedItems E R (h.tuple p) (h.tuple q) o →
      Ranked h E R (.tuple p) (.tuple q) o

theorem compareTo_number {op : Text} {m n : Int} (ha : a.face? = some (.number m))
    (hb : b.face? = some (.number n)) : h.compareTo op (d + 1) a b = .ok (cmp m n) := by
  cases a <;> cases ha <;> cases b <;> cases hb <;> rfl

theorem compareTo_text {op : Text} {s t : Text} (ha : a.face? = some (.text s))
    (hb : b.face? = some (.text t)) : h.compareTo op (d + 1) a b = .ok (cmp s t) := by
  rw [← Text.compare_eq_cmp]
  cases a <;> cases ha <;> cases b <;> cases hb <;> rfl

theorem compareTo_succ_iff {op : Text} {o : Ordering} (ha : ∀ x, a ≠ .float x)
    (hb : ∀ x, b ≠ .float x) : h.compareTo op (d + 1) a b = .ok o ↔
      h.Ranked (fun v w => h.equal v w = true) (fun v w o => h.compareTo op d v w = .ok o) a b o := by
  constructor
  · intro hab
    cases a with
    | float x => exact absurd rfl (ha x)
    | list p =>
        cases b with
        | float x => exact absurd rfl (hb x)
        | list q => exact .list (compareItems_iff.mp hab)
        | _ => cases hab
    | tuple p =>
        cases b with
        | float x => exact absurd rfl (hb x)
        | tuple q => exact .tuple (compareItems_iff.mp hab)
        | _ => cases hab
    | bool _ | int _ =>
        cases b with
        | float x => exact absurd rfl (hb x)
        | bool _ | int _ =>
            cases hab
            exact .number rfl rfl rfl
        | _ => cases hab
    | str _ | markup _ =>
        cases b with
        | float x => exact absurd rfl (hb x)
        | str _ | markup _ =>
            rw [compareTo_text rfl rfl] at hab
            cases hab
            exact .text rfl rfl rfl
        | _ => cases hab
    | _ =>
        cases b with
        | float x => exact absurd rfl (hb x)
        | _ => cases hab
  · intro hab
    cases hab with
    | number ha hb ho => exact (compareTo_number ha hb).trans (congrArg _ ho)
    | text ha hb ho => exact (compareTo_text ha hb).trans (congrArg _ ho)
    | list hitems => exact compareItems_iff.mpr hitems
    | tuple hitems => exact compareItems_iff.mpr hitems

section Laws

variable {op : Text} {o : Ordering}

/-- Two values without floats that are equal. -/
abbrev Equal (h : Heap) (a b : Value) : Prop := h.EqualTo h.depth a b

/-- Two values without floats that are ordered down to a depth. -/
structure RankedTo (h : Heap) (op : Text) (d : Nat) (a b : Value) (o : Ordering) : Prop where
  left : h.FloatFree a
  right : h.FloatFree b
  ranked : h.compareTo op d a b = .ok o

theorem compareTo_succ (ha : h.FloatFree a) (hb : h.FloatFree b) :
    h.compareTo op (d + 1) a b = .ok o ↔ h.Ranked h.Equal (h.RankedTo op d) a b o := by
  have hmono {vs ws : List Value} (hvs : ∀ v ∈ vs, h.FloatFree v) (hws : ∀ w ∈ ws, h.FloatFree w) :
      RankedItems (fun v w => h.equal v w = true) (fun v w o => h.compareTo op d v w = .ok o) vs ws
        o ↔ RankedItems h.Equal (h.RankedTo op d) vs ws o := by
    have hequal : ∀ v ∈ vs, ∀ w ∈ ws, (h.equal v w = true ↔ h.Equal v w) := fun v hv w hw =>
      ⟨fun hvw => ⟨hvs v hv, hws w hw, hvw⟩, fun hvw => hvw.equal⟩
    constructor
    · exact .mono hequal fun v hv w hw hvw => ⟨hvs v hv, hws w hw, hvw⟩
    · exact .mono (fun v hv w hw => (hequal v hv w hw).symm) fun _ _ _ _ hvw => hvw.ranked
  rw [compareTo_succ_iff ha.ne hb.ne]
  constructor
  · intro hab
    cases hab with
    | number ha hb ho => exact .number ha hb ho
    | text ha hb ho => exact .text ha hb ho
    | list hitems => exact .list ((hmono (fun _ => ha.inside) fun _ => hb.inside).mp hitems)
    | tuple hitems => exact .tuple ((hmono (fun _ => ha.inside) fun _ => hb.inside).mp hitems)
  · intro hab
    cases hab with
    | number ha hb ho => exact .number ha hb ho
    | text ha hb ho => exact .text ha hb ho
    | list hitems => exact .list ((hmono (fun _ => ha.inside) fun _ => hb.inside).mpr hitems)
    | tuple hitems => exact .tuple ((hmono (fun _ => ha.inside) fun _ => hb.inside).mpr hitems)

theorem RankedTo.unique {o' : Ordering} (hab : h.RankedTo op d a b o)
    (hab' : h.RankedTo op d a b o') : o = o' := by
  have heq := hab.ranked.symm.trans hab'.ranked
  cases heq
  rfl

theorem RankedTo.step (hab : h.RankedTo op (d + 1) a b o) :
    h.Ranked h.Equal (h.RankedTo op d) a b o := (compareTo_succ hab.left hab.right).mp hab.ranked

theorem RankedTo.swap (hkeys : h.Keyed) (hab : h.RankedTo op d a b o) :
    h.RankedTo op d b a o.swap := by
  induction d generalizing a b o with
  | zero =>
      cases hab.ranked
      exact ⟨hab.right, hab.left, rfl⟩
  | succ d ih =>
      refine ⟨hab.right, hab.left, (compareTo_succ hab.right hab.left).mpr ?_⟩
      cases hab.step with
      | number ha hb ho => exact .number hb ha (ho ▸ (cmp_swap _ _).symm)
      | text ha hb ho => exact .text hb ha (ho ▸ (cmp_swap _ _).symm)
      | list hitems => exact .list (hitems.swap (fun _ _ => EqualTo.symm hkeys) fun _ _ _ => ih)
      | tuple hitems => exact .tuple (hitems.swap (fun _ _ => EqualTo.symm hkeys) fun _ _ _ => ih)

/-- The values inside equal values are equal. -/
theorem EqualTo.alike (hab : h.Equal a b) : h.Alike h.Equal a b := by
  have hstep := (equalTo_succ (d := h.lists.size + h.tuples.size + h.dicts.size) hab.left
    hab.right).mp hab.equal
  exact hstep.mono fun _ _ _ _ => EqualTo.succ

theorem RankedTo.congr (hkeys : h.Keyed) (hab : h.Equal a b) (hbc : h.RankedTo op d b c o) :
    h.RankedTo op d a c o := by
  induction d generalizing a b c o with
  | zero =>
      cases hbc.ranked
      exact ⟨hab.left, hbc.right, rfl⟩
  | succ d ih =>
      refine ⟨hab.left, hbc.right, (compareTo_succ hab.left hbc.right).mpr ?_⟩
      have hitems {us vs ws : List Value} (huv : List.Forall₂ h.Equal us vs)
          (hvw : RankedItems h.Equal (h.RankedTo op d) vs ws o) :
          RankedItems h.Equal (h.RankedTo op d) us ws o :=
        hvw.congr (fun _ _ => EqualTo.symm hkeys) (fun _ _ _ => EqualTo.trans)
          (fun _ _ _ _ => ih) huv
      cases hab.alike with
      | face ha hb =>
          cases hbc.step with
          | number hb' hc ho =>
              rw [hb] at hb'
              cases hb'
              exact .number ha hc ho
          | text hb' hc ho =>
              rw [hb] at hb'
              cases hb'
              exact .text ha hc ho
          | list _ => cases hb
          | tuple _ => cases hb
      | sameList => exact hbc.step
      | list huv =>
          cases hbc.step with
          | number hb _ _ => cases hb
          | text hb _ _ => cases hb
          | list hvw => exact .list (hitems huv hvw)
      | tuple huv =>
          cases hbc.step with
          | number hb _ _ => cases hb
          | text hb _ _ => cases hb
          | tuple hvw => exact .tuple (hitems huv hvw)
      | sameDict => exact hbc.step
      | dict _ =>
          cases hbc.step with
          | number hb _ _ => cases hb
          | text hb _ _ => cases hb

theorem RankedTo.trans (hkeys : h.Keyed) (hab : h.RankedTo op d a b .lt)
    (hbc : h.RankedTo op d b c .lt) : h.RankedTo op d a c .lt := by
  induction d generalizing a b c with
  | zero => cases hab.ranked
  | succ d ih =>
      refine ⟨hab.left, hbc.right, (compareTo_succ hab.left hbc.right).mpr ?_⟩
      have hitems {us vs ws : List Value}
          (huv : RankedItems h.Equal (h.RankedTo op d) us vs .lt)
          (hvw : RankedItems h.Equal (h.RankedTo op d) vs ws .lt) :
          RankedItems h.Equal (h.RankedTo op d) us ws .lt :=
        huv.trans (fun _ _ => EqualTo.symm hkeys) (fun _ _ _ => EqualTo.trans)
          (fun _ _ _ => RankedTo.swap hkeys) (fun _ _ _ _ => RankedTo.unique)
          (fun _ _ _ _ => RankedTo.congr hkeys) (fun _ _ _ => ih) hvw
      cases hab.step with
      | number ha hb hm =>
          cases hbc.step with
          | number hb' hc hn =>
              rw [hb] at hb'
              cases hb'
              have hless := Int.lt_trans ((cmpUsing_eq_lt _ _).mp hm) ((cmpUsing_eq_lt _ _).mp hn)
              exact .number ha hc ((cmpUsing_eq_lt _ _).mpr hless)
          | text hb' _ _ => exact nomatch hb.symm.trans hb'
          | list _ => cases hb
          | tuple _ => cases hb
      | text ha hb hs =>
          cases hbc.step with
          | text hb' hc ht =>
              rw [hb] at hb'
              cases hb'
              have hless := List.lt_trans ((cmpUsing_eq_lt _ _).mp hs) ((cmpUsing_eq_lt _ _).mp ht)
              exact .text ha hc ((cmpUsing_eq_lt _ _).mpr hless)
          | number hb' _ _ => exact nomatch hb.symm.trans hb'
          | list _ => cases hb
          | tuple _ => cases hb
      | list huv =>
          cases hbc.step with
          | number hb _ _ => cases hb
          | text hb _ _ => cases hb
          | list hvw => exact .list (hitems huv hvw)
      | tuple huv =>
          cases hbc.step with
          | number hb _ _ => cases hb
          | text hb _ _ => cases hb
          | tuple hvw => exact .tuple (hitems huv hvw)

/-- Values that are equal and ordered are ordered as equal. -/
theorem RankedTo.eq_of_equal (hkeys : h.Keyed) (hab : h.RankedTo op d a b o)
    (hequal : h.Equal a b) : o = .eq := by
  have hself := RankedTo.congr hkeys (EqualTo.symm hkeys hequal) hab
  have hswap := hself.unique (hself.swap hkeys)
  cases o with
  | eq => rfl
  | lt => cases hswap
  | gt => cases hswap

theorem RankedItems.eq {E : Value → Value → Prop} {R : Value → Value → Ordering → Prop}
    {vs ws : List Value} (hR : ∀ v ∈ vs, ∀ w ∈ ws, R v w .eq → E v w)
    (hvw : RankedItems E R vs ws .eq) : List.Forall₂ E vs ws := by
  generalize hlevel : Ordering.eq = level at hvw
  induction hvw with
  | nil => exact .nil
  | shorter => cases hlevel
  | longer => cases hlevel
  | same hvw _ ih =>
      refine .cons hvw (ih (fun v hv w hw => ?_) hlevel)
      exact hR v (List.mem_cons_of_mem _ hv) w (List.mem_cons_of_mem _ hw)
  | differ hvw hrank =>
      subst hlevel
      exact absurd (hR _ List.mem_cons_self _ List.mem_cons_self hrank) hvw

/-- Below a value that does not contain itself, values ordered as equal are equal. -/
theorem Acyclic.equalTo_of_ranked (ha : h.Acyclic a) {e : Nat} (hd : (h.below a).card < d)
    (he : (h.below a).card < e) (hab : h.RankedTo op d a b .eq) : h.EqualTo e a b := by
  induction ha generalizing b d e with
  | @intro v hplace hinside ih =>
      obtain ⟨d, rfl⟩ := Nat.exists_eq_add_one.mpr (Nat.lt_of_le_of_lt (Nat.zero_le _) hd)
      obtain ⟨e, rfl⟩ := Nat.exists_eq_add_one.mpr (Nat.lt_of_le_of_lt (Nat.zero_le _) he)
      refine ⟨hab.left, hab.right, (equalTo_succ hab.left hab.right).mpr ?_⟩
      -- equal items are equal as deep as the rest of the heap goes, ordered ones by induction
      have hitems {ws : List Value}
          (hvw : RankedItems h.Equal (h.RankedTo op d) (h.inside v) ws .eq) :
          List.Forall₂ (h.EqualTo e) (h.inside v) ws := by
        have hfewer {w : Value} (hw : w ∈ h.inside v) :=
          (Acyclic.intro hplace hinside).card_below_lt hw
        have hlower : RankedItems (h.EqualTo e) (h.RankedTo op d) (h.inside v) ws .eq := by
          refine hvw.mono (fun w hw u _ => ?_) fun _ _ _ _ hwu => hwu
          have := hfewer hw
          exact ⟨(hinside w hw).equalTo_enough (h.card_below w) (by omega),
            (hinside w hw).equalTo_enough (by omega) (h.card_below w)⟩
        refine hlower.eq fun w hw u _ hwu => ?_
        have := hfewer hw
        exact ih w hw (by omega) (by omega) hwu
      cases hab.step with
      | number ha hb ho =>
          have heq := cmp_eq_eq_iff _ _ |>.mp ho
          exact .face ha (heq ▸ hb)
      | text ha hb ho =>
          have heq := Text.cmp_eq_iff.mp ho
          exact .face ha (heq ▸ hb)
      | list hvw => exact .list (hitems hvw)
      | tuple hvw => exact .tuple (hitems hvw)

/-- Values that are as equal as can be, or ordered as equal: all that a value is to itself. -/
theorem equal_or_ranked_self (d : Nat) (ha : h.FloatFree a) :
    h.Equal a a ∨ h.RankedTo op d a a .eq := by
  induction d generalizing a with
  | zero => exact .inr ⟨ha, ha, rfl⟩
  | succ d ih =>
      cases a with
      | float x => exact absurd rfl (ha.ne x)
      | tuple p =>
          refine .inr ⟨ha, ha, (compareTo_succ ha ha).mpr (.tuple (.self fun v hv => ?_))⟩
          exact ih (ha.inside hv)
      | list p => exact .inl ⟨ha, ha, (equalTo_succ ha ha).mpr .sameList⟩
      | dict p => exact .inl ⟨ha, ha, (equalTo_succ ha ha).mpr .sameDict⟩
      | _ => exact .inl ⟨ha, ha, (equalTo_succ ha ha).mpr (.face rfl rfl)⟩

theorem RankedTo.self (hab : h.RankedTo op d a b o) : h.RankedTo op d a a .eq := by
  cases d with
  | zero => exact ⟨hab.left, hab.left, rfl⟩
  | succ d =>
      refine ⟨hab.left, hab.left, (compareTo_succ hab.left hab.left).mpr ?_⟩
      have hitems {vs : List Value} (hvs : ∀ v ∈ vs, h.FloatFree v) :
          RankedItems h.Equal (h.RankedTo op d) vs vs .eq :=
        .self fun v hv => equal_or_ranked_self d (hvs v hv)
      cases hab.step with
      | number ha _ _ => exact .number ha ha (cmp_self_eq_eq _)
      | text ha _ _ => exact .text ha ha (Text.cmp_eq_iff.mpr rfl)
      | list _ => exact .list (hitems fun _ => hab.left.inside)
      | tuple _ => exact .tuple (hitems fun _ => hab.left.inside)

/-- The comparison of two values comes to an end, and without an error: it does not call them
equal only because it is as deep as the heap. -/
def Comparable (h : Heap) (a b : Value) : Prop :=
  ∃ o, h.compare "<" a b = .ok o ∧ (o = .eq → h.equal a b = true)

theorem Comparable.symm (hkeys : h.Keyed) (ha : h.FloatFree a) (hb : h.FloatFree b)
    (hab : h.Comparable a b) : h.Comparable b a := by
  obtain ⟨o, hrank, hequal⟩ := hab
  have hback : h.RankedTo "<" h.depth b a o.swap := RankedTo.swap hkeys ⟨ha, hb, hrank⟩
  refine ⟨o.swap, hback.ranked, fun hlevel => ?_⟩
  have hsame : h.Equal a b := ⟨ha, hb, hequal (Ordering.swap_eq_eq.mp hlevel)⟩
  exact (EqualTo.symm hkeys hsame).equal

/-- A value that does not contain itself is comparable with all that it is ordered with. -/
theorem Acyclic.comparable_iff (ha : h.Acyclic a) (hfree : h.FloatFree a)
    (hfree' : h.FloatFree b) : h.Comparable a b ↔ ∃ o, h.compare "<" a b = .ok o := by
  constructor
  · rintro ⟨o, hrank, -⟩
    exact ⟨o, hrank⟩
  · rintro ⟨o, hrank⟩
    refine ⟨o, hrank, ?_⟩
    rintro rfl
    exact (ha.equalTo_of_ranked (h.card_below a) (h.card_below a) ⟨hfree, hfree', hrank⟩).equal

end Laws

/-- What equality and order have to do with each other, and with themselves. -/
structure Coherent (h : Heap) (S : Value → Prop) : Prop where
  /-- Values are equal if they show the same, or contain what is equal. -/
  equal_iff : ∀ {a b}, S a → S b →
    (h.equal a b = true ↔ h.Alike (fun v w => h.equal v w = true) a b)
  refl : ∀ {a}, S a → h.equal a a = true
  symm : ∀ {a b}, S a → S b → h.equal a b = true → h.equal b a = true
  trans : ∀ {a b c}, S a → S b → S c → h.equal a b = true → h.equal b c = true →
    h.equal a c = true
  identical : ∀ {a b}, S a → S b → h.identical a b = true → h.equal a b = true
  /-- The order is turned around with its sides, and there is one for both or for none. -/
  swap : ∀ {a b}, S a → S b → ∀ {op o}, h.compare op a b = .ok o ↔ h.compare op b a = .ok o.swap
  level : ∀ {a b}, S a → S b → ∀ {op o}, h.compare op a b = .ok o →
    (o = .eq ↔ h.equal a b = true)
  less : ∀ {a b c}, S a → S b → S c → ∀ {op}, h.compare op a b = .ok .lt →
    h.compare op b c = .ok .lt → h.compare op a c = .ok .lt

/-- A value without floats that does not contain itself. -/
structure Exact (h : Heap) (v : Value) : Prop where
  acyclic : h.Acyclic v
  floatFree : h.FloatFree v

theorem Exact.of_inside (hplace : h.has a) (hfloat : ∀ x, a ≠ .float x)
    (hinside : ∀ v ∈ h.inside a, h.Exact v) : h.Exact a where
  acyclic := .intro hplace fun v hv => (hinside v hv).acyclic
  floatFree := by
    intro x hx
    rcases hx.cases_head with heq | ⟨v, hv, hx⟩
    · exact hfloat x heq
    · exact (hinside v hv).floatFree x hx

theorem Exact.equal_iff_alike (ha : h.Exact a) (hb : h.Exact b) :
    h.equal a b = true ↔ h.Alike (fun v w => h.equal v w = true) a b := by
  constructor
  · intro hab
    have hstep := EqualTo.alike ⟨ha.floatFree, hb.floatFree, hab⟩
    exact hstep.mono fun _ _ _ _ hvw => hvw.equal
  · intro hab
    refine (equalTo_succ_iff ha.floatFree.ne hb.floatFree.ne).mpr (hab.mono fun v hv w hw hvw => ?_)
    have hinside : h.Acyclic v := by
      cases ha.acyclic with
      | intro _ hinside => exact hinside v hv
    have hfewer := ha.acyclic.card_below_lt hv
    have hroom := h.card_below a
    unfold depth at hroom
    have hequal : h.Equal v w := ⟨ha.floatFree.inside hv, hb.floatFree.inside hw, hvw⟩
    exact (hinside.equalTo_enough (h.card_below v) (by omega) hequal).equal

theorem Exact.equal_self (ha : h.Exact a) : h.equal a a = true :=
  (ha.acyclic.equalTo_self ha.floatFree (h.card_below a)).equal

theorem Exact.equal_of_identical (ha : h.Exact a) (hab : h.identical a b = true) :
    h.equal a b = true := by
  unfold identical at hab
  split at hab
  case h_1 | h_2 | h_3 | h_4 =>
    cases beq_iff_eq.mp hab
    exact ha.equal_self
  case h_5 | h_6 => cases hab
  case h_7 => exact (Bool.and_eq_true_iff.mp hab).2

/-- Equality and order are coherent on all values without floats that do not contain
themselves. -/
theorem coherent_exact (hkeys : h.Keyed) : h.Coherent h.Exact where
  equal_iff := Exact.equal_iff_alike
  refl := Exact.equal_self
  symm := by
    intro a b ha hb hab
    have hsame : h.Equal a b := ⟨ha.floatFree, hb.floatFree, hab⟩
    exact (EqualTo.symm hkeys hsame).equal
  trans := by
    intro a b c ha hb hc hab hbc
    have hfirst : h.Equal a b := ⟨ha.floatFree, hb.floatFree, hab⟩
    have hsecond : h.Equal b c := ⟨hb.floatFree, hc.floatFree, hbc⟩
    exact (hfirst.trans hsecond).equal
  identical ha _ := Exact.equal_of_identical ha
  swap := by
    intro a b ha hb op o
    constructor
    · intro hab
      exact (RankedTo.swap hkeys ⟨ha.floatFree, hb.floatFree, hab⟩).ranked
    · intro hba
      have hab := (RankedTo.swap hkeys ⟨hb.floatFree, ha.floatFree, hba⟩).ranked
      rwa [Ordering.swap_swap] at hab
  level := by
    intro a b ha hb op o hab
    have hrank : h.RankedTo op h.depth a b o := ⟨ha.floatFree, hb.floatFree, hab⟩
    constructor
    · rintro rfl
      exact (ha.acyclic.equalTo_of_ranked (h.card_below a) (h.card_below a) hrank).equal
    · intro hequal
      exact hrank.eq_of_equal hkeys ⟨ha.floatFree, hb.floatFree, hequal⟩
  less := by
    intro a b c ha hb hc op hab hbc
    exact (RankedTo.trans hkeys ⟨ha.floatFree, hb.floatFree, hab⟩
      ⟨hb.floatFree, hc.floatFree, hbc⟩).ranked

/-- Two lists with a number, a text and a dict each, of different types and in different orders. -/
def twins : Heap where
  lists := #[[.int 1, .tuple 0, .dict 0], [.bool true, .tuple 1, .dict 1]]
  tuples := #[[.str ['a']], [.markup ['a']]]
  dicts := #[[(['x'], .int 2), (['y'], .none)], [(['y'], .none), (['x'], .int 2)]]
  identities := 0

theorem coherent_exact_twins : twins.Keyed ∧ twins.Exact (.list 0) ∧ twins.Exact (.list 1) ∧
    twins.equal (.list 0) (.list 1) = true ∧ twins.equal (.list 1) (.list 0) = true ∧
    twins.compare "<" (.list 1) (.list 0) = .ok .eq := by
  have hkeys : twins.Keyed := by
    intro p
    match p with
    | 0 | 1 => decide
    | _ + 2 => exact List.nodup_nil
  have hleaf {v : Value} (hplace : twins.has v) (hfloat : ∀ x, v ≠ .float x)
      (hinside : twins.inside v = []) : twins.Exact v :=
    .of_inside hplace hfloat (hinside ▸ fun _ hw => nomatch hw)
  have hstr : twins.Exact (.tuple 0) := .of_inside Nat.zero_lt_two nofun
    (List.forall_mem_singleton.mpr (hleaf trivial nofun rfl))
  have hmarkup : twins.Exact (.tuple 1) := .of_inside Nat.one_lt_two nofun
    (List.forall_mem_singleton.mpr (hleaf trivial nofun rfl))
  have hfirst : twins.Exact (.dict 0) := .of_inside Nat.zero_lt_two nofun (List.forall_mem_cons.mpr
    ⟨hleaf trivial nofun rfl, List.forall_mem_singleton.mpr (hleaf trivial nofun rfl)⟩)
  have hsecond : twins.Exact (.dict 1) := .of_inside Nat.one_lt_two nofun (List.forall_mem_cons.mpr
    ⟨hleaf trivial nofun rfl, List.forall_mem_singleton.mpr (hleaf trivial nofun rfl)⟩)
  have hzero : twins.Exact (.list 0) := .of_inside Nat.zero_lt_two nofun (List.forall_mem_cons.mpr
    ⟨hleaf trivial nofun rfl, List.forall_mem_cons.mpr
      ⟨hstr, List.forall_mem_singleton.mpr hfirst⟩⟩)
  have hone : twins.Exact (.list 1) := .of_inside Nat.one_lt_two nofun (List.forall_mem_cons.mpr
    ⟨hleaf trivial nofun rfl, List.forall_mem_cons.mpr
      ⟨hmarkup, List.forall_mem_singleton.mpr hsecond⟩⟩)
  have hequal : twins.equal (.list 0) (.list 1) = true := by decide +kernel
  have hback := (coherent_exact hkeys).symm hzero hone hequal
  have hlevel : twins.compare "<" (.list 0) (.list 1) = .ok .eq := by decide +kernel
  have hturned := ((coherent_exact hkeys).swap hzero hone).mp hlevel
  exact ⟨hkeys, hzero, hone, hequal, hback, hturned⟩

end Heap

end TemplateEngine
