import TemplateEngine.Proofs.Script.Printing
import TemplateEngine.Proofs.Script.Subscripts
import TemplateEngine.Script.Evaluation.Statement

/-!
# Ranges and their lists

A range walks from its start by its step as long as its bound lies ahead. The way to
the bound gets shorter by the same distance with every step, which is what the number
of items counts; every integer on the walk lies between start and bound, so it is a
machine integer if these are. What a script can ask of a range it answers from start,
bound and step alone, and as the list of the walk would answer.
-/
namespace TemplateEngine

namespace Range

section Walks

variable {stop step n m : Int} {ns others : List Int}

/-- The bound still lies ahead of an integer. -/
def Ahead (stop step n : Int) : Prop := if 0 < step then n < stop else stop < n

/-- The integers that are stepped through from one of them on, as long as the bound lies ahead. -/
inductive Walk (stop step : Int) : Int → List Int → Prop
  | done {n : Int} : ¬ Ahead stop step n → Walk stop step n []
  | step {n : Int} {ns : List Int} :
      Ahead stop step n → Walk stop step (n + step) ns → Walk stop step n (n :: ns)

theorem Walk.unique (hwalk : Walk stop step n ns) (hother : Walk stop step n others) :
    ns = others := by
  induction hwalk generalizing others with
  | done hend =>
      cases hother with
      | done => rfl
      | step hahead _ => exact absurd hahead hend
  | step hahead _ ih =>
      cases hother with
      | done hend => exact absurd hahead hend
      | step _ hother => rw [ih hother]

/-- An integer lies on the way from another one: ahead of the bound, not behind the other one, and
some steps away from it. -/
def OnWay (stop step n m : Int) : Prop :=
  Ahead stop step m ∧ (if 0 < step then n ≤ m else m ≤ n) ∧ step ∣ m - n

theorem onWay_step_iff (hne : step ≠ 0) (hahead : Ahead stop step n) :
    OnWay stop step n m ↔ m = n ∨ OnWay stop step (n + step) m := by
  constructor
  · rintro ⟨hm, hside, k, hk⟩
    by_cases heq : m = n
    · exact .inl heq
    · refine .inr ⟨hm, ?_, k - 1, ?_⟩
      · -- a multiple of the step other than zero is at least one step away
        by_cases hup : 0 < step
        · rw [if_pos hup] at hside ⊢
          have haway : step ≤ m - n := Int.le_of_dvd (by omega) ⟨k, hk⟩
          omega
        · rw [if_neg hup] at hside ⊢
          have hdown : step < 0 := lt_of_le_of_ne (Int.not_lt.mp hup) hne
          have haway : -step ≤ n - m :=
            Int.le_of_dvd (by omega) ⟨k, by rw [Int.neg_mul, ← hk]; omega⟩
          omega
      · rw [Int.mul_sub, Int.mul_one, ← hk]
        omega
  · rintro (rfl | ⟨hm, hside, k, hk⟩)
    · exact ⟨hahead, by split <;> exact Int.le_refl _, 0, by omega⟩
    · refine ⟨hm, ?_, k + 1, ?_⟩
      · by_cases hup : 0 < step
        · rw [if_pos hup] at hside ⊢
          omega
        · rw [if_neg hup] at hside ⊢
          omega
      · rw [Int.mul_add, Int.mul_one, ← hk]
        omega

/-- A walk meets what lies on its way, and nothing else. -/
theorem Walk.mem_iff (hne : step ≠ 0) (hwalk : Walk stop step n ns) :
    m ∈ ns ↔ OnWay stop step n m := by
  induction hwalk with
  | @done n hend =>
      refine iff_of_false List.not_mem_nil ?_
      rintro ⟨hm, hside, -⟩
      unfold Ahead at hend hm
      split at hm
      · rw [if_pos ‹_›] at hend hside
        omega
      · rw [if_neg ‹_›] at hend hside
        omega
  | @step n ns hahead _ ih => rw [List.mem_cons, onWay_step_iff hne hahead, ih]

/-- How far it is to the bound. -/
def gap (stop step n : Int) : Int := if 0 < step then stop - n else n - stop

theorem ahead_iff : Ahead stop step n ↔ 0 < gap stop step n := by
  unfold Ahead gap
  split <;> omega

theorem gap_step : gap stop step (n + step) = gap stop step n - step.natAbs := by
  unfold gap
  split <;> omega

/-- The number of items is the number of steps that fit into the way to the bound, rounded up. -/
theorem length_eq (hne : step ≠ 0) : length ⟨n, stop, step⟩ =
    if 0 < gap stop step n then ((gap stop step n - 1) / step.natAbs + 1).toNat else 0 := by
  unfold length gap
  by_cases hup : 0 < step
  · have hdown : ¬ step < 0 := by omega
    have hsize : (step.natAbs : Int) = step := by omega
    simp [hup, hdown, hsize]
  · have hdown : step < 0 := by omega
    have hsize : (step.natAbs : Int) = -step := by omega
    simp [hup, hdown, hsize]

theorem length_done (hne : step ≠ 0) (hend : ¬ Ahead stop step n) : length ⟨n, stop, step⟩ = 0 := by
  rw [length_eq hne, if_neg (mt ahead_iff.mpr hend)]

theorem length_step (hne : step ≠ 0) (hahead : Ahead stop step n) :
    length ⟨n, stop, step⟩ = length ⟨n + step, stop, step⟩ + 1 := by
  have hgap := ahead_iff.mp hahead
  have hpace : (0 : Int) < step.natAbs := by omega
  rw [length_eq hne, length_eq hne, gap_step, if_pos hgap]
  split
  · rename_i hrest
    have hquotient : (gap stop step n - 1) / (step.natAbs : Int) =
        (gap stop step n - step.natAbs - 1) / step.natAbs + 1 := by
      rw [← Int.add_mul_ediv_right _ 1 (Int.ne_of_gt hpace)]
      congr 1
      omega
    have hnonneg : 0 ≤ (gap stop step n - step.natAbs - 1) / (step.natAbs : Int) :=
      Int.ediv_nonneg (by omega) (by omega)
    rw [hquotient]
    omega
  · rw [Int.ediv_eq_zero_of_lt (by omega) (by omega)]
    rfl

theorem toList_step (hne : step ≠ 0) (hahead : Ahead stop step n) :
    toList ⟨n, stop, step⟩ = n :: toList ⟨n + step, stop, step⟩ := by
  unfold toList
  rw [length_step hne hahead, List.range_succ_eq_map, List.map_cons, List.map_map]
  congr 1
  · simp [item]
  · refine List.map_congr_left fun i _ => ?_
    simp only [item, Function.comp_apply, Nat.succ_eq_add_one, Int.natCast_add, Int.natCast_one,
      Int.add_mul, Int.one_mul]
    omega

/-- The items of a range are its walk. -/
theorem walk_toList (hne : step ≠ 0) (n : Int) : Walk stop step n (toList ⟨n, stop, step⟩) := by
  induction hlength : length ⟨n, stop, step⟩ generalizing n with
  | zero =>
      have hend : ¬ Ahead stop step n := by
        intro hahead
        rw [length_step hne hahead] at hlength
        cases hlength
      unfold toList
      rw [hlength]
      exact .done hend
  | succ k ih =>
      by_cases hahead : Ahead stop step n
      · rw [length_step hne hahead] at hlength
        rw [toList_step hne hahead]
        exact .step hahead (ih (n + step) (Nat.succ.inj hlength))
      · rw [length_done hne hahead] at hlength
        cases hlength

end Walks

section Items

variable {r : Range} {n : Int}

theorem mem_toList (hne : r.step ≠ 0) : n ∈ r.toList ↔ OnWay r.stop r.step r.start n :=
  (walk_toList hne r.start).mem_iff hne

/-- Membership is read off the ends and the step. -/
theorem hasItem_iff (hne : r.step ≠ 0) : r.hasItem n = true ↔ n ∈ r.toList := by
  rw [mem_toList hne]
  unfold hasItem OnWay Ahead
  rw [Bool.and_eq_true, beq_iff_eq, ← Int.dvd_iff_emod_eq_zero]
  split <;> simp only [Bool.and_eq_true, decide_eq_true_eq] <;> tauto

/-- Items are machine integers if the ends of the range are. -/
theorem fits_item (hstart : Word.Fits r.start) (hstop : Word.Fits r.stop) (hne : r.step ≠ 0)
    (hn : n ∈ r.toList) : Word.Fits n := by
  obtain ⟨hahead, hside, -⟩ := (mem_toList hne).mp hn
  unfold Ahead at hahead
  unfold Word.Fits at *
  by_cases hup : 0 < r.step
  · rw [if_pos hup] at hahead hside
    omega
  · rw [if_neg hup] at hahead hside
    omega

/-- The number of items has 64 bits, without a sign. -/
theorem length_lt (hstart : Word.Fits r.start) (hstop : Word.Fits r.stop) (hne : r.step ≠ 0) :
    r.length < 2 ^ 64 := by
  have hgap : gap r.stop r.step r.start < 2 ^ 64 := by
    unfold Word.Fits Word.least Word.greatest at *
    unfold gap
    split <;> omega
  have hlength : length ⟨r.start, r.stop, r.step⟩ = _ := length_eq hne
  rw [hlength]
  split
  · have hquotient : (gap r.stop r.step r.start - 1) / (r.step.natAbs : Int) ≤
        gap r.stop r.step r.start - 1 := Int.ediv_le_self _ (by omega)
    omega
  · decide

end Items
section Loops

variable {ω : Type}

theorem overRange_eq (step : Value → Run ω Flow) (distance : Int) (count : Nat) (n : Int) :
    Run.overRange step distance count n =
      Run.overList step ((List.range count).map fun i : Nat => .int (n + i * distance)) := by
  induction count generalizing n with
  | zero => rfl
  | succ count ih =>
      have hitems : ((List.range count).map fun i : Nat => Value.int (n + distance + i * distance)) =
          (List.range count).map
            ((fun i : Nat => Value.int (n + i * distance)) ∘ Nat.succ) := by
        refine List.map_congr_left fun i _ => ?_
        simp only [Function.comp_apply, Nat.succ_eq_add_one, Int.natCast_add, Int.natCast_one,
          Int.add_mul, Int.one_mul]
        congr 1
        omega
      rw [List.range_succ_eq_map, List.map_cons, List.map_map, Run.overRange, Run.overList, ih,
        hitems]
      simp

theorem overRange_toList (step : Value → Run ω Flow) (r : Range) :
    Run.overRange step r.step r.length r.start = Run.overList step (r.toList.map .int) := by
  rw [overRange_eq, toList, List.map_map]
  rfl

/-- Runs a block for every value of a list. -/
def visitAll (host : Host ω) (fuel : Nat) (handling : List Raised) (target : Target)
    (body : List Stmt) (items : List Value) : Run ω Flow := do
  let visit (v : Value) : Run ω Flow := do
    Run.bind host target v
    execAll host fuel handling body
  Run.overList visit items
  return .normal

variable {host : Host ω} {fuel : Nat} {handling : List Raised} {target : Target}
  {items : Expr} {body : List Stmt} {s s' : State ω}

/-- A loop over a range goes through its items. -/
theorem exec_forEach_range {r : Range} (hitems : items.eval host s = .ok (.range r) s') :
    (Action.forEach target items body).exec host fuel handling s =
      visitAll host fuel handling target body (r.toList.map .int) s' := by
  rw [Action.exec, Run.bind_ok hitems]
  dsimp only
  rw [overRange_toList]
  rfl

/-- A loop over a list goes through what it has in the beginning. -/
theorem exec_forEach_list {p : Nat} (hitems : items.eval host s = .ok (.list p) s') :
    (Action.forEach target items body).exec host fuel handling s =
      visitAll host fuel handling target body (s'.heap.list p) s' := by
  rw [Action.exec, Run.bind_ok hitems]
  rfl

end Loops

section Lists

variable {h : Heap} {r s : Range} {v : Value} {p q : Nat} {n : Int}

theorem equal_int (hfloat : ∀ x, v ≠ .float x) :
    h.equal (.int n) v = true ↔ v.integer? = some n := by
  cases v with
  | float x => exact absurd rfl (hfloat x)
  | list p | tuple p | dict p => exact iff_of_false Bool.false_ne_true nofun
  | _ => exact (Heap.equalTo_face rfl rfl).trans (by simp [Value.integer?, eq_comm])

theorem any_rangeHas (hfloat : ∀ x, v ≠ .float x) :
    v.number?.any (Heap.rangeHas r) = true ↔ ∃ n, v.integer? = some n ∧ r.hasItem n = true := by
  cases v with
  | float x => exact absurd rfl (hfloat x)
  | _ => simp [Value.number?, Value.integer?, Heap.rangeHas]

/-- A range in the place of the list of its items. -/
structure StandsFor (h : Heap) (r : Range) (p : Nat) : Prop where
  isIn : ∀ v, (∀ x, v ≠ .float x) →
    Operator.compare h .isIn v (.range r) = Operator.compare h .isIn v (.list p)
  subscript : ∀ v i, v.integer? = some i →
    (∃ n, Subscript.get h (.range r) v = .ok (.int n) ∧
      Subscript.get h (.list p) v = .ok (.int n)) ∨
    (Raises .indexError (Subscript.get h (.range r) v) ∧
      Raises .indexError (Subscript.get h (.list p) v))
  truthy : h.truthy (.range r) = h.truthy (.list p)
  length : Builtin.lengthOf h (.range r) = Builtin.lengthOf h (.list p)
  iterate : h.iterate (.range r) = h.iterate (.list p)

theorem isIn_agrees (hne : r.step ≠ 0) (hp : h.list p = r.toList.map .int)
    (hfloat : ∀ x, v ≠ .float x) : h.holds (.range r) v = h.holds (.list p) v := by
  refine congrArg Except.ok (Bool.eq_iff_iff.mpr ?_)
  rw [any_rangeHas hfloat, hp, List.any_map, List.any_eq_true]
  simp only [Function.comp_apply, equal_int hfloat, hasItem_iff hne]
  tauto

theorem subscript_agrees {i : Int} (hp : h.list p = r.toList.map .int) (hv : v.integer? = some i) :
    (∃ n, Subscript.get h (.range r) v = .ok (.int n) ∧
      Subscript.get h (.list p) v = .ok (.int n)) ∨
    (Raises .indexError (Subscript.get h (.range r) v) ∧
      Raises .indexError (Subscript.get h (.list p) v)) := by
  have hlength : (r.toList.map Value.int).length = r.length := by
    rw [List.length_map, length_toList]
  have hget : Subscript.get h (.range r) v = (Subscript.place? i r.length).elim
      (.error (.indexOutOfRange .range)) fun place => .ok (.int (r.item place)) := by
    unfold Subscript.get Subscript.index
    rw [hv]
    dsimp only [Bind.bind, Except.bind]
    cases Subscript.place? i r.length <;> rfl
  obtain ⟨hmeets, hmisses⟩ := Subscript.get_part (h := h) (s := .list p) (congrArg some hp) hv
  rw [hlength] at hmisses
  by_cases hi : Subscript.Meets r.length i
  · obtain ⟨part, hpart, hlist⟩ := hmeets (hlength ▸ hi)
    refine .inl ⟨r.item (Subscript.counted r.length i), ?_, ?_⟩
    · rw [hget, Subscript.place?_of_meets hi, Option.elim_some]
    · rw [hlength, List.getElem?_map, getElem?_toList r (Subscript.counted_lt hi)] at hpart
      cases hpart
      exact hlist
  · refine .inr ⟨⟨.indexOutOfRange .range, ?_, rfl⟩, hmisses hi⟩
    rw [hget, Subscript.place?_of_not_meets hi, Option.elim_none]

/-- What a script asks of a range it answers as the list of its items would. -/
theorem standsFor (hne : r.step ≠ 0) (hshort : r.length ≤ maxItems)
    (hp : h.list p = r.toList.map .int) : StandsFor h r p where
  isIn v hfloat := isIn_agrees hne hp hfloat
  subscript v i hv := subscript_agrees hp hv
  truthy := by
    have hempty : (h.list p).isEmpty = (r.length == 0) := by
      rw [hp, Bool.eq_iff_iff, List.isEmpty_iff_length_eq_zero, List.length_map, length_toList,
        beq_iff_eq]
    change (r.length != 0) = !(h.list p).isEmpty
    rw [hempty]
    rfl
  length := by
    have hsmall : ¬ Word.greatest < r.length := by
      unfold maxItems at hshort
      unfold Word.greatest
      omega
    change _ = Except.ok (h.list p).length
    rw [hp, List.length_map, length_toList]
    exact if_neg hsmall
  iterate := (if_neg (Nat.not_lt.mpr hshort)).trans (congrArg Except.ok hp.symm)

/-- Ranges are equal if the lists of their items are. -/
theorem equal_agrees (hp : h.list p = r.toList.map .int) (hq : h.list q = s.toList.map .int) :
    h.equal (.range r) (.range s) = h.equal (.list p) (.list q) := by
  have hrange : h.equal (.range r) (.range s) = true ↔ r.toList = s.toList := same_iff
  have hlist : h.equal (.list p) (.list q) = true ↔ p = q ∨ List.Forall₂
      (fun v w => h.equalTo (h.depth - 1) v w = true) (h.list p) (h.list q) := Heap.equalTo_list
  rw [Bool.eq_iff_iff, hrange, hlist]
  constructor
  · intro hitems
    rw [hp, hq, hitems]
    refine .inr (List.forall₂_same.mpr fun v hv => ?_)
    -- a heap with an item on it is deep enough to compare that item
    rw [← hq] at hv
    have hplace : q < h.lists.size := by
      by_contra hq
      rw [Heap.list, Array.getD_eq_getD_getElem?, Array.getElem?_eq_none (Nat.not_lt.mp hq)] at hv
      cases hv
    obtain ⟨d, hd⟩ : ∃ d, h.depth - 1 = d + 1 := ⟨h.depth - 2, by unfold Heap.depth; omega⟩
    obtain ⟨n, -, rfl⟩ := List.mem_map.mp (hq ▸ hv)
    rw [hd]
    exact (Heap.equalTo_face rfl rfl).mpr rfl
  · have hinjective : (Value.int).Injective := fun _ _ => Value.int.inj
    rintro (rfl | hall)
    · exact hinjective.list_map (hp.symm.trans hq)
    · rw [hp, hq, List.forall₂_map_left_iff, List.forall₂_map_right_iff] at hall
      refine List.forall₂_eq_eq_eq ▸ hall.imp fun m n hmn => ?_
      cases hd : h.depth - 1 with
      | zero =>
          rw [hd] at hmn
          cases hmn
      | succ d =>
          rw [hd] at hmn
          exact Face.number.inj ((Heap.equalTo_face rfl rfl).mp hmn)

/-- The list of a range. -/
theorem list_range (hshort : r.length ≤ maxItems) (h : Heap) :
    ∃ p h', Builtin.call .list ⟨[.range r], []⟩ h = .ok (.list p, h') ∧ h.Extends h' ∧
      h'.list p = r.toList.map .int := by
  have hiterate : h.iterate (.range r) = .ok (r.toList.map .int) := if_neg (Nat.not_lt.mpr hshort)
  refine ⟨_, _, ?_, h.extends_newList _, Heap.getD_push_self _⟩
  change Builtin.listOf ⟨[.range r], []⟩ h = _
  unfold Builtin.listOf
  exact (Effect.bind_ok (Effect.ofExcept_eq_ok rfl)).trans
    (Effect.bind_ok (Effect.checking_ok hiterate))

end Lists

/-- A range has the items of its walk, all of them machine integers, and in the place of a list of
them it answers as the list does: to membership, subscripts, truth, length and equality, and in
loops. -/
theorem lazy_agrees {r : Range} (hstart : Word.Fits r.start) (hstop : Word.Fits r.stop)
    (hne : r.step ≠ 0) :
    (∀ ns, Walk r.stop r.step r.start ns ↔ ns = r.toList) ∧
    r.length = r.toList.length ∧ r.length < 2 ^ 64 ∧ (∀ n ∈ r.toList, Word.Fits n) ∧
    (r.length ≤ maxItems →
      (∀ h : Heap, ∃ p h', Builtin.call .list ⟨[.range r], []⟩ h = .ok (.list p, h') ∧
        h.Extends h' ∧ h'.list p = r.toList.map .int) ∧
      (∀ (h : Heap) (p : Nat), h.list p = r.toList.map .int → StandsFor h r p) ∧
      (∀ (h : Heap) (s : Range) (p q : Nat), h.list p = r.toList.map .int →
        h.list q = s.toList.map .int →
        Operator.compare h .eq (.range r) (.range s) =
          Operator.compare h .eq (.list p) (.list q))) ∧
    ∀ (ω : Type) (host : Host ω) (fuel : Nat) (handling : List Raised) (target : Target)
      (items : Expr) (body : List Stmt) (v : Value) (s s' : State ω),
      items.eval host s = .ok v s' →
      v = .range r ∨ (∃ p, v = .list p ∧ s'.heap.list p = r.toList.map .int) →
      (Action.forEach target items body).exec host fuel handling s =
        visitAll host fuel handling target body (r.toList.map .int) s' := by
  have hwalk : Walk r.stop r.step r.start r.toList := walk_toList hne r.start
  refine ⟨fun ns => ⟨fun hns => hns.unique hwalk, fun hns => hns ▸ hwalk⟩, r.length_toList.symm,
    length_lt hstart hstop hne, fun n hn => fits_item hstart hstop hne hn,
    fun hshort => ⟨list_range hshort, fun h p hp => standsFor hne hshort hp,
      fun h s p q hp hq => congrArg Except.ok (equal_agrees hp hq)⟩, ?_⟩
  rintro ω host fuel handling target items body v s s' hitems (rfl | ⟨p, rfl, hp⟩)
  · exact exec_forEach_range hitems
  · rw [exec_forEach_list hitems, hp]

/-- Three items over a span that is no machine integer. -/
theorem lazy_agrees_widest :
    ∃ p h', Builtin.call .list ⟨[.range ⟨Word.greatest, Word.least, -0x7000000000000000⟩], []⟩
        .empty = .ok (.list p, h') ∧
      h'.list p = [.int Word.greatest, .int 0x0FFFFFFFFFFFFFFF, .int (-0x6000000000000001)] ∧
      StandsFor h' ⟨Word.greatest, Word.least, -0x7000000000000000⟩ p := by
  obtain ⟨-, -, -, -, hshort, -⟩ :=
    lazy_agrees (r := ⟨Word.greatest, Word.least, -0x7000000000000000⟩)
      (by decide) (by decide) (by decide)
  obtain ⟨hlist, hstands, -⟩ := hshort (by decide)
  obtain ⟨p, h', hcall, -, hp⟩ := hlist .empty
  exact ⟨p, h', hcall, hp, hstands h' p hp⟩

end Range
end TemplateEngine
