import TemplateEngine.Proofs.Script.Ordering
import TemplateEngine.Script.Builtin

/-!
# Sorted lists and extremes

Where all values are ordered, putting one into place keeps what is there in order, and
moves it past greater values only, so those that are ordered as equal stay in line. The
running extreme is the first value that none before it and none after it comes before.
Both see the same values in front, and so agree.
-/
namespace TemplateEngine.Sorting

variable {compare : Value → Value → Except Cause Ordering} {S : Value → Prop}

/-- What makes a comparison an order of the values of a kind. -/
structure Orders (compare : Value → Value → Except Cause Ordering) (S : Value → Prop) : Prop where
  total : ∀ {v w}, S v → S w → ∃ o, compare v w = .ok o
  swap : ∀ {v w o}, S v → S w → compare v w = .ok o → compare w v = .ok o.swap
  level : ∀ {u v w o}, S u → S v → S w → compare u v = .ok .eq → compare v w = .ok o →
    compare u w = .ok o
  less : ∀ {u v w}, S u → S v → S w → compare u v = .ok .lt → compare v w = .ok .lt →
    compare u w = .ok .lt

/-- A value is less than another one, or ordered as equal to it. -/
def AtMost (compare : Value → Value → Except Cause Ordering) (v w : Value) : Prop :=
  compare v w = .ok .lt ∨ compare v w = .ok .eq

/-- Whether two values are ordered as equal. -/
def tied (compare : Value → Value → Except Cause Ordering) (v w : Value) : Bool :=
  compare v w = .ok .eq

/-- The values of a list put in order, with those that are ordered as equal as they were. -/
structure Arranged (compare : Value → Value → Except Cause Ordering) (S : Value → Prop)
    (R : Value → Value → Prop) (vs ws : List Value) : Prop where
  perm : ws.Perm vs
  ordered : ws.Pairwise R
  stable : ∀ {v}, S v → ws.filter (tied compare v) = vs.filter (tied compare v)

/-- The first value in a list that is as far out as any: all before it are less far out. -/
def First (compare : Value → Value → Except Cause Ordering) (wanted : Ordering) (vs : List Value)
    (m : Value) : Prop :=
  ∃ before after, vs = before ++ m :: after ∧ (∀ v ∈ before, compare m v = .ok wanted) ∧
    ∀ v ∈ after, compare v m ≠ .ok wanted

theorem First.mem {wanted : Ordering} {vs : List Value} {m : Value}
    (hfirst : First compare wanted vs m) : m ∈ vs := by
  obtain ⟨before, after, rfl, -, -⟩ := hfirst
  exact List.mem_append_right _ List.mem_cons_self

theorem place_past {item last : Value} {others out : List Value}
    (hless : compare item last = .ok .lt) (hout : place compare item others = .ok out) :
    place compare item (last :: others) = .ok (last :: out) := by
  rw [place, hless, hout]
  rfl

theorem place_here {item last : Value} {others : List Value} {o : Ordering}
    (ho : compare item last = .ok o) (hless : o ≠ .lt) :
    place compare item (last :: others) = .ok (item :: last :: others) := by
  rw [place, ho]
  cases o with
  | lt => exact absurd rfl hless
  | eq => rfl
  | gt => rfl

theorem extremeFrom_cons {h : Heap} {wanted o : Ordering} {best item : Value} {items : List Value}
    (ho : h.compare "<" item best = .ok o) : extremeFrom h wanted best (item :: items) =
      extremeFrom h wanted (if o = wanted then item else best) items := by
  rw [extremeFrom, ho]
  rfl

namespace Orders

variable {u v w : Value}

theorem self (horders : Orders compare S) (hv : S v) : compare v v = .ok .eq := by
  obtain ⟨o, ho⟩ := horders.total hv hv
  have hswap := horders.swap hv hv ho
  rw [ho] at hswap
  cases o with
  | eq => exact ho
  | lt => cases hswap
  | gt => cases hswap

/-- Either side of an order is transitive. -/
theorem trans (horders : Orders compare S) {wanted : Ordering} (hwanted : wanted ≠ .eq) (hu : S u)
    (hv : S v) (hw : S w) (huv : compare u v = .ok wanted) (hvw : compare v w = .ok wanted) :
    compare u w = .ok wanted := by
  cases wanted with
  | eq => exact absurd rfl hwanted
  | lt => exact horders.less hu hv hw huv hvw
  | gt =>
      have hback := horders.less hw hv hu (horders.swap hv hw hvw) (horders.swap hu hv huv)
      exact horders.swap hw hu hback

/-- What is further out than a value is further out than any that is not. -/
theorem beyond (horders : Orders compare S) {wanted : Ordering} (hwanted : wanted ≠ .eq) (hu : S u)
    (hv : S v) (hw : S w) (huv : compare u v = .ok wanted) (hwv : compare w v ≠ .ok wanted) :
    compare u w = .ok wanted := by
  obtain ⟨o, ho⟩ := horders.total hw hu
  have hback := horders.swap hw hu ho
  by_cases hlevel : o = .eq
  · subst hlevel
    exact absurd (horders.level hw hu hv ho huv) hwv
  · by_cases hsame : o = wanted
    · subst hsame
      exact absurd (horders.trans hwanted hw hu hv ho huv) hwv
    · have hother : o.swap = wanted := by
        cases o <;> cases wanted <;> simp_all
      rwa [hother] at hback

theorem atMost_of_not_less (horders : Orders compare S) (hv : S v) (hw : S w)
    (hvw : compare v w ≠ .ok .lt) : AtMost compare w v := by
  obtain ⟨o, ho⟩ := horders.total hv hw
  have hback := horders.swap hv hw ho
  cases o with
  | lt => exact absurd ho hvw
  | eq => exact .inr hback
  | gt => exact .inl hback

theorem not_less_of_atMost (horders : Orders compare S) (hv : S v) (hw : S w)
    (hvw : AtMost compare v w) : compare w v ≠ .ok .lt := by
  intro hless
  have hback := horders.swap hw hv hless
  rcases hvw with hvw | hvw
  · rw [hvw] at hback
    cases hback
  · rw [hvw] at hback
    cases hback

theorem atMost_trans (horders : Orders compare S) (hu : S u) (hv : S v) (hw : S w)
    (huv : AtMost compare u v) (hvw : AtMost compare v w) : AtMost compare u w := by
  apply horders.atMost_of_not_less hw hu
  intro hless
  -- then `w` would be less than `v` as well
  have hbelow : compare w v = .ok .lt :=
    horders.beyond (by decide) hw hu hv hless (horders.not_less_of_atMost hu hv huv)
  exact horders.not_less_of_atMost hv hw hvw hbelow

/-- Putting one more value into place. -/
theorem place_arranged (horders : Orders compare S) {item : Value} {sorted : List Value}
    (hitem : S item) (hsorted : ∀ v ∈ sorted, S v)
    (hordered : sorted.Pairwise fun v w => AtMost compare w v) :
    ∃ out, place compare item sorted = .ok out ∧
      Arranged compare S (fun v w => AtMost compare w v) (item :: sorted) out := by
  induction sorted with
  | nil => exact ⟨[item], rfl, .refl _, List.pairwise_singleton _ _, fun _ => rfl⟩
  | cons last others ih =>
      rw [List.forall_mem_cons] at hsorted
      rw [List.pairwise_cons] at hordered
      obtain ⟨o, ho⟩ := horders.total hitem hsorted.1
      by_cases hless : o = .lt
      · subst hless
        obtain ⟨out, hout, harranged⟩ := ih hsorted.2 hordered.2
        refine ⟨last :: out, place_past ho hout, (harranged.perm.cons last).trans (.swap ..), ?_, ?_⟩
        · refine List.pairwise_cons.mpr ⟨fun v hv => ?_, harranged.ordered⟩
          rcases List.mem_cons.mp (harranged.perm.mem_iff.mp hv) with rfl | hv
          · exact .inl ho
          · exact hordered.1 v hv
        · intro v hv
          have hstable := harranged.stable hv
          simp only [List.filter_cons] at hstable ⊢
          rw [hstable]
          by_cases htied : compare v item = .ok .eq
          · have hlast := horders.level hv hitem hsorted.1 htied ho
            simp [tied, htied, hlast]
          · simp [tied, htied]
      · refine ⟨item :: last :: others, place_here ho hless, .refl _, ?_, fun _ => rfl⟩
        have hlast : AtMost compare last item :=
          horders.atMost_of_not_less hitem hsorted.1 (ho ▸ fun heq => hless (by cases heq; rfl))
        refine List.pairwise_cons.mpr ⟨?_, List.pairwise_cons.mpr hordered⟩
        intro v hv
        rcases List.mem_cons.mp hv with rfl | hv
        · exact hlast
        · exact horders.atMost_trans (hsorted.2 v hv) hsorted.1 hitem (hordered.1 v hv) hlast

theorem placeAll_arranged (horders : Orders compare S) {items sorted : List Value}
    (hitems : ∀ v ∈ items, S v) (hsorted : ∀ v ∈ sorted, S v)
    (hordered : sorted.Pairwise fun v w => AtMost compare w v) :
    ∃ out, placeAll compare sorted items = .ok out ∧
      Arranged compare S (fun v w => AtMost compare w v) (items.reverse ++ sorted) out := by
  induction items generalizing sorted with
  | nil => exact ⟨sorted, rfl, .refl _, hordered, fun _ => rfl⟩
  | cons item items ih =>
      rw [List.forall_mem_cons] at hitems
      obtain ⟨placed, hplaced, hone⟩ := horders.place_arranged hitems.1 hsorted hordered
      have hin : ∀ v ∈ placed, S v := fun v hv =>
        (List.forall_mem_cons.mpr ⟨hitems.1, hsorted⟩) v (hone.perm.mem_iff.mp hv)
      obtain ⟨out, hout, hall⟩ := ih hitems.2 hin hone.ordered
      have hplaceAll : placeAll compare sorted (item :: items) = .ok out := by
        rw [placeAll, hplaced]
        exact hout
      refine ⟨out, hplaceAll, ?_, hall.ordered, ?_⟩
      · have hperm := hall.perm.trans (hone.perm.append_left items.reverse)
        simpa using hperm
      · intro v hv
        rw [hall.stable hv, List.filter_append, hone.stable hv]
        simp [List.filter_append]

section Extremes

variable {h : Heap} {wanted : Ordering} {m : Value}

/-- The running extreme of the values that come after a first one. -/
theorem extremeFrom_first (horders : Orders (h.compare "<") S) (hwanted : wanted ≠ .eq)
    {best : Value} {items : List Value} (hbest : S best) (hitems : ∀ v ∈ items, S v) :
    ∃ m, extremeFrom h wanted best items = .ok m ∧ First (h.compare "<") wanted (best :: items) m := by
  induction items generalizing best with
  | nil => exact ⟨best, rfl, [], [], rfl, nofun, nofun⟩
  | cons item items ih =>
      rw [List.forall_mem_cons] at hitems
      obtain ⟨o, ho⟩ := horders.total hitems.1 hbest
      by_cases hout : o = wanted
      · -- all that is not beyond the new extreme has nothing beyond the old one either
        subst hout
        obtain ⟨m, hm, before, after, hsplit, hbefore, hafter⟩ := ih hitems.1 hitems.2
        refine ⟨m, ?_, best :: before, after, congrArg _ hsplit, ?_, hafter⟩
        · rw [extremeFrom_cons ho, if_pos rfl, hm]
        · refine List.forall_mem_cons.mpr ⟨?_, hbefore⟩
          cases before with
          | nil =>
              cases hsplit
              exact ho
          | cons first before =>
              obtain ⟨rfl, hrest⟩ := List.cons.inj hsplit
              have hin : S m := hitems.2 m (by simp [hrest])
              exact horders.trans hwanted hin hitems.1 hbest
                (hbefore item List.mem_cons_self) ho
      · obtain ⟨m, hm, before, after, hsplit, hbefore, hafter⟩ := ih hbest hitems.2
        have hitem : h.compare "<" item best ≠ .ok wanted := by
          rw [ho]
          exact fun heq => hout (by cases heq; rfl)
        refine ⟨m, ?_, ?_⟩
        · rw [extremeFrom_cons ho, if_neg hout, hm]
        · cases before with
          | nil =>
              obtain ⟨rfl, rfl⟩ := List.cons.inj hsplit
              exact ⟨[], item :: items, rfl, nofun, List.forall_mem_cons.mpr ⟨hitem, hafter⟩⟩
          | cons first before =>
              obtain ⟨rfl, hrest⟩ := List.cons.inj hsplit
              rw [List.forall_mem_cons] at hbefore
              have hin : S m := hitems.2 m (by simp [hrest])
              have hbeyond := horders.beyond hwanted hin hbest hitems.1 hbefore.1 hitem
              refine ⟨best :: item :: before, after, by simp [hrest], ?_, hafter⟩
              exact List.forall_mem_cons.mpr ⟨hbefore.1, List.forall_mem_cons.mpr
                ⟨hbeyond, hbefore.2⟩⟩

end Extremes

section Agreement

variable {vs ws : List Value} {m : Value}

/-- Nothing is further out than the extreme. -/
theorem first_bounds (horders : Orders compare (· ∈ vs)) {wanted : Ordering} (hwanted : wanted ≠ .eq)
    (hfirst : First compare wanted vs m) (hv : v ∈ vs) : compare v m ≠ .ok wanted := by
  have hm := hfirst.mem
  obtain ⟨before, after, rfl, hbefore, hafter⟩ := hfirst
  intro hbeyond
  rcases List.mem_append.mp hv with hin | hin
  · have hback := horders.trans hwanted hm hv hm (hbefore v hin) hbeyond
    rw [horders.self hm] at hback
    exact hwanted (by cases hback; rfl)
  · rcases List.mem_cons.mp hin with rfl | hin
    · rw [horders.self hm] at hbeyond
      exact hwanted (by cases hbeyond; rfl)
    · exact hafter v hin hbeyond

/-- The value in front of the sorted ones is the first that none is less than. -/
theorem head_eq_first (horders : Orders compare (· ∈ vs))
    (harranged : Arranged compare (· ∈ vs) (AtMost compare) vs ws)
    (hfirst : First compare .lt vs m) : ws.head? = some m := by
  have hm := hfirst.mem
  have hbounds (v : Value) (hv : v ∈ vs) : compare v m ≠ .ok .lt :=
    horders.first_bounds (by decide) hfirst hv
  obtain ⟨before, after, hvs, hbefore, -⟩ := hfirst
  have hfound : (vs.filter (tied compare m)).head? = some m := by
    have hnone : before.filter (tied compare m) = [] := by
      refine List.filter_eq_nil_iff.mpr fun v hv => ?_
      simp [tied, hbefore v hv]
    rw [hvs, List.filter_append, hnone]
    simp [tied, horders.self hm]
  cases ws with
  | nil =>
      have hnil := harranged.perm.symm.eq_nil
      rw [hnil] at hm
      cases hm
  | cons first ws =>
      have hin : first ∈ vs := harranged.perm.mem_iff.mp List.mem_cons_self
      have hlow : compare first m = .ok .eq := by
        rcases List.mem_cons.mp (harranged.perm.mem_iff.mpr hm) with rfl | hrest
        · exact horders.self hm
        · have hatMost := (List.pairwise_cons.mp harranged.ordered).1 m hrest
          exact hatMost.resolve_left (hbounds first hin)
      rw [← harranged.stable hm, List.filter_cons_of_pos] at hfound
      · exact hfound
      · exact decide_eq_true (horders.swap hin hm hlow)

/-- The greatest value is ordered as equal to the last of the sorted ones. -/
theorem tied_last (horders : Orders compare (· ∈ vs))
    (harranged : Arranged compare (· ∈ vs) (AtMost compare) vs ws)
    (hfirst : First compare .gt vs m) {last : Value} (hlast : ws.getLast? = some last) :
    compare m last = .ok .eq := by
  have hm := hfirst.mem
  have hin : last ∈ vs := harranged.perm.mem_iff.mp (List.mem_of_getLast? hlast)
  have hbound := horders.first_bounds (by decide) hfirst hin
  obtain ⟨front, rfl⟩ := List.getLast?_eq_some_iff.mp hlast
  rcases List.mem_append.mp (harranged.perm.mem_iff.mpr hm) with hfront | hend
  · have hatMost := (List.pairwise_append.mp harranged.ordered).2.2 m hfront last
      List.mem_cons_self
    refine hatMost.resolve_left fun hless => hbound (horders.swap hm hin hless)
  · cases List.mem_singleton.mp hend
    exact horders.self hm

end Agreement

end Orders

section Comparable

variable {h : Heap} {vs : List Value}

/-- Values without floats of which any two are comparable. -/
structure Sortable (h : Heap) (vs : List Value) : Prop where
  floatFree : ∀ v ∈ vs, h.FloatFree v
  comparable : vs.Pairwise h.Comparable

/-- Each of two or more comparable values is ordered with another one. -/
theorem exists_ranked (hkeys : h.Keyed) (hvs : Sortable h vs)
    (htwo : 2 ≤ vs.length) {v : Value} (hv : v ∈ vs) :
    ∃ w o, h.RankedTo "<" h.depth v w o := by
  have hfree := hvs.floatFree
  match vs with
  | [] | [_] => exact absurd htwo (by simp)
  | first :: second :: others =>
      have hfirst := (List.pairwise_cons.mp hvs.comparable).1
      rcases List.mem_cons.mp hv with rfl | hrest
      · obtain ⟨o, ho, -⟩ := hfirst second List.mem_cons_self
        exact ⟨second, o, hfree _ hv, hfree second (by simp), ho⟩
      · obtain ⟨o, ho, -⟩ := hfirst v hrest
        have hrank : h.RankedTo "<" h.depth first v o :=
          ⟨hfree first List.mem_cons_self, hfree v hv, ho⟩
        exact ⟨first, o.swap, hrank.swap hkeys⟩

/-- Values of which any two are comparable are in order, if there are two of them at all. -/
theorem orders_of_comparable (hkeys : h.Keyed) (hvs : Sortable h vs)
    (htwo : 2 ≤ vs.length) :
    Orders (h.compare "<") (· ∈ vs) := by
  have hfree := hvs.floatFree
  have hdistinct {v w : Value} (hv : v ∈ vs) (hw : w ∈ vs) (hne : v ≠ w) : h.Comparable v w := by
    have hboth := hvs.comparable.imp_of_mem fun hv hw hvw =>
      And.intro (hfree _ hv) (And.intro (hfree _ hw) hvw)
    have : Std.Symm fun v w => h.FloatFree v ∧ h.FloatFree w ∧ h.Comparable v w :=
      ⟨fun v w hvw => ⟨hvw.2.1, hvw.1, hvw.2.2.symm hkeys hvw.1 hvw.2.1⟩⟩
    exact (hboth.forall hv hw hne).2.2
  have hself {v : Value} (hv : v ∈ vs) : h.compare "<" v v = .ok .eq := by
    obtain ⟨w, o, hrank⟩ := exists_ranked hkeys hvs htwo hv
    exact hrank.self.ranked
  constructor
  · intro v w hv hw
    by_cases heq : v = w
    · exact ⟨.eq, heq ▸ hself hv⟩
    · obtain ⟨o, ho, -⟩ := hdistinct hv hw heq
      exact ⟨o, ho⟩
  · intro v w o hv hw hvw
    have hrank : h.RankedTo "<" h.depth v w o := ⟨hfree v hv, hfree w hw, hvw⟩
    exact (hrank.swap hkeys).ranked
  · intro u v w o hu hv hw huv hvw
    by_cases heq : u = v
    · exact heq ▸ hvw
    · obtain ⟨o', ho', hequal⟩ := hdistinct hu hv heq
      rw [huv] at ho'
      cases ho'
      have hsame : h.Equal u v := ⟨hfree u hu, hfree v hv, hequal rfl⟩
      have hrank : h.RankedTo "<" h.depth v w o := ⟨hfree v hv, hfree w hw, hvw⟩
      exact (Heap.RankedTo.congr hkeys hsame hrank).ranked
  · intro u v w hu hv hw huv hvw
    have hfirst : h.RankedTo "<" h.depth u v .lt := ⟨hfree u hu, hfree v hv, huv⟩
    have hsecond : h.RankedTo "<" h.depth v w .lt := ⟨hfree v hv, hfree w hw, hvw⟩
    exact (hfirst.trans hkeys hsecond).ranked

/-- The sorted values are there, in ascending order. -/
theorem ascending_arranged (hkeys : h.Keyed) (hvs : Sortable h vs) :
    ∃ ws, ascending h vs = .ok ws ∧
      Arranged (h.compare "<") (· ∈ vs) (AtMost (h.compare "<")) vs ws := by
  match vs with
  | [] => exact ⟨[], rfl, .refl _, .nil, fun _ => rfl⟩
  | [v] => exact ⟨[v], rfl, .refl _, List.pairwise_singleton _ _, fun _ => rfl⟩
  | first :: second :: others =>
      have horders := orders_of_comparable hkeys hvs (by simp)
      obtain ⟨out, hout, harranged⟩ := horders.placeAll_arranged (fun _ hv => hv)
        (fun _ hv => absurd hv List.not_mem_nil) .nil
      rw [List.append_nil] at harranged
      refine ⟨out.reverse, by rw [ascending, hout]; rfl, ?_, ?_, ?_⟩
      · exact (List.reverse_perm _).trans (harranged.perm.trans (List.reverse_perm _))
      · exact List.pairwise_reverse.mpr harranged.ordered
      · intro v hv
        rw [List.filter_reverse, harranged.stable hv, List.filter_reverse, List.reverse_reverse]

/-- The extreme of some values is there, and the first of its kind. -/
theorem extreme_first (hkeys : h.Keyed) (hvs : Sortable h vs) (hne : vs ≠ []) (wanted : Ordering)
    (hwanted : wanted ≠ .eq) :
    ∃ m, extreme? h wanted vs = .ok (some m) ∧ First (h.compare "<") wanted vs m := by
  match vs with
  | [] => exact absurd rfl hne
  | [v] => exact ⟨v, rfl, [], [], rfl, nofun, nofun⟩
  | first :: second :: others =>
      have horders := orders_of_comparable hkeys hvs (by simp)
      obtain ⟨m, hm, hfirst⟩ := horders.extremeFrom_first hwanted List.mem_cons_self
        fun _ hv => List.mem_cons_of_mem _ hv
      exact ⟨m, by rw [extreme?, hm]; rfl, hfirst⟩

/-- Numbers can always be sorted. -/
theorem sortable_numbers (hvs : ∀ v ∈ vs, ∃ n, v.face? = some (.number n)) : Sortable h vs where
  floatFree := by
    intro v hv x hx
    obtain ⟨n, hn⟩ := hvs v hv
    rcases hx.cases_head with rfl | ⟨w, hw, -⟩
    · cases hn
    · cases v <;> first | cases hw | cases hn
  comparable := by
    refine List.pairwise_of_forall_mem_list fun v hv w hw => ?_
    obtain ⟨m, hm⟩ := hvs v hv
    obtain ⟨n, hn⟩ := hvs w hw
    refine ⟨cmp m n, Heap.compareTo_number hm hn, fun hlevel => ?_⟩
    exact (Heap.equalTo_face hm hn).mpr (congrArg _ ((cmp_eq_eq_iff m n).mp hlevel))

end Comparable

section Calls

variable {h : Heap} {p : Nat} {ws : List Value}

theorem call_sorted (hsorted : ascending h (h.list p) = .ok ws) :
    Builtin.call .sorted ⟨[.list p], []⟩ h =
      .ok (.list h.lists.size, { h with lists := h.lists.push ws }) := by
  have hdone : sorted h false (h.list p) = .ok ws := by
    rw [sorted, hsorted]
    rfl
  change Except.bind ((sorted h false (h.list p)).map fun items => (items, h)) _ = _
  rw [hdone]
  rfl

theorem call_sorted_reverse (hsorted : ascending h (h.list p) = .ok ws) :
    Builtin.call .sorted ⟨[.list p], [("reverse", .bool true)]⟩ h =
      .ok (.list h.lists.size, { h with lists := h.lists.push ws.reverse }) := by
  have hdone : sorted h true (h.list p) = .ok ws.reverse := by
    rw [sorted, hsorted]
    rfl
  change Except.bind ((sorted h true (h.list p)).map fun items => (items, h)) _ = _
  rw [hdone]
  rfl

/-- The least or the greatest item of a list. -/
theorem extremeOf_list {function : Text} {wanted : Ordering} {m : Value}
    (hm : extreme? h wanted (h.list p) = .ok (some m)) :
    Builtin.extremeOf function wanted ⟨[.list p], []⟩ h = .ok (m, h) := by
  change Except.bind ((extreme? h wanted (h.list p)).map fun found => (found, h)) _ = _
  rw [hm]
  rfl

/-- Two or more arguments are taken as they are. -/
theorem extremeOf_arguments {function : Text} {wanted : Ordering} {m : Value} {vs : List Value}
    (htwo : 2 ≤ vs.length) (hm : extreme? h wanted vs = .ok (some m)) :
    Builtin.extremeOf function wanted ⟨vs, []⟩ h = .ok (m, h) := by
  match vs with
  | [] | [_] => exact absurd htwo (by simp)
  | first :: second :: others =>
      change Except.bind ((extreme? h wanted (first :: second :: others)).map
        fun found => (found, h)) _ = _
      rw [hm]
      rfl

/-- What sorting some values and looking for their extremes give, if they agree: `ws` are the
values in order, `low` and `high` their extremes. -/
structure Agreeing (compare : Value → Value → Except Cause Ordering) (vs ws : List Value)
    (low high : Value) : Prop where
  arranged : Arranged compare (· ∈ vs) (AtMost compare) vs ws
  front : ws.head? = some low
  least : First compare .lt vs low
  /-- The greatest value is the first of those that are ordered as equal to the last one. -/
  greatest : ∃ before after last, vs = before ++ high :: after ∧ ws.getLast? = some last ∧
    (high = last ∨ compare high last = .ok .eq) ∧ ∀ v ∈ before, compare v last ≠ .ok .eq

/-- Any sorted list agrees with any extremes. -/
theorem agreeing {vs : List Value} {low high : Value} (hkeys : h.Keyed) (hvs : Sortable h vs)
    (harranged : Arranged (h.compare "<") (· ∈ vs) (AtMost (h.compare "<")) vs ws)
    (hlow : First (h.compare "<") .lt vs low) (hhigh : First (h.compare "<") .gt vs high) :
    Agreeing (h.compare "<") vs ws low high := by
  match vs with
  | [] => cases hlow.mem
  | [v] =>
      have hws := List.perm_singleton.mp harranged.perm
      cases List.mem_singleton.mp hlow.mem
      cases List.mem_singleton.mp hhigh.mem
      subst hws
      exact ⟨harranged, rfl, hlow, [], [], _, rfl, rfl, .inl rfl, nofun⟩
  | first :: second :: others =>
      have horders := orders_of_comparable hkeys hvs (by simp)
      refine ⟨harranged, horders.head_eq_first harranged hlow, hlow, ?_⟩
      have hne : ws ≠ [] := by
        rintro rfl
        exact absurd harranged.perm.length_eq (by simp)
      have hlast := List.getLast?_eq_some_getLast hne
      have hin := harranged.perm.mem_iff.mp (List.getLast_mem hne)
      have htied := horders.tied_last harranged hhigh hlast
      have hmem := hhigh.mem
      obtain ⟨before, after, hsplit, hbefore, -⟩ := hhigh
      refine ⟨before, after, ws.getLast hne, hsplit, hlast, .inr htied, fun v hv hlevel => ?_⟩
      have hv' : v ∈ first :: second :: others := hsplit ▸ List.mem_append_left _ hv
      have hback := horders.swap hv' hin hlevel
      have hsame := horders.level hmem hin hv' htied hback
      rw [hbefore v hv] at hsame
      cases hsame

/-- Sorting a list, and asking for its least and its greatest item, agree, and leave the list as
it is. Two or more items may as well be handed over one by one. -/
theorem sorted_min_max_agree (hkeys : h.Keyed) (hne : h.list p ≠ [])
    (hvs : Sortable h (h.list p)) :
    ∃ ws h' low high,
      Builtin.call .sorted ⟨[.list p], []⟩ h = .ok (.list h.lists.size, h') ∧
      h'.list h.lists.size = ws ∧ h'.list p = h.list p ∧
      Builtin.call .min ⟨[.list p], []⟩ h = .ok (low, h) ∧
      Builtin.call .max ⟨[.list p], []⟩ h = .ok (high, h) ∧
      Agreeing (h.compare "<") (h.list p) ws low high ∧
      (2 ≤ (h.list p).length →
        Builtin.call .min ⟨h.list p, []⟩ h = .ok (low, h) ∧
        Builtin.call .max ⟨h.list p, []⟩ h = .ok (high, h)) := by
  obtain ⟨ws, hws, harranged⟩ := ascending_arranged hkeys hvs
  obtain ⟨low, hlow, hleast⟩ := extreme_first hkeys hvs hne .lt (by decide)
  obtain ⟨high, hhigh, hgreatest⟩ := extreme_first hkeys hvs hne .gt (by decide)
  refine ⟨ws, { h with lists := h.lists.push ws }, low, high, call_sorted hws, ?_, ?_,
    extremeOf_list hlow, extremeOf_list hhigh, agreeing hkeys hvs harranged hleast hgreatest,
    fun htwo => ⟨extremeOf_arguments htwo hlow, extremeOf_arguments htwo hhigh⟩⟩
  · simp [Heap.list]
  · have hplace : p < h.lists.size := by
      by_contra hout
      exact hne (by simp [Heap.list, Array.getD, hout])
    exact Heap.getD_push_of_lt ws hplace

/-- Three numbers, two of which are ordered as equal. -/
def threeNumbers : Heap := ⟨#[[.int 2, .int 1, .bool true]], #[], #[], 0⟩

theorem keyed_threeNumbers : threeNumbers.Keyed := by
  intro p
  simp [Heap.dict, threeNumbers, Entries.names]

theorem sortable_threeNumbers : Sortable threeNumbers (threeNumbers.list 0) :=
  sortable_numbers (List.forall_mem_cons.mpr ⟨⟨2, rfl⟩, List.forall_mem_cons.mpr ⟨⟨1, rfl⟩,
    List.forall_mem_singleton.mpr ⟨1, rfl⟩⟩⟩)

theorem sorted_min_max_agree_numbers :
    threeNumbers.Keyed ∧ threeNumbers.list 0 ≠ [] ∧ Sortable threeNumbers (threeNumbers.list 0) ∧
    Builtin.call .sorted ⟨[.list 0], []⟩ threeNumbers = .ok (.list 1,
      { threeNumbers with lists := threeNumbers.lists.push [.int 1, .bool true, .int 2] }) ∧
    Builtin.call .min ⟨[.list 0], []⟩ threeNumbers = .ok (.int 1, threeNumbers) ∧
    Agreeing (threeNumbers.compare "<") [.int 2, .int 1, .bool true]
      [.int 1, .bool true, .int 2] (.int 1) (.int 2) := by
  have hne : threeNumbers.list 0 ≠ [] := nofun
  have hin : Builtin.call .sorted ⟨[.list 0], []⟩ threeNumbers = .ok (.list 1,
      { threeNumbers with lists := threeNumbers.lists.push [.int 1, .bool true, .int 2] }) := by
    rfl
  have hleast : Builtin.call .min ⟨[.list 0], []⟩ threeNumbers = .ok (.int 1, threeNumbers) := by
    rfl
  have hgreatest : Builtin.call .max ⟨[.list 0], []⟩ threeNumbers = .ok (.int 2, threeNumbers) := by
    rfl
  obtain ⟨ws, h', low, high, hsorted, hws, -, hmin, hmax, hagree, -⟩ :=
    sorted_min_max_agree keyed_threeNumbers hne sortable_threeNumbers
  cases hin.symm.trans hsorted
  cases hleast.symm.trans hmin
  cases hgreatest.symm.trans hmax
  subst hws
  exact ⟨keyed_threeNumbers, hne, sortable_threeNumbers, hin, hleast, hagree⟩

/-- A list sorted the other way around has its items in descending order, but those that are
ordered as equal come in the opposite order. -/
theorem sorted_reverse_turned (hkeys : h.Keyed) (hvs : Sortable h (h.list p)) :
    ∃ ws h', Builtin.call .sorted ⟨[.list p], [("reverse", .bool true)]⟩ h =
        .ok (.list h.lists.size, h') ∧
      h'.list h.lists.size = ws ∧ ws.Perm (h.list p) ∧
      ws.Pairwise (fun v w => AtMost (h.compare "<") w v) ∧
      ∀ v ∈ h.list p, ws.filter (tied (h.compare "<") v) =
        ((h.list p).filter (tied (h.compare "<") v)).reverse := by
  obtain ⟨ws, hws, harranged⟩ := ascending_arranged hkeys hvs
  refine ⟨ws.reverse, { h with lists := h.lists.push ws.reverse }, call_sorted_reverse hws, ?_,
    (List.reverse_perm ws).trans harranged.perm, List.pairwise_reverse.mpr harranged.ordered, ?_⟩
  · simp [Heap.list]
  · intro v hv
    rw [List.filter_reverse, harranged.stable hv]

theorem sorted_reverse_turned_numbers :
    threeNumbers.Keyed ∧ Sortable threeNumbers (threeNumbers.list 0) ∧
    ∃ ws : List Value, ws.Perm [.int 2, .int 1, .bool true] ∧
      ws.filter (tied (threeNumbers.compare "<") (.int 1)) = [.bool true, .int 1] := by
  obtain ⟨ws, -, -, -, hperm, -, htied⟩ :=
    sorted_reverse_turned keyed_threeNumbers sortable_threeNumbers
  exact ⟨keyed_threeNumbers, sortable_threeNumbers, ws, hperm,
    htied (.int 1) (by simp [threeNumbers, Heap.list])⟩

/-- Values that are ordered as equal do not keep their order. -/
theorem sorted_reverse_not_stable :
    threeNumbers.Keyed ∧ Sortable threeNumbers (threeNumbers.list 0) ∧
    ¬ ∃ ws h', Builtin.call .sorted ⟨[.list 0], [("reverse", .bool true)]⟩ threeNumbers =
        .ok (.list 1, h') ∧ h'.list 1 = ws ∧
      ∀ v ∈ threeNumbers.list 0, ws.filter (tied (threeNumbers.compare "<") v) =
        (threeNumbers.list 0).filter (tied (threeNumbers.compare "<") v) := by
  refine ⟨keyed_threeNumbers, sortable_threeNumbers, ?_⟩
  rintro ⟨ws, h', hcall, hws, hstable⟩
  have hturned : Builtin.call .sorted ⟨[.list 0], [("reverse", .bool true)]⟩ threeNumbers =
      .ok (.list 1,
        { threeNumbers with lists := threeNumbers.lists.push [.int 2, .bool true, .int 1] }) := by
    rfl
  cases hturned.symm.trans hcall
  subst hws
  exact absurd (hstable (.int 1) (by simp [threeNumbers, Heap.list])) (by decide)

end Calls

end TemplateEngine.Sorting
