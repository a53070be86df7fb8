import TemplateEngine.Proofs.Script.Harmless
import TemplateEngine.Script.Operator
import TemplateEngine.Script.Subscript

/-!
# Operators and subscripts on safe values

Arithmetic gives numbers, and a filled-in format is plain text. Joined text is
safe text only if both parts are, and repeated, indexed or sliced safe text has
no character that it did not have before.
-/
namespace TemplateEngine

open Entity (Inert inert_append)

theorem exists_of_bind_ok {α β : Type} {x : Except Cause α} {f : α → Except Cause β} {b : β}
    (h : (x >>= f) = .ok b) : ∃ a, x = .ok a ∧ f a = .ok b := by
  cases x with
  | error cause => cases h
  | ok a => exact ⟨a, rfl, h⟩

namespace Effect

variable {α β : Type} {h : Heap}

theorem Keeps.map {x : Effect α} {f : α → β} {P : Heap → β → Prop}
    (hx : x.Keeps h fun h' a => P h' (f a)) : Keeps (StateT.map f x) h P := by
  intro b h' hrun
  cases hresult : x h with
  | error cause =>
      simp only [StateT.map, hresult, Bind.bind, Except.bind] at hrun
      cases hrun
  | ok result =>
      obtain ⟨a, h''⟩ := result
      simp only [StateT.map, hresult, Bind.bind, Except.bind] at hrun
      cases hrun
      exact hx a h' hresult

end Effect

namespace Number

theorem isPlain_checked {n : Int} {v : Value} (h : checked n = .ok v) : v.isPlain = true := by
  unfold checked at h
  split at h
  · cases h
    rfl
  · cases h

theorem isPlain_ofInts {op : BinaryOp} {a b : Int} {v : Value} (h : ofInts op a b = .ok v) :
    v.isPlain = true := by
  cases op with
  | add => exact isPlain_checked h
  | sub => exact isPlain_checked h
  | mul => exact isPlain_checked h
  | div =>
      simp only [ofInts] at h
      split at h
      · cases h
      · cases h
        rfl
  | floorDiv =>
      simp only [ofInts] at h
      split at h
      · cases h
      · split at h
        · cases h
          rfl
        · cases h
  | mod =>
      simp only [ofInts] at h
      split at h
      · cases h
      · cases h
        rfl

theorem isPlain_ofFloats {op : BinaryOp} {a b : Float} {v : Value}
    (h : ofFloats op a b = .ok v) : v.isPlain = true := by
  cases op <;> simp only [ofFloats] at h
  case add | sub | mul =>
    cases h
    rfl
  case div | floorDiv | mod =>
    split at h
    · cases h
    · cases h
      rfl

theorem isPlain_arithmetic {op : BinaryOp} {a b : Number} {v : Value}
    (h : arithmetic op a b = .ok v) : v.isPlain = true := by
  unfold arithmetic at h
  split at h
  · exact isPlain_ofInts h
  · exact isPlain_ofFloats h

end Number

namespace Operator

variable {h : Heap} {a b v : Value}

theorem mem_of_repeated {α : Type} {sequence : SequenceKind} {size : Nat} {items found : List α}
    {count : Int} (hfound : repeated sequence size items count = .ok found) :
    ∀ item ∈ found, item ∈ items := by
  unfold repeated at hfound
  split at hfound
  · cases hfound
  · cases hfound
    intro item hitem
    split at hitem
    · cases hitem
    · unfold cycle at hitem
      obtain ⟨copy, hcopy, hitem⟩ := List.mem_flatten.mp hitem
      rw [List.eq_of_mem_replicate hcopy] at hitem
      exact hitem

theorem keeps_repeat {count : Int} {effect : Effect Value} (hv : h.Safe v)
    (heffect : repeat? v count = some effect) : effect.KeepsSafe h := by
  cases v with
  | str t =>
      cases heffect
      apply Effect.Keeps.map
      apply Effect.keeps_ofExcept
      intro found _
      exact Heap.safe_plain rfl
  | markup t =>
      have ht : Inert t := hv.harmless
      cases heffect
      apply Effect.Keeps.map
      apply Effect.keeps_ofExcept
      intro found hfound
      exact Heap.safe_markup (ht.of_subset (mem_of_repeated hfound))
  | list p =>
      have hitems := Heap.safe_list.mp hv
      cases heffect
      apply Effect.Keeps.bind (Effect.keeps_reading (P := fun _ items => items = h.list p) rfl)
      intro items h' hkeeps hitems'
      subst hitems'
      apply Effect.Keeps.bind (Effect.keeps_ofExcept
        (P := fun _ found => ∀ item ∈ found, item ∈ h.list p) fun found => mem_of_repeated)
      intro found h'' hkeeps' hfound
      apply Effect.keeps_newList
      intro item hitem
      exact hkeeps' item (hkeeps item (hitems item (hfound item hitem)))
  | tuple p =>
      have hitems := Heap.safe_tuple.mp hv
      cases heffect
      apply Effect.Keeps.bind (Effect.keeps_reading (P := fun _ items => items = h.tuple p) rfl)
      intro items h' hkeeps hitems'
      subst hitems'
      apply Effect.Keeps.bind (Effect.keeps_ofExcept
        (P := fun _ found => ∀ item ∈ found, item ∈ h.tuple p) fun found => mem_of_repeated)
      intro found h'' hkeeps' hfound
      apply Effect.keeps_newTuple
      intro item hitem
      exact hkeeps' item (hkeeps item (hitems item (hfound item hitem)))
  | _ => cases heffect

theorem keeps_join {effect : Effect Value} (ha : h.Safe a) (hb : h.Safe b)
    (heffect : join? a b = some effect) : effect.KeepsSafe h := by
  unfold join? at heffect
  split at heffect
  · rename_i s t
    have hs : Inert s := ha.harmless
    have ht : Inert t := hb.harmless
    cases heffect
    exact Effect.keeps_pure (Heap.safe_markup (inert_append.mpr ⟨hs, ht⟩))
  · rename_i p q
    cases heffect
    apply Effect.Keeps.bind (Effect.keeps_reading
      (P := fun h' items => ∀ item ∈ items, h'.Safe item) ?_)
    · intro items h' _ hitems
      exact Effect.keeps_newList hitems
    · intro item hitem
      rcases List.mem_append.mp hitem with hitem | hitem
      · exact Heap.safe_list.mp ha item hitem
      · exact Heap.safe_list.mp hb item hitem
  · rename_i p q
    cases heffect
    apply Effect.Keeps.bind (Effect.keeps_reading
      (P := fun h' items => ∀ item ∈ items, h'.Safe item) ?_)
    · intro items h' _ hitems
      exact Effect.keeps_newTuple hitems
    · intro item hitem
      rcases List.mem_append.mp hitem with hitem | hitem
      · exact Heap.safe_tuple.mp ha item hitem
      · exact Heap.safe_tuple.mp hb item hitem
  · split at heffect
    · cases heffect
      exact Effect.keeps_pure (Heap.safe_plain rfl)
    · cases heffect

theorem keeps_times {effect : Effect Value} (ha : h.Safe a) (hb : h.Safe b)
    (heffect : times? a b = some effect) : effect.KeepsSafe h := by
  unfold times? at heffect
  split at heffect
  · rename_i found hfound
    cases heffect
    obtain ⟨count, -, hrepeat⟩ := Option.bind_eq_some_iff.mp hfound
    exact keeps_repeat ha hrepeat
  · obtain ⟨count, -, hrepeat⟩ := Option.bind_eq_some_iff.mp heffect
    exact keeps_repeat hb hrepeat

theorem keeps_onOthers {op : BinaryOp} {effect : Effect Value} (ha : h.Safe a) (hb : h.Safe b)
    (heffect : onOthers? op a b = some effect) : effect.KeepsSafe h := by
  cases op with
  | add => exact keeps_join ha hb heffect
  | mul => exact keeps_times ha hb heffect
  | mod =>
      obtain ⟨format, -, hformat⟩ := Option.map_eq_some_iff.mp heffect
      subst hformat
      apply Effect.Keeps.bind (Effect.keeps_checking (P := fun _ _ => True) fun _ _ => trivial)
      intro t h' _ _
      exact Effect.keeps_pure (Heap.safe_plain rfl)
  | _ => cases heffect

theorem keeps_binary (op : BinaryOp) (ha : h.Safe a) (hb : h.Safe b) :
    (binary op a b).KeepsSafe h := by
  unfold binary
  split
  · apply Effect.keeps_ofExcept
    intro v hv
    exact Heap.safe_plain (Number.isPlain_arithmetic hv)
  · cases heffect : onOthers? op a b with
    | none => exact Effect.keeps_fail
    | some effect => exact keeps_onOthers ha hb heffect

theorem isPlain_unary {op : UnaryOp} {r : Value} (hr : unary op v = .ok r) :
    r.isPlain = true := by
  unfold unary at hr
  split at hr
  · exact Number.isPlain_checked hr
  · cases hr
    rfl
  · cases hr
    rfl
  · cases hr
    rfl
  · cases hr
  · cases hr

end Operator

namespace Subscript

variable {h : Heap} {object v : Value}

theorem mem_of_itemAt {α : Type} {sequence : SequenceKind} {items : List α} {index : Int}
    {item : α} (hitem : itemAt sequence items index = .ok item) : item ∈ items := by
  unfold itemAt at hitem
  split at hitem
  · rename_i found hfound
    cases hitem
    obtain ⟨place, -, hplace⟩ := Option.bind_eq_some_iff.mp hfound
    exact List.mem_of_getElem? hplace
  · cases hitem

theorem mem_of_get? {name : Text} {entries : Entries Value} {v : Value}
    (hv : Entries.get? name entries = some v) : ∃ entry ∈ entries, entry.2 = v := by
  induction entries with
  | nil => cases hv
  | cons entry entries ih =>
      obtain ⟨known, value⟩ := entry
      simp only [Entries.get?] at hv
      split at hv
      · cases hv
        exact ⟨(known, v), List.mem_cons_self, rfl⟩
      · obtain ⟨found, hfound, heq⟩ := ih hv
        exact ⟨found, List.mem_cons_of_mem _ hfound, heq⟩

theorem mem_of_put {name : Text} {v : Value} {entries : Entries Value} {entry : Text × Value}
    (hentry : entry ∈ Entries.put name v entries) : entry ∈ entries ∨ entry.2 = v := by
  induction entries with
  | nil =>
      rw [List.mem_singleton.mp hentry]
      exact .inr rfl
  | cons known entries ih =>
      obtain ⟨n, value⟩ := known
      simp only [Entries.put] at hentry
      split at hentry
      · rcases List.mem_cons.mp hentry with hentry | hentry
        · rw [hentry]
          exact .inr rfl
        · exact .inl (List.mem_cons_of_mem _ hentry)
      · rcases List.mem_cons.mp hentry with hentry | hentry
        · rw [hentry]
          exact .inl List.mem_cons_self
        · exact (ih hentry).imp (List.mem_cons_of_mem _) id

theorem safe_get {r : Value} (hobject : h.Safe object) (hr : get h object v = .ok r) :
    h.Safe r := by
  unfold get at hr
  split at hr
  · obtain ⟨n, -, hitem⟩ := exists_of_bind_ok hr
    exact Heap.safe_list.mp hobject r (mem_of_itemAt hitem)
  · obtain ⟨n, -, hitem⟩ := exists_of_bind_ok hr
    exact Heap.safe_tuple.mp hobject r (mem_of_itemAt hitem)
  · obtain ⟨n, -, hplace⟩ := exists_of_bind_ok hr
    split at hplace
    · cases hplace
      exact Heap.safe_plain rfl
    · cases hplace
  · rename_i t
    obtain ⟨n, -, hr⟩ := exists_of_bind_ok hr
    obtain ⟨c, hc, hr⟩ := exists_of_bind_ok hr
    cases hr
    exact Heap.safe_plain rfl
  · rename_i t
    obtain ⟨n, -, hr⟩ := exists_of_bind_ok hr
    obtain ⟨c, hc, hr⟩ := exists_of_bind_ok hr
    cases hr
    apply Heap.safe_textLike hobject rfl
    intro d hd
    rw [List.mem_singleton] at hd
    subst hd
    exact mem_of_itemAt hc
  · obtain ⟨name, -, hr⟩ := exists_of_bind_ok hr
    split at hr
    · rename_i value hvalue
      cases hr
      obtain ⟨entry, hentry, rfl⟩ := mem_of_get? hvalue
      exact Heap.safe_dict.mp hobject entry hentry
    · cases hr
  · cases hr

theorem mem_of_sliceItems {α : Type} {items : List α} {start stop : Option Int} {item : α}
    (hitem : item ∈ sliceItems items start stop) : item ∈ items :=
  List.mem_of_mem_take (List.mem_of_mem_drop hitem)

theorem keeps_slice (hobject : h.Safe object) (start stop : Option Value) :
    (slice object start stop).KeepsSafe h := by
  unfold slice
  apply Effect.Keeps.bind (Effect.keeps_ofExcept (P := fun _ _ => True) fun _ _ => trivial)
  intro first h₁ hkeeps _
  apply Effect.Keeps.bind (Effect.keeps_ofExcept (P := fun _ _ => True) fun _ _ => trivial)
  intro last h₂ hkeeps' _
  have hobject := hkeeps' object (hkeeps object hobject)
  split
  · rename_i p
    apply Effect.Keeps.bind (Effect.keeps_reading
      (P := fun h' items => ∀ item ∈ items, h'.Safe item) (Heap.safe_list.mp hobject))
    intro items h' _ hitems
    exact Effect.keeps_newList fun item hitem => hitems item (mem_of_sliceItems hitem)
  · rename_i p
    apply Effect.Keeps.bind (Effect.keeps_reading
      (P := fun h' items => ∀ item ∈ items, h'.Safe item) (Heap.safe_tuple.mp hobject))
    intro items h' _ hitems
    exact Effect.keeps_newTuple fun item hitem => hitems item (mem_of_sliceItems hitem)
  · exact Effect.keeps_pure (Heap.safe_plain rfl)
  · exact Effect.keeps_pure (Heap.safe_textLike hobject rfl fun _ => mem_of_sliceItems)
  · exact Effect.keeps_fail

end Subscript

end TemplateEngine
