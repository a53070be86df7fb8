import TemplateEngine.Proofs.Script.SafeMethods

/-!
# Built-in functions on safe values

Conversions give plain values; ranges, sorting and extremes move values about, and
a sum is a row of additions. The function that declares text safe is left out.
-/
namespace TemplateEngine

namespace Sorting

theorem mem_of_place {compare : Value → Value → Except Cause Ordering} {item v : Value}
    {sorted placed : List Value} (hplaced : place compare item sorted = .ok placed)
    (hv : v ∈ placed) : v = item ∨ v ∈ sorted := by
  induction sorted generalizing placed with
  | nil =>
      cases hplaced
      exact .inl (List.mem_singleton.mp hv)
  | cons last others ih =>
      obtain ⟨order, -, hplaced⟩ := exists_of_bind_ok hplaced
      split at hplaced
      · obtain ⟨rest, hrest, hplaced⟩ := exists_of_bind_ok hplaced
        cases hplaced
        rcases List.mem_cons.mp hv with hv | hv
        · exact .inr (hv ▸ List.mem_cons_self)
        · exact (ih hrest hv).imp id (List.mem_cons_of_mem _)
      · cases hplaced
        exact List.mem_cons.mp hv

theorem mem_of_placeAll {compare : Value → Value → Except Cause Ordering} {v : Value}
    {sorted items placed : List Value} (hplaced : placeAll compare sorted items = .ok placed)
    (hv : v ∈ placed) : v ∈ sorted ∨ v ∈ items := by
  induction items generalizing sorted with
  | nil =>
      cases hplaced
      exact .inl hv
  | cons item items ih =>
      obtain ⟨more, hmore, hplaced⟩ := exists_of_bind_ok hplaced
      rcases ih hplaced with hv | hv
      · rcases mem_of_place hmore hv with hv | hv
        · exact .inr (hv ▸ List.mem_cons_self)
        · exact .inl hv
      · exact .inr (List.mem_cons_of_mem _ hv)

theorem exists_of_map_ok {α β : Type} {x : Except Cause α} {f : α → β} {b : β}
    (h : x.map f = .ok b) : ∃ a, x = .ok a ∧ f a = b := by
  cases x with
  | error cause => cases h
  | ok a =>
      cases h
      exact ⟨a, rfl, rfl⟩

theorem mem_of_sorted {h : Heap} {reverse : Bool} {items found : List Value} {v : Value}
    (hfound : sorted h reverse items = .ok found) (hv : v ∈ found) : v ∈ items := by
  obtain ⟨up, hup, rfl⟩ := exists_of_map_ok hfound
  obtain ⟨placed, hplaced, rfl⟩ := exists_of_map_ok hup
  have hv : v ∈ placed := by
    cases reverse with
    | true => simpa using hv
    | false => simpa using hv
  rcases mem_of_placeAll hplaced hv with hv | hv
  · cases hv
  · exact hv

theorem mem_of_extremeFrom {h : Heap} {wanted : Ordering} {best v : Value} {items : List Value}
    (hv : extremeFrom h wanted best items = .ok v) : v = best ∨ v ∈ items := by
  induction items generalizing best with
  | nil =>
      cases hv
      exact .inl rfl
  | cons item items ih =>
      obtain ⟨order, -, hv⟩ := exists_of_bind_ok hv
      rcases ih hv with hbest | hitems
      · split at hbest
        · exact .inr (hbest ▸ List.mem_cons_self)
        · exact .inl hbest
      · exact .inr (List.mem_cons_of_mem _ hitems)

theorem mem_of_extreme? {h : Heap} {wanted : Ordering} {items : List Value} {v : Value}
    (hv : extreme? h wanted items = .ok (some v)) : v ∈ items := by
  cases items with
  | nil => cases hv
  | cons item items =>
      obtain ⟨found, hfound, heq⟩ := exists_of_map_ok hv
      cases heq
      exact List.mem_cons.mpr (mem_of_extremeFrom hfound)

end Sorting

namespace Builtin

variable {h : Heap} {args : Arguments}

theorem keeps_numbered {items : List Value} (hitems : ∀ v ∈ items, h.Safe v) (n : Int) :
    (numbered n items).Keeps h fun h' pairs => ∀ v ∈ pairs, h'.Safe v := by
  induction items generalizing n h with
  | nil =>
      unfold numbered
      apply Effect.keeps_pure
      intro v hv
      cases hv
  | cons item items ih =>
      unfold numbered
      apply Effect.Keeps.bind (Effect.keeps_newTuple ?_)
      · intro pair h₁ hkeeps hpair
        apply Effect.Keeps.bind
          (ih (fun v hv => hkeeps v (hitems v (List.mem_cons_of_mem _ hv))) _)
        intro pairs h₂ hkeeps' hpairs
        apply Effect.keeps_pure
        intro v hv
        rcases List.mem_cons.mp hv with rfl | hv
        · exact hkeeps' v hpair
        · exact hpairs v hv
      · intro v hv
        rcases List.mem_cons.mp hv with rfl | hv
        · exact Heap.safe_plain rfl
        · rw [List.mem_singleton.mp hv]
          exact hitems item List.mem_cons_self

theorem keeps_enumerateOf (hargs : args.Safe h) : (enumerateOf args).KeepsSafe h := by
  unfold enumerateOf
  apply Effect.Keeps.bind (Effect.keeps_ofExcept (P := fun _ _ => True) fun _ _ => trivial)
  intro _ h₁ hkeeps _
  have hfrom : ∀ (start : Int) (h₂ : Heap), h₁.Keeps h₂ → Effect.KeepsSafe
      (Effect.checking (fun h => h.iterate ((args.at? 0).getD .none)) >>= fun items =>
        numbered start items >>= Effect.newList) h₂ := by
    intro start h₂ hkeeps'
    have hsource := hkeeps' _ (hkeeps _ (hargs.at?_getD 0))
    apply Effect.Keeps.bind (Effect.keeps_checking
      (P := fun h' items => ∀ v ∈ items, h'.Safe v) fun items => Heap.safe_iterate hsource)
    intro items h₃ _ hitems
    apply Effect.Keeps.bind (keeps_numbered hitems start)
    intro pairs h₄ _ hpairs
    exact Effect.keeps_newList hpairs
  dsimp only
  split
  · apply Effect.Keeps.bind (Effect.keeps_ofExcept (P := fun _ _ => True) fun _ _ => trivial)
    intro start h₂ hkeeps' _
    exact hfrom start h₂ hkeeps'
  · exact hfrom 0 h₁ (.refl h₁)

theorem keeps_listOf (hargs : args.Safe h) : (listOf args).KeepsSafe h := by
  unfold listOf
  apply Effect.Keeps.bind (Effect.keeps_ofExcept (P := fun _ _ => True) fun _ _ => trivial)
  intro _ h₁ hkeeps _
  split
  · rename_i v hv
    have hsource := hkeeps v (hargs.at? hv)
    apply Effect.Keeps.bind (Effect.keeps_checking
      (P := fun h' items => ∀ v ∈ items, h'.Safe v) fun items => Heap.safe_iterate hsource)
    intro items h₂ _ hitems
    exact Effect.keeps_newList hitems
  · apply Effect.keeps_newList
    intro v hv
    cases hv

theorem keeps_sortedOf (hargs : args.Safe h) : (sortedOf args).KeepsSafe h := by
  unfold sortedOf
  apply Effect.Keeps.bind (Effect.keeps_ofExcept (P := fun _ _ => True) fun _ _ => trivial)
  intro _ h₁ hkeeps _
  have hsource := hkeeps _ (hargs.at?_getD 0)
  apply Effect.Keeps.bind (Effect.keeps_checking
    (P := fun h' items => ∀ v ∈ items, h'.Safe v) fun items => Heap.safe_iterate hsource)
  intro items h₂ _ hitems
  apply Effect.Keeps.bind (Effect.keeps_reading (P := fun _ _ => True) trivial)
  intro reverse h₃ hkeeps' _
  apply Effect.Keeps.bind (Effect.keeps_checking
    (P := fun h' items => ∀ v ∈ items, h'.Safe v) ?_)
  · intro found h₄ _ hfound
    exact Effect.keeps_newList hfound
  · intro found hfound v hv
    exact hkeeps' v (hitems v (Sorting.mem_of_sorted hfound hv))

theorem keeps_extremeOf (hargs : args.Safe h) (function : Text) (wanted : Ordering) :
    (extremeOf function wanted args).KeepsSafe h := by
  unfold extremeOf
  apply Effect.Keeps.bind (Effect.keeps_ofExcept (P := fun _ _ => True) fun _ _ => trivial)
  intro _ h₁ hkeeps _
  have hargs := hargs.keeps hkeeps
  have hamong : ∀ (candidates : List Value) (h₂ : Heap), h₁.Keeps h₂ →
      (∀ v ∈ candidates, h₂.Safe v) → Effect.KeepsSafe
        (Effect.checking (fun h => Sorting.extreme? h wanted candidates) >>= fun found =>
          Effect.orFail (.emptySequence function)
            (found.or (Entries.get? "default".toList args.keywords))) h₂ := by
    intro candidates h₂ hkeeps' hcandidates
    have hargs := hargs.keeps hkeeps'
    apply Effect.Keeps.bind (Effect.keeps_checking
      (P := fun h' found => (∀ v, found = some v → h'.Safe v) ∧ args.Safe h') ?_)
    · intro found h₃ _ hfound
      apply Effect.keeps_orFail
      intro v hv
      rcases Option.or_eq_some_iff.mp hv with hv | ⟨-, hv⟩
      · exact hfound.1 v hv
      · exact hfound.2.get? hv
    · intro found hfound
      refine ⟨?_, hargs⟩
      rintro v rfl
      exact hcandidates v (Sorting.mem_of_extreme? hfound)
  dsimp only
  split
  · rename_i v hpositional
    have hv : h₁.Safe v := hargs.positional v (by simp [hpositional])
    apply Effect.Keeps.bind (Effect.keeps_checking
      (P := fun h' items => ∀ v ∈ items, h'.Safe v) fun items => Heap.safe_iterate hv)
    exact hamong
  · exact hamong args.positional h₁ (.refl h₁) hargs.positional

theorem keeps_total {v : Value} {items : List Value} (hv : h.Safe v)
    (hitems : ∀ item ∈ items, h.Safe item) : (total v items).KeepsSafe h := by
  induction items generalizing v h with
  | nil => exact Effect.keeps_pure hv
  | cons item items ih =>
      unfold total
      apply Effect.Keeps.bind
        (Operator.keeps_binary .add hv (hitems item List.mem_cons_self))
      intro w h₁ hkeeps hw
      exact ih hw fun item hitem => hkeeps item (hitems item (List.mem_cons_of_mem _ hitem))

theorem keeps_sumOf (hargs : args.Safe h) : (sumOf args).KeepsSafe h := by
  have hstart : h.Safe ((args.named? "start".toList 1).getD (.int 0)) := by
    cases hv : args.named? "start".toList 1 with
    | none => exact Heap.safe_plain rfl
    | some v => exact hargs.named? hv
  unfold sumOf
  apply Effect.Keeps.bind (Effect.keeps_ofExcept (P := fun _ _ => True) fun _ _ => trivial)
  intro _ h₁ hkeeps _
  dsimp only
  split
  · exact Effect.Keeps.bind Effect.keeps_fail fun _ _ _ (hfalse : False) => hfalse.elim
  · have hsource := hkeeps _ (hargs.at?_getD 0)
    have hstart := hkeeps _ hstart
    apply Effect.Keeps.bind (Effect.keeps_checking
      (P := fun h' items => ∀ v ∈ items, h'.Safe v) fun items => Heap.safe_iterate hsource)
    intro items h₂ hkeeps' hitems
    exact keeps_total (hkeeps' _ hstart) hitems

theorem isPlain_absoluteOf {v r : Value} (hr : absoluteOf v = .ok r) : r.isPlain = true := by
  unfold absoluteOf at hr
  split at hr
  · exact Number.isPlain_checked hr
  · cases hr
    rfl
  · cases hr

/-- An effect whose result is put into a plain value. -/
theorem keeps_plain {α : Type} {x : Effect α} (hx : x.Keeps h fun _ _ => True) {f : α → Value}
    (hf : ∀ a, (f a).isPlain = true) : Effect.KeepsSafe (x >>= fun a => pure (f a)) h := by
  apply Effect.Keeps.bind hx
  intro a h₁ _ _
  exact Effect.keeps_pure (Heap.safe_plain (hf a))

theorem keeps_call {function : Builtin} (hfunction : function ≠ .markup) (hargs : args.Safe h) :
    (call function args).KeepsSafe h := by
  have hchecked : ∀ (least : Nat) (most : Option Nat) (names : List Text) (name : Text)
      (x : Effect Value), (∀ h', x.KeepsSafe h') →
        Effect.KeepsSafe (Effect.ofExcept (args.check name least most names) >>= fun _ => x) h := by
    intro least most names name x hx
    apply Effect.Keeps.bind (Effect.keeps_ofExcept (P := fun _ _ => True) fun _ _ => trivial)
    intro _ h₁ _ _
    exact hx h₁
  have hsingle : ∀ (name : Text) (f : Value → Effect Value), (∀ v h', (f v).KeepsSafe h') →
      Effect.KeepsSafe (Effect.ofExcept (args.single name) >>= f) h := by
    intro name f hf
    apply Effect.Keeps.bind (Effect.keeps_ofExcept (P := fun _ _ => True) fun _ _ => trivial)
    intro v h₁ _ _
    exact hf v h₁
  cases function with
  | len =>
      exact hsingle _ _ fun v h' =>
        keeps_plain (Effect.keeps_checking fun _ _ => trivial) fun _ => rfl
  | str =>
      exact hchecked _ _ _ _ _ fun h' =>
        keeps_plain (Effect.keeps_reading trivial) fun _ => rfl
  | repr =>
      exact hsingle _ _ fun v h' =>
        keeps_plain (Effect.keeps_reading trivial) fun _ => rfl
  | int =>
      exact hchecked _ _ _ _ _ fun h' =>
        keeps_plain (Effect.keeps_ofExcept fun _ _ => trivial) fun _ => rfl
  | float =>
      exact hchecked _ _ _ _ _ fun h' =>
        keeps_plain (Effect.keeps_checking fun _ _ => trivial) fun _ => rfl
  | bool =>
      exact hchecked _ _ _ _ _ fun h' =>
        keeps_plain (Effect.keeps_reading trivial) fun _ => rfl
  | range => exact keeps_plain (Effect.keeps_ofExcept fun _ _ => trivial) fun _ => rfl
  | enumerate => exact keeps_enumerateOf hargs
  | list => exact keeps_listOf hargs
  | sorted => exact keeps_sortedOf hargs
  | min => exact keeps_extremeOf hargs _ _
  | max => exact keeps_extremeOf hargs _ _
  | sum => exact keeps_sumOf hargs
  | abs =>
      exact hsingle _ _ fun v h' =>
        Effect.keeps_ofExcept fun r hr => Heap.safe_plain (isPlain_absoluteOf hr)
  | markup => exact absurd rfl hfunction

end Builtin

end TemplateEngine
