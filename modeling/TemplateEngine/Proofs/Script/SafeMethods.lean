import TemplateEngine.Proofs.Script.SafeOperators
import TemplateEngine.Script.Builtin
import TemplateEngine.Script.Method

/-!
# Methods and built-in functions on safe values

A method that keeps safe text safe changes the case of inert text or takes
characters away; every other method gives plain text. Methods of lists and dicts
move values about, and so do the built-in functions, none of which makes safe
text except the one that is not harmless.
-/
namespace TemplateEngine

open Entity (Inert)

theorem Heap.safe_iterate {h : Heap} {v : Value} (hv : h.Safe v) {items : List Value}
    (hitems : h.iterate v = .ok items) : ∀ item ∈ items, h.Safe item := by
  unfold Heap.iterate at hitems
  split at hitems
  · split at hitems
    · cases hitems
    · cases hitems
      intro item hitem
      obtain ⟨n, -, rfl⟩ := List.mem_map.mp hitem
      exact Heap.safe_plain rfl
  · cases hitems
    intro item hitem
    obtain ⟨c, -, rfl⟩ := List.mem_map.mp hitem
    exact Heap.safe_plain rfl
  · cases hitems
    intro item hitem
    obtain ⟨c, -, rfl⟩ := List.mem_map.mp hitem
    exact Heap.safe_plain rfl
  · cases hitems
    exact Heap.safe_list.mp hv
  · cases hitems
    exact Heap.safe_tuple.mp hv
  · cases hitems
    intro item hitem
    obtain ⟨name, -, rfl⟩ := List.mem_map.mp hitem
    exact Heap.safe_plain rfl
  · cases hitems

namespace Arguments

variable {h : Heap} {args : Arguments}

theorem Safe.single (hargs : args.Safe h) {function : Text} {v : Value}
    (hv : args.single function = .ok v) : h.Safe v := by
  obtain ⟨_, -, hv⟩ := exists_of_bind_ok hv
  cases hv
  cases hpositional : args.positional with
  | nil => exact Heap.safe_plain rfl
  | cons first others =>
      apply hargs.positional
      rw [hpositional]
      exact List.mem_cons_self

theorem Safe.at? (hargs : args.Safe h) {place : Nat} {v : Value}
    (hv : args.at? place = some v) : h.Safe v :=
  hargs.positional v (List.mem_of_getElem? hv)

theorem Safe.at?_getD (hargs : args.Safe h) (place : Nat) :
    h.Safe ((args.at? place).getD .none) := by
  cases hv : args.at? place with
  | none => exact Heap.safe_plain rfl
  | some v => exact hargs.at? hv

theorem Safe.get? (hargs : args.Safe h) {name : Text} {v : Value}
    (hv : Entries.get? name args.keywords = some v) : h.Safe v := by
  obtain ⟨entry, hentry, rfl⟩ := Subscript.mem_of_get? hv
  exact hargs.keywords entry hentry

theorem Safe.named? (hargs : args.Safe h) {name : Text} {place : Nat} {v : Value}
    (hv : args.named? name place = some v) : h.Safe v := by
  unfold Arguments.named? at hv
  rcases Option.or_eq_some_iff.mp hv with hv | ⟨-, hv⟩
  · exact hargs.get? hv
  · exact hargs.at? hv

end Arguments

namespace TextMethod

theorem inert_trimmed {t : Text} (ht : Inert t) (method : TextMethod) (p : Char → Bool) :
    Inert (trimmed method p t) := by
  unfold trimmed
  split
  · exact Text.inert_trimStartWhile ht p
  · exact Text.inert_trimEndWhile ht p
  · exact Text.inert_trimEndWhile (Text.inert_trimStartWhile ht p) p

theorem inert_text {h : Heap} {method : TextMethod} {args : Arguments} {t r : Text}
    (ht : Inert t) (hsafe : method.keepsSafe = true)
    (hr : text? h method args t = some (.ok r)) : Inert r := by
  have hcase : ∀ f : Text → Text, Inert (f t) →
      ((do args.check method.name.toList 0 (some 0) []; return f t) : Except Cause Text) = .ok r →
        Inert r := by
    intro f hf hr
    obtain ⟨_, -, hr⟩ := exists_of_bind_ok hr
    cases hr
    exact hf
  have hstrip : ((do return trimmed method (← stripped method args) t) : Except Cause Text) =
      .ok r → Inert r := by
    intro hr
    obtain ⟨p, -, hr⟩ := exists_of_bind_ok hr
    cases hr
    exact inert_trimmed ht method p
  cases method with
  | upper => exact hcase Letter.upper (Letter.inert_upper ht) (Option.some.inj hr)
  | lower => exact hcase Letter.lower (Letter.inert_lower ht) (Option.some.inj hr)
  | title => exact hcase Letter.title (Letter.inert_title ht) (Option.some.inj hr)
  | strip => exact hstrip (Option.some.inj hr)
  | lstrip => exact hstrip (Option.some.inj hr)
  | rstrip => exact hstrip (Option.some.inj hr)
  | _ => cases hsafe

theorem keeps_call {h : Heap} (method : TextMethod) {safe : Bool} {t : Text}
    (ht : safe = true → Inert t) (args : Arguments) : (call method safe t args).KeepsSafe h := by
  intro v h' hrun
  simp only [call] at hrun
  split at hrun
  · rename_i result hresult
    cases result with
    | error cause => cases hrun
    | ok r =>
        cases hrun
        refine ⟨.refl h, ?_⟩
        split
        · rename_i hsafe
          rw [Bool.and_eq_true] at hsafe
          exact Heap.safe_markup (inert_text (ht hsafe.1) hsafe.2 hresult)
        · exact Heap.safe_plain rfl
  · split at hrun
    · obtain ⟨pieces, -, hrun⟩ := exists_of_bind_ok hrun
      apply Effect.keeps_newList _ v h' hrun
      intro item hitem
      obtain ⟨piece, -, rfl⟩ := List.mem_map.mp hitem
      exact Heap.safe_plain rfl
    · cases hmeets : meets h startswith (·.isPrefixOf t) args with
      | error cause =>
          rw [hmeets] at hrun
          cases hrun
      | ok b =>
          rw [hmeets] at hrun
          cases hrun
          exact ⟨.refl h, Heap.safe_plain rfl⟩
    · cases hmeets : meets h method (·.isSuffixOf t) args with
      | error cause =>
          rw [hmeets] at hrun
          cases hrun
      | ok b =>
          rw [hmeets] at hrun
          cases hrun
          exact ⟨.refl h, Heap.safe_plain rfl⟩

end TextMethod

namespace ListMethod

theorem keeps_call {h : Heap} (method : ListMethod) {place : Nat} (hplace : h.Safe (.list place))
    {args : Arguments} (hargs : args.Safe h) : (call method place args).KeepsSafe h := by
  unfold call
  apply Effect.Keeps.bind (Effect.keeps_reading
    (P := fun h' items => ∀ item ∈ items, h'.Safe item) (Heap.safe_list.mp hplace))
  intro items h₁ hkeeps hitems
  have hargs := hargs.keeps hkeeps
  split
  · apply Effect.Keeps.bind (Effect.keeps_ofExcept (P := Heap.Safe) fun v => hargs.single)
    intro item h₂ hkeeps hitem
    apply Effect.Keeps.bind (P := fun _ _ => True)
    · apply Effect.keeps_setList _ (fun _ => trivial)
      intro v hv
      rcases List.mem_append.mp hv with hv | hv
      · exact hkeeps v (hitems v hv)
      · rw [List.mem_singleton] at hv
        subst hv
        exact hitem
    · intro _ h₃ _ _
      exact Effect.keeps_pure (Heap.safe_plain rfl)
  · apply Effect.Keeps.bind (Effect.keeps_ofExcept (P := Heap.Safe) fun v => hargs.single)
    intro source h₂ hkeeps hsource
    apply Effect.Keeps.bind (Effect.keeps_checking
      (P := fun h' more => ∀ item ∈ more, h'.Safe item) fun more => Heap.safe_iterate hsource)
    intro more h₃ hkeeps' hmore
    apply Effect.Keeps.bind (P := fun _ _ => True)
    · apply Effect.keeps_setList _ (fun _ => trivial)
      intro v hv
      rcases List.mem_append.mp hv with hv | hv
      · exact hkeeps' v (hkeeps v (hitems v hv))
      · exact hmore v hv
    · intro _ h₄ _ _
      exact Effect.keeps_pure (Heap.safe_plain rfl)
  · apply Effect.Keeps.bind (Effect.keeps_ofExcept (P := fun _ _ => True) fun _ _ => trivial)
    intro _ h₂ hkeeps _
    apply Effect.Keeps.bind (Effect.keeps_ofExcept (P := fun _ _ => True) fun _ _ => trivial)
    intro popped h₃ hkeeps' _
    have hitems : ∀ item ∈ items, h₃.Safe item := fun item hitem =>
      hkeeps' item (hkeeps item (hitems item hitem))
    apply Effect.Keeps.bind (P := fun h' _ => ∀ item ∈ items, h'.Safe item)
    · intro u h₄ hrun
      have hleft : ∀ v ∈ items.eraseIdx popped, h₃.Safe v := fun v hv =>
        hitems v (List.mem_of_mem_eraseIdx hv)
      have hset := Effect.keeps_setList hleft (P := fun _ _ => True) (fun _ => trivial) u h₄ hrun
      exact ⟨hset.1, fun item hitem => hset.1 item (hitems item hitem)⟩
    · intro _ h₄ _ hitems
      apply Effect.keeps_pure
      cases hpopped : items[popped]? with
      | none => exact Heap.safe_plain rfl
      | some item => exact hitems item (List.mem_of_getElem? hpopped)
  · apply Effect.Keeps.bind (Effect.keeps_ofExcept (P := fun _ _ => True) fun _ _ => trivial)
    intro v h₂ _ _
    apply Effect.keeps_checking
    intro found hfound
    unfold placeOf at hfound
    split at hfound
    · cases hfound
      exact Heap.safe_plain rfl
    · cases hfound

end ListMethod

theorem Effect.keeps_mapM {α : Type} {h : Heap} {f : α → Effect Value} {items : List α}
    (hf : ∀ item ∈ items, ∀ h', h.Keeps h' → (f item).KeepsSafe h') :
    (items.mapM f).Keeps h fun h' found => ∀ v ∈ found, h'.Safe v := by
  induction items generalizing h with
  | nil =>
      rw [List.mapM_nil]
      apply Effect.keeps_pure
      intro v hv
      cases hv
  | cons item items ih =>
      rw [List.mapM_cons]
      apply Effect.Keeps.bind (hf item List.mem_cons_self h (.refl h))
      intro first h₁ hkeeps hfirst
      apply Effect.Keeps.bind (ih fun item hitem h' hkeeps' =>
        hf item (List.mem_cons_of_mem _ hitem) h' (hkeeps.trans hkeeps'))
      intro others h₂ hkeeps' hothers
      apply Effect.keeps_pure
      intro v hv
      rcases List.mem_cons.mp hv with rfl | hv
      · exact hkeeps' v hfirst
      · exact hothers v hv

namespace DictMethod

theorem keeps_call {h : Heap} (method : DictMethod) {place : Nat} (hplace : h.Safe (.dict place))
    {args : Arguments} (hargs : args.Safe h) : (call method place args).KeepsSafe h := by
  unfold call
  apply Effect.Keeps.bind (Effect.keeps_reading
    (P := fun h' entries => ∀ entry ∈ entries, h'.Safe entry.2) (Heap.safe_dict.mp hplace))
  intro entries h₁ hkeeps hentries
  have hargs := hargs.keeps hkeeps
  split
  · apply Effect.Keeps.bind (Effect.keeps_ofExcept (P := fun _ _ => True) fun _ _ => trivial)
    intro _ h₂ hkeeps _
    apply Effect.Keeps.bind (Effect.keeps_ofExcept (P := fun _ _ => True) fun _ _ => trivial)
    intro name h₃ hkeeps' _
    apply Effect.keeps_pure
    cases hfound : Entries.get? name entries with
    | none => exact hkeeps' _ (hkeeps _ (hargs.at?_getD 1))
    | some v =>
        obtain ⟨entry, hentry, heq⟩ := Subscript.mem_of_get? hfound
        subst heq
        exact hkeeps' _ (hkeeps _ (hentries entry hentry))
  · apply Effect.Keeps.bind (Effect.keeps_ofExcept (P := fun _ _ => True) fun _ _ => trivial)
    intro _ h₂ _ _
    apply Effect.keeps_newList
    intro v hv
    obtain ⟨entry, -, rfl⟩ := List.mem_map.mp hv
    exact Heap.safe_plain rfl
  · apply Effect.Keeps.bind (Effect.keeps_ofExcept (P := fun _ _ => True) fun _ _ => trivial)
    intro _ h₂ hkeeps _
    apply Effect.keeps_newList
    intro v hv
    obtain ⟨entry, hentry, rfl⟩ := List.mem_map.mp hv
    exact hkeeps _ (hentries entry hentry)
  · apply Effect.Keeps.bind (Effect.keeps_ofExcept (P := fun _ _ => True) fun _ _ => trivial)
    intro _ h₂ hkeeps _
    apply Effect.Keeps.bind (Effect.keeps_mapM ?_)
    · intro pairs h₃ _ hpairs
      exact Effect.keeps_newList hpairs
    · intro entry hentry h₃ hkeeps'
      apply Effect.keeps_newTuple
      intro v hv
      rcases List.mem_cons.mp hv with rfl | hv
      · exact Heap.safe_plain rfl
      · rw [List.mem_singleton] at hv
        subst hv
        exact hkeeps' _ (hkeeps _ (hentries entry hentry))

end DictMethod

namespace BoundMethod

theorem keeps_call {h : Heap} {identity : Nat} {method : BoundMethod}
    (hmethod : h.Safe (.function (.method identity method))) {args : Arguments}
    (hargs : args.Safe h) : (method.call args).KeepsSafe h := by
  cases method with
  | text m safe t =>
      apply TextMethod.keeps_call
      rintro rfl
      exact hmethod.harmless
  | list m p => exact ListMethod.keeps_call m (hmethod.of_leads List.mem_cons_self) hargs
  | dict m p => exact DictMethod.keeps_call m (hmethod.of_leads List.mem_cons_self) hargs

/-- A method that is read from a safe value is safe to call. -/
theorem safe_ofName? {h : Heap} {object : Value} {name : Text} {method : BoundMethod}
    (hobject : h.Safe object) (hmethod : ofName? object name = some method) (identity : Nat) :
    h.Safe (.function (.method identity method)) := by
  cases object with
  | str t =>
      obtain ⟨m, -, rfl⟩ := Option.map_eq_some_iff.mp hmethod
      apply Heap.safe_of_leads
      · exact True.intro
      · intro w hw
        cases hw
  | markup t =>
      have ht : Inert t := hobject.harmless
      obtain ⟨m, -, rfl⟩ := Option.map_eq_some_iff.mp hmethod
      apply Heap.safe_of_leads
      · exact ht
      · intro w hw
        cases hw
  | list p =>
      obtain ⟨m, -, rfl⟩ := Option.map_eq_some_iff.mp hmethod
      apply Heap.safe_of_leads
      · exact True.intro
      · intro w hw
        rw [List.mem_singleton.mp hw]
        exact hobject
  | dict p =>
      obtain ⟨m, -, rfl⟩ := Option.map_eq_some_iff.mp hmethod
      apply Heap.safe_of_leads
      · exact True.intro
      · intro w hw
        rw [List.mem_singleton.mp hw]
        exact hobject
  | _ => cases hmethod

end BoundMethod

theorem Effect.keeps_readAttribute {h : Heap} {object : Value} (hobject : h.Safe object)
    (name : Text) : (readAttribute object name).KeepsSafe h := by
  unfold readAttribute
  cases hmethod : BoundMethod.ofName? object name with
  | some method =>
      apply Effect.Keeps.bind (P := fun _ _ => True)
        (Effect.keeps_newIdentity fun _ _ => trivial)
      intro identity h₁ hkeeps _
      apply Effect.keeps_pure
      exact BoundMethod.safe_ofName? (hkeeps object hobject) hmethod identity
  | none =>
      apply Effect.Keeps.bind (Effect.keeps_reading
        (P := fun h' found => ∀ v, found = some v → h'.Safe v) ?_)
      · intro found h₁ _ hfound
        exact Effect.keeps_orFail hfound
      · intro v hv
        cases object with
        | dict p =>
            obtain ⟨entry, hentry, rfl⟩ := Subscript.mem_of_get? hv
            exact Heap.safe_dict.mp hobject entry hentry
        | _ => cases hv

end TemplateEngine
