import TemplateEngine.Proofs.Script.Containers
import TemplateEngine.Proofs.Text.Inert
import TemplateEngine.Script.Arguments

/-!
# Harmless values

Safe text is harmless if it is inert, and a function if it makes no other safe
text and does not reach the output. A value is safe to compute with if all that
it leads to is harmless. Lists and dicts are shared and change, so the property
is one of a value on a heap: an effect keeps a heap if whatever was safe on it
still is.
-/
namespace TemplateEngine

open Entity (Inert)

/-- A method of safe text holds the text. -/
def BoundMethod.Harmless : BoundMethod → Prop
  | .text _ true t => Inert t
  | _ => True

/-- The list or dict that a function is bound to. -/
def Function.receiver : Function → List Value
  | .method _ (.list _ p) => [.list p]
  | .method _ (.dict _ p) => [.dict p]
  | _ => []

/-- A function that gives no safe text but the inert one that it makes or is given. -/
def Function.Harmless : Function → Prop
  | .builtin f => f ≠ .markup
  | .helper f => f = .capture ∨ f = .htmlquote
  | .inclusion _ => False
  | .filter _ => True
  | .method _ m => m.Harmless

/-- A value that is no safe text and no function, unless a harmless one. -/
def Value.Harmless : Value → Prop
  | .markup t => Inert t
  | .function f => f.Harmless
  | _ => True

/-- A value that is neither text known to be safe nor a function, and contains nothing. -/
def Value.isPlain : Value → Bool
  | .markup _ | .list _ | .tuple _ | .dict _ | .function _ => false
  | _ => true

namespace Heap

/-- The values that a value leads to: what it contains, or the receiver it is bound to. -/
def leads (h : Heap) : Value → List Value
  | .list p => h.list p
  | .tuple p => h.tuple p
  | .dict p => (h.dict p).map Prod.snd
  | .function f => f.receiver
  | _ => []

/-- Everything that a value leads to, at any distance, is harmless. -/
def Safe (h : Heap) (v : Value) : Prop :=
  ∀ w, Relation.ReflTransGen (fun a b => b ∈ h.leads a) v w → w.Harmless

section Safe

variable {h : Heap} {v w : Value} {p : Nat}

theorem Safe.harmless (hv : h.Safe v) : v.Harmless := hv v .refl

theorem Safe.of_leads (hv : h.Safe v) (hw : w ∈ h.leads v) : h.Safe w := by
  intro u hu
  exact hv u (.head hw hu)

theorem safe_of_leads (hv : v.Harmless) (hleads : ∀ w ∈ h.leads v, h.Safe w) : h.Safe v := by
  intro w hw
  rcases hw.cases_head with heq | ⟨u, hu, hw⟩
  · subst heq
    exact hv
  · exact hleads u hu w hw

theorem safe_plain (hv : v.isPlain = true) : h.Safe v := by
  apply safe_of_leads
  · cases v with
    | markup t => cases hv
    | function f => cases hv
    | _ => trivial
  · intro w hw
    cases v with
    | list p => cases hv
    | tuple p => cases hv
    | dict p => cases hv
    | function f => cases hv
    | _ => cases hw

theorem safe_markup {t : Text} (ht : Inert t) : h.Safe (.markup t) := by
  apply safe_of_leads (show (Value.markup t).Harmless from ht)
  intro w hw
  cases hw

theorem safe_list : h.Safe (.list p) ↔ ∀ w ∈ h.list p, h.Safe w :=
  ⟨fun hv _ hw => hv.of_leads hw, safe_of_leads (show (Value.list p).Harmless from trivial)⟩

theorem safe_tuple : h.Safe (.tuple p) ↔ ∀ w ∈ h.tuple p, h.Safe w :=
  ⟨fun hv _ hw => hv.of_leads hw, safe_of_leads (show (Value.tuple p).Harmless from trivial)⟩

theorem safe_dict : h.Safe (.dict p) ↔ ∀ entry ∈ h.dict p, h.Safe entry.2 := by
  constructor
  · intro hv entry hentry
    exact hv.of_leads (List.mem_map_of_mem hentry)
  · intro hentries
    apply safe_of_leads (show (Value.dict p).Harmless from trivial)
    intro w hw
    obtain ⟨entry, hentry, rfl⟩ := List.mem_map.mp hw
    exact hentries entry hentry

theorem safe_textLike {t s : Text} (hv : h.Safe v) (ht : v.text? = some t)
    (hs : ∀ c ∈ s, c ∈ t) : h.Safe (v.textLike s) := by
  cases v with
  | str u => exact safe_plain rfl
  | markup u =>
      have hu : Inert u := hv.harmless
      cases ht
      exact safe_markup (hu.of_subset hs)
  | _ => cases ht

end Safe

/-- What was safe on a heap is safe on another. -/
def Keeps (h h' : Heap) : Prop := ∀ v, h.Safe v → h'.Safe v

theorem Keeps.refl (h : Heap) : h.Keeps h := fun _ hv => hv

theorem Keeps.trans {h h' h'' : Heap} (hfirst : h.Keeps h') (hsecond : h'.Keeps h'') :
    h.Keeps h'' := fun v hv => hsecond v (hfirst v hv)

/-- A change keeps a heap if safe values still lead to values that were safe. -/
theorem keeps_of_leads {h h' : Heap}
    (hleads : ∀ v, h.Safe v → ∀ w ∈ h'.leads v, h.Safe w) : h.Keeps h' := by
  intro v hv w hw
  have hsafe : h.Safe w := by
    induction hw with
    | refl => exact hv
    | tail _ hstep ih => exact hleads _ ih _ hstep
  exact hsafe.harmless

theorem keeps_lists {h : Heap} {lists : Array (List Value)}
    (hlists : ∀ p, (∀ w ∈ h.list p, h.Safe w) → ∀ w ∈ lists.getD p [], h.Safe w) :
    h.Keeps { h with lists := lists } := by
  apply keeps_of_leads
  intro v hv w hw
  cases v with
  | list p => exact hlists p (safe_list.mp hv) w hw
  | _ => exact hv.of_leads hw

theorem keeps_tuples {h : Heap} {tuples : Array (List Value)}
    (htuples : ∀ p, (∀ w ∈ h.tuple p, h.Safe w) → ∀ w ∈ tuples.getD p [], h.Safe w) :
    h.Keeps { h with tuples := tuples } := by
  apply keeps_of_leads
  intro v hv w hw
  cases v with
  | tuple p => exact htuples p (safe_tuple.mp hv) w hw
  | _ => exact hv.of_leads hw

theorem keeps_dicts {h : Heap} {dicts : Array (Entries Value)}
    (hdicts : ∀ p, (∀ entry ∈ h.dict p, h.Safe entry.2) →
      ∀ entry ∈ dicts.getD p [], h.Safe entry.2) :
    h.Keeps { h with dicts := dicts } := by
  apply keeps_of_leads
  intro v hv w hw
  cases v with
  | dict p =>
      obtain ⟨entry, hentry, rfl⟩ := List.mem_map.mp hw
      exact hdicts p (safe_dict.mp hv) entry hentry
  | _ => exact hv.of_leads hw

theorem keeps_identities (h : Heap) (n : Nat) : h.Keeps { h with identities := n } := by
  apply keeps_of_leads
  intro v hv w hw
  cases v <;> exact hv.of_leads hw

end Heap

theorem mem_getD_push {α : Type} {cells : Array (List α)} {items : List α} {p : Nat} {a : α}
    (ha : a ∈ (cells.push items).getD p []) : a ∈ cells.getD p [] ∨ a ∈ items := by
  rw [Array.getD_eq_getD_getElem?, Array.getElem?_push] at ha
  split at ha
  · exact .inr ha
  · rw [Array.getD_eq_getD_getElem?]
    exact .inl ha

theorem mem_getD_set {α : Type} {cells : Array (List α)} {items : List α} {place p : Nat} {a : α}
    (ha : a ∈ (cells.setIfInBounds place items).getD p []) : a ∈ cells.getD p [] ∨ a ∈ items := by
  rw [Array.getD_eq_getD_getElem?, Array.getElem?_setIfInBounds] at ha
  split at ha
  · split at ha
    · exact .inr ha
    · cases ha
  · rw [Array.getD_eq_getD_getElem?]
    exact .inl ha

namespace Effect

variable {α β : Type} {h : Heap}

/-- An effect that keeps a heap, and whose result, if it has one, has a property. -/
def Keeps (x : Effect α) (h : Heap) (P : Heap → α → Prop) : Prop :=
  ∀ a h', x h = .ok (a, h') → h.Keeps h' ∧ P h' a

/-- The result of an effect is a value that is safe. -/
abbrev KeepsSafe (x : Effect Value) (h : Heap) : Prop := x.Keeps h Heap.Safe

theorem Keeps.bind {x : Effect α} {f : α → Effect β} {P : Heap → α → Prop}
    {Q : Heap → β → Prop} (hx : x.Keeps h P)
    (hf : ∀ a h', h.Keeps h' → P h' a → (f a).Keeps h' Q) : Keeps (x >>= f) h Q := by
  intro b h'' hrun
  have hrun : (match x h with
      | .ok (a, h') => f a h'
      | .error cause => .error cause) = .ok (b, h'') := by
    rw [← hrun]
    simp only [Bind.bind, StateT.bind, Except.bind]
    cases x h <;> rfl
  cases hfirst : x h with
  | error cause =>
      rw [hfirst] at hrun
      cases hrun
  | ok result =>
      obtain ⟨a, h'⟩ := result
      rw [hfirst] at hrun
      obtain ⟨hkeeps, hP⟩ := hx a h' hfirst
      obtain ⟨hkeeps', hQ⟩ := hf a h' hkeeps hP b h'' hrun
      exact ⟨hkeeps.trans hkeeps', hQ⟩

theorem keeps_pure {a : α} {P : Heap → α → Prop} (ha : P h a) :
    Keeps (pure a) h P := by
  intro b h' hrun
  cases hrun
  exact ⟨.refl h, ha⟩

theorem keeps_fail {cause : Cause} {P : Heap → α → Prop} : Keeps (fail cause) h P := by
  intro b h' hrun
  cases hrun

theorem keeps_reading {f : Heap → α} {P : Heap → α → Prop} (hf : P h (f h)) :
    Keeps (reading f) h P := by
  intro b h' hrun
  cases hrun
  exact ⟨.refl h, hf⟩

theorem keeps_checking {f : Heap → Except Cause α} {P : Heap → α → Prop}
    (hf : ∀ a, f h = .ok a → P h a) : Keeps (checking f) h P := by
  intro b h' hrun
  unfold checking at hrun
  cases hresult : f h with
  | error cause =>
      rw [hresult] at hrun
      cases hrun
  | ok a =>
      rw [hresult] at hrun
      cases hrun
      exact ⟨.refl h, hf b hresult⟩

theorem keeps_ofExcept {e : Except Cause α} {P : Heap → α → Prop}
    (he : ∀ a, e = .ok a → P h a) : Keeps (ofExcept e) h P := by
  cases e with
  | error cause => exact keeps_fail
  | ok a =>
      intro b h' hrun
      cases hrun
      exact ⟨.refl h, he a rfl⟩

theorem keeps_orFail {cause : Cause} {o : Option α} {P : Heap → α → Prop}
    (ho : ∀ a, o = some a → P h a) : Keeps (orFail cause o) h P := by
  cases o with
  | none => exact keeps_fail
  | some a =>
      intro b h' hrun
      cases hrun
      exact ⟨.refl h, ho a rfl⟩

theorem keeps_newList {items : List Value} (hitems : ∀ v ∈ items, h.Safe v) :
    KeepsSafe (newList items) h := by
  intro v h' hrun
  cases hrun
  have hkeeps : h.Keeps { h with lists := h.lists.push items } := by
    apply Heap.keeps_lists
    intro p hp w hw
    rcases mem_getD_push hw with hw | hw
    · exact hp w hw
    · exact hitems w hw
  refine ⟨hkeeps, Heap.safe_list.mpr ?_⟩
  intro w hw
  have hw : w ∈ items := by simpa [Heap.list, Array.getD_eq_getD_getElem?] using hw
  exact hkeeps w (hitems w hw)

theorem keeps_newTuple {items : List Value} (hitems : ∀ v ∈ items, h.Safe v) :
    KeepsSafe (newTuple items) h := by
  intro v h' hrun
  cases hrun
  have hkeeps : h.Keeps { h with tuples := h.tuples.push items } := by
    apply Heap.keeps_tuples
    intro p hp w hw
    rcases mem_getD_push hw with hw | hw
    · exact hp w hw
    · exact hitems w hw
  refine ⟨hkeeps, Heap.safe_tuple.mpr ?_⟩
  intro w hw
  have hw : w ∈ items := by simpa [Heap.tuple, Array.getD_eq_getD_getElem?] using hw
  exact hkeeps w (hitems w hw)

theorem keeps_newDict {entries : Entries Value} (hentries : ∀ entry ∈ entries, h.Safe entry.2) :
    KeepsSafe (newDict entries) h := by
  intro v h' hrun
  cases hrun
  have hkeeps : h.Keeps { h with dicts := h.dicts.push entries } := by
    apply Heap.keeps_dicts
    intro p hp entry hentry
    rcases mem_getD_push hentry with hentry | hentry
    · exact hp entry hentry
    · exact hentries entry hentry
  refine ⟨hkeeps, Heap.safe_dict.mpr ?_⟩
  intro entry hentry
  have hentry : entry ∈ entries := by
    simpa [Heap.dict, Array.getD_eq_getD_getElem?] using hentry
  exact hkeeps entry.2 (hentries entry hentry)

theorem keeps_newIdentity {P : Heap → Nat → Prop} (hP : ∀ h' n, P h' n) :
    Keeps newIdentity h P := by
  intro n h' hrun
  cases hrun
  exact ⟨Heap.keeps_identities h _, hP _ _⟩

theorem keeps_setList {place : Nat} {items : List Value} (hitems : ∀ v ∈ items, h.Safe v)
    {P : Heap → Unit → Prop} (hP : ∀ h', P h' ()) : Keeps (setList place items) h P := by
  intro u h' hrun
  cases hrun
  refine ⟨?_, hP _⟩
  apply Heap.keeps_lists
  intro p hp w hw
  rcases mem_getD_set hw with hw | hw
  · exact hp w hw
  · exact hitems w hw

end Effect

/-- Arguments that are all safe. -/
structure Arguments.Safe (h : Heap) (args : Arguments) : Prop where
  positional : ∀ v ∈ args.positional, h.Safe v
  keywords : ∀ entry ∈ args.keywords, h.Safe entry.2

theorem Arguments.Safe.keeps {h h' : Heap} {args : Arguments} (hargs : args.Safe h)
    (hkeeps : h.Keeps h') : args.Safe h' :=
  ⟨fun v hv => hkeeps v (hargs.positional v hv),
    fun entry hentry => hkeeps entry.2 (hargs.keywords entry hentry)⟩

end TemplateEngine
