import TemplateEngine.Proofs.Syntax.QuotedRuns
import TemplateEngine.Proofs.Template.Fragments

/-!
# Tags of strings and code

A tag that opens, closes and separates nothing is cut into quoted runs and the code between
them. No two pieces of code are neighbours, and a quote in code is one that is never closed,
with the rest of the tag behind it.
-/
namespace TemplateEngine.Fragment

open Segment (isQuote closing? QuotedRest)

/-- A fragment that is a quoted run or code. -/
def IsPlain (f : Fragment) : Prop := f.kind = .quoted ∨ f.kind = .code

/-- Quoted runs and the code between them. -/
inductive Cut : List Fragment → Prop where
  | nil : Cut []
  | quoted {quote : Char} {w : Text} {line : Nat} {rest : List Fragment} :
      isQuote quote = true → QuotedRest quote w → Cut rest →
        Cut (⟨.quoted, quote :: w, line⟩ :: rest)
  | code {k : Text} {line : Nat} {rest : List Fragment} :
      (∀ c ∈ k, isQuote c = false) → (∀ f ∈ rest.head?, f.kind = .quoted) → Cut rest →
        Cut (⟨.code, k, line⟩ :: rest)
  | unclosed {k : Text} {quote : Char} {r : Text} {line : Nat} :
      (∀ c ∈ k, isQuote c = false) → isQuote quote = true → closing? quote r = none →
        Cut [⟨.code, k ++ quote :: r, line⟩]

theorem Cut.tail {f : Fragment} {rest : List Fragment} (h : Cut (f :: rest)) : Cut rest := by
  cases h with
  | quoted _ _ hrest | code _ _ hrest => exact hrest
  | unclosed => exact .nil

theorem Cut.exists_run {f : Fragment} {rest : List Fragment} (h : Cut (f :: rest))
    (hf : f.kind = .quoted) :
    ∃ quote w, f.text = quote :: w ∧ isQuote quote = true ∧ QuotedRest quote w := by
  cases h with
  | quoted hquote hw _ => exact ⟨_, _, rfl, hquote, hw⟩
  | code | unclosed => cases hf

/-- What a piece that is a quoted run or code looks like. -/
inductive Leads (c : Char) (rest : Text) : FragmentKind → Nat → Prop where
  | quoted {run : Nat} : isQuote c = true → closing? c rest = some run →
      Leads c rest .quoted (run + 1)
  | code : isQuote c = false → Leads c rest .code 1
  | unclosed : isQuote c = true → closing? c rest = none → Leads c rest .code (rest.length + 1)

theorem leads {before : Option Char} {fresh next : Bool} {c : Char} {rest : Text}
    {kind : FragmentKind} {length : Nat} (h : leading before fresh c rest = (kind, length, next))
    (hkind : kind = .quoted ∨ kind = .code) : Leads c rest kind length := by
  have hpiece (h : piece before fresh c rest = (kind, length, next)) :
      Leads c rest kind length := by
    unfold piece at h
    split at h
    · rename_i hquote
      split at h <;> cases h
      · exact .quoted hquote ‹_›
      · exact .unclosed hquote ‹_›
    · rename_i hquote
      rw [Bool.not_eq_true] at hquote
      repeat' split at h
      all_goals cases h
      all_goals first
        | exact .code hquote
        | simp at hkind
  unfold leading at h
  split at h
  · rename_i hblank
    cases h
    refine .code ?_
    rw [Bool.and_eq_true, Text.isPlainBlank] at hblank
    cases hquote : isQuote c with
    | false => rfl
    | true =>
        simp only [isQuote, Bool.or_eq_true, decide_eq_true_eq] at hquote
        rcases hquote with rfl | rfl <;> simp at hblank
  · split at h
    · cases h
      simp at hkind
    · exact hpiece h

/-- Joining code takes no kind of piece away. -/
theorem kinds_of_joinCode {P : FragmentKind → Prop} {kind : FragmentKind} {text : Text}
    {found : List (FragmentKind × Text)}
    (h : ∀ p ∈ joinCode ((kind, text) :: found), P p.1) :
    P kind ∧ ∀ p ∈ joinCode found, P p.1 := by
  obtain ⟨hjoin, -⟩ | ⟨more, others, rfl, hjoined, hjoin⟩ := joinCode_cons kind text found
  · rwa [hjoin, List.forall_mem_cons] at h
  · rw [hjoin, List.forall_mem_cons] at h
    rw [hjoined]
    exact ⟨h.1, List.forall_mem_cons.mpr h⟩

/-- A character of code before fragments that are cut. -/
theorem Cut.cons_code {c : Char} (hc : isQuote c = false) {found : List (FragmentKind × Text)}
    (hkinds : ∀ p ∈ joinCode found, p.1 = .quoted ∨ p.1 = .code)
    (h : ∀ line, Cut (number line (joinCode found))) (line : Nat) :
    Cut (number line (joinCode ((.code, [c]) :: found))) := by
  have hone : ∀ d ∈ [c], isQuote d = false := by simpa using hc
  obtain ⟨hjoin, hhead⟩ | ⟨more, others, -, hjoined, hjoin⟩ := joinCode_cons .code [c] found
  · rw [hjoin, number]
    refine .code hone ?_ (h _)
    cases hjoined : joinCode found with
    | nil => simp [number]
    | cons next others =>
        rw [hjoined] at hkinds hhead
        have hquoted := (hkinds next List.mem_cons_self).resolve_right (hhead rfl next rfl)
        intro f hf
        cases hf
        exact hquoted
  · have hmore := h (line + Text.newlines [c])
    rw [hjoin, number, Text.newlines_append, ← Nat.add_assoc]
    rw [hjoined, number] at hmore
    generalize number _ others = rest at hmore ⊢
    cases hmore with
    | code hk hrest hcut => exact .code (List.forall_mem_append.mpr ⟨hone, hk⟩) hrest hcut
    | unclosed hk hquote hopen =>
        rw [← List.append_assoc]
        exact .unclosed (List.forall_mem_append.mpr ⟨hone, hk⟩) hquote hopen

/-- The fragments of a tag of strings and code are cut. -/
theorem cut_pieces {skip : Nat} {before : Option Char} {fresh : Bool} {t : Text}
    (hkinds : ∀ p ∈ joinCode (pieces skip before fresh t), p.1 = .quoted ∨ p.1 = .code)
    (line : Nat) : Cut (number line (joinCode (pieces skip before fresh t))) := by
  fun_induction pieces skip before fresh t generalizing line with
  | case1 => exact .nil
  | case2 skip before fresh c rest ih => exact ih hkinds line
  | case3 before fresh c rest kind length next hleading ih =>
      obtain ⟨hkind, hrest⟩ := kinds_of_joinCode (P := fun kind => kind = .quoted ∨ kind = .code)
        hkinds
      have ih := ih hrest
      cases leads hleading hkind with
      | @quoted run hquote hrun =>
          obtain ⟨w, others, rfl, rfl, hw⟩ := Segment.exists_quotedRest hrun
          rw [joinCode_other (by decide), number, List.take_succ_cons, List.take_left]
          exact .quoted hquote hw (ih _)
      | code hquote => exact Cut.cons_code hquote hrest ih line
      | unclosed hquote hopen =>
          have hnone : pieces (rest.length + 1 - 1) (some c) next rest = [] := by
            obtain ⟨last, hskip⟩ := pieces_skip rest (some c) next []
            rwa [List.append_nil] at hskip
          rw [hnone, List.take_succ_cons, List.take_length]
          exact .unclosed (k := []) (by simp) hquote hopen

theorem flatMap_number (line : Nat) (found : List (FragmentKind × Text)) :
    (number line found).flatMap Fragment.text = found.flatMap Prod.snd := by
  induction found generalizing line with
  | nil => rfl
  | cons piece rest ih => rw [number, List.flatMap_cons, List.flatMap_cons, ih]

theorem flatMap_ofBody (body : Text) : (ofBody body).flatMap Fragment.text = body := by
  rw [ofBody, flatMap_number, flatMap_joinCode, flatMap_pieces, List.drop_zero]

theorem mem_number (line : Nat) {found : List (FragmentKind × Text)} {p : FragmentKind × Text}
    (h : p ∈ found) : ∃ f ∈ number line found, f.kind = p.1 := by
  induction found generalizing line with
  | nil => cases h
  | cons piece rest ih =>
      obtain rfl | h := List.mem_cons.mp h
      · exact ⟨_, List.mem_cons_self, rfl⟩
      · obtain ⟨f, hf, hkind⟩ := ih (line + piece.2.newlines) h
        exact ⟨f, List.mem_cons_of_mem _ hf, hkind⟩

/-- A tag whose fragments are all quoted runs and code. -/
theorem cut_ofBody {body : Text} (h : ∀ f ∈ ofBody body, f.IsPlain) : Cut (ofBody body) := by
  refine cut_pieces (fun p hp => ?_) 0
  obtain ⟨f, hf, hkind⟩ := mem_number 0 hp
  rw [← hkind]
  exact h f hf

end TemplateEngine.Fragment
