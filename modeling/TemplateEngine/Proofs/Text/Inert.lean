import TemplateEngine.Text.Blank
import TemplateEngine.Text.Entity
import TemplateEngine.Text.Letter.Case

/-!
# Inert text

Text without angle brackets and quotes opens no tag and leaves no attribute.
Escaping makes any text inert, and the operations that keep safe text safe take
characters away, repeat them or change their case. No character has one of the
four as its capital or small form: the tables of forms lie above them.
-/
namespace TemplateEngine

namespace Entity

/-- Whether a character could open a tag or leave an attribute. -/
def isDelimiter (c : Char) : Bool := c = '<' || c = '>' || c = '"' || c = '\''

/-- Text without delimiters. -/
def Inert (t : Text) : Prop := ∀ c ∈ t, isDelimiter c = false

theorem inert_nil : Inert [] := by
  intro c hc
  cases hc

theorem inert_cons {c : Char} {t : Text} :
    Inert (c :: t) ↔ isDelimiter c = false ∧ Inert t := by
  unfold Inert
  simp only [List.mem_cons, forall_eq_or_imp]

theorem inert_append {s t : Text} : Inert (s ++ t) ↔ Inert s ∧ Inert t := by
  unfold Inert
  simp only [List.mem_append, or_imp, forall_and]

theorem Inert.of_subset {s t : Text} (h : Inert t) (hs : ∀ c ∈ s, c ∈ t) : Inert s := by
  intro c hc
  exact h c (hs c hc)

theorem mem_of_lookup {α β : Type} [DecidableEq α] {entries : List (α × β)} {a : α} {b : β}
    (h : entries.lookup a = some b) : (a, b) ∈ entries := by
  obtain ⟨before, after, rfl, -⟩ := List.lookup_eq_some_iff.mp h
  simp

theorem inert_encodeChar (c : Char) : Inert (encodeChar c) := by
  have htable : ∀ entry ∈ table, entry.2.all (fun d => !isDelimiter d) = true := by decide
  unfold encodeChar
  split
  · rename_i entity hlookup
    have hentity := htable (c, entity) (mem_of_lookup hlookup)
    intro d hd
    have hd := List.all_eq_true.mp hentity d hd
    simpa using hd
  · rename_i hlookup
    intro d hd
    rw [List.mem_singleton] at hd
    subst hd
    rw [Bool.eq_false_iff]
    intro hdelimiter
    simp only [isDelimiter, Bool.or_eq_true, decide_eq_true_eq] at hdelimiter
    rcases hdelimiter with ((rfl | rfl) | rfl) | rfl <;> cases hlookup

/-- Escaped text is inert. -/
theorem inert_escape (t : Text) : Inert (escape t) := by
  intro c hc
  obtain ⟨d, -, hd⟩ := List.mem_flatMap.mp hc
  exact inert_encodeChar d c hd

end Entity

namespace Text

open Entity (Inert)

theorem inert_trimStartWhile {t : Text} (h : Inert t) (p : Char → Bool) :
    Inert (trimStartWhile p t) :=
  h.of_subset fun _ hc => (List.dropWhile_sublist p).subset hc

theorem inert_trimEndWhile {t : Text} (h : Inert t) (p : Char → Bool) :
    Inert (trimEndWhile p t) := by
  apply h.of_subset
  intro c hc
  rw [trimEndWhile, List.mem_reverse] at hc
  exact List.mem_reverse.mp ((List.dropWhile_sublist p).subset hc)

end Text

namespace Letter

open Entity (Inert isDelimiter inert_append inert_cons inert_nil)

theorem isDelimiter_ofNat {n : Nat} (h : 62 < n) : isDelimiter (Char.ofNat n) = false := by
  have hnat : (Char.ofNat n).toNat = n ∨ (Char.ofNat n).toNat = 0 := by
    rw [Char.ofNat]
    by_cases hvalid : n.isValidChar
    · rw [dif_pos hvalid]
      exact .inl rfl
    · rw [dif_neg hvalid]
      exact .inr rfl
  rw [Bool.eq_false_iff]
  intro hdelimiter
  simp only [isDelimiter, Bool.or_eq_true, decide_eq_true_eq] at hdelimiter
  rcases hdelimiter with ((hc | hc) | hc) | hc <;> rw [hc] at hnat <;>
    rcases hnat with hnat | hnat <;> simp at hnat <;> omega

/-- Whether all the forms that the tables give lie above the delimiters. -/
def formsAbove (special : List (Nat × List Nat)) (runs : List CaseRun) : Bool :=
  special.all (fun entry => entry.2.all fun n => 62 < n) &&
    runs.all fun run => 62 < (run.first : Int) + run.shift

theorem upper_above : formsAbove upperSpecial upperRuns = true := by decide +kernel

theorem lower_above : formsAbove lowerSpecial lowerRuns = true := by decide +kernel

theorem above_of_lookup {special : List (Nat × List Nat)} {runs : List CaseRun}
    (h : formsAbove special runs = true) {n : Nat} {forms : List Nat}
    (hforms : special.lookup n = some forms) : ∀ m ∈ forms, 62 < m := by
  unfold formsAbove at h
  rw [Bool.and_eq_true] at h
  have hentry := List.all_eq_true.mp h.1 (n, forms) (Entity.mem_of_lookup hforms)
  intro m hm
  exact of_decide_eq_true (List.all_eq_true.mp hentry m hm)

theorem above_of_shifted {special : List (Nat × List Nat)} {runs : List CaseRun}
    (h : formsAbove special runs = true) {n m : Nat} (hm : shifted? runs n = some m) : 62 < m := by
  unfold formsAbove at h
  rw [Bool.and_eq_true] at h
  unfold shifted? at hm
  obtain ⟨run, hrun, hshift⟩ := Option.map_eq_some_iff.mp hm
  have hplace := List.find?_some hrun
  have habove := List.all_eq_true.mp h.2 run (List.mem_of_find?_eq_some hrun)
  simp only [Bool.and_eq_true, decide_eq_true_eq] at hplace habove
  omega

theorem inert_map_ofNat {forms : List Nat} (h : ∀ m ∈ forms, 62 < m) :
    Inert (forms.map Char.ofNat) := by
  intro c hc
  obtain ⟨m, hm, rfl⟩ := List.mem_map.mp hc
  exact isDelimiter_ofNat (h m hm)

theorem inert_upperChar {c : Char} (hc : isDelimiter c = false) : Inert (upperChar c) := by
  unfold upperChar
  split
  · rename_i forms hforms
    exact inert_map_ofNat (above_of_lookup upper_above hforms)
  · split
    · rename_i n hn
      exact inert_cons.mpr ⟨isDelimiter_ofNat (above_of_shifted upper_above hn), inert_nil⟩
    · exact inert_cons.mpr ⟨hc, inert_nil⟩

theorem inert_lowerChar {c : Char} (hc : isDelimiter c = false) : Inert (lowerChar c) := by
  unfold lowerChar
  split
  · rename_i forms hforms
    exact inert_map_ofNat (above_of_lookup lower_above hforms)
  · split
    · rename_i n hn
      exact inert_cons.mpr ⟨isDelimiter_ofNat (above_of_shifted lower_above hn), inert_nil⟩
    · exact inert_cons.mpr ⟨hc, inert_nil⟩

theorem inert_upper {t : Text} (h : Inert t) : Inert (upper t) := by
  intro c hc
  obtain ⟨d, hd, hc⟩ := List.mem_flatMap.mp hc
  exact inert_upperChar (h d hd) c hc

theorem inert_lowerAfter {t : Text} (h : Inert t) (before : Text) :
    Inert (lowerAfter before t) := by
  induction t generalizing before with
  | nil => exact inert_nil
  | cons c t ih =>
      obtain ⟨hc, ht⟩ := inert_cons.mp h
      unfold lowerAfter
      apply inert_append.mpr
      constructor
      · split
        · split
          · exact inert_cons.mpr ⟨by decide, inert_nil⟩
          · exact inert_cons.mpr ⟨by decide, inert_nil⟩
        · exact inert_lowerChar hc
      · exact ih ht (c :: before)

theorem inert_lower {t : Text} (h : Inert t) : Inert (lower t) := inert_lowerAfter h []

theorem inert_titleAfter {t : Text} (h : Inert t) (inWord : Bool) :
    Inert (titleAfter inWord t) := by
  induction t generalizing inWord with
  | nil => exact inert_nil
  | cons c t ih =>
      obtain ⟨hc, ht⟩ := inert_cons.mp h
      unfold titleAfter
      split
      · apply inert_append.mpr
        constructor
        · split
          · exact inert_lowerChar hc
          · exact inert_upperChar hc
        · exact ih ht true
      · exact inert_cons.mpr ⟨hc, ih ht false⟩

theorem inert_title {t : Text} (h : Inert t) : Inert (title t) := inert_titleAfter h false

end Letter

end TemplateEngine
