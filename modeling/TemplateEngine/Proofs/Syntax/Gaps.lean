import TemplateEngine.Proofs.Syntax.Rounds
import TemplateEngine.Proofs.Text.Identifier

/-!
# Literals before a gap

A blank or a closing parenthesis ends every literal, so a literal at the end of a
text is the same literal when such a character comes after it. A number ends before a
quote and before a comment as well. Positions are of no account for what is read: only errors carry them.
-/
namespace TemplateEngine

/-- Characters that no literal, word or symbol before them goes on with. -/
def Lexer.isGap (c : Char) : Bool := c = ')' || Text.isBlank c

/-- A text that begins with such a character. -/
def Lexer.Gap (tail : Text) : Prop := ∃ c rest, tail = c :: rest ∧ Lexer.isGap c = true

/-- Characters that no number, word or symbol before them goes on with. -/
def Lexer.endsCode (c : Char) : Bool := isGap c || c = '"' || c = '\'' || c = '#'

/-- A text that begins with no character that a number, word or symbol goes on with. -/
def Lexer.Stops (tail : Text) : Prop := ∀ c ∈ tail.head?, Lexer.endsCode c = true

open Lexer (isGap Gap endsCode Stops)

theorem Lexer.Gap.stops {tail : Text} (htail : Gap tail) : Stops tail := by
  obtain ⟨g, after, rfl, hg⟩ := htail
  intro c hc
  cases Option.some.inj hc
  simp [endsCode, hg]

theorem Lexer.isDigit_of_isGap {c : Char} (h : isGap c = true) : c.isDigit = false := by
  rw [Bool.eq_false_iff]
  intro hdigit
  have hrange : 48 ≤ c.toNat ∧ c.toNat ≤ 57 := by
    simp only [Char.isDigit, Bool.and_eq_true, decide_eq_true_eq] at hdigit
    exact hdigit
  rw [isGap, Bool.or_eq_true, decide_eq_true_eq] at h
  rcases h with rfl | h
  · exact absurd hrange (by decide)
  · obtain ⟨r, hr, hrc⟩ := Letter.exists_range_of_inRanges h
    simp only [Text.blankRanges, List.mem_cons, List.not_mem_nil, or_false] at hr
    rcases hr with rfl | rfl | rfl | rfl | rfl | rfl | rfl | rfl | rfl | rfl <;>
      simp only at hrc <;> omega

theorem Lexer.isDigit_of_endsCode {c : Char} (h : endsCode c = true) : c.isDigit = false := by
  simp only [endsCode, Bool.or_eq_true, decide_eq_true_eq] at h
  rcases h with ((h | rfl) | rfl) | rfl
  · exact isDigit_of_isGap h
  all_goals decide

theorem Lexer.ne_of_endsCode {c d : Char} (h : endsCode c = true) (hd : endsCode d = false) :
    c ≠ d := by
  rintro rfl
  rw [h] at hd
  cases hd

theorem Lexer.ne_of_isGap {c d : Char} (h : isGap c = true) (hd : isGap d = false) : c ≠ d := by
  rintro rfl
  rw [h] at hd
  cases hd

theorem Lexer.Gap.head?_ne {tail : Text} (htail : Gap tail) {quote : Char}
    (hquote : quote = '"' ∨ quote = '\'') : tail.head? ≠ some quote := by
  obtain ⟨g, after, rfl, hg⟩ := htail
  rintro ⟨⟩
  rcases hquote with rfl | rfl <;> exact absurd hg (by decide)

namespace Literal

variable {t tail : Text}

theorem startsWithDigit_append (htail : Stops tail) :
    startsWithDigit (t ++ tail) = startsWithDigit t := by
  cases t with
  | nil =>
      cases tail with
      | nil => rfl
      | cons c rest => exact Lexer.isDigit_of_endsCode (htail c rfl)
  | cons c t => rfl

theorem digitRun_of_stops (htail : Stops tail) : digitRun tail = ([], tail) := by
  cases tail with
  | nil => rfl
  | cons g after =>
      have hg := htail g rfl
      have hunderscore : g ≠ '_' := Lexer.ne_of_endsCode hg (by decide)
      simp [digitRun, Lexer.isDigit_of_endsCode hg, hunderscore]

theorem digitRun_append (htail : Stops tail) :
    digitRun (t ++ tail) = ((digitRun t).1, (digitRun t).2 ++ tail) := by
  induction t using digitRun.induct with
  | case1 => exact digitRun_of_stops htail
  | case2 c rest hc _ _ _ ih => simp [digitRun, hc, ih]
  | case3 d rest hd _ _ hne _ ih =>
      simp only [List.cons_append, digitRun, hne, hd, if_true, Bool.false_eq_true, if_false,
        Prod.mk.injEq, List.cons.injEq, true_and] at ih ⊢
      exact ih
  | case4 d rest hd hne => simp [digitRun, hne, hd]
  | case5 hne =>
      cases tail with
      | nil => rfl
      | cons g after => simp [digitRun, hne, Lexer.isDigit_of_endsCode (htail g rfl)]
  | case6 c rest hc hne => simp [digitRun, hc, hne]

theorem fraction_of_ne {c : Char} (hc : c ≠ '.') (t : Text) : fraction (c :: t) = ([], c :: t) := by
  unfold fraction
  split
  · exact absurd (List.cons.inj ‹_›).1 hc
  · rfl

theorem fraction_append (htail : Stops tail) :
    fraction (t ++ tail) = ((fraction t).1, (fraction t).2 ++ tail) := by
  cases t with
  | nil =>
      cases tail with
      | nil => rfl
      | cons g after => exact fraction_of_ne (Lexer.ne_of_endsCode (htail g rfl) (by decide)) after
  | cons c t =>
      by_cases hc : c = '.'
      · subst hc
        simp only [List.cons_append, fraction, startsWithDigit_append htail, digitRun_append htail]
        split <;> rfl
      · rw [List.cons_append, fraction_of_ne hc, fraction_of_ne hc]
        rfl

theorem exponent_append (htail : Stops tail) :
    exponent (t ++ tail) = ((exponent t).1, (exponent t).2 ++ tail) := by
  match t, tail with
  | [], [] => rfl
  | [], g :: after =>
      have hg := htail g rfl
      have hsmall : g ≠ 'e' := Lexer.ne_of_endsCode hg (by decide)
      have hlarge : g ≠ 'E' := Lexer.ne_of_endsCode hg (by decide)
      cases after with
      | nil => rfl
      | cons d after => simp [exponent, hsmall, hlarge]
  | [c], [] => rfl
  | [c], g :: after =>
      have hg := htail g rfl
      have hdigit := Lexer.isDigit_of_endsCode hg
      have hplus : g ≠ '+' := Lexer.ne_of_endsCode hg (by decide)
      have hminus : g ≠ '-' := Lexer.ne_of_endsCode hg (by decide)
      simp [exponent, hdigit, hplus, hminus]
  | c :: sign :: t, tail =>
      have hrun := digitRun_append (t := sign :: t) htail
      rw [List.cons_append] at hrun
      simp only [List.cons_append, exponent, startsWithDigit_append htail,
        digitRun_append (t := t) htail, hrun]
      split
      · split
        · rfl
        · split <;> rfl
      · rfl

theorem number_append (htail : Stops tail) {p : Position} {found : Scanned}
    (h : number p t = .ok found) (q : Position) :
    ∃ stop, number q (t ++ tail) = .ok ⟨found.kind, found.rest ++ tail, stop⟩ := by
  unfold number at h ⊢
  simp only [digitRun_append htail, fraction_append htail, exponent_append htail] at h ⊢
  split at h
  · rename_i kind hkind
    cases h
    exact ⟨_, rfl⟩
  · cases h

/-- A number before such a text is one without it. -/
theorem number_of_append (htail : Stops tail) {p : Position} {found : Scanned}
    (h : number p (t ++ tail) = .ok found) :
    ∃ rest, found.rest = rest ++ tail ∧ number p t = .ok ⟨found.kind, rest, found.stop⟩ := by
  unfold number at h ⊢
  simp only [digitRun_append htail, fraction_append htail, exponent_append htail] at h ⊢
  split at h
  · rename_i kind hkind
    cases h
    exact ⟨_, rfl, rfl⟩
  · cases h

/-- The same mode, its escape begun at another place. -/
def StringMode.movedTo (place : Position) : StringMode → StringMode
  | .byte _ digits => .byte place digits
  | .brace _ => .brace place
  | .point _ digits => .point place digits
  | mode => mode

/-- What is left of a string in three quotes takes more than two characters. -/
theorem fails_of_short {start : Position} {quote : Char} {p : Position} {value rest : Text}
    (hshort : ∀ a b after, rest = a :: b :: after → False) {found : Scanned} :
    stringBody start quote true .plain p value rest ≠ .ok found := by
  match rest with
  | [] => exact fun h => nomatch h
  | [a] =>
      intro h
      rw [stringBody.eq_def] at h
      simp only [if_true] at h
      repeat' split at h
      all_goals cases h
  | a :: b :: after => exact (hshort a b after rfl).elim

theorem stringBody_append {start : Position} {quote : Char} {triple : Bool} {mode : StringMode}
    {p : Position} {value : Text} {found : Scanned}
    (h : stringBody start quote triple mode p value t = .ok found) (start' place q : Position)
    (tail : Text) :
    ∃ stop, stringBody start' quote triple (mode.movedTo place) q value (t ++ tail) =
      .ok ⟨found.kind, found.rest ++ tail, stop⟩ := by
  fun_induction stringBody start quote triple mode p value t generalizing place q
  all_goals simp only [StringMode.movedTo] at *
  all_goals try (cases h; done)
  all_goals rw [List.cons_append, stringBody.eq_def]
  all_goals dsimp only
  case case2 | case5 =>
    cases h
    simp [*]
  case case3 ih => simpa [*] using ih h place (q.step quote)
  case case4 rest htriple hshort ih =>
    subst htriple
    exact absurd h (fails_of_short hshort)
  case case7 ih => simpa [*] using ih h place (q.step '\\')
  case case8 c rest hquote hnewline hescape ih => simpa [*] using ih h place (q.step c)
  case case10 c rest d hd ih => simpa [*] using ih h place (q.step c)
  case case11 hd ih => simpa [*] using ih h place (q.step '\n')
  case case12 | case13 ih => simp [*]
  case case14 c rest hd hnewline hbyte hpoint ih => simpa [*] using ih h place (q.step c)
  case case17 c rest digit hdigit digits hlength ih =>
    rw [hdigit]
    dsimp only
    rw [if_pos hlength]
    exact ih h place (q.step c)
  case case18 c rest digit hdigit digits hlength ih =>
    rw [hdigit]
    dsimp only
    rw [if_neg hlength]
    exact ih h place (q.step c)
  case case20 ih => simp [*]
  case case23 ih => simp [*]
  case case24 c rest hd failure hend d hchar ih => simpa [*] using ih h place (q.step _)

/-- A string begins with three quotes, or else with one. -/
theorem string_eq (p : Position) (quote : Char) (t : Text) :
    string p quote t =
      if [quote, quote].isPrefixOf t then
        stringBody p quote true .plain (((p.step quote).step quote).step quote) [] (t.drop 2)
      else stringBody p quote false .plain (p.step quote) [] t := by
  match t with
  | [] => rfl
  | [a] => simp [string, List.isPrefixOf]
  | a :: b :: t =>
      simp only [string, List.isPrefixOf, Bool.and_true, beq_iff_eq, Bool.and_eq_true,
        decide_eq_true_eq, eq_comm (a := quote)]
      split
      · rename_i hquotes
        rw [hquotes.1, hquotes.2]
        rfl
      · rfl

theorem pair_isPrefixOf_append {quote : Char} (htail : tail.head? ≠ some quote) (t : Text) :
    [quote, quote].isPrefixOf (t ++ tail) = [quote, quote].isPrefixOf t := by
  have hhead : ∀ c ∈ tail.head?, ¬ quote = c := fun c hc heq => htail (heq ▸ hc)
  match t, tail with
  | [], [] => rfl
  | [], g :: after => simp [List.isPrefixOf, hhead g rfl]
  | [a], [] => rfl
  | [a], g :: after => simp [List.isPrefixOf, hhead g rfl]
  | a :: b :: t, tail => simp [List.isPrefixOf]

theorem string_append {quote : Char} (htail : tail.head? ≠ some quote) {p : Position}
    {found : Scanned} (h : string p quote t = .ok found) (q : Position) :
    ∃ stop, string q quote (t ++ tail) = .ok ⟨found.kind, found.rest ++ tail, stop⟩ := by
  rw [string_eq] at h ⊢
  rw [pair_isPrefixOf_append htail]
  split at h
  · rename_i hquotes
    have hlength : 2 ≤ t.length := (List.isPrefixOf_iff_prefix.mp hquotes).length_le
    rw [if_pos hquotes, List.drop_append_of_le_length hlength]
    exact stringBody_append h q q _ tail
  · rename_i hquotes
    rw [if_neg hquotes]
    exact stringBody_append h q q _ tail

end Literal

end TemplateEngine
