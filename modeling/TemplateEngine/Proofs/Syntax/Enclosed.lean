import TemplateEngine.Proofs.Syntax.Embedding
import TemplateEngine.Proofs.Syntax.Operands

/-!
# An expression between the parentheses of two calls

A printed expression stands inside two calls, between blanks that are no part of
it. If the source it is in can be cut into tokens at all, those of the expression
are the ones it has alone, and the next one closes a call, unless the expression
ends in a comment; then a name comes next, the first word of the line after it.
-/
namespace TemplateEngine

open TemplateEngine.Parser

namespace Lexer

variable {indents : List Nat} {ended : Bool}

/-- The brackets of two calls. -/
abbrev twoCalls : List Char := ['(', '(']

theorem isBlank_not_mark {g : Char} (hg : Text.isBlank g = true) :
    Letter.isIdentifierStart g = false ∧ g.isDigit = false ∧ ¬ (g = '"' ∨ g = '\'') ∧
      g ≠ '#' ∧ g ≠ '\\' := by
  have hgap : isGap g = true := by
    rw [isGap, hg, Bool.or_true]
  refine ⟨?_, isDigit_of_isGap hgap, ?_, ne_of_isGap hgap (by decide),
    ne_of_isGap hgap (by decide)⟩
  · rw [Bool.eq_false_iff]
    intro hstart
    have hcontinue := isIdentifierContinue_of_isGap hgap
    rw [Letter.isIdentifierContinue_of_start hstart] at hcontinue
    cases hcontinue
  · rintro (rfl | rfl)
    · exact absurd hg (by decide)
    · exact absurd hg (by decide)

theorem symbol?_of_isBlank {g : Char} (hg : Text.isBlank g = true) (t : Text) :
    symbol? (g :: t) = none := by
  have hsingle : singleSymbols.lookup g = none := by
    rw [List.lookup_eq_none_iff]
    intro entry hentry
    have hmarks : ∀ entry ∈ singleSymbols, Text.isBlank entry.1 = false := by decide
    rw [bne_iff_ne]
    rintro rfl
    rw [hmarks entry hentry] at hg
    cases hg
  cases t with
  | nil =>
      rw [symbol?, hsingle]
      rfl
  | cons d t =>
      have hdouble : doubleSymbols.find? (fun entry => entry.1 = g && entry.2.1 = d) = none := by
        rw [List.find?_eq_none]
        intro entry hentry hmatch
        have hmarks : ∀ entry ∈ doubleSymbols, Text.isBlank entry.1 = false := by decide
        rw [Bool.and_eq_true, decide_eq_true_eq] at hmatch
        rw [← hmatch.1, hmarks entry hentry] at hg
        cases hg
      rw [symbol?, hdouble, hsingle]
      rfl

/-- The blanks that are passed over within a line. -/
def isInlineBlank (c : Char) : Bool := c = ' ' || c = '\t' || c = '\r' || c = '\x0c'

/-- Other characters begin no blank, no comment and no continued line. -/
theorem visible_of_not_isInlineBlank {c : Char} (h : isInlineBlank c = false) (hhash : c ≠ '#')
    (hescape : c ≠ '\\') : c ∉ [' ', '\t', '\r', '\x0c', '#', '\\'] := by
  simp only [isInlineBlank, Bool.or_eq_false_iff, decide_eq_false_iff_not] at h
  simp only [List.mem_cons, List.not_mem_nil, or_false, not_or]
  exact ⟨h.1.1.1, h.1.1.2, h.1.2, h.2, hhash, hescape⟩

theorem lexed_inlineBlank {g : Char} (hg : isInlineBlank g = true) (p : Position) (t : Text)
    (brackets : List Char) :
    lexed ⟨g :: t, p, indents, brackets, false, ended⟩ =
      lexed ⟨t, p.step g, indents, brackets, false, ended⟩ := by
  rw [lexed_eq_lexedIn, lexed_eq_lexedIn]
  exact lexedIn_congr (skipBlanks_plain p t hg)

/-- Any other blank within a line is no part of the language. -/
theorem failure_of_isBlank {g : Char} (hg : Text.isBlank g = true) (hnewline : g ≠ '\n')
    (hinline : isInlineBlank g = false) (p : Position) (t : Text) (brackets : List Char) :
    lexed ⟨g :: t, p, indents, brackets, false, ended⟩ =
      ⟨[], some (.unexpectedChar g p), indents.length⟩ := by
  obtain ⟨hstart, hdigit, hquote, hhash, hescape⟩ := isBlank_not_mark hg
  apply lexed_failed
  rw [round_token (visible_of_not_isInlineBlank hinline hhash hescape) hnewline, token]
  simp only [hstart, hdigit, Bool.false_eq_true, if_false, Bool.or_eq_true,
    decide_eq_true_eq, if_neg hquote, symbol?_of_isBlank hg]

/-- Blanks inside brackets are passed over, or they are none that the lexer knows. -/
theorem lexedIn_blank {g : Char} (hg : Text.isBlank g = true) (p : Position) (t : Text)
    {bracket : Char} {outer : List Char}
    (hok : (lexedIn false p (g :: t) indents (bracket :: outer) ended).failure = none) :
    lexedIn false p (g :: t) indents (bracket :: outer) ended =
      lexedIn false (p.step g) t indents (bracket :: outer) ended := by
  by_cases hnewline : g = '\n'
  · subst hnewline
    exact lexedIn_newline false p t bracket
  · cases hinline : isInlineBlank g with
    | true => exact lexedIn_congr (skipBlanks_plain p t hinline)
    | false =>
        rw [← lexed_eq_lexedIn, failure_of_isBlank hg hnewline hinline] at hok
        cases hok

/-- The blanks before a printed expression. -/
theorem lexed_blanks {before : Text} (hbefore : ∀ g ∈ before, Text.isBlank g = true)
    (p : Position) (t : Text) {bracket : Char} {outer : List Char}
    (hok : (lexed ⟨before ++ t, p, indents, bracket :: outer, false, ended⟩).failure = none) :
    ∃ q, lexed ⟨before ++ t, p, indents, bracket :: outer, false, ended⟩ =
      lexed ⟨t, q, indents, bracket :: outer, false, ended⟩ := by
  induction before generalizing p with
  | nil => exact ⟨p, rfl⟩
  | cons g before ih =>
      rw [List.cons_append, lexed_eq_lexedIn] at hok ⊢
      have hblank := lexedIn_blank (hbefore g List.mem_cons_self) p (before ++ t) hok
      rw [hblank, ← lexed_eq_lexedIn] at hok ⊢
      exact ih (fun g hg => hbefore g (List.mem_cons_of_mem _ hg)) _ hok

/-- Nothing but a blank line, or a line that appends to the output. -/
def StartsAppend (next : Text) : Prop :=
  (next = [] ∨ next = ['\n']) ∨ ∃ rest, next = Draft.appendName ++ '(' :: rest

/-- What closes two calls: their parentheses and the end of the line. -/
def Closed (o : Outcome) (next : Text) : Prop :=
  ∃ q s₁ s₂ s₃, o = (lexed (lineState next q 0)).after
    [⟨.symbol .rightParen, s₁⟩, ⟨.symbol .rightParen, s₂⟩, ⟨.newline, s₃⟩]

/-- A name, where something else has to come. -/
def Interrupted (o : Outcome) : Prop :=
  ∃ name s rest, o.tokens = ⟨.identifier name, s⟩ :: rest

theorem closed_parentheses (p : Position) (next : Text) :
    Closed (lexed ⟨')' :: ')' :: '\n' :: next, p, [], twoCalls, false, ended⟩) next := by
  have hmark : (')', Symbol.rightParen) ∈ Lexeme.marks := by decide
  have houter : bracketsAfter? twoCalls ')' = some ['('] := by decide
  have hinner : bracketsAfter? ['('] ')' = some [] := by decide
  unfold Closed
  rw [lexed_mark hmark houter, lexed_mark hmark hinner, lexed_newline, Outcome.after_after,
    Outcome.after_after]
  exact ⟨_, _, _, _, rfl⟩

/-- A comment that swallows the parentheses leaves both calls open on the next line. -/
theorem interrupted_comment {next : Text} (hnext : StartsAppend next) (p : Position)
    (hok : (lexedIn true p (')' :: ')' :: '\n' :: next) [] twoCalls ended).failure = none) :
    Interrupted (lexedIn true p (')' :: ')' :: '\n' :: next) [] twoCalls ended) := by
  have hcomment : lexedIn true p (')' :: ')' :: '\n' :: next) [] twoCalls ended =
      lexedIn true ((p.step ')').step ')') ('\n' :: next) [] twoCalls ended := by
    apply lexedIn_congr
    rw [skipBlanks_comment _ _ (by decide), skipBlanks_comment _ _ (by decide)]
  rw [hcomment, lexedIn_newline, ← lexed_eq_lexedIn] at hok ⊢
  have hround : ∀ q, round ⟨[], q, [], twoCalls, false, ended⟩ =
      .failed (.unmatchedBracket '(' q) 0 := fun q => rfl
  rcases hnext with (rfl | rfl) | ⟨rest, rfl⟩
  · rw [lexed_failed (hround _)] at hok
    cases hok
  · rw [lexed_eq_lexedIn, lexedIn_newline, ← lexed_eq_lexedIn, lexed_failed (hround _)] at hok
    cases hok
  · have hword : Lexeme.isWord Draft.appendName = true := Lexeme.isWord_of_isLatin (by decide)
    have hends : Lexeme.endsWord ('(' :: rest) := Lexeme.endsWord_cons (by decide) rest
    rw [lexed_word hword hends]
    exact ⟨_, _, _, rfl⟩

/-- What comes after a printed expression, from within a comment or not. -/
theorem closed_or_interrupted {behind : Text} (hbehind : ∀ g ∈ behind, Text.isBlank g = true)
    {next : Text} (hnext : StartsAppend next) (comment : Bool) (p : Position)
    (hok : (lexedIn comment p (behind ++ ')' :: ')' :: '\n' :: next) [] twoCalls
      ended).failure = none) :
    Closed (lexedIn comment p (behind ++ ')' :: ')' :: '\n' :: next) [] twoCalls ended) next ∨
      Interrupted (lexedIn comment p (behind ++ ')' :: ')' :: '\n' :: next) [] twoCalls ended) := by
  induction behind generalizing comment p with
  | nil =>
      cases comment with
      | true => exact .inr (interrupted_comment hnext p hok)
      | false =>
          rw [List.nil_append, ← lexed_eq_lexedIn]
          exact .inl (closed_parentheses p next)
  | cons g behind ih =>
      have ih := ih fun g hg => hbehind g (List.mem_cons_of_mem _ hg)
      rw [List.cons_append] at hok ⊢
      cases comment with
      | false =>
          have hblank := lexedIn_blank (hbehind g List.mem_cons_self) p _ hok
          rw [hblank] at hok ⊢
          exact ih false (p.step g) hok
      | true =>
          by_cases hg : g = '\n'
          · subst hg
            rw [lexedIn_newline] at hok ⊢
            exact ih false (p.step '\n') hok
          · rw [lexedIn_congr (skipBlanks_comment p _ hg)] at hok ⊢
            exact ih true (p.step g) hok

end Lexer

end TemplateEngine
