import TemplateEngine.Proofs.Template.Prints
import TemplateEngine.Proofs.Template.Program

/-!
# A print at the end of a template

A template with an outline may go on to a tag that prints any expression. Its program is the
translation of the outline, and then one more statement, which prints the expression.
-/
namespace TemplateEngine

namespace Outline

open Draft Lexer TemplateEngine.Parser

/-- A tag that prints an expression, with the lexemes of the line that it becomes. The line is
read as a statement that prints the expression, and the tag as no more than itself. -/
structure ClosingPrint where
  body : Text
  lexemes : List Lexeme
  expr : Expr
  line_lexemes : Lexeme.line lexemes = printCall false body
  fits_lexemes : ∀ rest, Lexeme.fits lexemes ('\n' :: rest)
  brackets_lexemes : Lexeme.bracketsAfter? [] lexemes = some []
  reads : ∀ (depth : Nat) (p : Position) (s : Span),
    Reads depth (Lexeme.tokens p lexemes ++ [⟨.newline, s⟩])
      (.at p.line (appendCall (filterCall expr)))
  visible : Text.allBlank body = false
  opener_body : Segment.opener ('=' :: (body ++ "%>".toList)) = (.print, false, body ++ "%>".toList)
  body?_body : Segment.body? 0 (body ++ "%>".toList) = some (body, false, [])

namespace ClosingPrint

variable (print : ClosingPrint)

/-- The tag as it is written. -/
def written : Text := "<%=".toList ++ (print.body ++ "%>".toList)

/-- The tag as a segment of its template. -/
def segment (line : Nat) : Segment := .tag ⟨.print, print.body, line, false, false⟩

theorem ends_written : Ends print.written fun line => [print.segment line] := by
  intro t fuel fresh line
  have hwritten : print.written = '<' :: '%' :: '=' :: (print.body ++ "%>".toList) := rfl
  have hstarts : Segment.startsTag print.written :=
    .inr ⟨_, hwritten, (by decide : some '=' ≠ some '%')⟩
  have hbefore := Segment.beforeOpener_doubleOpeners (Segment.doubleClosers t) hstarts
  have hend (line : Nat) : Splitting.run fuel false line [] = ⟨[], none⟩ := by
    cases fuel <;> rfl
  simp only [Splitting.run]
  rw [Segment.escapeDelimiters, hbefore, hwritten]
  simp only [print.opener_body]
  rw [print.body?_body]
  simp [hend, segment, Segment.newlines_doubleOpeners, Segment.newlines_doubleClosers]

/-- The row of the tag. -/
def rows (line : Nat) : List Row := codeRows 0 line (printCall false print.body)

theorem rowsText_rows (line : Nat) :
    rowsText (print.rows line) = Lexeme.line print.lexemes ++ ['\n'] := by
  rw [rows, rowsText_codeRows, print.line_lexemes]
  rfl

theorem lays_segment (line : Nat) : Lays [print.segment line] 0 (print.rows line) 0 :=
  Segment.lays_print rfl print.visible

theorem line_first : ∃ rest, Lexeme.line print.lexemes = '_' :: rest := by
  rw [print.line_lexemes]
  exact ⟨_, rfl⟩

theorem visible_first : Visible '_' := visible_of_start (Letter.isIdentifierStart_of_isLatin (by decide))

theorem follows_rows (line : Nat) (tail : Text) : Follows 0 (rowsText (print.rows line) ++ tail) := by
  obtain ⟨rest, hfirst⟩ := print.line_first
  refine .inr (.inr ⟨0, '_', rest ++ ['\n'] ++ tail, Nat.le_refl 0, ?_, visible_first⟩)
  rw [rowsText_rows, hfirst]
  rfl

theorem yields_rows (line : Nat) (p : Position) (tail : Text) :
    ∃ s, Lexer.Yields 0 p (rowsText (print.rows line)) tail
      (Lexeme.tokens p print.lexemes ++ [⟨.newline, s⟩]) := by
  obtain ⟨rest, hfirst⟩ := print.line_first
  have hrow := lexed_row hfirst visible_first tail (print.fits_lexemes tail)
    print.brackets_lexemes p 0
  refine ⟨⟨p.after (Lexeme.line print.lexemes),
    p.after (Lexeme.line print.lexemes ++ ['\n'])⟩, ?_⟩
  rw [Lexer.Yields, rowsText_rows, List.append_assoc]
  exact hrow

end ClosingPrint

/-- A template with an outline, and a print at its end, compiles to the translation of the outline
and a statement that prints. -/
theorem program_closingPrint (name : Text) {items : List Item} (hitems : Valid items)
    (hdepth : nesting items ≤ maxBlockDepth) (print : ClosingPrint) :
    ∃ p line, Program.ofTemplate name (written items ++ print.written) = .ok p ∧ p.name = name ∧
      p.body = translate Place.row .start items ++
        [.at line (appendCall (filterCall print.expr))] := by
  have hseparated : separated (parts items) := by
    have h := separated_parts items hitems (show separated [] from trivial) (by simp)
    rwa [List.append_nil] at h
  have hsplit := ofTemplate_parts_append hseparated print.ends_written
  generalize 1 + lineBreaks (parts items) = last at hsplit
  obtain ⟨e, hfold, hlaid⟩ := (lays items hitems 0 1).append (print.lays_segment last) []
    Draft.empty Draft.laid_empty
  rw [List.append_nil] at hlaid
  obtain ⟨tail, extra, htail, hfinish⟩ := finish_laid hlaid
  have hgenerated : Generated.ofTemplate (written items ++ print.written) = e.finish := by
    simp only [Generated.ofTemplate, written, hsplit, hfold, bind, Except.bind]
  rw [hfinish, rowsText_append, List.append_assoc] at hgenerated
  -- the rows of the outline are read before the row of the tag
  obtain ⟨tokens, hyields, hreads⟩ := reads items hitems hdepth 0 1 Position.start
    (print.follows_rows last tail)
  obtain ⟨s, hprinted⟩ := print.yields_rows last
    (Position.start.after (rowsText (Outline.rows 0 1 items))) tail
  have hlexed : Lexer.outcome (rowsText (Outline.rows 0 1 items) ++
      (rowsText (print.rows last) ++ tail)) = _ := (outcome_eq_lexed _).trans hyields
  rw [Lexer.Yields] at hprinted
  rw [hprinted, lexed_end htail, Outcome.after_after] at hlexed
  generalize Position.start.after (rowsText (Outline.rows 0 1 items)) = behind at hprinted hlexed
  have htokens : tokenize (rowsText (Outline.rows 0 1 items) ++
      (rowsText (print.rows last) ++ tail)) =
      .ok (tokens ++ (Lexeme.tokens behind print.lexemes ++ [⟨.newline, s⟩]) ++
        [emptyToken ((behind.after (rowsText (print.rows last))).after tail) .endOfInput]) := by
    rw [tokenize, hlexed]
    rfl
  have hall := hreads.append (.cons (print.reads maxBlockDepth behind s) .nil)
  rw [List.append_nil] at hall
  have hparsed := (hall.within false).parseProgram htokens
  unfold Program.ofTemplate
  rw [hgenerated]
  simp only [hparsed]
  exact ⟨_, behind.line, rfl, rfl, rfl⟩

end Outline

end TemplateEngine
