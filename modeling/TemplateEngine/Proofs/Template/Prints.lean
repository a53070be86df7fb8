import Mathlib.Data.List.Forall2
import TemplateEngine.Proofs.Syntax.PrintedLine
import TemplateEngine.Proofs.Template.Program
import TemplateEngine.Proofs.Template.SegmentLines
import TemplateEngine.Proofs.Text.Trimming

/-!
# Templates of texts and prints

A template that only holds texts and prints of expressions compiles to one
statement for every segment, if it compiles at all. The statement of a print
appends the filtered value of the expression that the tag holds on its own, so
nothing in a tag reaches past the calls that it is put into.
-/
namespace TemplateEngine

open Draft Lexer TemplateEngine.Parser
open Outline (rowsText Lays)

/-- A compiled program is what the parser makes of its source. -/
theorem Program.exists_of_ofTemplate {name t : Text} {p : Program}
    (h : Program.ofTemplate name t = .ok p) :
    ∃ generated, Generated.ofTemplate t = .ok generated ∧ p.source = generated.source ∧
      parseProgram p.source = .ok p.body := by
  unfold Program.ofTemplate at h
  split at h
  · cases h
  · rename_i generated hgenerated
    split at h
    · cases h
    · rename_i body hbody
      cases h
      exact ⟨generated, hgenerated, rfl, hbody⟩

/-- A program is what the parser makes of the tokens of its source. -/
theorem Parser.exists_of_parseProgram {source : Text} {b : Block} (h : parseProgram source = .ok b) :
    ∃ tokens W, tokenize source = .ok tokens ∧
      programLoop (tokens.length + 1) tokens = .ok (b, W) := by
  unfold parseProgram onSource at h
  split at h
  · cases h
  · rename_i tokens htokens
    split at h
    · rename_i read W hread
      cases h
      exact ⟨tokens, W, htokens, hread⟩
    · cases h

namespace Segment

/-- A text, or a tag that prints an expression with a property through the filter. -/
def Prints (P : Expr → Prop) : Segment → Prop
  | .literal _ _ => True
  | .tag printed =>
    printed.kind = .print ∧ ∃ e, parseExpression (Text.trim printed.body) = .ok e ∧ P e

/-- The code of a text or a print. -/
def code : Segment → Text
  | .literal t _ => literalCall t
  | .tag printed => printCall false printed.body

/-- What the statement of a text or a print does. -/
inductive Appends (P : Expr → Prop) : Segment → Action → Prop
  | literal (t : Text) (line : Nat) :
      Appends P (.literal t line) (Outline.appendCall (.constant (.str t)))
  | print {tag : Tag} {e : Expr} : parseExpression (Text.trim tag.body) = .ok e → P e →
      Appends P (.tag tag) (Outline.appendCall (Outline.filterCall e))

/-- The rows of texts and prints. -/
def rows (segments : List Segment) : List Row :=
  segments.flatMap fun s => codeRows 0 s.line s.code

/-- The lines of texts and prints. -/
def codes (segments : List Segment) : Text := segments.flatMap fun s => s.code ++ ['\n']

theorem rowsText_rows (segments : List Segment) : rowsText (rows segments) = codes segments := by
  induction segments with
  | nil => rfl
  | cons s segments ih =>
      have hs : rows (s :: segments) = codeRows 0 s.line s.code ++ rows segments := rfl
      rw [hs, Outline.rowsText_append, Outline.rowsText_codeRows, ih]
      rfl

section Prints

variable {P : Expr → Prop}

theorem visible_of_parseExpression {body : Text} {e : Expr}
    (h : parseExpression (Text.trim body) = .ok e) : Text.allBlank body = false := by
  rw [Bool.eq_false_iff]
  intro hblank
  rw [Text.trim_of_allBlank hblank] at h
  cases h

/-- A print takes the rows of its call. -/
theorem lays_print {tag : Tag} (hkind : tag.kind = .print)
    (hvisible : Text.allBlank tag.body = false) :
    Lays [.tag tag] 0 (codeRows 0 tag.line (printCall false tag.body)) 0 := by
  intro kept d hd
  have hstep : d.segment (.tag tag) =
      .ok ((d.newRow tag.line).push (printCall false tag.body) tag.line) := by
    unfold Draft.segment
    simp only [hkind]
    rw [Draft.print, hvisible]
    rfl
  have hlast : printCall false tag.body =
      appendName ++ "(".toList ++ filterName ++ "(".toList ++ tag.body ++ [')'] ++ [')'] := by
    simp [printCall]
  refine ⟨(d.newRow tag.line).push (printCall false tag.body) tag.line, ?_, .inl ?_⟩
  · rw [List.foldlM_cons, hstep]
    rfl
  · rw [hlast]
    exact (hd.newRow tag.line).push (.concat _ (by decide))

theorem Prints.lays {s : Segment} (hs : s.Prints P) : Lays [s] 0 (codeRows 0 s.line s.code) 0 := by
  cases s with
  | literal t line =>
      intro kept d hd
      obtain ⟨d', hd', hlaid⟩ := Outline.segment_text hd t line
      have hlaid : Laid 0 ((codeRows 0 line (literalCall t)).reverse ++ kept) d' := hlaid
      refine ⟨d', ?_, hlaid⟩
      rw [List.foldlM_cons, hd']
      rfl
  | tag tag =>
      obtain ⟨hkind, e, hparse, -⟩ := hs
      exact lays_print hkind (visible_of_parseExpression hparse)

theorem lays {segments : List Segment} (hsegments : ∀ s ∈ segments, s.Prints P) :
    Lays segments 0 (rows segments) 0 := by
  induction segments with
  | nil => exact Lays.nil 0
  | cons s segments ih =>
      have hs := (hsegments s List.mem_cons_self).lays
      exact hs.append (ih fun s hs => hsegments s (List.mem_cons_of_mem _ hs))

/-- The program of segments that take the rows of texts and prints has a line for each, and
perhaps a blank one. -/
theorem source_of_lays {t : Text} (hlays : Lays (Splitting.ofTemplate t).segments 0
    (rows (Splitting.ofTemplate t).segments) 0) {generated : Generated}
    (h : Generated.ofTemplate t = .ok generated) :
    ∃ tail, (tail = [] ∨ tail = ['\n']) ∧
      generated.source = codes (Splitting.ofTemplate t).segments ++ tail := by
  obtain ⟨d, hfold, hlaid⟩ := hlays [] Draft.empty Draft.laid_empty
  rw [List.append_nil] at hlaid
  obtain ⟨tail, extra, htail, hfinish⟩ := Outline.finish_laid hlaid
  unfold Generated.ofTemplate at h
  simp only [hfold, bind, Except.bind] at h
  split at h
  · cases h
  · rw [hfinish, rowsText_rows] at h
    cases h
    exact ⟨tail, htail, rfl⟩

/-- What comes after a line goes on with no statement. -/
theorem continues_line {next : Text} (hnext : StartsAppend next) (q : Position) :
    continues (headToken (lexed (lineState next q 0)).tokens).kind = false := by
  rcases hnext with hend | ⟨rest, rfl⟩
  · rw [lexed_end hend]
    rfl
  · rw [lexed_append]
    rfl

theorem exists_code (s : Segment) : ∃ inner, s.code = appendName ++ '(' :: inner := by
  cases s with
  | literal t line =>
      refine ⟨"\"\"\"".toList ++ escapeLiteral t ++ "\"\"\")".toList, ?_⟩
      simp [code, literalCall]
  | tag printed =>
      refine ⟨filterName ++ "(".toList ++ printed.body ++ "))".toList, ?_⟩
      simp [code, printCall]

theorem codes_cons (s : Segment) (segments : List Segment) (tail : Text) :
    codes (s :: segments) ++ tail = s.code ++ '\n' :: (codes segments ++ tail) := by
  simp [codes]

theorem startsAppend_codes (segments : List Segment) {tail : Text}
    (htail : tail = [] ∨ tail = ['\n']) : StartsAppend (codes segments ++ tail) := by
  cases segments with
  | nil => exact .inl htail
  | cons s segments =>
      obtain ⟨inner, hcode⟩ := s.exists_code
      rw [codes_cons, hcode, List.append_assoc]
      exact .inr ⟨_, rfl⟩

/-- The line of a segment, if it is read at all, is read as the statement that appends what
the segment stands for. -/
theorem Prints.statement {s : Segment} (hs : s.Prints P) {next : Text}
    (hnext : StartsAppend next) {p : Position} {o : Outcome}
    (ho : o = lexed (lineState (s.code ++ '\n' :: next) p 0)) (hok : o.failure = none)
    {stmt : Stmt} {W : List Token}
    (h : Parser.statement (blockBody maxBlockDepth) false o.tokens = .ok (stmt, W)) :
    (∃ line action, stmt = .at line action ∧ s.Appends P action) ∧
      W.length < o.tokens.length ∧ ∃ q, W = (lexed (lineState next q 0)).tokens ∧
        (lexed (lineState next q 0)).failure = none := by
  cases s with
  | tag printed =>
      obtain ⟨-, e, hparse, hP⟩ := hs
      obtain ⟨before, behind, hbody, hbefore, hbehind⟩ := Text.exists_trim printed.body
      rw [code, hbody] at ho
      obtain ⟨hstmt, hrest⟩ := statement_printed hparse hbefore hbehind hnext ho hok h
      exact ⟨⟨_, _, hstmt, .print hparse hP⟩, hrest⟩
  | literal t line =>
      have hpart : ∀ c, Outline.Part.text t ≠ .closing c := fun c hc => nomatch hc
      obtain ⟨span, hyields⟩ := Outline.yields_codeRows hpart 0 line p next
      have hreads : Reads maxBlockDepth _ _ := Outline.reads_text t p span
      rw [Lexer.Yields, Outline.rowsText_codeRows] at hyields
      have hyields : lexed (lineState (literalCall t ++ ['\n'] ++ next) p 0) =
          (lexed (lineState next (p.after (literalCall t ++ ['\n'])) 0)).after
            (Lexeme.tokens p (Outline.Part.text t).lexemes ++ [⟨.newline, span⟩]) := hyields
      rw [List.append_assoc] at hyields
      have ho : o = _ := ho.trans hyields
      subst ho
      rw [Outcome.after, hreads.reads false _ (continues_line hnext _)] at h
      cases h
      refine ⟨⟨_, _, rfl, .literal t line⟩, ?_, _, rfl, hok⟩
      simp only [Outcome.after, List.length_append, List.length_cons]
      omega

/-- A program of texts and prints, if it is read at all, has a statement for each. -/
theorem programLoop_codes {segments : List Segment} (hsegments : ∀ s ∈ segments, s.Prints P)
    {tail : Text} (htail : tail = [] ∨ tail = ['\n']) {p : Position} {o : Outcome}
    (ho : o = lexed (lineState (codes segments ++ tail) p 0)) (hok : o.failure = none)
    {fuel : Nat} (hfuel : o.tokens.length < fuel) {b : Block} {W : List Token}
    (h : programLoop fuel o.tokens = .ok (b, W)) :
    List.Forall₂ (fun s stmt => ∃ line action, stmt = .at line action ∧ s.Appends P action)
      segments b := by
  induction segments generalizing p o fuel b with
  | nil =>
      rw [show codes [] ++ tail = tail from rfl, lexed_end htail] at ho
      subst ho
      obtain ⟨fuel, rfl⟩ := Nat.exists_eq_add_one.mpr (Nat.lt_of_le_of_lt (Nat.zero_le _) hfuel)
      cases h
      exact .nil
  | cons s segments ih =>
      rw [codes_cons] at ho
      have hfirst : ∃ t ts, o.tokens = t :: ts ∧ starts t.kind = true := by
        obtain ⟨inner, hcode⟩ := s.exists_code
        rw [hcode, List.append_assoc, List.cons_append, lexed_append] at ho
        rw [ho]
        exact ⟨_, _, rfl, rfl⟩
      obtain ⟨fuel, rfl⟩ := Nat.exists_eq_add_one.mpr (Nat.lt_of_le_of_lt (Nat.zero_le _) hfuel)
      obtain ⟨t, ts, htokens, hstarts⟩ := hfirst
      rw [htokens, programLoop_step hstarts, ← htokens] at h
      obtain ⟨stmt, X, hstmt, h⟩ := exists_of_ok h
      obtain ⟨stmts, X', hothers, h⟩ := exists_of_ok h
      cases h
      have hnext := startsAppend_codes segments htail
      obtain ⟨hdoes, hshorter, q, hX, hok'⟩ :=
        (hsegments s List.mem_cons_self).statement hnext ho hok hstmt
      subst hX
      refine .cons hdoes ?_
      exact ih (fun s hs => hsegments s (List.mem_cons_of_mem _ hs)) rfl hok' (by omega) hothers

/-- A template of texts and prints that compiles has a statement for each of them. -/
theorem forall₂_of_ofTemplate {name t : Text}
    (hsegments : ∀ s ∈ (Splitting.ofTemplate t).segments, s.Prints P) {program : Program}
    (h : Program.ofTemplate name t = .ok program) :
    List.Forall₂ (fun s stmt => ∃ line action, stmt = .at line action ∧ s.Appends P action)
      (Splitting.ofTemplate t).segments program.body := by
  obtain ⟨generated, hgenerated, hsame, hbody⟩ := Program.exists_of_ofTemplate h
  obtain ⟨tail, htail, hsource⟩ := source_of_lays (lays hsegments) hgenerated
  obtain ⟨tokens, W, htokens, hread⟩ := exists_of_parseProgram hbody
  obtain ⟨hfailure, rfl⟩ := tokenize_eq_ok.mp htokens
  rw [hsame, hsource] at hfailure hread
  exact programLoop_codes hsegments htail rfl hfailure (Nat.lt_succ_self _) hread

end Prints

end Segment

end TemplateEngine
