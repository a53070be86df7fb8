import TemplateEngine.Proofs.Template.Reading
import TemplateEngine.Proofs.Template.Rows
import TemplateEngine.Template.Program

/-!
# Compiling an outline

The rows of an outline read back as its translation. Blocks are closed by the
indentation of whatever follows them, so the statement about an item is made for
every text that may follow it, and the induction is on the outline.
-/
namespace TemplateEngine

namespace Outline

open Draft Lexer TemplateEngine.Parser

theorem map_code_rowsFrom (line : Nat) (pieces : List Text) :
    (rowsFrom line pieces).map Row.code = pieces := by
  induction pieces generalizing line with
  | nil => rfl
  | cons piece pieces ih => rw [rowsFrom, List.map_cons, ih]

theorem rowsText_codeRows (depth line : Nat) (code : Text) :
    rowsText (codeRows depth line code) = Draft.indentation depth ++ (code ++ ['\n']) := by
  have h := Text.flatMap_cutAt '\n' (Draft.indentation depth ++ code)
  rw [← map_code_rowsFrom line (Text.cutAt '\n' (Draft.indentation depth ++ code)),
    List.flatMap_map, List.append_assoc] at h
  exact h

theorem newlines_escapeLiteral (t : Text) : (escapeLiteral t).newlines = t.newlines := by
  induction t with
  | nil => rfl
  | cons c t ih =>
      have hcons : escapeLiteral (c :: t) =
          (if c = '\\' || c = '"' then ['\\', c] else [c]) ++ escapeLiteral t := by
        simp [escapeLiteral]
      rw [hcons, Text.newlines_append, ih]
      by_cases hc : c = '\\' ∨ c = '"'
      · rw [if_pos (by simpa using hc)]
        rcases hc with rfl | rfl <;> simp [Text.newlines]
      · rw [if_neg (by simpa using hc)]
        simp only [Text.newlines, List.count_cons, List.count_nil]
        omega

/-- The code of a part takes a row more than it has line breaks. -/
theorem Part.rowCount_eq {part : Part} (hpart : ∀ c, part ≠ .closing c) :
    part.rowCount = part.code.newlines + 1 := by
  have hline : ∀ t : Text, '\n' ∉ t → 1 = t.newlines + 1 := fun t ht => by
    rw [Text.newlines_eq_zero ht]
  cases part with
  | text t =>
      have happend : appendName.newlines = 0 := by decide
      have hopen : Text.newlines "(\"\"\"".toList = 0 := by decide
      have hclose : Text.newlines "\"\"\")".toList = 0 := by decide
      simp only [rowCount, code, literalCall, Text.newlines_append, newlines_escapeLiteral,
        happend, hopen, hclose]
      omega
  | print raw n =>
      refine hline _ ?_
      have hn : '\n' ∉ n.text := fun h => n.ne h (by decide) rfl
      have happend : '\n' ∉ appendName := by decide
      have hfilter : '\n' ∉ filterName := by decide
      cases raw <;> simp [code, printCall, hn, happend, hfilter]
  | opening header => exact hline _ header.newline_not_mem
  | clause c => exact hline _ (not_mem_of_allTagChars c.allTagChars isTagChar_newline)
  | closing c => exact absurd rfl (hpart c)

/-- Rows that take as many lines as parts count. -/
def Counts (rs : List Row) (ps : List Part) : Prop :=
  rs.length = rowCounts ps ∧ (rowsText rs).newlines = rowCounts ps

theorem Counts.append {rs qs : List Row} {ps os : List Part} (h : Counts rs ps)
    (h' : Counts qs os) : Counts (rs ++ qs) (ps ++ os) := by
  obtain ⟨hlength, htext⟩ := h
  obtain ⟨hlength', htext'⟩ := h'
  refine ⟨?_, ?_⟩
  · rw [List.length_append, hlength, hlength', rowCounts_append]
  · rw [rowsText_append, Text.newlines_append, htext, htext', rowCounts_append]

theorem length_rowsFrom (line : Nat) (pieces : List Text) :
    (rowsFrom line pieces).length = pieces.length := by
  rw [← List.length_map (f := Row.code), map_code_rowsFrom]

theorem counts_codeRows (depth line : Nat) {part : Part} (hpart : ∀ c, part ≠ .closing c) :
    Counts (codeRows depth line part.code) [part] := by
  have hindentation := Text.newlines_eq_zero (newline_not_mem_indentation depth)
  have hcount := Part.rowCount_eq hpart
  refine ⟨?_, ?_⟩
  · rw [codeRows, length_rowsFrom, Text.length_cutAt, Text.newlines_append, hindentation]
    rw [rowCounts, rowCounts]
    omega
  · rw [rowsText_codeRows, Text.newlines_append, Text.newlines_append, hindentation]
    rw [rowCounts, rowCounts]
    have hend : Text.newlines ['\n'] = 1 := by decide
    omega

theorem counts_closing (closer : Closer) : Counts [] [.closing closer] := ⟨rfl, rfl⟩

mutual

theorem Item.counts (item : Item) (depth line : Nat) :
    Counts (item.rows depth line) item.parts := by
  match item with
  | .text t =>
      exact counts_codeRows depth line (show ∀ c, Part.text t ≠ .closing c by simp)
  | .print raw n =>
      exact counts_codeRows depth line (show ∀ c, Part.print raw n ≠ .closing c by simp)
  | .block header body clauses closer =>
      have hheader := counts_codeRows depth line
        (show ∀ c, Part.opening header ≠ .closing c by simp)
      have hall := hheader.append ((counts body (depth + 1) line).append
        ((countsClauses clauses depth (line + lineBreaks (parts body))).append
          (counts_closing closer)))
      simp only [Item.rows, Item.parts, List.append_nil, List.append_assoc, List.singleton_append]
        at hall ⊢
      exact hall

/-- The rows of items take as many lines as their parts count. -/
theorem counts (items : List Item) (depth line : Nat) :
    Counts (rows depth line items) (parts items) := by
  match items with
  | [] => exact ⟨rfl, rfl⟩
  | item :: items => exact (item.counts depth line).append (counts items depth _)

theorem countsClauses (clauses : List (Clause × List Item)) (depth line : Nat) :
    Counts (clauseRows depth line clauses) (clauseParts clauses) := by
  match clauses with
  | [] => exact ⟨rfl, rfl⟩
  | (clause, body) :: clauses =>
      have hclause := counts_codeRows depth line
        (show ∀ c, Part.clause clause ≠ .closing c by simp)
      have hall := hclause.append ((counts body (depth + 1) line).append
        (countsClauses clauses depth (line + lineBreaks (parts body))))
      simp only [clauseRows, clauseParts, List.singleton_append] at hall ⊢
      exact hall

end

theorem Part.code_first {part : Part} (hpart : ∀ c, part ≠ .closing c) :
    ∃ c s, Lexeme.line part.lexemes = c :: s ∧ Letter.isIdentifierStart c = true := by
  rw [part.line_lexemes]
  cases part with
  | text t => exact ⟨_, _, rfl, Letter.isIdentifierStart_of_isLatin (by decide)⟩
  | print raw n => cases raw <;> exact ⟨_, _, rfl, Letter.isIdentifierStart_of_isLatin (by decide)⟩
  | opening header => exact header.code_first
  | clause c => exact c.code_first
  | closing c => exact absurd rfl (hpart c)

theorem Part.brackets_lexemes (part : Part) : Lexeme.bracketsAfter? [] part.lexemes = some [] := by
  cases part with
  | text _ | closing _ => rfl
  | print raw _ => cases raw <;> rfl
  | opening header => cases header <;> rfl
  | clause c => cases c <;> rfl

/-- The rows of a part yield its tokens and the end of its line. -/
theorem yields_codeRows {part : Part} (hpart : ∀ c, part ≠ .closing c) (depth line : Nat)
    (p : Position) (tail : Text) :
    ∃ s, Yields depth p (rowsText (codeRows depth line part.code)) tail
      (Lexeme.tokens (p.after (Draft.indentation depth)) part.lexemes ++ [⟨.newline, s⟩]) := by
  obtain ⟨c, s, hfirst, hc⟩ := Part.code_first hpart
  have hrow := lexed_row hfirst (visible_of_start hc) tail (part.fits_lexemes _) part.brackets_lexemes p depth
  have htext : rowsText (codeRows depth line part.code) =
      Draft.indentation depth ++ Lexeme.line part.lexemes ++ ['\n'] := by
    rw [rowsText_codeRows, ← part.line_lexemes, List.append_assoc]
  rw [← htext] at hrow
  refine ⟨_, Eq.trans ?_ hrow⟩
  rw [htext, List.append_assoc, List.append_assoc, List.singleton_append]

/-- Rows whose first one begins at a depth or a lower one, or no rows before such a text. -/
theorem follows_codeRows {part : Part} (hpart : ∀ c, part ≠ .closing c) {depth outer : Nat}
    (houter : outer ≤ depth) (line : Nat) (tail : Text) :
    Follows depth (rowsText (codeRows outer line part.code) ++ tail) := by
  obtain ⟨c, s, hfirst, hc⟩ := Part.code_first hpart
  rw [rowsText_codeRows, ← part.line_lexemes, hfirst]
  refine .inr (.inr ⟨outer, c, s ++ '\n' :: tail, houter, by simp, visible_of_start hc⟩)

theorem Item.rows_first (item : Item) (depth line : Nat) : ∃ part rs,
    (∀ c, part ≠ Part.closing c) ∧ item.rows depth line = codeRows depth line part.code ++ rs := by
  cases item with
  | text t => exact ⟨.text t, [], by simp, by simp [Item.rows]⟩
  | print raw n => exact ⟨.print raw n, [], by simp, by simp [Item.rows]⟩
  | block header body clauses closer => exact ⟨.opening header, _, by simp, rfl⟩

theorem follows_rows (items : List Item) {depth : Nat} {tail : Text} (h : Follows depth tail)
    (line : Nat) : Follows depth (rowsText (rows depth line items) ++ tail) := by
  cases items with
  | nil => exact h
  | cons item items =>
      obtain ⟨part, rs, hpart, hrs⟩ := item.rows_first depth line
      rw [rows, hrs, List.append_assoc, rowsText_append, List.append_assoc]
      exact follows_codeRows hpart (Nat.le_refl depth) line _

theorem follows_clauseRows (clauses : List (Clause × List Item)) {depth : Nat} {tail : Text}
    (h : Follows depth tail) (line : Nat) :
    Follows depth (rowsText (clauseRows depth line clauses) ++ tail) := by
  cases clauses with
  | nil => exact h
  | cons clause clauses =>
      obtain ⟨clause, body⟩ := clause
      rw [clauseRows, rowsText_append, List.append_assoc]
      exact follows_codeRows (show ∀ c, Part.clause clause ≠ .closing c by simp)
        (Nat.le_refl depth) line _

/-- The statements of a body, one block deeper, are read as a block. -/
theorem readsBlock_of_rows {items : List Item} {depth k line : Nat} {p : Position} {tail : Text}
    (hfollows : Follows depth tail) {tokens : List Token} {stmts : Block}
    (hyields : Yields (depth + 1) p (rowsText (rows (depth + 1) line items)) tail tokens)
    (hreads : ReadsAll k tokens stmts) (hempty : items = [] → stmts = []) :
    ∃ inner, Yields depth p (rowsText (rows (depth + 1) line items)) tail inner ∧
      ReadsBlock (k + 1) inner stmts := by
  cases items with
  | nil =>
      rw [hempty rfl]
      exact ⟨[], yields_nil depth p tail, readsBlock_nil _⟩
  | cons item items =>
      obtain ⟨part, rs, hpart, hrs⟩ := item.rows_first (depth + 1) line
      obtain ⟨c, s, hfirst, hc⟩ := Part.code_first hpart
      obtain ⟨u, hu⟩ : ∃ u, rowsText (rows (depth + 1) line (item :: items)) ++ tail =
          Draft.indentation (depth + 1) ++ c :: u := by
        refine ⟨s ++ ['\n'] ++ rowsText rs ++
          rowsText (rows (depth + 1) (line + lineBreaks item.parts) items) ++ tail, ?_⟩
        rw [rows, hrs, rowsText_append, rowsText_append, rowsText_codeRows, ← part.line_lexemes,
          hfirst]
        simp only [List.append_assoc, List.cons_append]
      obtain ⟨place, hclose⟩ := lexed_close hfollows
        (p.after (rowsText (rows (depth + 1) line (item :: items))))
      refine ⟨_, ?_, hreads.block ⟨p.after (Draft.indentation (depth + 1)),
        p.after (Draft.indentation (depth + 1))⟩ ⟨place, place⟩⟩
      rw [Lexer.Yields, hu, lexed_deeper (visible_of_start hc), ← hu, hyields, hclose, Outcome.after_after,
        Outcome.after_after]
      rfl

theorem line_after_codeRows {part : Part} (hpart : ∀ c, part ≠ .closing c) (depth line : Nat)
    (p : Position) (l : Nat) :
    (Place.mk p.line l).past [part] =
      ⟨(p.after (rowsText (codeRows depth line part.code))).line, l + part.newlines⟩ := by
  have h := (counts_codeRows depth line hpart).2
  rw [Place.past, Position.line_after, h, lineBreaks_cons, lineBreaks_nil, Nat.add_zero]

theorem line_after_rows (items : List Item) (depth line : Nat) (p : Position) (l : Nat) :
    (Place.mk p.line l).past (parts items) =
      ⟨(p.after (rowsText (rows depth line items))).line, l + lineBreaks (parts items)⟩ := by
  rw [Place.past, Position.line_after, (counts items depth line).2]

theorem line_after_item (item : Item) (depth line : Nat) (p : Position) (l : Nat) :
    (Place.mk p.line l).past item.parts =
      ⟨(p.after (rowsText (item.rows depth line))).line, l + lineBreaks item.parts⟩ := by
  rw [Place.past, Position.line_after, (item.counts depth line).2]

theorem map_fst_translateClauses (label : Place → Nat) (clauses : List (Clause × List Item))
    (place : Place) :
    (translateClauses label place clauses).map Prod.fst = clauses.map Prod.fst := by
  induction clauses generalizing place with
  | nil => rfl
  | cons clause clauses ih => rw [translateClauses, List.map_cons, List.map_cons, ih]

mutual

theorem Item.reads (item : Item) (hitem : item.Valid) {k : Nat} (hk : item.nesting ≤ k)
    (depth line : Nat) (p : Position) {tail : Text} (hfollows : Follows depth tail) :
    ∃ tokens, Yields depth p (rowsText (item.rows depth line)) tail tokens ∧
      Reads k tokens (item.translate Place.row ⟨p.line, line⟩) := by
  match item with
  | .text t =>
      obtain ⟨s, h⟩ := yields_codeRows (show ∀ c, Part.text t ≠ .closing c by simp) depth
        line p tail
      have hreads : Reads k _ _ := reads_text t (p.after (Draft.indentation depth)) s
      rw [Position.line_after_indentation] at hreads
      exact ⟨_, h, hreads⟩
  | .print raw n =>
      obtain ⟨s, h⟩ := yields_codeRows (show ∀ c, Part.print raw n ≠ .closing c by simp) depth
        line p tail
      have hreads : Reads k _ _ := reads_print raw n (p.after (Draft.indentation depth)) s
      rw [Position.line_after_indentation] at hreads
      exact ⟨_, h, hreads⟩
  | .block header body clauses closer =>
      obtain ⟨-, hadmits, hbody, hclauses⟩ := hitem
      rw [Item.nesting] at hk
      obtain ⟨k, rfl⟩ : ∃ j, k = j + 1 := ⟨k - 1, by omega⟩
      have hheader : ∀ c, Part.opening header ≠ .closing c := by simp
      have hafter := follows_clauseRows clauses hfollows (line + lineBreaks (parts body))
      obtain ⟨s, hhead⟩ := yields_codeRows hheader depth line p
        (rowsText (rows (depth + 1) line body) ++
          rowsText (clauseRows depth (line + lineBreaks (parts body)) clauses) ++ tail)
      obtain ⟨ts, hts, hstmts⟩ := reads body hbody (k := k) (by omega) (depth + 1) line
        (p.after (rowsText (codeRows depth line header.code))) hafter.succ
      obtain ⟨inner, hinner, hblock⟩ := readsBlock_of_rows hafter hts hstmts (by rintro rfl; rfl)
      obtain ⟨us, hus, hreads⟩ := readsClauses clauses hclauses (k := k) (by omega) depth
        (line + lineBreaks (parts body))
        ((p.after (rowsText (codeRows depth line header.code))).after
          (rowsText (rows (depth + 1) line body))) hfollows
      have hstmt := Header.reads (by rw [map_fst_translateClauses]; exact hadmits) hblock hreads
        (p.after (Draft.indentation depth)) s
      have hall := hhead.append (hinner.append hus)
      rw [Position.line_after_indentation] at hstmt
      rw [List.append_assoc, List.singleton_append] at hall
      refine ⟨Lexeme.tokens (p.after (Draft.indentation depth)) header.lexemes ++
        ⟨.newline, s⟩ :: (inner ++ us), ?_, ?_⟩
      · rw [Item.rows, rowsText_append, rowsText_append]
        exact hall
      · rw [Item.translate]
        simp only [line_after_codeRows hheader depth line, line_after_rows body (depth + 1) line]
        exact hstmt

/-- The rows of items read back as their translations. -/
theorem reads (items : List Item) (hitems : Valid items) {k : Nat} (hk : nesting items ≤ k)
    (depth line : Nat) (p : Position) {tail : Text} (hfollows : Follows depth tail) :
    ∃ tokens, Yields depth p (rowsText (rows depth line items)) tail tokens ∧
      ReadsAll k tokens (translate Place.row ⟨p.line, line⟩ items) := by
  match items with
  | [] => exact ⟨[], yields_nil depth p tail, .nil⟩
  | item :: items =>
      rw [nesting] at hk
      obtain ⟨ts, hts, hreads⟩ := item.reads hitems.1 (k := k) (by omega) depth line p
        (follows_rows items hfollows (line + lineBreaks item.parts))
      obtain ⟨us, hus, hothers⟩ := reads items hitems.2.2 (k := k) (by omega) depth
        (line + lineBreaks item.parts) (p.after (rowsText (item.rows depth line))) hfollows
      refine ⟨ts ++ us, ?_, ?_⟩
      · rw [rows, rowsText_append]
        exact hts.append hus
      · rw [translate, line_after_item item depth line]
        exact .cons hreads hothers

/-- The rows of clauses read back as the clauses with their translated bodies. -/
theorem readsClauses (clauses : List (Clause × List Item)) (hclauses : ClausesValid clauses)
    {k : Nat} (hk : clausesNesting clauses ≤ k) (depth line : Nat) (p : Position) {tail : Text}
    (hfollows : Follows depth tail) :
    ∃ tokens, Yields depth p (rowsText (clauseRows depth line clauses)) tail tokens ∧
      ReadsClauses (k + 1) tokens (translateClauses Place.row ⟨p.line, line⟩ clauses) := by
  match clauses with
  | [] => exact ⟨[], yields_nil depth p tail, .nil⟩
  | (clause, body) :: clauses =>
      obtain ⟨-, hbody, hrest⟩ := hclauses
      rw [clausesNesting] at hk
      have hclause : ∀ c, Part.clause clause ≠ .closing c := by simp
      have hafter := follows_clauseRows clauses hfollows (line + lineBreaks (parts body))
      obtain ⟨s, hhead⟩ := yields_codeRows hclause depth line p
        (rowsText (rows (depth + 1) line body) ++
          rowsText (clauseRows depth (line + lineBreaks (parts body)) clauses) ++ tail)
      obtain ⟨ts, hts, hstmts⟩ := reads body hbody (k := k) (by omega) (depth + 1) line
        (p.after (rowsText (codeRows depth line clause.code))) hafter.succ
      obtain ⟨inner, hinner, hblock⟩ := readsBlock_of_rows hafter hts hstmts (by rintro rfl; rfl)
      obtain ⟨us, hus, hreads⟩ := readsClauses clauses hrest (k := k) (by omega) depth
        (line + lineBreaks (parts body))
        ((p.after (rowsText (codeRows depth line clause.code))).after
          (rowsText (rows (depth + 1) line body))) hfollows
      have hcons := ReadsClauses.cons clause (p.after (Draft.indentation depth)) s hblock hreads
      have hall := hhead.append (hinner.append hus)
      rw [Position.line_after_indentation] at hcons
      rw [List.append_assoc, List.singleton_append] at hall
      refine ⟨Lexeme.tokens (p.after (Draft.indentation depth)) clause.lexemes ++
        ⟨.newline, s⟩ :: (inner ++ us), ?_, ?_⟩
      · rw [clauseRows, rowsText_append, rowsText_append]
        exact hall
      · rw [translateClauses]
        simp only [line_after_codeRows hclause depth line, line_after_rows body (depth + 1) line]
        exact hcons

end

end Outline

end TemplateEngine
