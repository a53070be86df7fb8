import TemplateEngine.Proofs.Template.Compilation

/-!
# The program of an outline

A template with an outline compiles to the translation of the outline, and every
row that the translation is labelled by goes back to the template line of its
part.
-/
namespace TemplateEngine

namespace Outline

open Draft Lexer TemplateEngine.Parser

/-- The rows of valid items, with what may follow them, parse to their translation. -/
theorem parseProgram_rows {items : List Item} (hitems : Valid items)
    (hdepth : nesting items ≤ maxBlockDepth) {tail : Text} (htail : tail = [] ∨ tail = ['\n']) :
    parseProgram (rowsText (rows 0 1 items) ++ tail) = .ok (translate Place.row .start items) := by
  have hfollows : Follows 0 tail := htail.imp id .inl
  obtain ⟨tokens, hyields, hreads⟩ := reads items hitems hdepth 0 1 Position.start hfollows
  have hlexed : Lexer.outcome (rowsText (rows 0 1 items) ++ tail) = _ :=
    (outcome_eq_lexed _).trans hyields
  rw [lexed_end htail] at hlexed
  have htokens : tokenize (rowsText (rows 0 1 items) ++ tail) =
      .ok (tokens ++ [emptyToken ((Position.start.after (rowsText (rows 0 1 items))).after tail)
        .endOfInput]) := by
    rw [tokenize, hlexed]
    rfl
  exact (hreads.within false).parseProgram htokens

/-- The lines kept for a program give the template lines of rows from some row on. -/
def Traces (lineMap : List Nat) (row : Nat) (rs : List Row) : Prop :=
  ∃ before after, before.length + 1 = row ∧ lineMap = before ++ (rs.map Row.line ++ after)

theorem Traces.of_append {lineMap : List Nat} {row : Nat} {rs qs : List Row} {ps : List Part}
    (h : Traces lineMap row (rs ++ qs)) (hrs : Counts rs ps) :
    Traces lineMap row rs ∧ Traces lineMap (row + rowCounts ps) qs := by
  obtain ⟨before, after, hlength, rfl⟩ := h
  rw [List.map_append, List.append_assoc]
  refine ⟨⟨before, _, hlength, rfl⟩, ⟨before ++ rs.map Row.line, after, ?_, ?_⟩⟩
  · rw [List.length_append, List.length_map, hrs.1]
    omega
  · rw [List.append_assoc]

/-- The template line that a program gives for the row of a place. -/
def traced (p : Program) (place : Place) : Nat := (p.templateLine? place.row).getD 0

theorem traced_eq {p : Program} {place : Place} {depth : Nat} {code : Text}
    (h : Traces p.lineMap place.row (codeRows depth place.line code)) :
    traced p place = place.line := by
  obtain ⟨before, after, hlength, hlines⟩ := h
  obtain ⟨piece, pieces, hpieces⟩ :=
    List.exists_cons_of_ne_nil (Text.cutAt_ne_nil '\n' (Draft.indentation depth ++ code))
  rw [codeRows, hpieces, rowsFrom, List.map_cons, List.cons_append] at hlines
  have hindex : place.row - 1 = before.length := by omega
  rw [traced, Program.templateLine?, if_neg (by omega), hlines, hindex,
    List.getElem?_append_right (Nat.le_refl _), Nat.sub_self]
  rfl

mutual

theorem Item.translate_traced (p : Program) (item : Item) (depth : Nat) (place : Place)
    (h : Traces p.lineMap place.row (item.rows depth place.line)) :
    item.translate (traced p) place = item.translate Place.line place := by
  match item with
  | .text t =>
      have hline : traced p place = place.line := traced_eq h
      rw [Item.translate, Item.translate, hline]
  | .print raw n =>
      have hline : traced p place = place.line := traced_eq h
      rw [Item.translate, Item.translate, hline]
  | .block header body clauses _ =>
      obtain ⟨hheader, hrest⟩ := h.of_append
        (counts_codeRows depth place.line (show ∀ c, Part.opening header ≠ .closing c by simp))
      obtain ⟨hbody, hclauses⟩ := hrest.of_append (counts body (depth + 1) place.line)
      have hline : traced p place = place.line := traced_eq hheader
      rw [Item.translate, Item.translate, hline,
        translate_traced p body (depth + 1) (place.past [.opening header]) hbody,
        translateClauses_traced p clauses depth
          ((place.past [.opening header]).past (parts body)) hclauses]

/-- Whatever rows a translation is labelled by go back to the lines of its parts. -/
theorem translate_traced (p : Program) (items : List Item) (depth : Nat) (place : Place)
    (h : Traces p.lineMap place.row (rows depth place.line items)) :
    translate (traced p) place items = translate Place.line place items := by
  match items with
  | [] => rfl
  | item :: items =>
      obtain ⟨hitem, hitems⟩ := h.of_append (item.counts depth place.line)
      rw [translate, translate, item.translate_traced p depth place hitem,
        translate_traced p items depth (place.past item.parts) hitems]

theorem translateClauses_traced (p : Program) (clauses : List (Clause × List Item)) (depth : Nat)
    (place : Place) (h : Traces p.lineMap place.row (clauseRows depth place.line clauses)) :
    translateClauses (traced p) place clauses = translateClauses Place.line place clauses := by
  match clauses with
  | [] => rfl
  | (clause, body) :: clauses =>
      obtain ⟨hclause, hrest⟩ := h.of_append
        (counts_codeRows depth place.line (show ∀ c, Part.clause clause ≠ .closing c by simp))
      obtain ⟨hbody, hclauses⟩ := hrest.of_append (counts body (depth + 1) place.line)
      have hline : traced p place = place.line := traced_eq hclause
      rw [translateClauses, translateClauses, hline,
        translate_traced p body (depth + 1) (place.past [.clause clause]) hbody,
        translateClauses_traced p clauses depth
          ((place.past [.clause clause]).past (parts body)) hclauses]

end

/-- A template with an outline compiles, to a program of its rows. -/
theorem program_written (name : Text) {items : List Item} (hitems : Valid items)
    (hdepth : nesting items ≤ maxBlockDepth) :
    ∃ p, Program.ofTemplate name (written items) = .ok p ∧ p.name = name ∧
      p.body = translate Place.row .start items ∧
      Traces p.lineMap Place.start.row (rows 0 Place.start.line items) := by
  obtain ⟨tail, extra, htail, hgenerated⟩ := ofTemplate_written hitems
  refine ⟨⟨name, rowsText (rows 0 1 items) ++ tail, translate Place.row .start items,
    (rows 0 1 items).map Row.line ++ extra⟩, ?_, rfl, rfl, [], extra, rfl, rfl⟩
  rw [Program.ofTemplate, hgenerated]
  simp only [parseProgram_rows hitems hdepth htail]

/-- Compiling keeps the structure of a template: the body of the program is the translation
of the outline, and each of its statements goes back to the line of its part. -/
theorem ofTemplate_written_eq_translate (name : Text) (items : List Item) (hitems : Valid items)
    (hdepth : nesting items ≤ 100) :
    ∃ p, Program.ofTemplate name (written items) = .ok p ∧
      p.body = translate Place.row .start items ∧
      translate (fun place => (p.templateLine? place.row).getD 0) .start items =
        translate Place.line .start items := by
  obtain ⟨p, hp, -, hbody, htraces⟩ := program_written name hitems hdepth
  exact ⟨p, hp, hbody, translate_traced p items 0 .start htraces⟩

/-- The name `x`. -/
def Name.x : Name where
  first := 'x'
  rest := []
  starts := Letter.isIdentifierStart_of_isLatin (by decide)
  goesOn := by simp
  notReserved := by decide

theorem ofTemplate_written_conditional :
    ∃ p, Program.ofTemplate "page" "<%% <% if x: %>%%>\n<% else: %><%= x %><% end %>" = .ok p ∧
      p.body = [.at 1 (appendCall (.constant (.str "<% "))),
        .at 2 (.branch [(.name "x", [.at 3 (appendCall (.constant (.str "%>\n")))])]
          (some [.at 6 (appendCall (filterCall (.name "x")))]))] := by
  obtain ⟨p, hp, hbody, -⟩ := ofTemplate_written_eq_translate "page"
    [.text "<% ", .block (.ifTrue .x) [.text "%>\n"] [(.otherwise, [.print false .x])] .word]
    (by simp [Valid, Item.Valid, ClausesValid, Header.names, Clause.names, Header.admits,
      Header.admits.go, Name.x, Name.text, Item.isText])
    (by decide)
  exact ⟨p, hp, hbody⟩

end Outline

end TemplateEngine
