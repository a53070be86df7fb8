import TemplateEngine.Proofs.Template.Layout

/-!
# The rows of an outline

The program of an outline, row by row: the code of every part at the depth of
its block, on the template line of the part. Generating a program for the
template of the outline gives these rows, perhaps with a blank one after them.
-/
namespace TemplateEngine.Outline

open Draft

theorem segments_append (line : Nat) (ps qs : List Part) :
    segments line (ps ++ qs) = segments line ps ++ segments (line + lineBreaks ps) qs := by
  induction ps generalizing line with
  | nil => rfl
  | cons part ps ih =>
      rw [List.cons_append, segments, ih, segments, lineBreaks_cons, List.append_assoc,
        Nat.add_assoc]

mutual

/-- The rows of an item that starts on a template line, inside `depth` blocks. -/
def Item.rows (depth line : Nat) : Item → List Row
  | .text t => codeRows depth line (Part.text t).code
  | .print raw n => codeRows depth line (Part.print raw n).code
  | .block header body clauses _ =>
    codeRows depth line header.code ++ (rows (depth + 1) line body ++
      clauseRows depth (line + lineBreaks (parts body)) clauses)

/-- The rows of a sequence of items. -/
def rows (depth line : Nat) : List Item → List Row
  | [] => []
  | item :: items => item.rows depth line ++ rows depth (line + lineBreaks item.parts) items

/-- The rows of the clauses of a block. -/
def clauseRows (depth line : Nat) : List (Clause × List Item) → List Row
  | [] => []
  | (clause, body) :: clauses =>
    codeRows depth line clause.code ++ (rows (depth + 1) line body ++
      clauseRows depth (line + lineBreaks (parts body)) clauses)

end

/-- What laying out segments does to a draft. -/
def Lays (segments : List Segment) (before : Nat) (rows : List Row) (after : Nat) : Prop :=
  ∀ (kept : List Row) (d : Draft), Laid before kept d →
    ∃ e, segments.foldlM Draft.segment d = .ok e ∧ Laid after (rows.reverse ++ kept) e

theorem Lays.nil (depth : Nat) : Lays [] depth [] depth := fun _ d h => ⟨d, rfl, h⟩

theorem Lays.append {ss ts : List Segment} {first second third : Nat} {rs qs : List Row}
    (hs : Lays ss first rs second) (ht : Lays ts second qs third) :
    Lays (ss ++ ts) first (rs ++ qs) third := by
  intro kept d hd
  obtain ⟨e, he, hlaid⟩ := hs kept d hd
  obtain ⟨f, hf, hlaid'⟩ := ht _ e hlaid
  refine ⟨f, ?_, ?_⟩
  · rw [List.foldlM_append, he]
    exact hf
  · rwa [List.reverse_append, List.append_assoc]

mutual

theorem Item.lays (item : Item) (hitem : item.Valid) (depth line : Nat) :
    Lays (segments line item.parts) depth (item.rows depth line) depth := by
  match item with
  | .text t =>
      intro kept d hd
      obtain ⟨e, he, hlaid⟩ := segment_text hd t line
      refine ⟨e, ?_, hlaid⟩
      simp only [Item.parts, segments, Part.segments, List.append_nil, List.foldlM_cons,
        List.foldlM_nil, he]
      rfl
  | .print raw n =>
      intro kept d hd
      obtain ⟨e, he, hlaid⟩ := segment_print hd raw n line
      exact ⟨e, by simpa only [Item.parts, segments, List.append_nil] using he, hlaid⟩
  | .block header body clauses closer =>
      obtain ⟨hnames, -, hbody, hclauses⟩ := hitem
      have hheader : Lays ((Part.opening header).segments line) depth
          (codeRows depth line header.code) (depth + 1) := fun kept d hd =>
        segment_header hd hnames line
      have hclosing : ∀ line, Lays ((Part.closing closer).segments line) (depth + 1) [] depth :=
        fun line kept d hd => segment_closing hd closer line
      have hall := hheader.append ((lays body hbody (depth + 1) line).append
        ((laysClauses clauses hclauses depth (line + lineBreaks (parts body))).append
          (hclosing (line + lineBreaks (parts body) + lineBreaks (clauseParts clauses)))))
      simp only [Item.parts, segments, segments_append, Item.rows, Part.newlines, Nat.add_zero,
        List.append_nil, List.append_assoc] at hall ⊢
      exact hall

/-- The segments of items lay out their rows. -/
theorem lays (items : List Item) (hitems : Valid items) (depth line : Nat) :
    Lays (segments line (parts items)) depth (rows depth line items) depth := by
  match items with
  | [] => exact Lays.nil depth
  | item :: items =>
      rw [parts, segments_append, rows]
      exact (item.lays hitems.1 depth line).append (lays items hitems.2.2 depth _)

theorem laysClauses (clauses : List (Clause × List Item)) (hclauses : ClausesValid clauses)
    (depth line : Nat) :
    Lays (segments line (clauseParts clauses)) (depth + 1) (clauseRows depth line clauses)
      (depth + 1) := by
  match clauses with
  | [] => exact Lays.nil (depth + 1)
  | (clause, body) :: clauses =>
      have hclause : Lays ((Part.clause clause).segments line) (depth + 1)
          (codeRows depth line clause.code) (depth + 1) := fun kept d hd =>
        segment_clause hd clause line
      have hall := hclause.append ((lays body hclauses.2.1 (depth + 1) line).append
        (laysClauses clauses hclauses.2.2 depth (line + lineBreaks (parts body))))
      simp only [clauseParts, segments, segments_append, clauseRows, Part.newlines,
        Nat.add_zero] at hall ⊢
      exact hall

end

/-- The text of rows, each ended by a line break. -/
def rowsText (rows : List Row) : Text := rows.flatMap fun row => row.code ++ ['\n']

theorem rowsText_append (rs qs : List Row) : rowsText (rs ++ qs) = rowsText rs ++ rowsText qs :=
  List.flatMap_append

theorem rowsText_eq_join {rs : List Row} (h : rs ≠ []) :
    Text.join ['\n'] (rs.map Row.code) ++ ['\n'] = rowsText rs := by
  rw [Text.join_newline_end (by simpa using h), rowsText, List.flatMap_map]

/-- A draft outside every block finishes to its rows, and perhaps a blank one. -/
theorem finish_laid {rs : List Row} {d : Draft} (h : Laid 0 rs.reverse d) :
    ∃ tail extra, (tail = [] ∨ tail = ['\n']) ∧
      d.finish = .ok ⟨rowsText rs ++ tail, rs.map Row.line ++ extra⟩ := by
  rw [finish, if_pos h.depth_eq]
  rcases h with hsettled | ⟨line, hfresh⟩
  · rw [source, hsettled.rows_eq, List.reverse_reverse]
    by_cases hrows : rs = []
    · exact ⟨['\n'], [], .inr rfl, by rw [hrows]; rfl⟩
    · exact ⟨[], [], .inl rfl, by rw [rowsText_eq_join hrows, List.append_nil, List.append_nil]⟩
  · rw [source, hfresh.rows_eq, List.reverse_cons, List.reverse_reverse,
      rowsText_eq_join (by simp), rowsText_append, List.map_append]
    exact ⟨['\n'], [line], .inr rfl, rfl⟩

/-- The program of a template with an outline: its rows, and perhaps a blank one. -/
theorem ofTemplate_written {items : List Item} (hitems : Valid items) :
    ∃ tail extra, (tail = [] ∨ tail = ['\n']) ∧ Generated.ofTemplate (written items) =
      .ok ⟨rowsText (rows 0 1 items) ++ tail, (rows 0 1 items).map Row.line ++ extra⟩ := by
  have hseparated : separated (parts items) := by
    have h := separated_parts items hitems (show separated [] from trivial) (by simp)
    rwa [List.append_nil] at h
  obtain ⟨e, hfold, hlaid⟩ := lays items hitems 0 1 [] Draft.empty Draft.laid_empty
  have hfinish : Generated.ofTemplate (written items) = e.finish := by
    simp only [Generated.ofTemplate, written, ofTemplate_parts hseparated, hfold, bind, Except.bind]
  rw [List.append_nil] at hlaid
  rw [hfinish]
  exact finish_laid hlaid

end TemplateEngine.Outline
