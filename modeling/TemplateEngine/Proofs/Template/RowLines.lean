import TemplateEngine.Proofs.Syntax.TokenPlaces
import TemplateEngine.Proofs.Template.Compilation
import TemplateEngine.Proofs.Template.SegmentLines

/-!
# Template lines of rows

Every row of a generated program comes from a line of its template. The one exception is
the row that closes the print of a text that ends with the last line break: it belongs to
the line after the template.
-/
namespace TemplateEngine

namespace Fragment

theorem line_le_of_mem_number {line : Nat} {found : List (FragmentKind × Text)} :
    ∀ f ∈ number line found,
      f.line + Text.newlines f.text ≤ line + Text.newlines (found.flatMap Prod.snd) := by
  induction found generalizing line with
  | nil => intro f hf; cases hf
  | cons piece rest ih =>
      intro f hf
      rw [number] at hf
      rw [List.flatMap_cons, Text.newlines_append]
      obtain rfl | hf := List.mem_cons.mp hf
      · simp only
        omega
      · have hrest := ih f hf
        omega

/-- A fragment ends no later than the body that it is a part of. -/
theorem line_le_of_mem_ofBody {body : Text} {f : Fragment} (hf : f ∈ ofBody body) :
    f.line + Text.newlines f.text ≤ Text.newlines body := by
  have hnumber := line_le_of_mem_number f hf
  rwa [flatMap_joinCode, flatMap_pieces, List.drop_zero, Nat.zero_add] at hnumber

end Fragment

/-- A row of code that comes from one of the first lines of a template, up to `bound`. -/
def Row.Within (bound : Nat) (row : Row) : Prop :=
  '\n' ∉ row.code ∧ 1 ≤ row.line ∧ row.line ≤ bound

namespace Draft

/-- A draft whose rows come from the first lines of a template, up to `bound`. -/
def Within (bound : Nat) (d : Draft) : Prop := ∀ row ∈ d.rows, row.Within bound

section Within

variable {bound line : Nat} {d : Draft} {text : Text}

theorem within_empty (bound : Nat) : empty.Within bound := by
  intro row hrow
  cases hrow

theorem Within.withDepth (h : d.Within bound) (depth : Nat) :
    Draft.Within bound { d with depth := depth } := h

theorem Within.newRow (h : d.Within bound) (hline : 1 ≤ line) (hbound : line ≤ bound) :
    (d.newRow line).Within bound := by
  have hrow : (Row.mk (indentation d.depth) line).Within bound :=
    ⟨newline_not_mem_indentation d.depth, hline, hbound⟩
  intro row hmem
  unfold Draft.newRow at hmem
  simp only at hmem
  split at hmem
  · rw [List.mem_singleton.mp hmem]
    exact hrow
  · rename_i last others hrows
    unfold Draft.Within at h
    rw [hrows] at h
    split at hmem
    · obtain rfl | hmem := List.mem_cons.mp hmem
      · exact hrow
      · exact h row (List.mem_cons_of_mem _ hmem)
    · obtain rfl | hmem := List.mem_cons.mp hmem
      · exact hrow
      · exact h row hmem

theorem newRow_rows_ne_nil (d : Draft) (line : Nat) : (d.newRow line).rows ≠ [] := by
  unfold newRow
  split
  · exact List.cons_ne_nil _ _
  · split <;> exact List.cons_ne_nil _ _

theorem within_rowsFrom {pieces : List Text} (hpieces : ∀ piece ∈ pieces, '\n' ∉ piece)
    (hline : 1 ≤ line) (hbound : line + pieces.length ≤ bound + 1) :
    ∀ row ∈ rowsFrom line pieces, row.Within bound := by
  induction pieces generalizing line with
  | nil =>
      intro row hrow
      cases hrow
  | cons piece pieces ih =>
      intro row hrow
      rw [List.length_cons] at hbound
      obtain rfl | hrow := List.mem_cons.mp hrow
      · have hle : line ≤ bound := by omega
        exact ⟨hpieces piece List.mem_cons_self, hline, hle⟩
      · exact ih (fun other hother => hpieces other (List.mem_cons_of_mem _ hother))
          (Nat.le_add_left ..) (by omega) row hrow

/-- The rows of a draft that a text is put at the end of. -/
theorem exists_push (hrows : d.rows ≠ []) (text : Text) (line : Nat) :
    ∃ last others first pieces, d.rows = last :: others ∧
      Text.cutAt '\n' text = first :: pieces ∧
      (d.push text line).rows =
        (rowsFrom (line + 1) pieces).reverse ++ ⟨last.code ++ first, last.line⟩ :: others := by
  obtain ⟨last, others, hlast⟩ := List.exists_cons_of_ne_nil hrows
  obtain ⟨first, pieces, htext⟩ := List.exists_cons_of_ne_nil (Text.cutAt_ne_nil '\n' text)
  exact ⟨last, others, first, pieces, hlast, htext, by rw [push_eq hlast htext]⟩

theorem push_newRow (hrows : d.rows = []) (text : Text) (line : Nat) :
    d.push text line = (d.newRow line).push text line := by
  have hnew : (d.newRow line).rows.isEmpty = false :=
    Bool.eq_false_iff.mpr fun h => newRow_rows_ne_nil d line (List.isEmpty_iff.mp h)
  have hempty : d.rows.isEmpty = true := List.isEmpty_iff.mpr hrows
  rw [push, push]
  simp only [hempty, if_true, hnew, Bool.false_eq_true, if_false]

theorem Within.push (h : d.Within bound) (hline : 1 ≤ line)
    (hbound : line + Text.newlines text ≤ bound) : (d.push text line).Within bound := by
  have hpush {d : Draft} (hrows : d.rows ≠ []) (h : d.Within bound) :
      (d.push text line).Within bound := by
    obtain ⟨last, others, first, pieces, hlast, htext, hpushed⟩ := exists_push hrows text line
    have hpieces : ∀ piece ∈ first :: pieces, '\n' ∉ piece := by
      intro piece hpiece
      rw [← htext] at hpiece
      exact Text.not_mem_of_mem_cutAt hpiece
    have hcount := Text.length_cutAt text
    rw [htext, List.length_cons] at hcount
    intro row hrow
    unfold Draft.Within at h
    rw [hlast] at h
    rw [hpushed] at hrow
    obtain hmem | hmem := List.mem_append.mp hrow
    · exact within_rowsFrom (fun piece hpiece => hpieces piece (List.mem_cons_of_mem _ hpiece))
        (Nat.le_add_left ..) (by omega) row (List.mem_reverse.mp hmem)
    · obtain rfl | hmem := List.mem_cons.mp hmem
      · have hrow := h last List.mem_cons_self
        refine ⟨?_, hrow.2⟩
        rw [List.mem_append, not_or]
        exact ⟨hrow.1, hpieces first List.mem_cons_self⟩
      · exact h row (List.mem_cons_of_mem _ hmem)
  by_cases hrows : d.rows = []
  · rw [push_newRow hrows]
    exact hpush (newRow_rows_ne_nil d line) (h.newRow hline (by omega))
  · exact hpush hrows h

theorem sublist_trimEnd (t : Text) : (Text.trimEnd t).Sublist t := by
  have hdrop := List.dropWhile_sublist Text.isBlank (l := t.reverse)
  have hreverse := hdrop.reverse
  rwa [List.reverse_reverse] at hreverse

theorem sublist_dropLastIf (c : Char) (t : Text) : (Text.dropLastIf c t).Sublist t := by
  unfold Text.dropLastIf
  split
  · exact List.dropLast_sublist t
  · exact List.Sublist.refl t

theorem ite_within {p : Prop} [Decidable p] (h : d.Within bound) :
    Draft.Within bound (if p then d.indent else d) := by
  split
  · exact h.withDepth _
  · exact h

theorem Within.codeLine (h : d.Within bound) (goesOn : Bool) {piece : Text}
    (hpiece : '\n' ∉ piece) (hline : 1 ≤ line) (hbound : line ≤ bound) :
    (d.codeLine line goesOn piece).Within bound := by
  have hpush (code : Text) (hcode : code.Sublist piece) : (d.push code line).Within bound := by
    have hbreaks := Text.newlines_eq_zero fun hmem => hpiece (hcode.subset hmem)
    exact h.push hline (by omega)
  -- what is pushed is left of the piece after blanks are taken from its ends
  have hstart := (List.dropWhile_sublist Text.isBlank).trans (sublist_dropLastIf '\r' piece)
  have hpushed : (d.push (if goesOn then Text.trimStart (Text.dropLastIf '\r' piece)
      else Text.trim (Text.dropLastIf '\r' piece)) line).Within bound := by
    refine hpush _ ?_
    split
    · exact hstart
    · exact (sublist_trimEnd _).trans hstart
  rw [Draft.codeLine]
  exact ite_within hpushed

theorem Within.codeLines (h : d.Within bound) (goesOn : Bool) {pieces : List Text}
    (hpieces : ∀ piece ∈ pieces, '\n' ∉ piece) (hline : 1 ≤ line)
    (hbound : line + pieces.length ≤ bound + 1) :
    (Draft.codeLines goesOn line pieces d).Within bound := by
  fun_induction Draft.codeLines goesOn line pieces d with
  | case1 => exact h
  | case2 line piece d =>
      exact h.codeLine goesOn (hpieces piece List.mem_cons_self) hline (by simpa using hbound)
  | case3 line piece pieces d hmore ih =>
      rw [List.length_cons] at hbound
      have hpos := List.length_pos_iff.mpr hmore
      have hfirst := h.codeLine false (hpieces piece List.mem_cons_self) hline (by omega)
      exact ih (hfirst.newRow (Nat.le_add_left ..) (by omega))
        (fun other hother => hpieces other (List.mem_cons_of_mem _ hother))
        (Nat.le_add_left ..) (by omega)

theorem exists_of_bind_ok {α β : Type} {x : Except StructuralError α}
    {f : α → Except StructuralError β} {b : β} (h : x >>= f = .ok b) :
    ∃ a, x = .ok a ∧ f a = .ok b := by
  cases x with
  | error e => cases h
  | ok a => exact ⟨a, rfl, h⟩

theorem Within.dedent {cause : StructuralFault} {next : Draft} (h : d.Within bound)
    (hnext : d.dedent cause = .ok next) : next.Within bound := by
  unfold Draft.dedent at hnext
  split at hnext <;> cases hnext
  exact h

theorem Within.fragment {base : Nat} {follows : Option FragmentKind} {f : Fragment}
    {next : Draft} (h : d.Within bound) (hbase : 1 ≤ base)
    (hbound : base + f.line + Text.newlines f.text ≤ bound)
    (hnext : d.fragment base follows f = .ok next) : next.Within bound := by
  have hline : 1 ≤ base + f.line := Nat.le_add_right_of_le hbase
  have hle : base + f.line ≤ bound := by omega
  unfold Draft.fragment at hnext
  simp only at hnext
  split at hnext
  · cases hnext
    exact h.push hline hbound
  · cases hnext
    refine h.codeLines _ (fun piece hpiece => Text.not_mem_of_mem_cutAt hpiece) hline ?_
    rw [Text.length_cutAt]
    omega
  · cases hnext
    have hmark : (d.push [':'] (base + f.line)).Within bound :=
      h.push hline (by simpa [Text.newlines_cons] using hle)
    exact (hmark.withDepth _).newRow hline hle
  · obtain ⟨outer, houter, hnext⟩ := exists_of_bind_ok hnext
    cases hnext
    exact (h.dedent houter).newRow hline hle
  · cases hnext
    exact h.newRow hline hle
  · obtain ⟨outer, houter, hnext⟩ := exists_of_bind_ok hnext
    cases hnext
    exact (((h.dedent houter).newRow hline hle).push hline hbound).withDepth _

theorem Within.fragments {base : Nat} {fs : List Fragment} {next : Draft} (h : d.Within bound)
    (hbase : 1 ≤ base) (hbound : ∀ f ∈ fs, base + f.line + Text.newlines f.text ≤ bound)
    (hnext : Draft.fragments base fs d = .ok next) : next.Within bound := by
  induction fs generalizing d with
  | nil =>
      cases hnext
      exact h
  | cons f rest ih =>
      obtain ⟨mid, hmid, hnext⟩ := exists_of_bind_ok hnext
      exact ih (h.fragment hbase (hbound f List.mem_cons_self) hmid)
        (fun other hother => hbound other (List.mem_cons_of_mem _ hother)) hnext

theorem newlines_printCall (raw : Bool) (body : Text) :
    Text.newlines (printCall raw body) = Text.newlines body := by
  have hnames : Text.newlines appendName = 0 ∧ Text.newlines filterName = 0 := by decide
  unfold printCall
  split <;> simp [Text.newlines_cons, hnames]

theorem newlines_literalCall (t : Text) : Text.newlines (literalCall t) = Text.newlines t := by
  have hname : Text.newlines appendName = 0 := by decide
  simp [literalCall, Text.newlines_cons, hname, Outline.newlines_escapeLiteral]

theorem Within.segment {segment : Segment} {next : Draft} (h : d.Within bound)
    (hsegment : segment.Within bound) (hnext : d.segment segment = .ok next) :
    next.Within bound := by
  cases segment with
  | literal text line =>
      cases hnext
      have hle : line ≤ bound := Nat.le_trans (Nat.le_add_right ..) hsegment.2
      refine (h.newRow hsegment.1 hle).push hsegment.1 ?_
      rw [newlines_literalCall]
      exact hsegment.2
  | tag found =>
      have hle : found.line ≤ bound := Nat.le_trans (Nat.le_add_right ..) hsegment.2
      have hprint (raw : Bool) (hnext : d.print raw found = .ok next) : next.Within bound := by
        unfold print at hnext
        split at hnext <;> cases hnext
        refine (h.newRow hsegment.1 hle).push hsegment.1 ?_
        rw [newlines_printCall]
        exact hsegment.2
      have hstatement (hnext : d.statement found = .ok next) : next.Within bound := by
        unfold statement at hnext
        split at hnext
        · obtain ⟨outer, houter, hnext⟩ := exists_of_bind_ok hnext
          cases hnext
          exact (h.dedent houter).newRow hsegment.1 hle
        · refine (h.newRow hsegment.1 hle).fragments hsegment.1 ?_ hnext
          intro f hf
          have hbody := Fragment.line_le_of_mem_ofBody hf
          have hbound := hsegment.2
          omega
      unfold Draft.segment at hnext
      simp only at hnext
      split at hnext
      · exact hprint false hnext
      · exact hprint true hnext
      · exact hstatement hnext

end Within

section Closing

variable {bound line : Nat} {d : Draft}

open Lexer (closingRow)

/-- Rows that come from the first lines of a template, up to `bound`, but for the row that
closes the print of a text that ends in a line break. -/
def Traced (bound : Nat) (rows : List Row) : Prop :=
  ∃ settled closing, rows = settled ++ closing ∧ (∀ row ∈ settled, row.Within bound) ∧
    (closing = [] ∨ settled ≠ [] ∧ ∃ line, closing = [⟨closingRow, line⟩])

theorem Traced.newline_not_mem {rows : List Row} (h : Traced bound rows) :
    ∀ row ∈ rows, '\n' ∉ row.code := by
  obtain ⟨settled, closing, rfl, hsettled, hclosing⟩ := h
  intro row hrow
  obtain hrow | hrow := List.mem_append.mp hrow
  · exact (hsettled row hrow).1
  · obtain rfl | ⟨-, last, rfl⟩ := hclosing
    · cases hrow
    · rw [List.mem_singleton.mp hrow]
      show '\n' ∉ closingRow
      decide

theorem Within.traced (h : d.Within bound) : Traced bound d.rows.reverse :=
  ⟨d.rows.reverse, [], (List.append_nil _).symm,
    fun row hrow => h row (List.mem_reverse.mp hrow), .inl rfl⟩

/-- What comes after the last line break of a text has the last row. -/
theorem push_break (hrows : d.rows ≠ []) (s : Text) {t : Text} (ht : '\n' ∉ t) (line : Nat) :
    ∃ last, (d.push (s ++ '\n' :: t) line).rows = ⟨t, last⟩ :: (d.push s line).rows := by
  obtain ⟨last, others, first, pieces, hlast, hcut, hpushed⟩ := exists_push hrows s line
  have hboth : Text.cutAt '\n' (s ++ '\n' :: t) = first :: (pieces ++ [t]) := by
    rw [Text.cutAt_append_mark, hcut, Text.cutAt_eq_singleton ht]
    rfl
  refine ⟨line + 1 + pieces.length, ?_⟩
  rw [hpushed, push_eq hlast hboth, rowsFrom_concat, List.reverse_append]
  rfl

theorem escapeLiteral_concat (t : Text) :
    escapeLiteral (t ++ ['\n']) = escapeLiteral t ++ ['\n'] := by
  rw [escapeLiteral, List.flatMap_append]
  rfl

/-- The call that appends a text with a line break at its end. -/
theorem literalCall_concat (text : Text) :
    ∃ s, literalCall (text ++ ['\n']) = s ++ '\n' :: closingRow ∧
      Text.newlines s = Text.newlines text := by
  refine ⟨appendName ++ "(\"\"\"".toList ++ escapeLiteral text, ?_, ?_⟩
  · rw [literalCall, escapeLiteral_concat]
    simp [closingRow]
  · have hname : Text.newlines appendName = 0 := by decide
    simp [Text.newlines_cons, hname, Outline.newlines_escapeLiteral]

/-- The last text of a template leaves a row of its own if it ends in a line break. -/
theorem Within.traced_literal {text : Text} (h : d.Within bound) (hline : 1 ≤ line)
    (hbound : line + Text.newlines text ≤ bound) :
    Traced bound ((d.newRow line).push (literalCall (text ++ ['\n'])) line).rows.reverse := by
  obtain ⟨s, hcall, hbreaks⟩ := literalCall_concat text
  have hnew := newRow_rows_ne_nil d line
  obtain ⟨last, hpushed⟩ := push_break hnew s (t := closingRow) (by decide) line
  obtain ⟨row, others, first, pieces, -, -, hrows⟩ := exists_push hnew s line
  have hsettled := (h.newRow hline (by omega)).push hline (hbreaks ▸ hbound)
  rw [hcall, hpushed, List.reverse_cons]
  refine ⟨_, _, rfl, fun row hrow => hsettled row (List.mem_reverse.mp hrow), .inr ⟨?_, last, rfl⟩⟩
  simp [hrows]

end Closing

section Segments

variable {bound : Nat} {d next : Draft} {segments : List Segment}

theorem Within.foldlM (h : d.Within bound) (hsegments : ∀ segment ∈ segments, segment.Within bound)
    (hnext : segments.foldlM Draft.segment d = .ok next) : next.Within bound := by
  induction segments generalizing d with
  | nil =>
      cases hnext
      exact h
  | cons segment segments ih =>
      rw [List.foldlM_cons] at hnext
      obtain ⟨mid, hmid, hnext⟩ := exists_of_bind_ok hnext
      exact ih (h.segment (hsegments segment List.mem_cons_self) hmid)
        (fun other hother => hsegments other (List.mem_cons_of_mem _ hother)) hnext

theorem traced_foldlM (hsegments : Splitting.Within bound segments)
    (hnext : segments.foldlM Draft.segment Draft.empty = .ok next) :
    Traced bound next.rows.reverse := by
  obtain ⟨settled, last, rfl, hsettled, hlast⟩ := hsegments
  rw [List.foldlM_append] at hnext
  obtain ⟨mid, hmid, hnext⟩ := exists_of_bind_ok hnext
  have hwithin := (within_empty bound).foldlM hsettled hmid
  obtain rfl | ⟨text, line, rfl, hline, hbound⟩ := hlast
  · cases hnext
    exact hwithin.traced
  · cases hnext
    exact hwithin.traced_literal hline hbound

end Segments

end Draft

namespace Generated

variable {t : Text} {g : Generated}

/-- The draft that the program of a template is the finished form of. -/
theorem exists_draft (h : ofTemplate t = .ok g) :
    ∃ d, (Splitting.ofTemplate t).unclosed = none ∧
      (Splitting.ofTemplate t).segments.foldlM Draft.segment Draft.empty = .ok d ∧
      d.finish = .ok g ∧ Draft.Traced (Text.lines t).length d.rows.reverse := by
  unfold ofTemplate at h
  obtain ⟨d, hd, h⟩ := Draft.exists_of_bind_ok h
  have hsegments : Splitting.Within (Text.lines t).length (Splitting.ofTemplate t).segments :=
    Splitting.within_run _ _ _ _ _ (Nat.le_refl 1) (by omega)
  split at h
  · cases h
  · rename_i hclosed
    exact ⟨d, hclosed, hd, h, Draft.traced_foldlM hsegments hd⟩

/-- The rows of the program of a template. -/
theorem exists_traced (h : ofTemplate t = .ok g) :
    ∃ rows, Draft.Traced (Text.lines t).length rows ∧ g.lineMap = rows.map Row.line ∧
      g.source = Text.join ['\n'] (rows.map Row.code) ++ ['\n'] := by
  obtain ⟨d, -, -, hfinish, htraced⟩ := exists_draft h
  unfold Draft.finish at hfinish
  split at hfinish <;> cases hfinish
  exact ⟨d.rows.reverse, htraced, rfl, rfl⟩

theorem newlines_rowsText {rows : List Row} (h : ∀ row ∈ rows, '\n' ∉ row.code) :
    Text.newlines (Outline.rowsText rows) = rows.length := by
  induction rows with
  | nil => rfl
  | cons row rows ih =>
      have hrow := Text.newlines_eq_zero (h row List.mem_cons_self)
      have hrest := ih fun other hother => h other (List.mem_cons_of_mem _ hother)
      simp only [Outline.rowsText, List.flatMap_cons, Text.newlines_append, hrow] at hrest ⊢
      rw [hrest, List.length_cons, Nat.add_comm]
      rfl

variable {tokens : List Token} {line : Nat}

/-- In an empty row no statement begins. -/
theorem not_begins_blank (htokens : tokenize ['\n'] = .ok tokens) :
    ¬ Parser.Begins tokens line := by
  intro hbegins
  obtain ⟨before, c, after, hparts, hc, -⟩ := Parser.exists_round_of_begins htokens hbegins
  cases before with
  | nil => exact hc (List.head_eq_of_cons_eq hparts).symm
  | cons first before => simp at hparts

/-- Where a statement of the program of a template begins, there is a row of code that comes
from a line of the template. -/
theorem exists_templateLine (h : ofTemplate t = .ok g) (htokens : tokenize g.source = .ok tokens)
    (hbegins : Parser.Begins tokens line) :
    1 ≤ line ∧ line ≤ (Text.lines g.source).length ∧
      ∃ l, g.lineMap[line - 1]? = some l ∧ 1 ≤ l ∧ l ≤ (Text.lines t).length := by
  obtain ⟨rows, ⟨settled, closing, rfl, hsettled, hclosing⟩, hmap, hsource⟩ := exists_traced h
  have hline := hbegins.line_le htokens hsource
  have hlines : (Text.lines g.source).length = Text.newlines g.source := by
    rw [hsource, Text.length_lines_concat, Text.newlines_append]
    rfl
  have hcodes : ∀ row ∈ settled, '\n' ∉ row.code := fun row hrow => (hsettled row hrow).1
  -- a statement begins in a settled row
  have hbound : line ≤ settled.length := by
    obtain rfl | ⟨hne, last, rfl⟩ := hclosing
    · rw [List.append_nil] at hsource
      by_cases hnil : settled = []
      · rw [hsource, hnil] at htokens
        exact absurd hbegins (not_begins_blank htokens)
      · rw [Outline.rowsText_eq_join hnil] at hsource
        rw [hsource, newlines_rowsText hcodes] at hline
        exact hline.2
    · have hcons : settled ++ [⟨Lexer.closingRow, last⟩] ≠ [] := by simp
      have htext := Outline.rowsText_eq_join hcons
      rw [htext, Outline.rowsText_append, ← Outline.rowsText_eq_join hne] at hsource
      have hending : g.source = Text.join ['\n'] (settled.map Row.code) ++
          '\n' :: Lexer.closingRow ++ ['\n'] := by
        rw [hsource]
        simp [Outline.rowsText]
      have hlast := hbegins.line_lt htokens hending
      rw [hsource, Outline.rowsText_eq_join hne, Text.newlines_append,
        newlines_rowsText hcodes] at hlast
      exact Nat.le_of_lt_succ hlast
  have hindex : line - 1 < settled.length := by omega
  refine ⟨hline.1, hlines ▸ hline.2, settled[line - 1].line, ?_, ?_⟩
  · rw [hmap, List.getElem?_map, List.getElem?_append_left hindex, List.getElem?_eq_getElem hindex]
    rfl
  · exact (hsettled _ (List.getElem_mem hindex)).2

end Generated

end TemplateEngine
