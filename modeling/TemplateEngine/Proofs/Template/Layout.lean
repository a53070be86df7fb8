import TemplateEngine.Proofs.Template.Fragments

/-!
# Laying out an outline

A draft holds the rows that are settled and perhaps a blank row that the next
code will use. Every part of an outline leaves such a draft: code settles the
rows it takes, indented by the blocks that are open, and a closing tag only
leaves a block.
-/
namespace TemplateEngine

namespace Draft

/-- Texts as rows on successive template lines. -/
def rowsFrom : Nat → List Text → List Row
  | _, [] => []
  | line, piece :: pieces => ⟨piece, line⟩ :: rowsFrom (line + 1) pieces

theorem moreRows_eq (line : Nat) (pieces : List Text) (rows : List Row) :
    moreRows line pieces rows = (rowsFrom line pieces).reverse ++ rows := by
  induction pieces generalizing line rows with
  | nil => rfl
  | cons piece pieces ih =>
      rw [moreRows, ih, rowsFrom, List.reverse_cons, List.append_assoc, List.singleton_append]

/-- The rows of code that starts on a template line. -/
def codeRows (depth line : Nat) (code : Text) : List Row :=
  rowsFrom line (Text.cutAt '\n' (indentation depth ++ code))

theorem allBlank_indentation (depth : Nat) : Text.allBlank (indentation depth) = true := by
  simp only [Text.allBlank, indentation, Text.times, List.all_replicate]
  split
  · rfl
  · decide

theorem newline_not_mem_indentation (depth : Nat) : '\n' ∉ indentation depth := by
  simp [indentation, Text.times, List.mem_replicate]

/-- A draft inside `depth` blocks whose rows, last one first, are `kept`. -/
structure Settled (depth : Nat) (kept : List Row) (d : Draft) : Prop where
  depth_eq : d.depth = depth
  rows_eq : d.rows = kept
  visible : ∀ row ∈ kept.head?, Text.allBlank row.code = false

/-- A draft that has one more row, with nothing but the indentation of what comes next. -/
structure Fresh (depth line : Nat) (kept : List Row) (d : Draft) : Prop where
  depth_eq : d.depth = depth
  rows_eq : d.rows = ⟨indentation depth, line⟩ :: kept
  visible : ∀ row ∈ kept.head?, Text.allBlank row.code = false

/-- A draft between two parts of an outline. -/
def Laid (depth : Nat) (kept : List Row) (d : Draft) : Prop :=
  Settled depth kept d ∨ ∃ line, Fresh depth line kept d

theorem laid_empty : Laid 0 [] empty := .inl ⟨rfl, rfl, by simp⟩

theorem newRow_depth (d : Draft) (line : Nat) : (d.newRow line).depth = d.depth := by
  unfold newRow
  split
  · rfl
  · split <;> rfl

/-- The row for what comes next holds the indentation of the open blocks. -/
theorem newRow_rows (d : Draft) (depth line : Nat) :
    (newRow line { d with depth := depth }).rows =
      ⟨indentation depth, line⟩ :: (d.newRow line).rows.tail := by
  unfold newRow
  dsimp only
  split
  · rfl
  · split <;> rfl

theorem push_depth (d : Draft) (text : Text) (line : Nat) : (d.push text line).depth = d.depth := by
  have hbefore : (if d.rows.isEmpty then d.newRow line else d).depth = d.depth := by
    split
    · exact newRow_depth d line
    · rfl
  unfold push
  dsimp only
  split
  · exact hbefore
  · exact hbefore

theorem push_eq {d : Draft} {last : Row} {others : List Row} (hrows : d.rows = last :: others)
    {text first : Text} {pieces : List Text} (htext : Text.cutAt '\n' text = first :: pieces)
    (line : Nat) :
    d.push text line = { d with
      rows := (rowsFrom (line + 1) pieces).reverse ++
        ⟨last.code ++ first, last.line⟩ :: others } := by
  have hne : d.rows.isEmpty = false := by rw [hrows]; rfl
  simp only [push, hne, Bool.false_eq_true, if_false]
  rw [htext]
  simp only [hrows, moreRows_eq]

/-- Text on one line and text after it may be put at the end together. -/
theorem push_append {d : Draft} (hrows : d.rows ≠ []) {s : Text} (hs : '\n' ∉ s) (t : Text)
    (line : Nat) : (d.push s line).push t line = d.push (s ++ t) line := by
  obtain ⟨last, others, hlast⟩ := List.exists_cons_of_ne_nil hrows
  obtain ⟨first, pieces, ht, hboth⟩ := Text.cutAt_append hs t
  have hstep := push_eq hlast (Text.cutAt_eq_singleton hs) line
  rw [push_eq hlast hboth, hstep, push_eq rfl ht]
  simp only [List.append_assoc]

theorem push_nil {d : Draft} (hrows : d.rows ≠ []) (line : Nat) : d.push [] line = d := by
  obtain ⟨last, others, hlast⟩ := List.exists_cons_of_ne_nil hrows
  rw [push_eq hlast rfl]
  simp only [rowsFrom, List.reverse_nil, List.nil_append, List.append_nil]
  rw [← hlast]

theorem rowsFrom_append (line : Nat) (ps qs : List Text) :
    rowsFrom line (ps ++ qs) = rowsFrom line ps ++ rowsFrom (line + ps.length) qs := by
  induction ps generalizing line with
  | nil => rfl
  | cons p ps ih =>
      rw [List.cons_append, rowsFrom, ih, rowsFrom, List.length_cons, List.cons_append,
        Nat.add_right_comm, Nat.add_assoc]

theorem rowsFrom_concat (line : Nat) (pieces : List Text) (piece : Text) :
    rowsFrom line (pieces ++ [piece]) =
      rowsFrom line pieces ++ [⟨piece, line + pieces.length⟩] :=
  rowsFrom_append line pieces [piece]

/-- A text on whose last line there is something visible. -/
def EndsVisible (t : Text) : Prop :=
  ∃ s c u, t = s ++ c :: u ∧ Text.isBlank c = false ∧ '\n' ∉ u

theorem EndsVisible.concat (s : Text) {c : Char} (hc : Text.isBlank c = false) :
    EndsVisible (s ++ [c]) :=
  ⟨s, c, [], rfl, hc, List.not_mem_nil⟩

section Laid

variable {depth line : Nat} {kept : List Row} {d : Draft}

theorem Fresh.rows_ne_nil (h : Fresh depth line kept d) : d.rows ≠ [] := by
  rw [h.rows_eq]
  exact List.cons_ne_nil _ _

/-- The row for what comes next takes the place of a blank one, also when the number of
open blocks has changed since. -/
theorem Laid.newRow_withDepth (h : Laid depth kept d) (other line : Nat) :
    Fresh other line kept (Draft.newRow line { d with depth := other }) := by
  refine ⟨newRow_depth _ line, ?_, ?_⟩
  · rcases h with h | ⟨_, h⟩
    · cases kept with
      | nil => simp [newRow, h.rows_eq]
      | cons last others =>
          have hlast := h.visible last rfl
          simp [newRow, h.rows_eq, hlast]
    · simp [newRow, h.rows_eq, allBlank_indentation]
  · rcases h with h | ⟨_, h⟩ <;> exact h.visible

theorem Laid.depth_eq (h : Laid depth kept d) : d.depth = depth := by
  rcases h with h | ⟨_, h⟩ <;> exact h.depth_eq

theorem Laid.newRow (h : Laid depth kept d) (line : Nat) :
    Fresh depth line kept (d.newRow line) := by
  have hfresh := h.newRow_withDepth depth line
  rwa [← h.depth_eq] at hfresh ⊢

/-- Leaving a block makes the row for what comes next one of the outer block. -/
theorem Laid.leave (h : Laid (depth + 1) kept d) (cause : StructuralFault) (line : Nat) :
    ∃ e, d.dedent cause = .ok e ∧ Fresh depth line kept (e.newRow line) :=
  ⟨{ d with depth := depth }, by simp [dedent, h.depth_eq], h.newRow_withDepth depth line⟩

/-- A text goes on in the row that the one before it ends in. -/
theorem push_rowsFrom {s : Text} (h : d.rows = (rowsFrom line (Text.cutAt '\n' s)).reverse ++ kept)
    (text : Text) : (d.push text (line + s.newlines)).rows =
      (rowsFrom line (Text.cutAt '\n' (s ++ text))).reverse ++ kept := by
  obtain ⟨before, last, hs, -⟩ := Text.exists_cutAt '\n' s
  obtain ⟨first, after, htext⟩ := List.exists_cons_of_ne_nil (Text.cutAt_ne_nil '\n' text)
  have hlength := Text.length_before_last hs
  rw [hs, rowsFrom_append, List.reverse_append, List.append_assoc, hlength] at h
  rw [push_eq h htext, Text.cutAt_append_pieces hs htext, rowsFrom_append, hlength]
  simp [rowsFrom]

/-- The last row that a text is put in has something visible. -/
theorem visible_rowsFrom {text : Text} (htext : EndsVisible text) (line : Nat) (s : Text) :
    ∀ row ∈ ((rowsFrom line (Text.cutAt '\n' (s ++ text))).reverse ++ kept).head?,
      Text.allBlank row.code = false := by
  obtain ⟨a, c, u, rfl, hc, hu⟩ := htext
  have hline : c ≠ '\n' := by
    rintro rfl
    exact absurd hc (by decide)
  obtain ⟨pieces, piece, hcut⟩ := Text.cutAt_concat hline (s ++ a)
  -- nothing behind the last visible character starts another row
  have hwhole : Text.cutAt '\n' (s ++ (a ++ c :: u)) = pieces ++ [piece ++ [c] ++ u] := by
    have hparts : s ++ (a ++ c :: u) = s ++ a ++ [c] ++ u := by simp
    rw [hparts, Text.cutAt_append_pieces hcut (Text.cutAt_eq_singleton hu)]
  intro row hrow
  rw [hwhole, rowsFrom_concat, List.reverse_append] at hrow
  cases Option.some.inj hrow
  simp [Text.allBlank, hc]

/-- Code that ends in something visible is settled in rows of its own. -/
theorem Fresh.push {text : Text} (h : Fresh depth line kept d) (htext : EndsVisible text) :
    Settled depth ((codeRows depth line text).reverse ++ kept) (d.push text line) := by
  have hrows : d.rows = (rowsFrom line (Text.cutAt '\n' (indentation depth))).reverse ++ kept := by
    rw [Text.cutAt_eq_singleton (newline_not_mem_indentation depth), h.rows_eq]
    rfl
  have hpush := push_rowsFrom hrows text
  rw [Text.newlines_eq_zero (newline_not_mem_indentation depth), Nat.add_zero] at hpush
  exact ⟨(push_depth ..).trans h.depth_eq, hpush, visible_rowsFrom htext line _⟩

theorem Settled.indent (h : Settled depth kept d) : Settled (depth + 1) kept d.indent :=
  ⟨congrArg (· + 1) h.depth_eq, h.rows_eq, h.visible⟩

/-- A blank as code leaves the row being built as it is. -/
theorem codeLines_blank (hrows : d.rows ≠ []) (line : Nat) :
    codeLines false line (Text.cutAt '\n' [' ']) d = d := by
  have hcut : Text.cutAt '\n' [' '] = [[' ']] := by decide
  have hcode : Text.trim (Text.dropLastIf '\r' [' ']) = [] := by decide
  rw [hcut, codeLines, codeLine, hcode]
  simp only [Bool.false_eq_true, if_false, push_nil hrows, Bool.not_false, Bool.true_and]
  rfl

end Laid

end Draft

namespace Outline

open Draft

theorem Header.code_last (header : Header) : ∃ s, header.code = s ++ [':'] := by
  cases header with
  | ifTrue n | whileTrue n | forEach v n => exact ⟨_, rfl⟩
  | attempt => exact ⟨"try".toList, rfl⟩
  | capture x => exact ⟨"with capture(\"".toList ++ x.text ++ "\")".toList, by simp [code_capture]⟩

theorem Clause.code_last (clause : Clause) : ∃ s, clause.code = s ++ [':'] := by
  cases clause with
  | elif n | except k n => exact ⟨_, rfl⟩
  | otherwise => exact ⟨"else".toList, rfl⟩
  | cleanup => exact ⟨"finally".toList, rfl⟩

theorem Part.code_text_last (t : Text) : ∃ s, (Part.text t).code = s ++ [')'] :=
  ⟨Draft.appendName ++ "(\"\"\"".toList ++ Draft.escapeLiteral t ++ "\"\"\"".toList,
    by simp [code, literalCall]⟩

theorem Part.code_print_last (raw : Bool) (n : Name) :
    ∃ s, (Part.print raw n).code = s ++ [')'] := by
  cases raw with
  | true => exact ⟨appendName ++ "(".toList ++ (n.text ++ [' ']), by simp [code, printCall]⟩
  | false =>
      exact ⟨appendName ++ "(".toList ++ filterName ++ "(".toList ++ (' ' :: n.text ++ [' ']) ++
        ")".toList, by simp [code, printCall]⟩

section Parts

variable {depth : Nat} {kept : List Row} {d : Draft}

theorem segment_text (h : Laid depth kept d) (t : Text) (line : Nat) :
    ∃ e, d.segment (.literal t line) = .ok e ∧
      Laid depth ((codeRows depth line (Part.text t).code).reverse ++ kept) e := by
  obtain ⟨s, hs⟩ := Part.code_text_last t
  refine ⟨_, rfl, .inl ?_⟩
  rw [← show (Part.text t).code = literalCall t from rfl, hs]
  exact (h.newRow line).push (.concat _ (by decide))

theorem allBlank_of_letter {c : Char} (hc : Letter.isIdentifierStart c = true) {s t : Text} :
    Text.allBlank (s ++ c :: t) = false := by
  have hblank := Letter.not_isBlank_of_continue (Letter.isIdentifierContinue_of_start hc)
  simp [Text.allBlank, hblank]

theorem segment_print (h : Laid depth kept d) (raw : Bool) (n : Name) (line : Nat) :
    ∃ e, ((Part.print raw n).segments line).foldlM Draft.segment d = .ok e ∧
      Laid depth ((codeRows depth line (Part.print raw n).code).reverse ++ kept) e := by
  obtain ⟨s, hs⟩ := Part.code_print_last raw n
  have hlaid : Laid depth ((codeRows depth line (Part.print raw n).code).reverse ++ kept)
      ((d.newRow line).push (Part.print raw n).code line) := by
    rw [hs]
    exact .inl ((h.newRow line).push (.concat _ (by decide)))
  refine ⟨_, ?_, hlaid⟩
  cases raw with
  | true =>
      have hblank : Text.allBlank (n.text ++ [' ']) = false :=
        allBlank_of_letter n.starts (s := []) (t := n.rest ++ [' '])
      have hstep : d.segment (.tag ⟨.rawPrint, n.text ++ [' '], line, false, false⟩) =
          .ok ((d.newRow line).push (Part.print true n).code line) := by
        simp only [Draft.segment, print, hblank, Bool.false_eq_true, if_false]
        rfl
      simp only [Part.segments, Part.tag?, List.foldlM_cons, List.foldlM_nil, hstep]
      rfl
  | false =>
      have hblank : Text.allBlank (' ' :: n.text ++ [' ']) = false :=
        allBlank_of_letter n.starts (s := [' ']) (t := n.rest ++ [' '])
      have hstep : d.segment (.tag ⟨.print, ' ' :: n.text ++ [' '], line, false, false⟩) =
          .ok ((d.newRow line).push (Part.print false n).code line) := by
        simp only [Draft.segment, print, hblank, Bool.false_eq_true, if_false]
        rfl
      simp only [Part.segments, Part.tag?, List.foldlM_cons, List.foldlM_nil, hstep]
      rfl

/-- Padding of a code that begins and ends in something visible is trimmed. -/
theorem trim_padded {c last : Char} {s : Text} (hc : Text.isBlank c = false)
    (hlast : Text.isBlank last = false) (hs : ∃ r, c :: s = r ++ [last]) :
    Text.trim (' ' :: (c :: s) ++ [' ']) = c :: s := by
  obtain ⟨r, hr⟩ := hs
  have hstart : Text.trimStart (' ' :: (c :: s) ++ [' ']) = c :: s ++ [' '] := by
    simp [Text.trimStart, Text.trimStartWhile, hc, show Text.isBlank ' ' = true from by decide]
  rw [Text.trim, hstart, hr]
  simp [Text.trimEnd, Text.trimEndWhile, hlast, show Text.isBlank ' ' = true from by decide]

theorem opensBlock_of_colon {c : Char} {s r : Text} (hc : c ≠ '#') (hs : c :: s = r ++ [':']) :
    opensBlock (c :: s) = true := by
  have hlast : (Text.trimEnd (c :: s)).getLast? = some ':' := by
    rw [hs]
    simp [Text.trimEnd, Text.trimEndWhile, show Text.isBlank ':' = false from by decide]
  simp [opensBlock, hlast, hc]

/-- A line of code that ends in a colon is settled and opens a block. -/
theorem codeLines_header (d : Draft) (line : Nat) {code : Text}
    (hcode : ∃ c s, code = c :: s ∧ Letter.isIdentifierStart c = true)
    (hlast : ∃ r, code = r ++ [':']) (hline : '\n' ∉ code) :
    codeLines false line (Text.cutAt '\n' (' ' :: code ++ [' '])) d =
      (d.push code line).indent := by
  obtain ⟨c, s, rfl, hc⟩ := hcode
  obtain ⟨r, hr⟩ := hlast
  have hcontinue := Letter.isIdentifierContinue_of_start hc
  have hcut : Text.cutAt '\n' (' ' :: (c :: s) ++ [' ']) = [' ' :: (c :: s) ++ [' ']] :=
    Text.cutAt_eq_singleton (by simpa using hline)
  have hdrop : Text.dropLastIf '\r' (' ' :: (c :: s) ++ [' ']) = ' ' :: (c :: s) ++ [' '] := by
    rw [Text.dropLastIf, List.getLast?_concat, if_neg (by decide)]
  have htrim := trim_padded (Letter.not_isBlank_of_continue hcontinue)
    (show Text.isBlank ':' = false from by decide) ⟨r, hr⟩
  have hopens := opensBlock_of_colon
    (Letter.ne_of_continue hcontinue (d := '#') (by decide)) hr
  rw [hcut, codeLines, codeLine, hdrop]
  simp only [htrim, hopens, Bool.false_eq_true, if_false, Bool.not_false, Bool.and_self, if_true]

theorem Header.code_first (header : Header) :
    ∃ c s, header.code = c :: s ∧ Letter.isIdentifierStart c = true := by
  cases header <;> exact ⟨_, _, rfl, Letter.isIdentifierStart_of_isLatin (by decide)⟩

theorem Header.newline_not_mem (header : Header) : '\n' ∉ header.code :=
  not_mem_of_allTagChars header.allTagChars isTagChar_newline

/-- The fragments of a header settle its code and open a block. -/
theorem fragments_header {line : Nat} (h : Fresh depth line kept d) {header : Header}
    (hnames : ∀ n ∈ header.names, n.text ≠ "end".toList) :
    fragments line (Fragment.ofBody (' ' :: header.code ++ [' '])) d =
      .ok (d.push header.code line).indent := by
  by_cases hcapture : ∀ x, header ≠ .capture x
  · rw [ofBody_header hcapture hnames]
    have hlines := codeLines_header d line header.code_first header.code_last header.newline_not_mem
    simp only [fragments, fragment, List.head?_nil, Option.map_none, Nat.add_zero]
    exact congrArg Except.ok hlines
  · obtain ⟨x, rfl⟩ : ∃ x, header = .capture x := by
      cases header with
      | capture x => exact ⟨x, rfl⟩
      | _ => exact absurd (fun x hx => by cases hx) hcapture
    rw [ofBody_capture]
    have hstart : codeLines true line (Text.cutAt '\n' " with capture(".toList) d =
        d.push "with capture(".toList line := by
      have hcut : Text.cutAt '\n' " with capture(".toList = [" with capture(".toList] := by decide
      have htrim : Text.trimStart (Text.dropLastIf '\r' " with capture(".toList) =
          "with capture(".toList := by decide
      rw [hcut, codeLines, codeLine]
      simp only [htrim, if_true, Bool.not_true, Bool.false_and, Bool.false_eq_true, if_false]
    have hend : ∀ e : Draft, codeLines false line (Text.cutAt '\n' "): ".toList) e =
        (e.push "):".toList line).indent := by
      intro e
      have hcut : Text.cutAt '\n' "): ".toList = ["): ".toList] := by decide
      have htrim : Text.trim (Text.dropLastIf '\r' "): ".toList) = "):".toList := by decide
      have hopens : opensBlock "):".toList = true := by decide
      rw [hcut, codeLines, codeLine]
      simp only [htrim, hopens, Bool.false_eq_true, if_false, Bool.not_false, Bool.and_self,
        if_true]
    have hpush : ((d.push "with capture(".toList line).push ('"' :: (x.text ++ ['"'])) line).push
        "):".toList line = d.push (Header.capture x).code line := by
      have hquoted : '\n' ∉ '"' :: (x.text ++ ['"']) := by
        have hnot : '\n' ∉ x.text := fun hx => x.ne hx (by decide) rfl
        simp [hnot]
      rw [push_append h.rows_ne_nil (by decide), push_append h.rows_ne_nil, Header.code_capture]
      · simp
      · simpa using hquoted
    simp only [fragments, fragment, Nat.add_zero, List.head?_cons, List.head?_nil,
      Option.map_some, Option.map_none]
    have hgoesOn : (some FragmentKind.quoted == some FragmentKind.quoted) = true := rfl
    have hstops : ((none : Option FragmentKind) == some FragmentKind.quoted) = false := rfl
    rw [hgoesOn, hstops, hstart]
    show Except.ok _ = _
    rw [hend, hpush]

theorem segment_header (h : Laid depth kept d) {header : Header}
    (hnames : ∀ n ∈ header.names, n.text ≠ "end".toList) (line : Nat) :
    ∃ e, ((Part.opening header).segments line).foldlM Draft.segment d = .ok e ∧
      Laid (depth + 1) ((codeRows depth line header.code).reverse ++ kept) e := by
  have hfresh := h.newRow line
  obtain ⟨r, hr⟩ := header.code_last
  have hlaid : Laid (depth + 1) ((codeRows depth line header.code).reverse ++ kept)
      ((d.newRow line).push header.code line).indent := by
    rw [hr]
    exact .inl (hfresh.push (.concat _ (by decide))).indent
  refine ⟨_, ?_, hlaid⟩
  obtain ⟨c, s, hcode, hc⟩ := header.code_first
  have hblank : Text.allBlank (' ' :: header.code ++ [' ']) = false := by
    rw [hcode]
    exact allBlank_of_letter hc (s := [' ']) (t := s ++ [' '])
  have hstep : d.segment (.tag ⟨.statement, ' ' :: header.code ++ [' '], line, false, false⟩) =
      .ok ((d.newRow line).push header.code line).indent := by
    simp only [Draft.segment, statement, hblank, Bool.false_eq_true, if_false]
    exact fragments_header hfresh hnames
  simp only [Part.segments, Part.tag?, List.foldlM_cons, List.foldlM_nil, hstep]
  rfl

theorem Clause.code_first (clause : Clause) :
    ∃ c s, clause.code = c :: s ∧ Letter.isIdentifierStart c = true := by
  cases clause <;> exact ⟨_, _, rfl, Letter.isIdentifierStart_of_isLatin (by decide)⟩

/-- A clause closes a block, and its code opens the next. -/
theorem segment_clause (h : Laid (depth + 1) kept d) (clause : Clause) (line : Nat) :
    ∃ e, ((Part.clause clause).segments line).foldlM Draft.segment d = .ok e ∧
      Laid (depth + 1) ((codeRows depth line clause.code).reverse ++ kept) e := by
  have hfresh := h.newRow line
  obtain ⟨r, hr⟩ := clause.code_last
  obtain ⟨c, s, hcode, hc⟩ := clause.code_first
  have hblank : Text.allBlank (' ' :: clause.code ++ [' ']) = false := by
    rw [hcode]
    exact allBlank_of_letter hc (s := [' ']) (t := s ++ [' '])
  obtain ⟨e, hleave, hinner⟩ := Laid.leave (.inr ⟨line, hfresh⟩)
    (.strayContinuation (clause.code.takeWhile Char.isAlpha) line) line
  have hsettled : Settled (depth + 1) ((codeRows depth line clause.code).reverse ++ kept)
      ((e.newRow line).push clause.code line).indent := by
    rw [hr]
    exact (hinner.push (.concat _ (by decide))).indent
  have hrows : ((e.newRow line).push clause.code line).indent.rows ≠ [] := by
    rw [hsettled.rows_eq, codeRows]
    obtain ⟨first, pieces, hcut⟩ := List.exists_cons_of_ne_nil
      (Text.cutAt_ne_nil '\n' (indentation depth ++ clause.code))
    simp [hcut, rowsFrom]
  have hbefore := codeLines_blank hfresh.rows_ne_nil line
  have hafter := codeLines_blank hrows line
  have hstep : d.segment (.tag ⟨.statement, ' ' :: clause.code ++ [' '], line, false, false⟩) =
      .ok ((e.newRow line).push clause.code line).indent := by
    simp only [Draft.segment, statement, hblank, Bool.false_eq_true, if_false, ofBody_clause,
      fragments, fragment, Nat.add_zero, List.head?_cons, List.head?_nil, Option.map_some,
      Option.map_none]
    have hcontinues : (some FragmentKind.continuation == some FragmentKind.quoted) = false := rfl
    have hstops : ((none : Option FragmentKind) == some FragmentKind.quoted) = false := rfl
    rw [hcontinues, hstops, hbefore]
    simp only [hleave, pure, Except.pure, bind, Except.bind, hafter]
  refine ⟨_, ?_, .inl hsettled⟩
  simp only [Part.segments, Part.tag?, List.foldlM_cons, List.foldlM_nil, hstep]
  rfl

/-- A closing tag leaves a block and lays nothing out. -/
theorem segment_closing (h : Laid (depth + 1) kept d) (closer : Closer) (line : Nat) :
    ∃ e, ((Part.closing closer).segments line).foldlM Draft.segment d = .ok e ∧
      Laid depth kept e := by
  have hempty : ∃ e, d.segment (.tag ⟨.statement, Closer.empty.body, line, false, false⟩) = .ok e ∧
      Laid depth kept e := by
    obtain ⟨e, hleave, hfresh⟩ := h.leave (.unexpectedEnd line) line
    refine ⟨_, ?_, .inr ⟨line, hfresh⟩⟩
    show (dedent _ _ >>= _) = _
    simp only [hleave, pure, Except.pure, bind, Except.bind]
  have hmarked : ∀ body marker : Text, Text.allBlank body = false →
      Fragment.ofBody body = [⟨.code, [' '], 0⟩, ⟨.blockClose, marker, 0⟩, ⟨.code, [' '], 0⟩] →
      ∃ e, d.segment (.tag ⟨.statement, body, line, false, false⟩) = .ok e ∧
        Laid depth kept e := by
    intro body marker hblank hbody
    have hfresh := h.newRow line
    obtain ⟨e, hleave, hinner⟩ := Laid.leave (.inr ⟨line, hfresh⟩) (.unexpectedEnd line) line
    have hbefore := codeLines_blank hfresh.rows_ne_nil line
    have hafter := codeLines_blank hinner.rows_ne_nil line
    have hcloses : (some FragmentKind.blockClose == some FragmentKind.quoted) = false := rfl
    have hstops : ((none : Option FragmentKind) == some FragmentKind.quoted) = false := rfl
    refine ⟨_, ?_, .inr ⟨line, hinner⟩⟩
    simp only [Draft.segment, statement, hblank, Bool.false_eq_true, if_false, hbody, fragments,
      fragment, Nat.add_zero, List.head?_cons, List.head?_nil, Option.map_some, Option.map_none]
    rw [hcloses, hstops, hbefore]
    simp only [hleave, pure, Except.pure, bind, Except.bind, hafter]
  obtain ⟨e, he, hlaid⟩ : ∃ e, d.segment (.tag ⟨.statement, closer.body, line, false, false⟩) =
      .ok e ∧ Laid depth kept e := by
    cases closer with
    | empty => exact hempty
    | word => exact hmarked _ _ (by decide) ofBody_word
    | brace => exact hmarked _ _ (by decide) ofBody_brace
  refine ⟨e, ?_, hlaid⟩
  simp only [Part.segments, Part.tag?, List.foldlM_cons, List.foldlM_nil, he]
  rfl

end Parts

end Outline

end TemplateEngine
