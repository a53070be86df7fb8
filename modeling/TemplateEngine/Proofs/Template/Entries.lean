import TemplateEngine.Proofs.Template.Marks

/-!
# The entries of a program

The texts between two starts of a row make up an entry: they are put behind the indentation of
the blocks that are open there, and their line breaks start the rows below. A draft that
follows marks consists of the rows of their entries, and at most one row more that is still
blank.
-/
namespace TemplateEngine

namespace Draft

/-- What is put in one row: a first text behind the indentation of some blocks, and other
texts behind that. -/
structure Entry where
  depth : Nat
  first : Passage
  others : List Passage
  deriving DecidableEq, Repr

namespace Entry

def passages (entry : Entry) : List Passage := entry.first :: entry.others

def text (entry : Entry) : Text := entry.passages.flatMap Passage.text

/-- The rows of an entry: one, and one more for each line break in its texts. -/
def rows (entry : Entry) : List Row := codeRows entry.depth entry.first.line entry.text

end Entry

/-- The texts up to the next start of a row. -/
def sameRow : List Mark → List Passage
  | .passage p :: rest => p :: sameRow rest
  | _ => []

/-- The entries of marks that are followed with a number of blocks open; `inside` says that
there is text in the row already. -/
def entries : Nat → (inside : Bool) → List Mark → List Entry
  | _, _, [] => []
  | depth, _, .row _ :: rest => entries depth false rest
  | depth, _, .leave _ :: rest => entries (depth - 1) false rest
  | depth, inside, .passage p :: rest =>
    let later := entries (depth + p.opens.toNat) true rest
    if inside then later else ⟨depth, p, sameRow rest⟩ :: later

section Rows

variable {d e : Draft} {depth line upto : Nat} {kept : List Row}

theorem map_line_rowsFrom (line : Nat) (pieces : List Text) :
    (rowsFrom line pieces).map Row.line = List.range' line pieces.length := by
  induction pieces generalizing line with
  | nil => rfl
  | cons piece pieces ih => rw [rowsFrom, List.map_cons, ih, List.length_cons, List.range'_succ]

theorem map_code_rowsFrom (line : Nat) (pieces : List Text) :
    (rowsFrom line pieces).map Row.code = pieces := by
  induction pieces generalizing line with
  | nil => rfl
  | cons piece pieces ih => rw [rowsFrom, List.map_cons, ih]

theorem length_rowsFrom (line : Nat) (pieces : List Text) :
    (rowsFrom line pieces).length = pieces.length := by
  rw [← List.length_map Row.code, map_code_rowsFrom]

theorem Settled.push {start : Nat} {soFar text : Text}
    (h : Settled depth ((codeRows start line soFar).reverse ++ kept) d) (htext : EndsVisible text) :
    Settled depth ((codeRows start line (soFar ++ text)).reverse ++ kept)
      (d.push text (line + soFar.newlines)) := by
  have hpush := push_rowsFrom h.rows_eq text
  rw [Text.newlines_append, Text.newlines_eq_zero (newline_not_mem_indentation start),
    Nat.zero_add, List.append_assoc] at hpush
  refine ⟨(push_depth ..).trans h.depth_eq, hpush, ?_⟩
  rw [codeRows, ← List.append_assoc]
  exact visible_rowsFrom htext line _

theorem Settled.indentIf (h : Settled depth kept d) (opens : Bool) :
    Settled (depth + opens.toNat) kept (if opens then d.indent else d) := by
  cases opens with
  | true => exact h.indent
  | false => exact h

/-- A draft of some rows, and perhaps one more that is still blank. -/
def Holds (d : Draft) (rows : List Row) : Prop :=
  ∃ spare : List Row, spare.length ≤ 1 ∧ (∀ row ∈ spare, Text.allBlank row.code = true) ∧
    d.rows.reverse = rows ++ spare

theorem holds_of_eq {rows : List Row} (h : d.rows.reverse = rows) : d.Holds rows :=
  ⟨[], Nat.zero_le 1, nofun, h.trans (List.append_nil rows).symm⟩

/-- What a draft holds that comes of marks behind any rows. -/
def OfRows (ms : List Mark) (e : Draft) : Prop :=
  ∀ d depth kept, Laid depth kept d → ms.foldlM follow d = some e →
    e.Holds (kept.reverse ++ (entries depth false ms).flatMap Entry.rows)

/-- What a draft holds that comes of marks behind a row that is still blank. -/
def OfBlank (line : Nat) (ms : List Mark) (e : Draft) : Prop :=
  ∀ d depth kept, Fresh depth line kept d → ms.foldlM follow d = some e →
    e.Holds (kept.reverse ++ (entries depth false ms).flatMap Entry.rows)

/-- What a draft holds that comes of marks behind the texts of an entry so far. -/
def OfText (line : Nat) (ms : List Mark) (e : Draft) : Prop :=
  ∀ d depth kept start first soFar, line = first + Text.newlines soFar →
    Settled depth ((codeRows start first soFar).reverse ++ kept) d →
    ms.foldlM follow d = some e →
    e.Holds (kept.reverse ++ (codeRows start first (soFar ++ (sameRow ms).flatMap Passage.text) ++
      (entries depth true ms).flatMap Entry.rows))

/-- Where a row starts, nothing depends on the row before. -/
theorem ofBlank_and_ofText {m : Mark} {ms : List Mark} (h : OfRows (m :: ms) e)
    (hrow : sameRow (m :: ms) = [])
    (hentries : ∀ depth, entries depth true (m :: ms) = entries depth false (m :: ms)) :
    OfBlank line (m :: ms) e ∧ OfText line (m :: ms) e := by
  constructor
  · intro d depth kept hd hfollow
    exact h d depth kept (.inr ⟨line, hd⟩) hfollow
  · intro d depth kept start first soFar _ hd hfollow
    have hrows := h d depth _ (.inl hd) hfollow
    rw [List.reverse_append, List.reverse_reverse, List.append_assoc] at hrows
    rw [hrow, List.flatMap_nil, List.append_nil, hentries]
    exact hrows

/-- The draft after marks, by the entries of those. -/
theorem holds_of_follow {ms : List Mark} (hmarked : Marked line ms upto) :
    OfBlank line ms e ∧ OfText line ms e := by
  -- both at once: a start of a row leads from either to a blank row, a text to rows with text
  induction hmarked with
  | @nil line =>
      constructor
      · intro d depth kept hd hfollow
        cases hfollow
        refine ⟨[⟨indentation depth, line⟩], Nat.le_refl 1, ?_, by simp [hd.rows_eq, entries]⟩
        exact List.forall_mem_singleton.mpr (allBlank_indentation depth)
      · intro d depth kept start first soFar _ hd hfollow
        cases hfollow
        exact holds_of_eq (by simp [hd.rows_eq, sameRow, entries])
  | @row line next upto ms _ _ ih =>
      refine ofBlank_and_ofText ?_ rfl fun _ => rfl
      intro d depth kept hd hfollow
      exact ih.1 _ depth kept (hd.newRow next) hfollow
  | @leave line next upto ms _ _ ih =>
      refine ofBlank_and_ofText ?_ rfl fun _ => rfl
      intro d depth kept hd hfollow
      obtain ⟨mid, hmid, hrest⟩ := Option.bind_eq_some_iff.mp hfollow
      rw [follow, hd.depth_eq] at hmid
      split at hmid <;> cases hmid
      exact ih.1 _ (depth - 1) kept (hd.newRow_withDepth (depth - 1) next) hrest
  | @passage p upto ms hp _ ih =>
      constructor
      · intro d depth kept hd hfollow
        have hpushed := (hd.push hp.ends).indentIf p.opens
        have hrows := ih.2 _ _ kept depth p.line p.text rfl hpushed hfollow
        simpa [entries, Entry.rows, Entry.text, Entry.passages] using hrows
      · intro d depth kept start first soFar hline hd hfollow
        have hpushed := (hd.push hp.ends).indentIf p.opens
        rw [← hline] at hpushed
        have hrows := ih.2 _ _ kept start first (soFar ++ p.text)
          (by rw [hline, Text.newlines_append, Nat.add_assoc]) hpushed hfollow
        simpa [entries, sameRow] using hrows

/-- The draft of the marks of a template holds the rows of their entries. -/
theorem holds_of_follow_empty {ms : List Mark} (hmarked : Marked line ms upto)
    (hrow : sameRow ms = []) (hfollow : ms.foldlM follow empty = some e) :
    e.Holds ((entries 0 false ms).flatMap Entry.rows) := by
  cases hmarked with
  | nil =>
      cases hfollow
      exact holds_of_eq rfl
  | row _ hrest => exact (holds_of_follow hrest).1 _ 0 [] (laid_empty.newRow _) hfollow
  | leave => cases hfollow
  | passage => cases hrow

end Rows

/-- Texts that follow each other from a template line on. -/
def Successive : Nat → List Passage → Prop
  | _, [] => True
  | line, p :: rest => p.line = line ∧ Successive (line + p.text.newlines) rest

/-- The text of a mark. -/
def Mark.passage? : Mark → Option Passage
  | .passage p => some p
  | _ => none

section Entries

variable {line upto depth : Nat} {ms : List Mark} {p : Passage} {entry : Entry}

theorem Successive.line_eq {before after : List Passage}
    (h : Successive line (before ++ p :: after)) :
    p.line = line + Text.newlines (before.flatMap Passage.text) := by
  induction before generalizing line with
  | nil => exact h.1
  | cons q before ih =>
      rw [ih h.2, List.flatMap_cons, Text.newlines_append, Nat.add_assoc]

/-- The texts of an entry follow each other. -/
structure Entry.Formed (entry : Entry) : Prop where
  shaped : ∀ p ∈ entry.passages, p.Shaped
  successive : Successive entry.first.line entry.passages

theorem formed_sameRow (h : Marked line ms upto) :
    (∀ p ∈ sameRow ms, p.Shaped) ∧ Successive line (sameRow ms) := by
  induction h with
  | nil | row | leave => exact ⟨nofun, trivial⟩
  | passage hp _ ih => exact ⟨List.forall_mem_cons.mpr ⟨hp, ih.1⟩, rfl, ih.2⟩

theorem formed_of_mem (h : Marked line ms upto) {inside : Bool}
    (hentry : entry ∈ entries depth inside ms) : entry.Formed := by
  induction h generalizing depth inside with
  | nil => cases hentry
  | row _ _ ih | leave _ _ ih => exact ih hentry
  | passage hp hrest ih =>
      have hrow := formed_sameRow hrest
      cases inside with
      | true => exact ih hentry
      | false =>
          obtain rfl | hentry := List.mem_cons.mp hentry
          · exact ⟨List.forall_mem_cons.mpr ⟨hp, hrow.1⟩, rfl, hrow.2⟩
          · exact ih hentry

/-- The entries have all the texts, in their order. -/
theorem flatMap_passages (depth : Nat) (inside : Bool) (ms : List Mark) :
    (if inside then sameRow ms else []) ++ (entries depth inside ms).flatMap Entry.passages =
      ms.filterMap Mark.passage? := by
  induction ms generalizing depth inside with
  | nil => cases inside <;> rfl
  | cons m ms ih =>
      cases m with
      | row line => cases inside <;> exact ih depth false
      | leave line => cases inside <;> exact ih (depth - 1) false
      | passage p =>
          have hrest := congrArg (p :: ·) (ih (depth + p.opens.toNat) true)
          cases inside <;> exact hrest

theorem sameRow_segments (segments : List Segment) :
    sameRow (segments.flatMap segmentMarks) = [] := by
  cases segments with
  | nil => rfl
  | cons segment segments =>
      cases segment with
      | literal text line => rfl
      | tag found =>
          obtain ⟨kind, body, line, trimsIndentation, trimsNewline⟩ := found
          cases kind with
          | print | rawPrint => rfl
          | statement =>
              rw [List.flatMap_cons]
              unfold segmentMarks
              dsimp only
              split <;> rfl

/-- A template starts its first row itself. -/
theorem sameRow_marks (t : Text) : sameRow (marks t) = [] := sameRow_segments _

end Entries

end Draft

namespace Generated

open Draft (marks entries follow)

variable {t : Text} {g : Generated}

/-- A program that is the finished form of a draft, which holds the rows of the entries of a
template. -/
structure FinishedFrom (g : Generated) (t : Text) (d : Draft) : Prop where
  followed : (marks t).foldlM follow Draft.empty = some d
  closed : d.depth = 0
  holds : d.Holds ((entries 0 false (marks t)).flatMap Draft.Entry.rows)
  lineMap_eq : g.lineMap = d.rows.reverse.map Row.line
  source_eq : g.source = Text.join ['\n'] (d.rows.reverse.map Row.code) ++ ['\n']
  newline_not_mem : ∀ row ∈ d.rows.reverse, '\n' ∉ row.code

/-- Every program is the finished form of a draft that follows the marks of its template. -/
theorem exists_finishedFrom (h : ofTemplate t = .ok g) : ∃ d, g.FinishedFrom t d := by
  obtain ⟨d, -, hsegments, hfinish, htraced⟩ := exists_draft h
  have hfollowed := (Draft.foldlM_segment_eq_ok.mp hsegments).2
  obtain ⟨last, -, hmarked⟩ := Draft.marked_marks t
  unfold Draft.finish at hfinish
  split at hfinish <;> cases hfinish
  rename_i hdepth
  exact ⟨d, hfollowed, hdepth,
    Draft.holds_of_follow_empty hmarked (Draft.sameRow_marks t) hfollowed, rfl, rfl,
    htraced.newline_not_mem⟩

/-- A template is accepted if its marks can be followed to where no block is open, unless a
tag of it is not closed or prints nothing. -/
theorem exists_ofTemplate_iff (hwhole : (Splitting.ofTemplate t).unclosed = none)
    (hprints : ∀ segment ∈ (Splitting.ofTemplate t).segments, segment.isBlankPrint = false) :
    (∃ g, ofTemplate t = .ok g) ↔
      ∃ d, (marks t).foldlM follow Draft.empty = some d ∧ d.depth = 0 := by
  constructor
  · rintro ⟨g, h⟩
    obtain ⟨d, hd⟩ := exists_finishedFrom h
    exact ⟨d, hd.followed, hd.closed⟩
  · rintro ⟨d, hfollowed, hdepth⟩
    have hsegments := Draft.foldlM_segment_eq_ok.mpr ⟨hprints, hfollowed⟩
    refine ⟨⟨d.source ++ ['\n'], d.rows.reverse.map Row.line⟩, ?_⟩
    unfold ofTemplate
    simp only [hsegments, hwhole, Draft.finish, hdepth, if_true, bind, Except.bind]

namespace FinishedFrom

variable {d : Draft}

theorem cutAt_source (h : g.FinishedFrom t d) (hrows : d.rows ≠ []) :
    Text.cutAt '\n' g.source = d.rows.reverse.map Row.code ++ [[]] := by
  have hcodes : d.rows.reverse.map Row.code ≠ [] := by simpa using hrows
  have hnewlines : ∀ piece ∈ d.rows.reverse.map Row.code, '\n' ∉ piece := by
    rw [List.forall_mem_map]
    exact h.newline_not_mem
  rw [h.source_eq, Text.cutAt_append_mark, Text.cutAt_join hcodes hnewlines]
  rfl

end FinishedFrom

end Generated

end TemplateEngine
