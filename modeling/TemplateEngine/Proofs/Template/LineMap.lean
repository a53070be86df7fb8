import TemplateEngine.Proofs.Template.Entries

/-!
# The line map of a program

The template lines that the rows of a program come from never go back, and stay within the
template. The rows that a text of the template takes come from the lines that it stands on, one
after the other. A template that ends in a line break has a last line with nothing on it, where
the call that prints its last text ends.
-/
namespace TemplateEngine

namespace Draft

/-- Rows, the last one first, that come from the lines of a template up to one, in order. -/
structure Sorted (line : Nat) (rows : List Row) : Prop where
  within : ∀ row ∈ rows, 1 ≤ row.line ∧ row.line ≤ line
  ordered : (rows.map Row.line).Pairwise (· ≥ ·)

section Sorted

variable {line next upto : Nat} {rows : List Row} {d e : Draft}

theorem Sorted.cons (h : Sorted line rows) (hline : 1 ≤ next) (hle : line ≤ next) (code : Text) :
    Sorted next (⟨code, next⟩ :: rows) := by
  have hrows : ∀ row ∈ rows, 1 ≤ row.line ∧ row.line ≤ next := fun row hrow =>
    ⟨(h.within row hrow).1, Nat.le_trans (h.within row hrow).2 hle⟩
  refine ⟨List.forall_mem_cons.mpr ⟨⟨hline, Nat.le_refl next⟩, hrows⟩, ?_⟩
  rw [List.map_cons, List.pairwise_cons, List.forall_mem_map]
  exact ⟨fun row hrow => (hrows row hrow).2, h.ordered⟩

theorem Sorted.tail {row : Row} (h : Sorted line (row :: rows)) : Sorted line rows :=
  ⟨(List.forall_mem_cons.mp h.within).2, (List.pairwise_cons.mp h.ordered).2⟩

theorem Sorted.newRow (h : Sorted line d.rows) (hline : 1 ≤ line) (hle : line ≤ next) :
    Sorted next (d.newRow next).rows := by
  have hnext := Nat.le_trans hline hle
  unfold Draft.newRow
  dsimp only
  split
  · rename_i hrows
    rw [hrows] at h
    exact h.cons hnext hle _
  · rename_i last others hrows
    rw [hrows] at h
    split
    · exact h.tail.cons hnext hle _
    · exact h.cons hnext hle _

theorem Sorted.moreRows (h : Sorted line rows) (pieces : List Text) :
    Sorted (line + pieces.length) (moreRows (line + 1) pieces rows) := by
  induction pieces generalizing line rows with
  | nil => exact h
  | cons piece pieces ih =>
      have hrest := ih (h.cons (Nat.le_add_left 1 line) (Nat.le_succ line) piece)
      rwa [List.length_cons, Nat.add_comm pieces.length, ← Nat.add_assoc]

/-- A text that goes on where the rows end has its line breaks start rows on the lines below. -/
theorem Sorted.push (h : Sorted line d.rows) (hline : 1 ≤ line) (text : Text) :
    Sorted (line + text.newlines) (d.push text line).rows := by
  have hpush {d : Draft} (h : Sorted line d.rows) (hrows : d.rows ≠ []) :
      Sorted (line + text.newlines) (d.push text line).rows := by
    obtain ⟨last, others, first, pieces, hlast, htext, hpushed⟩ := exists_push hrows text line
    have hlength := Text.length_cutAt text
    rw [htext, List.length_cons] at hlength
    rw [hlast] at h
    have hrow := (List.forall_mem_cons.mp h.within).1
    have hput : Sorted line (⟨last.code ++ first, last.line⟩ :: others) :=
      ⟨List.forall_mem_cons.mpr ⟨hrow, h.tail.within⟩, h.ordered⟩
    rw [hpushed, ← moreRows_eq, ← Nat.add_right_cancel hlength]
    exact hput.moreRows pieces
  by_cases hrows : d.rows = []
  · rw [push_newRow hrows]
    exact hpush (h.newRow hline (Nat.le_refl line)) (newRow_rows_ne_nil d line)
  · exact hpush h hrows

/-- To follow marks keeps the rows in the order of the template. -/
theorem sorted_of_follow {ms : List Mark} (hmarked : Marked line ms upto) (hline : 1 ≤ line)
    (h : Sorted line d.rows) (hfollow : ms.foldlM follow d = some e) : Sorted upto e.rows := by
  induction hmarked generalizing d with
  | nil =>
      cases hfollow
      exact h
  | row hle _ ih => exact ih (Nat.le_trans hline hle) (h.newRow hline hle) hfollow
  | leave hle _ ih =>
      obtain ⟨mid, hmid, hrest⟩ := Option.bind_eq_some_iff.mp hfollow
      rw [follow] at hmid
      split at hmid <;> cases hmid
      have houter : Sorted _ ({ d with depth := d.depth - 1 } : Draft).rows := h
      exact ih (Nat.le_trans hline hle) (houter.newRow hline hle) hrest
  | passage _ _ ih =>
      refine ih (Nat.le_add_right_of_le hline) ?_ hfollow
      rw [indent_rows]
      exact h.push hline _

end Sorted

section Places

variable {entry : Entry} {p : Passage} {before after : List Passage}

/-- The rows of an entry that one of its texts takes, with what shares the first and the last
of them. -/
theorem Entry.Formed.exists_rows (h : entry.Formed)
    (hpassages : entry.passages = before ++ p :: after) :
    ∃ above s u below, entry.rows = above ++
        (rowsFrom p.line (Text.cutAt '\n' (s ++ (p.text ++ u))) ++ below) ∧
      above.length = Text.newlines (before.flatMap Passage.text) ∧ '\n' ∉ s ∧ '\n' ∉ u := by
  have hline := h.successive
  rw [hpassages] at hline
  have hline := hline.line_eq
  have htext : entry.text =
      before.flatMap Passage.text ++ (p.text ++ after.flatMap Passage.text) := by
    rw [Entry.text, hpassages, List.flatMap_append, List.flatMap_cons]
  obtain ⟨ahead, s, hs, hbreak⟩ := Text.exists_cutAt '\n'
    (indentation entry.depth ++ before.flatMap Passage.text)
  obtain ⟨u, behind, hu⟩ :=
    List.exists_cons_of_ne_nil (Text.cutAt_ne_nil '\n' (after.flatMap Passage.text))
  have hahead := Text.length_before_last hs
  rw [Text.newlines_append, Text.newlines_eq_zero (newline_not_mem_indentation _), Nat.zero_add]
    at hahead
  -- the text begins behind `s` in a row that others began, and `u` goes on where it ends
  have hcut : Text.cutAt '\n' (indentation entry.depth ++ entry.text) =
      ahead ++ (Text.cutAt '\n' (s ++ (p.text ++ u)) ++ behind) := by
    rw [htext, ← List.append_assoc, Text.cutAt_append_last hs, ← List.append_assoc s,
      Text.cutAt_append_first _ hu, List.append_assoc s]
  have hrows : entry.rows = rowsFrom entry.first.line ahead ++
      (rowsFrom p.line (Text.cutAt '\n' (s ++ (p.text ++ u))) ++
        rowsFrom (p.line + (Text.cutAt '\n' (s ++ (p.text ++ u))).length) behind) := by
    rw [Entry.rows, codeRows, hcut, rowsFrom_append, rowsFrom_append, hahead, ← hline]
  exact ⟨_, s, u, _, hrows, (length_rowsFrom _ _).trans hahead, hbreak,
    Text.not_mem_of_mem_cutAt (hu ▸ List.mem_cons_self)⟩

end Places

end Draft

/-- A template that is not empty has a segment, unless a tag is not closed. -/
theorem Splitting.segments_ne_nil {t : Text} (ht : t ≠ [])
    (hwhole : (Splitting.ofTemplate t).unclosed = none) :
    (Splitting.ofTemplate t).segments ≠ [] := by
  unfold ofTemplate run at hwhole ⊢
  split
  · rename_i piece inside hbefore
    rw [hbefore] at hwhole
    simp only at hwhole ⊢
    split
    · rename_i hopen
      rw [hopen] at hwhole
      cases hwhole
    · simp
  · rename_i piece rest hnone hbefore
    obtain rfl := Segment.eq_of_beforeOpener hbefore hnone
    have hpiece : List.isEmpty piece = false := by simpa using ht
    simp [Segment.ofLiteral, hpiece]

namespace Generated

open Draft (marks entries)

/-- The rows of a program from one on have the text of a passage, which has some line breaks, each
row with the line of the template that it comes from. Other texts may stand before it in the
first of them and behind it in the last. -/
structure Occupies (g : Generated) (start breaks : Nat) (p : Draft.Passage) : Prop where
  lines : (g.lineMap.drop start).take (breaks + 1) = List.range' p.line (breaks + 1)
  texts : ∃ s u, '\n' ∉ s ∧ '\n' ∉ u ∧
    ((Text.cutAt '\n' g.source).drop start).take (breaks + 1) =
      Text.cutAt '\n' (s ++ (p.text ++ u))

/-- A line map that follows the template of its program. -/
structure Follows (g : Generated) (t : Text) : Prop where
  length_eq : g.lineMap.length = (Text.lines g.source).length
  ordered : g.lineMap.Pairwise (· ≤ ·)
  /-- The last line of a template that ends in a line break has nothing on it. -/
  within : ∀ l ∈ g.lineMap, 1 ≤ l ∧ l ≤ t.newlines + 1
  literals : ∀ text line, .literal text line ∈ (Splitting.ofTemplate t).segments →
    ∃ start, g.Occupies start text.newlines ⟨.literal, Draft.literalCall text, line, false⟩
  prints : ∀ found, .tag found ∈ (Splitting.ofTemplate t).segments → found.kind ≠ .statement →
    ∃ start, g.Occupies start found.body.newlines
      ⟨.print, Draft.printCall (found.kind == .rawPrint) found.body, found.line, false⟩
  strings : ∀ found, .tag found ∈ (Splitting.ofTemplate t).segments → found.kind = .statement →
    ∀ f ∈ Fragment.ofBody found.body, f.kind = .quoted →
      ∃ start, g.Occupies start f.text.newlines ⟨.quoted, f.text, found.line + f.line, false⟩
  /-- The entries have the texts of the template, in their order. -/
  passages : (entries 0 false (marks t)).flatMap Draft.Entry.passages =
    (marks t).filterMap Draft.Mark.passage?
  /-- Every text stands behind the rows of the entries and the texts before it. -/
  places : ∀ earlier entry later before p after,
    entries 0 false (marks t) = earlier ++ entry :: later → entry.passages = before ++ p :: after →
      g.Occupies ((earlier.flatMap Draft.Entry.rows).length +
        Text.newlines (before.flatMap Draft.Passage.text)) p.text.newlines p

variable {t : Text} {g : Generated} {d : Draft}

/-- The program of a template that is not empty has a row. -/
theorem FinishedFrom.rows_ne_nil (h : g.FinishedFrom t d) (ht : t ≠ [])
    (hwhole : (Splitting.ofTemplate t).unclosed = none) : d.rows ≠ [] := by
  obtain ⟨segment, segments, hsegments⟩ :=
    List.exists_cons_of_ne_nil (Splitting.segments_ne_nil ht hwhole)
  obtain ⟨m, ms, hm⟩ := List.exists_cons_of_ne_nil (Draft.segmentMarks_ne_nil segment)
  have hfollow := h.followed
  rw [marks, hsegments, List.flatMap_cons, hm] at hfollow
  obtain ⟨mid, hmid, hrest⟩ := Option.bind_eq_some_iff.mp hfollow
  exact Draft.foldlM_rows_ne_nil (Draft.follow_rows_ne_nil hmid) hrest

theorem FinishedFrom.occupies (h : g.FinishedFrom t d) {p : Draft.Passage} {above below : List Row}
    {s u : Text} (hs : '\n' ∉ s) (hu : '\n' ∉ u)
    (hrows : d.rows.reverse =
      above ++ (Draft.rowsFrom p.line (Text.cutAt '\n' (s ++ (p.text ++ u))) ++ below)) :
    g.Occupies above.length p.text.newlines p := by
  have hcount : (Text.cutAt '\n' (s ++ (p.text ++ u))).length = p.text.newlines + 1 := by
    rw [Text.length_cutAt, Text.newlines_append, Text.newlines_append, Text.newlines_eq_zero hs,
      Text.newlines_eq_zero hu, Nat.zero_add]
  have hne : d.rows ≠ [] := by
    intro hnil
    have hlength := congrArg List.length hrows
    rw [hnil, List.length_append, List.length_append, Draft.length_rowsFrom, hcount,
      List.reverse_nil, List.length_nil] at hlength
    omega
  constructor
  · rw [h.lineMap_eq, hrows, List.map_append, List.map_append, Draft.map_line_rowsFrom, hcount,
      List.drop_left' (List.length_map _), List.take_left' List.length_range']
  · refine ⟨s, u, hs, hu, ?_⟩
    rw [h.cutAt_source hne, hrows, List.map_append, List.map_append, Draft.map_code_rowsFrom,
      List.append_assoc, List.drop_left' (List.length_map _), List.append_assoc,
      List.take_left' hcount]

theorem FinishedFrom.length_lineMap (h : g.FinishedFrom t d) (hne : d.rows ≠ []) :
    g.lineMap.length = (Text.lines g.source).length := by
  have hrows : d.rows.reverse ≠ [] := by simpa using hne
  rw [h.source_eq, h.lineMap_eq, Text.length_lines_concat, List.length_map,
    ← newlines_rowsText h.newline_not_mem, ← Outline.rowsText_eq_join hrows, Text.newlines_append]
  rfl

/-- Every text of an entry takes its rows, behind those of the entries and the texts before. -/
theorem FinishedFrom.occupies_of_entries (h : g.FinishedFrom t d)
    {earlier later : List Draft.Entry} {entry : Draft.Entry} {before after : List Draft.Passage}
    {p : Draft.Passage} (hentries : entries 0 false (marks t) = earlier ++ entry :: later)
    (hpassages : entry.passages = before ++ p :: after) :
    g.Occupies ((earlier.flatMap Draft.Entry.rows).length +
      Text.newlines (before.flatMap Draft.Passage.text)) p.text.newlines p := by
  obtain ⟨last, -, hmarked⟩ := Draft.marked_marks t
  have hformed := Draft.formed_of_mem hmarked
    (hentries ▸ List.mem_append_right earlier List.mem_cons_self)
  obtain ⟨above, s, u, below, hrows, hlength, hs, hu⟩ := hformed.exists_rows hpassages
  obtain ⟨spare, -, -, hholds⟩ := h.holds
  rw [hentries, List.flatMap_append, List.flatMap_cons, hrows] at hholds
  have hwhole : d.rows.reverse = (earlier.flatMap Draft.Entry.rows ++ above) ++
      (Draft.rowsFrom p.line (Text.cutAt '\n' (s ++ (p.text ++ u))) ++
        (below ++ (later.flatMap Draft.Entry.rows ++ spare))) := by
    simpa using hholds
  have hplace := h.occupies hs hu hwhole
  rwa [List.length_append, hlength] at hplace

theorem FinishedFrom.exists_occupies (h : g.FinishedFrom t d) {segment : Segment}
    {p : Draft.Passage} {breaks : Nat} (hsegment : segment ∈ (Splitting.ofTemplate t).segments)
    (hp : .passage p ∈ Draft.segmentMarks segment) (hbreaks : p.text.newlines = breaks) :
    ∃ start, g.Occupies start breaks p := by
  have hmark : .passage p ∈ marks t := List.mem_flatMap.mpr ⟨segment, hsegment, hp⟩
  have hpassage : p ∈ (marks t).filterMap Draft.Mark.passage? :=
    List.mem_filterMap.mpr ⟨_, hmark, rfl⟩
  have hpassages := Draft.flatMap_passages 0 false (marks t)
  rw [← hpassages] at hpassage
  obtain ⟨entry, hentry, hmem⟩ := List.mem_flatMap.mp hpassage
  obtain ⟨earlier, later, hentries⟩ := List.append_of_mem hentry
  obtain ⟨before, after, hsplit⟩ := List.append_of_mem hmem
  exact ⟨_, hbreaks ▸ h.occupies_of_entries hentries hsplit⟩

/-- The line map of a program has an entry for every line of its source, never goes back, and
stays within the lines of the template. The rows of a text, a print or a string come from the
line that it starts on and the lines below. -/
theorem lineMap_follows (ht : t ≠ []) (h : ofTemplate t = .ok g) : g.Follows t := by
  obtain ⟨d, hd⟩ := exists_finishedFrom h
  obtain ⟨-, hwhole, -⟩ := exists_draft h
  obtain ⟨last, hlast, hmarked⟩ := Draft.marked_marks t
  have hempty : Draft.Sorted 1 Draft.empty.rows := ⟨nofun, .nil⟩
  have hsorted := Draft.sorted_of_follow hmarked (Nat.le_refl 1) hempty hd.followed
  have hmap : g.lineMap = (d.rows.map Row.line).reverse := by
    rw [hd.lineMap_eq, List.map_reverse]
  constructor
  case length_eq => exact hd.length_lineMap (hd.rows_ne_nil ht hwhole)
  case ordered =>
    rw [hmap, List.pairwise_reverse]
    exact hsorted.ordered
  case within =>
    intro l hl
    rw [hmap, List.mem_reverse] at hl
    obtain ⟨row, hrow, rfl⟩ := List.mem_map.mp hl
    exact ⟨(hsorted.within row hrow).1, Nat.le_trans (hsorted.within row hrow).2 hlast⟩
  case literals =>
    intro text line hsegment
    exact hd.exists_occupies hsegment (List.mem_cons_of_mem _ List.mem_cons_self)
      (Draft.newlines_literalCall text)
  case prints =>
    intro found hsegment hkind
    exact hd.exists_occupies hsegment (Draft.print_mem_segmentMarks hkind)
      (Draft.newlines_printCall _ _)
  case strings =>
    intro found hsegment hkind f hf hquoted
    exact hd.exists_occupies hsegment (Draft.quoted_mem_segmentMarks hkind hf hquoted) rfl
  case passages => exact Draft.flatMap_passages 0 false (marks t)
  case places =>
    intro earlier entry later before p after hentries hpassages
    exact hd.occupies_of_entries hentries hpassages

/-- Text over two lines before a string over two lines. -/
def linesTemplate : Text := "a\nb<% x = 'p\nq' %>".toList

theorem lineMap_follows_string : linesTemplate ≠ [] ∧ ∃ g, ofTemplate linesTemplate = .ok g ∧
    g.lineMap = [1, 2, 2, 3] ∧ ∀ l ∈ g.lineMap, 1 ≤ l ∧ l ≤ linesTemplate.newlines + 1 := by
  have hok : ofTemplate linesTemplate =
      .ok ⟨"__buffer_append(\"\"\"a\nb\"\"\")\nx = 'p\nq'\n".toList, [1, 2, 2, 3]⟩ := by
    decide
  have hne : linesTemplate ≠ [] := by decide
  exact ⟨hne, _, hok, rfl, (lineMap_follows hne hok).within⟩

end Generated

end TemplateEngine
