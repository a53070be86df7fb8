import TemplateEngine.Proofs.Template.Entries

/-!
# Balanced templates

A template opens and closes blocks, and a program is made of it exactly if no block is closed
that is not open and none is left open in the end. The rows of the program show the blocks:
what begins an entry stands behind two blanks for each block that is open there.
-/
namespace TemplateEngine

namespace Draft

/-- What a mark does to the open blocks. -/
inductive BlockEvent where
  | opens
  | closes
  deriving DecidableEq, Repr

def Mark.events : Mark → List BlockEvent
  | .row _ => []
  | .leave _ => [.closes]
  | .passage p => if p.opens then [.opens] else []

def events (ms : List Mark) : List BlockEvent := ms.flatMap Mark.events

/-- No block is closed before it is opened, and all are closed in the end. -/
structure Balanced (es : List BlockEvent) : Prop where
  opened : ∀ before, before <+: es → before.count .closes ≤ before.count .opens
  closed : es.count .opens = es.count .closes

/-- The number of blocks that are open behind marks. -/
def openBlocks (ms : List Mark) : Nat := (events ms).count .opens - (events ms).count .closes

/-- The number of blocks open after some events, unless one of them closes what is not open. -/
def levelAfter? : Nat → List BlockEvent → Option Nat
  | depth, [] => some depth
  | depth, .opens :: es => levelAfter? (depth + 1) es
  | 0, .closes :: _ => none
  | depth + 1, .closes :: es => levelAfter? depth es

section Levels

variable {depth n : Nat} {es fs : List BlockEvent} {ms : List Mark} {d : Draft}

theorem levelAfter?_append (depth : Nat) (es fs : List BlockEvent) :
    levelAfter? depth (es ++ fs) = (levelAfter? depth es).bind fun n => levelAfter? n fs := by
  fun_induction levelAfter? depth es with
  | case1 => rfl
  | case2 _ _ ih => exact ih
  | case3 => rfl
  | case4 _ _ ih => exact ih

theorem forall_prefix_cons {P : List BlockEvent → Prop} {event : BlockEvent} :
    (∀ before, before <+: event :: es → P before) ↔
      P [] ∧ ∀ before, before <+: es → P (event :: before) := by
  constructor
  · intro h
    exact ⟨h [] List.nil_prefix,
      fun before hbefore => h _ ((List.prefix_cons_inj event).mpr hbefore)⟩
  · rintro ⟨hnil, hcons⟩ before hbefore
    obtain rfl | ⟨rest, rfl, hrest⟩ := List.prefix_cons_iff.mp hbefore
    · exact hnil
    · exact hcons rest hrest

/-- Events lead to a level if none of them closes what is not open. -/
theorem levelAfter?_eq_some : levelAfter? depth es = some n ↔
    (∀ before, before <+: es → before.count .closes ≤ depth + before.count .opens) ∧
      depth + es.count .opens = n + es.count .closes := by
  have hne : BlockEvent.opens ≠ .closes ∧ BlockEvent.closes ≠ .opens := by decide
  fun_induction levelAfter? depth es with
  | case1 depth => simp [List.prefix_nil]
  | case2 depth es ih =>
      simp only [ih, forall_prefix_cons, List.count_cons_self, List.count_cons_of_ne hne.1,
        List.count_nil, Nat.zero_le, true_and, Nat.add_assoc, Nat.add_comm 1]
  | case3 es =>
      refine ⟨nofun, fun h => ?_⟩
      have hfirst := h.1 [.closes] ⟨es, rfl⟩
      exact absurd hfirst (by decide)
  | case4 depth es ih =>
      simp only [ih, forall_prefix_cons, List.count_cons_self, List.count_cons_of_ne hne.2,
        List.count_nil, Nat.zero_le, true_and, Nat.add_right_comm depth 1, ← Nat.add_assoc n,
        Nat.add_le_add_iff_right, Nat.add_right_cancel_iff]

theorem levelAfter?_zero : levelAfter? 0 es = some 0 ↔ Balanced es := by
  rw [levelAfter?_eq_some]
  simp only [Nat.zero_add]
  exact ⟨fun h => ⟨h.1, h.2⟩, fun h => ⟨h.opened, h.closed⟩⟩

theorem openBlocks_eq (h : levelAfter? 0 (events ms) = some n) : openBlocks ms = n := by
  have hcount := (levelAfter?_eq_some.mp h).2
  rw [openBlocks]
  omega

theorem levelAfter?_passage (p : Passage) (depth : Nat) (es : List BlockEvent) :
    levelAfter? depth ((Mark.passage p).events ++ es) = levelAfter? (depth + p.opens.toNat) es := by
  rw [Mark.events]
  cases p.opens <;> rfl

theorem depth_of_mark (m : Mark) (d : Draft) :
    (d.follow m).map Draft.depth = levelAfter? d.depth m.events := by
  cases m with
  | row line => exact congrArg some (newRow_depth d line)
  | leave line =>
      rw [follow, Mark.events]
      cases d.depth with
      | zero => rfl
      | succ depth => exact congrArg some (newRow_depth _ line)
  | passage p =>
      have hpush := push_depth d p.text p.line
      have hlevel := levelAfter?_passage p d.depth []
      rw [List.append_nil] at hlevel
      rw [hlevel, follow]
      cases p.opens with
      | true => exact congrArg (fun n => some (n + 1)) hpush
      | false => exact congrArg some hpush

/-- Marks can be followed as long as there are blocks to leave. -/
theorem depth_of_follow (ms : List Mark) (d : Draft) :
    (ms.foldlM follow d).map Draft.depth = levelAfter? d.depth (events ms) := by
  induction ms generalizing d with
  | nil => rfl
  | cons m ms ih =>
      have hevents : events (m :: ms) = m.events ++ events ms := List.flatMap_cons
      have hstep := depth_of_mark m d
      rw [hevents, levelAfter?_append, ← hstep, List.foldlM_cons]
      cases d.follow m with
      | none => rfl
      | some mid => exact ih mid

/-- An entry begins at a mark, with as many blocks open as the marks before that leave. -/
theorem exists_first {inside : Bool} {earlier later : List Entry} {entry : Entry}
    (hlevel : levelAfter? depth (events ms) = some n)
    (hentries : entries depth inside ms = earlier ++ entry :: later) :
    ∃ before after, ms = before ++ .passage entry.first :: after ∧
      levelAfter? depth (events before) = some entry.depth ∧
      before.filterMap Mark.passage? =
        (if inside then sameRow ms else []) ++ earlier.flatMap Entry.passages := by
  induction ms generalizing depth inside earlier with
  | nil => simp [entries] at hentries
  | cons m ms ih =>
      have hevents (ms : List Mark) : events (m :: ms) = m.events ++ events ms := List.flatMap_cons
      rw [hevents] at hlevel
      cases m with
      | row line =>
          obtain ⟨before, after, rfl, hbefore, hpassages⟩ := ih hlevel hentries
          refine ⟨.row line :: before, after, rfl, hbefore, ?_⟩
          cases inside <;> exact hpassages
      | leave line =>
          cases depth with
          | zero => cases hlevel
          | succ depth =>
              obtain ⟨before, after, rfl, hbefore, hpassages⟩ := ih hlevel hentries
              refine ⟨.leave line :: before, after, rfl, hbefore, ?_⟩
              cases inside <;> exact hpassages
      | passage p =>
          rw [levelAfter?_passage] at hlevel
          -- an entry that begins at a later mark, whether this text begins one or not
          have hlater {earlier : List Entry}
              (h : entries (depth + p.opens.toNat) true ms = earlier ++ entry :: later) :
              ∃ before after, .passage p :: ms = before ++ .passage entry.first :: after ∧
                levelAfter? depth (events before) = some entry.depth ∧
                before.filterMap Mark.passage? =
                  p :: (sameRow ms ++ earlier.flatMap Entry.passages) := by
            obtain ⟨before, after, rfl, hbefore, hpassages⟩ := ih hlevel h
            refine ⟨.passage p :: before, after, rfl, ?_, congrArg (p :: ·) hpassages⟩
            rw [hevents, levelAfter?_passage]
            exact hbefore
          cases inside with
          | true => exact hlater hentries
          | false =>
              cases earlier with
              | nil =>
                  obtain ⟨rfl, -⟩ := List.cons.inj hentries
                  exact ⟨[], ms, rfl, rfl, rfl⟩
              | cons first earlier =>
                  obtain ⟨rfl, hrest⟩ := List.cons.inj hentries
                  exact hlater hrest

end Levels

/-- Whether texts of an origin have their rows to themselves. -/
def Origin.isAlone : Origin → Bool
  | .literal | .print => true
  | _ => false

/-- Whether texts of an origin may stand behind others. -/
def Origin.isInline : Origin → Bool
  | .quoted | .colon | .code => true
  | _ => false

/-- Marks that leave a row to every literal text and every print, and start one for every
header of a clause. -/
inductive Spaced : List Mark → Prop where
  | nil : Spaced []
  | row {line : Nat} {ms : List Mark} : Spaced ms → Spaced (.row line :: ms)
  | leave {line : Nat} {ms : List Mark} : Spaced ms → Spaced (.leave line :: ms)
  | inline {p : Passage} {ms : List Mark} : p.origin.isInline = true → Spaced ms →
      Spaced (.passage p :: ms)
  | alone {line : Nat} {p : Passage} {ms : List Mark} : p.origin.isAlone = true →
      sameRow ms = [] → Spaced ms → Spaced (.row line :: .passage p :: ms)
  | header {line : Nat} {p : Passage} {ms : List Mark} : p.origin = .header → Spaced ms →
      Spaced (.leave line :: .passage p :: ms)

section Spaced

variable {rest ms : List Mark} {depth : Nat} {entry : Entry}

theorem spaced_lineMarks (h : Spaced rest) (goesOn : Bool) (line : Nat) (piece : Text) :
    Spaced (lineMarks goesOn line piece ++ rest) := by
  unfold lineMarks
  generalize (if goesOn then _ else _ : Text) = code
  cases code with
  | nil => exact h
  | cons c code => exact .inline rfl h

theorem spaced_linesMarks (h : Spaced rest) (goesOn : Bool) (line : Nat) (pieces : List Text) :
    Spaced (linesMarks goesOn line pieces ++ rest) := by
  fun_induction linesMarks goesOn line pieces with
  | case1 => exact h
  | case2 line piece => exact spaced_lineMarks h goesOn line piece
  | case3 line piece pieces _ ih =>
      rw [List.append_assoc]
      exact spaced_lineMarks (.row ih) false line piece

theorem spaced_fragmentMarks (h : Spaced rest) (base : Nat) (next : Option FragmentKind)
    (f : Fragment) : Spaced (fragmentMarks base next f ++ rest) := by
  obtain ⟨kind, text, line⟩ := f
  cases kind with
  | quoted => exact .inline rfl h
  | code => exact spaced_linesMarks h _ _ _
  | blockOpen => exact .inline rfl (.row h)
  | blockClose => exact .leave h
  | separator => exact .row h
  | continuation => exact .header rfl h

theorem spaced_fragmentsMarks (h : Spaced rest) (base : Nat) (fs : List Fragment) :
    Spaced (fragmentsMarks base fs ++ rest) := by
  induction fs with
  | nil => exact h
  | cons f fs ih =>
      rw [fragmentsMarks, List.append_assoc]
      exact spaced_fragmentMarks ih base _ f

theorem spaced_segments (segments : List Segment) : Spaced (segments.flatMap segmentMarks) := by
  induction segments with
  | nil => exact .nil
  | cons segment segments ih =>
      have hrow := sameRow_segments segments
      rw [List.flatMap_cons]
      cases segment with
      | literal text line => exact .alone rfl hrow ih
      | tag found =>
          obtain ⟨kind, body, line, trimsIndentation, trimsNewline⟩ := found
          cases kind with
          | print | rawPrint => exact .alone rfl hrow ih
          | statement =>
              unfold segmentMarks
              dsimp only
              split
              · exact .leave ih
              · exact .row (spaced_fragmentsMarks ih line _)

/-- A literal text or a print is an entry of its own, and only strings, colons and code stand
behind other texts. -/
structure Entry.Spaced (entry : Entry) : Prop where
  alone : entry.first.origin.isAlone = true → entry.others = []
  inline : ∀ p ∈ entry.others, p.origin.isInline = true

theorem not_isAlone {origin : Origin} (h : origin.isInline = true) : ¬ origin.isAlone = true := by
  cases origin with
  | quoted | colon | code => exact Bool.false_ne_true
  | literal | print | header => cases h

theorem inline_sameRow (h : Spaced ms) : ∀ p ∈ sameRow ms, p.origin.isInline = true := by
  induction h with
  | nil | row | leave | alone | header => exact nofun
  | inline hp _ ih => exact List.forall_mem_cons.mpr ⟨hp, ih⟩

theorem spaced_of_mem (h : Spaced ms) {inside : Bool} (hentry : entry ∈ entries depth inside ms) :
    entry.Spaced := by
  induction h generalizing depth inside with
  | nil => cases hentry
  | row _ ih | leave _ ih => exact ih hentry
  | inline hp hrest ih =>
      cases inside with
      | true => exact ih hentry
      | false =>
          obtain rfl | hentry := List.mem_cons.mp hentry
          · exact ⟨fun hfirst => absurd hfirst (not_isAlone hp), inline_sameRow hrest⟩
          · exact ih hentry
  | alone hp hrow hrest ih =>
      obtain rfl | hentry := List.mem_cons.mp hentry
      · exact ⟨fun _ => hrow, inline_sameRow hrest⟩
      · exact ih hentry
  | header hp hrest ih =>
      obtain rfl | hentry := List.mem_cons.mp hentry
      · refine ⟨fun hfirst => ?_, inline_sameRow hrest⟩
        rw [hp] at hfirst
        cases hfirst
      · exact ih hentry

end Spaced

/-- A line goes on with a text that began on a line above: it is a later line of the text, with
nothing behind it unless other texts follow. -/
structure Continues (passages : List Passage) (line : Text) (p : Passage) : Prop where
  mem : p ∈ passages
  later : ∃ piece ∈ (Text.cutAt '\n' p.text).tail, ∃ behind, line = piece ++ behind ∧
    (passages = [p] → behind = [])

section Rows

variable {passages : List Passage} {entry : Entry} {line : Text}

theorem Continues.cons {p q : Passage} (h : Continues passages line p) :
    Continues (q :: passages) line p := by
  obtain ⟨hmem, piece, hpiece, behind, hline, -⟩ := h
  refine ⟨List.mem_cons_of_mem q hmem, piece, hpiece, behind, hline, fun honly => ?_⟩
  rw [(List.cons.inj honly).2] at hmem
  cases hmem

/-- Below the first line of some texts every line goes on with one of them. -/
theorem exists_continues (h : line ∈ (Text.cutAt '\n' (passages.flatMap Passage.text)).tail) :
    ∃ p, Continues passages line p := by
  induction passages with
  | nil => cases h
  | cons p passages ih =>
      obtain ⟨before, last, hp, -⟩ := Text.exists_cutAt '\n' p.text
      obtain ⟨first, after, hrest⟩ :=
        List.exists_cons_of_ne_nil (Text.cutAt_ne_nil '\n' (passages.flatMap Passage.text))
      rw [List.flatMap_cons, Text.cutAt_append_pieces hp hrest] at h
      have hafter (h : line ∈ after) : ∃ q, Continues (p :: passages) line q := by
        obtain ⟨q, hq⟩ := ih (by rw [hrest]; exact h)
        exact ⟨q, hq.cons⟩
      cases before with
      | nil => exact hafter h
      | cons start before =>
          have htail : (Text.cutAt '\n' p.text).tail = before ++ [last] := by
            rw [hp]
            rfl
          obtain hmem | hmem := List.mem_append.mp h
          · refine ⟨p, List.mem_cons_self, line, ?_, [], (List.append_nil line).symm, fun _ => rfl⟩
            rw [htail]
            exact List.mem_append_left _ hmem
          · obtain rfl | hmem := List.mem_cons.mp hmem
            · refine ⟨p, List.mem_cons_self, last, ?_, first, rfl, fun honly => ?_⟩
              · rw [htail]
                exact List.mem_append_right _ List.mem_cons_self
              · rw [(List.cons.inj honly).2] at hrest
                exact (List.cons.inj hrest).1.symm
            · exact hafter hmem

/-- The lines of an entry: the first begins with the indentation, the others are lines of its
texts. -/
theorem Entry.exists_lines (entry : Entry) : ∃ first after,
    Text.cutAt '\n' entry.text = first :: after ∧
      entry.rows.map Row.code = (indentation entry.depth ++ first) :: after := by
  obtain ⟨first, after, htext, hboth⟩ :=
    Text.cutAt_append (newline_not_mem_indentation entry.depth) entry.text
  exact ⟨first, after, htext, by rw [Entry.rows, codeRows, hboth, map_code_rowsFrom]⟩

theorem Entry.Spaced.passages_eq (h : entry.Spaced) {p : Passage} (hp : p ∈ entry.passages)
    (halone : p.origin.isAlone = true) : entry.passages = [p] := by
  obtain rfl | hp := List.mem_cons.mp hp
  · rw [Entry.passages, h.alone halone]
  · exact absurd halone (not_isAlone (h.inline p hp))

/-- A later line of an entry is one of a literal text or a print, or goes on with a string or
a header. -/
theorem Entry.Formed.continues (h : entry.Formed) (hspaced : entry.Spaced)
    (hline : line ∈ (entry.rows.map Row.code).tail) :
    ∃ p ∈ entry.passages, p.origin ≠ .code ∧ p.origin ≠ .colon ∧
      ∃ piece ∈ (Text.cutAt '\n' p.text).tail, ∃ behind, line = piece ++ behind ∧
        (p.origin.isAlone = true → behind = []) := by
  obtain ⟨first, after, htext, hlines⟩ := entry.exists_lines
  have hlater : line ∈ (Text.cutAt '\n' (entry.passages.flatMap Passage.text)).tail := by
    rw [hlines] at hline
    rw [← Entry.text, htext]
    exact hline
  obtain ⟨p, hp, piece, hpiece, behind, hparts, honly⟩ := exists_continues hlater
  have hbreak : ¬ (p.origin = .code ∨ p.origin = .colon) := by
    intro horigin
    rw [Text.cutAt_eq_singleton ((h.shaped p hp).oneLine horigin)] at hpiece
    cases hpiece
  rw [not_or] at hbreak
  exact ⟨p, hp, hbreak.1, hbreak.2, piece, hpiece, behind, hparts,
    fun halone => honly (hspaced.passages_eq hp halone)⟩

/-- An entry begins with something visible, right behind its indentation. -/
theorem Entry.Formed.exists_head (h : entry.Formed) : ∃ c behind,
    entry.first.text.head? = some c ∧ Text.isBlank c = false ∧
      (entry.rows.map Row.code).head? = some (indentation entry.depth ++ c :: behind) := by
  obtain ⟨c, rest, hfirst, hc⟩ := (h.shaped entry.first List.mem_cons_self).starts
  obtain ⟨first, after, htext, hlines⟩ := entry.exists_lines
  have hbreak : '\n' ∉ [c] := by
    rw [List.mem_singleton]
    rintro rfl
    exact absurd hc (by decide)
  obtain ⟨behind, others, -, hcut⟩ :=
    Text.cutAt_append hbreak (rest ++ entry.others.flatMap Passage.text)
  have hwhole : entry.text = [c] ++ (rest ++ entry.others.flatMap Passage.text) := by
    rw [Entry.text, Entry.passages, List.flatMap_cons, hfirst]
    rfl
  rw [hwhole, hcut] at htext
  obtain ⟨rfl, rfl⟩ := List.cons.inj htext
  exact ⟨c, behind, by rw [hfirst]; rfl, hc, by rw [hlines]; rfl⟩

end Rows

end Draft

namespace Generated

open Draft (marks entries events Balanced openBlocks)

variable {t : Text} {g : Generated}

/-- A program that shows the blocks of its template. Its lines are those of the entries, and
perhaps a blank one. Literal texts, prints and headers begin an entry; strings, colons and code
may stand behind other texts. An entry begins behind two blanks for each block that is open
there, and its other lines are later lines of literal texts, prints, strings and headers. -/
structure Indented (g : Generated) (t : Text) : Prop where
  lines : ∃ spare : List Text, spare.length ≤ 1 ∧ (∀ line ∈ spare, Text.allBlank line = true) ∧
    Text.cutAt '\n' g.source =
      ((entries 0 false (marks t)).flatMap Draft.Entry.rows).map Row.code ++ (spare ++ [[]])
  passages : (entries 0 false (marks t)).flatMap Draft.Entry.passages =
    (marks t).filterMap Draft.Mark.passage?
  spaced : ∀ entry ∈ entries 0 false (marks t), entry.Spaced
  starts : ∀ earlier entry later, entries 0 false (marks t) = earlier ++ entry :: later →
    ∃ before after, marks t = before ++ .passage entry.first :: after ∧
      before.filterMap Draft.Mark.passage? = earlier.flatMap Draft.Entry.passages ∧
      ∃ c behind, entry.first.text.head? = some c ∧ Text.isBlank c = false ∧
        (entry.rows.map Row.code).head? =
          some (Text.times (2 * openBlocks before) ' ' ++ c :: behind)
  continues : ∀ entry ∈ entries 0 false (marks t), ∀ line ∈ (entry.rows.map Row.code).tail,
    ∃ p ∈ entry.passages, p.origin ≠ .code ∧ p.origin ≠ .colon ∧
      ∃ piece ∈ (Text.cutAt '\n' p.text).tail, ∃ behind, line = piece ++ behind ∧
        (p.origin.isAlone = true → behind = [])

/-- The lines of a program are those of the entries, and perhaps a blank one. -/
theorem FinishedFrom.exists_spare {d : Draft} (h : g.FinishedFrom t d) :
    ∃ spare : List Text, spare.length ≤ 1 ∧ (∀ line ∈ spare, Text.allBlank line = true) ∧
      Text.cutAt '\n' g.source =
        ((entries 0 false (marks t)).flatMap Draft.Entry.rows).map Row.code ++ (spare ++ [[]]) := by
  obtain ⟨spare, hlength, hblank, hrows⟩ := h.holds
  by_cases hnil : d.rows = []
  · -- a program without rows still has its last line break
    have hsource := h.source_eq
    rw [hnil, List.reverse_nil] at hrows hsource
    have hempty := List.append_eq_nil_iff.mp hrows.symm
    refine ⟨[[]], Nat.le_refl 1, by decide, ?_⟩
    rw [hsource, hempty.1]
    rfl
  · refine ⟨spare.map Row.code, by rwa [List.length_map], List.forall_mem_map.mpr hblank, ?_⟩
    rw [h.cutAt_source hnil, hrows, List.map_append, List.append_assoc]

theorem indented_of_ok (h : ofTemplate t = .ok g) : g.Indented t := by
  obtain ⟨d, hd⟩ := exists_finishedFrom h
  obtain ⟨last, -, hmarked⟩ := Draft.marked_marks t
  have hspaced := Draft.spaced_segments (Splitting.ofTemplate t).segments
  have hlevel := Draft.depth_of_follow (marks t) Draft.empty
  rw [hd.followed, Option.map_some, hd.closed] at hlevel
  refine ⟨hd.exists_spare, Draft.flatMap_passages 0 false _,
    fun entry hentry => Draft.spaced_of_mem hspaced hentry, ?starts, ?continues⟩
  case starts =>
    intro earlier entry later hentries
    have hformed := Draft.formed_of_mem hmarked
      (hentries ▸ List.mem_append_right earlier List.mem_cons_self)
    obtain ⟨before, after, hparts, hbefore, hpassages⟩ := Draft.exists_first hlevel.symm hentries
    obtain ⟨c, behind, hfirst, hc, hhead⟩ := hformed.exists_head
    rw [← Draft.openBlocks_eq hbefore] at hhead
    exact ⟨before, after, hparts, hpassages, c, behind, hfirst, hc, hhead⟩
  case continues =>
    intro entry hentry line hline
    exact (Draft.formed_of_mem hmarked hentry).continues (Draft.spaced_of_mem hspaced hentry) hline

/-- A template whose tags are closed and print something is accepted exactly if its blocks are
balanced, and its program shows them. -/
theorem accepted_iff_balanced (hwhole : (Splitting.ofTemplate t).unclosed = none)
    (hprints : ∀ segment ∈ (Splitting.ofTemplate t).segments, segment.isBlankPrint = false) :
    ((∃ g, ofTemplate t = .ok g) ↔ Balanced (events (marks t))) ∧
      ∀ g, ofTemplate t = .ok g → g.Indented t := by
  refine ⟨?_, fun g => indented_of_ok⟩
  rw [exists_ofTemplate_iff hwhole hprints, ← Draft.levelAfter?_zero]
  have hlevel := Draft.depth_of_follow (marks t) Draft.empty
  constructor
  · rintro ⟨d, hd, hdepth⟩
    rw [hd, Option.map_some, hdepth] at hlevel
    exact hlevel.symm
  · intro hbalanced
    have hdepth : Draft.empty.depth = 0 := rfl
    rw [hdepth, hbalanced] at hlevel
    exact Option.map_eq_some_iff.mp hlevel

/-- A block with a clause, around text and code over two lines. -/
def clausesTemplate : Text := "<% if x:\n  y = 'a\nb' %>c\n<% else: %><%= y %><% end %>".toList

theorem accepted_iff_balanced_clauses :
    (Splitting.ofTemplate clausesTemplate).unclosed = none ∧
      (∀ segment ∈ (Splitting.ofTemplate clausesTemplate).segments, segment.isBlankPrint = false) ∧
      ((∃ g, ofTemplate clausesTemplate = .ok g) ↔ Balanced (events (marks clausesTemplate))) ∧
      events (marks clausesTemplate) = [.opens, .closes, .opens, .closes] := by
  have hwhole : (Splitting.ofTemplate clausesTemplate).unclosed = none := by decide
  have hprints : ∀ segment ∈ (Splitting.ofTemplate clausesTemplate).segments,
      segment.isBlankPrint = false := by
    decide
  exact ⟨hwhole, hprints, (accepted_iff_balanced hwhole hprints).1, by decide⟩

end Generated

end TemplateEngine
