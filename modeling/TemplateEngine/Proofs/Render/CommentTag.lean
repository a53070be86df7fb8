import TemplateEngine.Proofs.Syntax.IdleLines
import TemplateEngine.Proofs.Template.LastTag
import TemplateEngine.Proofs.Template.RowLines
import TemplateEngine.Proofs.Text.Trimming
import TemplateEngine.Render.Page

/-!
# Comment tags

A statement tag that holds nothing but a comment changes nothing about the template that it is put
behind. Its body is a single piece of code, since no marker is found in it; the row of that piece
begins with a hash sign, so that it opens no block; and the row takes the place of a blank one or
comes behind all others, where a comment closes the source as the end does. The markers count: a
statement tag is cut at them before it is known that they stand in a comment.
-/
namespace TemplateEngine

open Segment (isQuote)

/-- A text that stands in a comment tag without being cut. -/
structure CommentText (c : Text) : Prop where
  line : '\n' ∉ c
  plain : ∀ d ∈ c, d ≠ '%' ∧ isQuote d = false
  separator : ';' ∉ c
  opening : ¬ ['{', ':'] <:+: c
  closing : ¬ [':', '}'] <:+: c
  ending : ∀ before after, c = before ++ "end".toList ++ after →
    ¬ (before.getLast?.all Text.isPlainBlank = true ∧ after.head?.all Text.isPlainBlank = true)

/-- The tag with a text as a comment. -/
def commentTag (c : Text) : Text := "<% # ".toList ++ (c ++ " %>".toList)

variable {c : Text}

namespace Fragment

/-- The closing word is none within a longer word, and a comment has it in no other place. -/
theorem startsWithEnd_comment (hc : CommentText c) {before s : Text} {b : Char}
    (hparts : c = before ++ s) (hb : (' ' :: before).getLast? = some b) :
    startsWithEnd (some b) (s ++ [' ']) = false := by
  rw [Bool.eq_false_iff]
  intro hstarts
  simp only [startsWithEnd, Bool.and_eq_true, List.isPrefixOf_iff_prefix] at hstarts
  obtain ⟨⟨hstart, hbefore⟩, hafter⟩ := hstarts
  obtain heq | ⟨after, rfl⟩ := List.prefix_concat_iff.mp hstart
  · exact absurd (congrArg List.getLast? heq) (by simp)
  · rw [← List.append_assoc] at hparts
    have hboundary : ∀ d ∈ c, isBoundary d = true → Text.isPlainBlank d = true := by
      intro d hd hboundary
      have hne : d ≠ ';' := fun h => hc.separator (h ▸ hd)
      simpa [isBoundary, hne] using hboundary
    refine hc.ending before after hparts ⟨?_, ?_⟩
    · cases hlast : before.getLast? with
      | none => rfl
      | some d =>
          rw [List.getLast?_cons, hlast] at hb
          cases hb
          refine hboundary d ?_ hbefore
          rw [hparts]
          exact List.mem_append_left _ (List.mem_append_left _ (List.mem_of_getLast? hlast))
    · cases after with
      | nil => rfl
      | cons d after => exact hboundary d (by simp [hparts]) hafter

/-- No piece but code begins in a comment. -/
theorem piece_comment (hc : CommentText c) {before s : Text} {b d : Char}
    (hparts : c = before ++ d :: s) (hb : (' ' :: before).getLast? = some b) :
    piece (some b) false d (s ++ [' ']) = (.code, 1, false) := by
  have hmem : d ∈ c := by simp [hparts]
  -- what comes behind a character is in the comment or is the blank behind it
  have hpair (e f : Char) (hf : f ≠ ' ') (hnone : ¬ [e, f] <:+: c) :
      d = e → (s ++ [' ']).head? ≠ some f := by
    rintro rfl hhead
    cases s with
    | nil => exact hf (Option.some.inj hhead).symm
    | cons g s =>
        cases hhead
        exact hnone ⟨before, s, by simp [hparts]⟩
  have hend := startsWithEnd_comment hc hparts hb
  refine (piece_code (hc.plain d hmem).2 (hpair _ _ (by decide) hc.opening)
    (hpair _ _ (by decide) hc.closing) hend ?_ ?_).trans (by rw [Bool.false_and])
  · exact fun h => hc.separator (h ▸ hmem)
  · exact fun h => hc.line (h ▸ hmem)

theorem pieces_comment (hc : CommentText c) {before s : Text} {b : Char}
    (hparts : c = before ++ s) (hb : (' ' :: before).getLast? = some b) :
    pieces 0 (some b) false (s ++ [' ']) = codeChars (s ++ [' ']) := by
  induction s generalizing before b with
  | nil => exact pieces_mark (by decide) nofun
  | cons d s ih =>
      have hlead : leading (some b) false d (s ++ [' ']) = (.code, 1, false) :=
        piece_comment hc hparts hb
      rw [List.cons_append, pieces, hlead]
      have hlast : (' ' :: (before ++ [d])).getLast? = some d := by
        rw [← List.cons_append, List.getLast?_concat]
      exact congrArg _ (ih (by rw [hparts, List.append_cons]) hlast)

theorem ofBody_comment (hc : CommentText c) (line : Nat) :
    ofBody (Tag.spaced ('#' :: ' ' :: c) line).body =
      [⟨.code, (Tag.spaced ('#' :: ' ' :: c) line).body, 0⟩] := by
  refine ofBody_code (List.cons_ne_nil _ _) (Text.newlines_eq_zero ?_) ?_
  · simp [Tag.spaced, hc.line]
  · have hparts : c = [] ++ c := rfl
    have hrest := pieces_comment hc hparts rfl
    exact congrArg (codeChars [' ', '#', ' '] ++ ·) hrest

end Fragment

namespace Draft

open Outline (rowsText)

/-- The row of a comment begins with its sign, and opens no block. -/
theorem statement_comment (hc : CommentText c) (d : Draft) (line : Nat) :
    ∃ e r, d.statement (Tag.spaced ('#' :: ' ' :: c) line) = .ok e ∧ e.depth = d.depth ∧
      r.Sublist (' ' :: (c ++ [' '])) ∧
      e.rows = ⟨indentation d.depth ++ '#' :: r, line⟩ :: (d.newRow line).rows.tail := by
  have hline : '\n' ∉ (Tag.spaced ('#' :: ' ' :: c) line).body := by simp [Tag.spaced, hc.line]
  have htrim : Text.trim (Tag.spaced ('#' :: ' ' :: c) line).body =
      '#' :: Text.trimEnd (' ' :: (c ++ [' '])) := Text.trimEnd_cons (by decide) _
  have hblank : Text.allBlank (Tag.spaced ('#' :: ' ' :: c) line).body = false := by
    rw [Bool.eq_false_iff]
    intro hall
    rw [Text.trim_of_allBlank hall] at htrim
    cases htrim
  have hsub := sublist_trimEnd (' ' :: (c ++ [' ']))
  generalize Text.trimEnd (' ' :: (c ++ [' '])) = r at htrim hsub
  have hr : '\n' ∉ '#' :: r := by
    rw [List.mem_cons, not_or]
    refine ⟨by decide, fun hmem => hline ?_⟩
    exact List.mem_cons_of_mem _ (List.mem_cons_of_mem _ (hsub.subset hmem))
  have hpush := push_eq (newRow_rows d d.depth line) (Text.cutAt_eq_singleton hr) line
  have hcode : (d.newRow line).codeLine (line + 0) false (Tag.spaced ('#' :: ' ' :: c) line).body =
      (d.newRow line).push ('#' :: r) line := by
    rw [codeLine]
    simp only [Bool.false_eq_true, if_false, Text.trim_dropLastIf, htrim]
    rfl
  refine ⟨(d.newRow line).push ('#' :: r) line, r, ?_, ?_, hsub, ?_⟩
  · rw [statement, if_neg (by rw [hblank]; exact Bool.false_ne_true), Fragment.ofBody_comment hc,
      ← hcode]
    simp only [fragments, fragment, Text.cutAt_eq_singleton hline, codeLines]
    rfl
  · rw [push_depth, newRow_depth]
  · exact congrArg Draft.rows hpush

/-- The rows that are kept when the next code gets its own, and what the source has behind
them. -/
theorem exists_blankLine {d : Draft} (hrows : ∀ row ∈ d.rows, '\n' ∉ row.code) (line : Nat) :
    ∃ z, Lexer.IsBlankLine z ∧
      d.source ++ ['\n'] = rowsText (d.newRow line).rows.tail.reverse ++ z := by
  unfold newRow
  dsimp only
  split
  · rename_i hnil
    refine ⟨['\n'], .inr ⟨[], rfl, nofun⟩, ?_⟩
    rw [source, hnil]
    rfl
  · rename_i last others hlast
    have hsource : d.source ++ ['\n'] = rowsText d.rows.reverse := by
      rw [source, Outline.rowsText_eq_join (by simp [hlast])]
    rw [hsource]
    split
    · rename_i hblank
      refine ⟨last.code ++ ['\n'], .inr ⟨last.code, rfl, fun g hg => ⟨?_, ?_⟩⟩, ?_⟩
      · exact List.all_eq_true.mp hblank g hg
      · rintro rfl
        exact hrows last (by simp [hlast]) hg
      · rw [hlast, List.reverse_cons, Outline.rowsText_append]
        simp [rowsText]
    · exact ⟨[], .inl rfl, by rw [hlast, List.append_nil]; rfl⟩

theorem endsLine_rowsText (rows : List Row) : (rowsText rows).EndsLine := by
  intro c hc
  obtain rfl | ⟨before, last, rfl⟩ := List.eq_nil_or_concat rows
  · cases hc
  · rw [List.concat_eq_append, Outline.rowsText_append] at hc
    have hend : rowsText [last] = last.code ++ ['\n'] := List.append_nil _
    rw [hend, ← List.append_assoc, List.getLast?_concat] at hc
    exact (Option.some.inj hc).symm

end Draft

theorem Generated.ofTemplate_comment (hc : CommentText c) {t : Text} {g : Generated}
    (h : Generated.ofTemplate t = .ok g) :
    ∃ g' before z r, Generated.ofTemplate (t ++ commentTag c) = .ok g' ∧ before.EndsLine ∧
      Lexer.IsBlankLine z ∧ r.Sublist (' ' :: (c ++ [' '])) ∧ g.source = before ++ z ∧
      g'.source = before ++ '#' :: (r ++ ['\n']) := by
  obtain ⟨d, hclosed, hd, hfinish, htraced⟩ := exists_draft h
  have hplain : ∀ d ∈ '#' :: ' ' :: c, d ≠ '%' ∧ isQuote d = false :=
    List.forall_mem_cons.mpr ⟨⟨by decide, rfl⟩,
      List.forall_mem_cons.mpr ⟨⟨by decide, rfl⟩, hc.plain⟩⟩
  obtain ⟨line, hsplit⟩ := Splitting.ofTemplate_append hplain hclosed
  obtain ⟨e, r, he, hdepth, hsub, hrows⟩ := Draft.statement_comment hc d line
  obtain ⟨z, hz, hsource⟩ := Draft.exists_blankLine
    (fun row hrow => htraced.newline_not_mem row (List.mem_reverse.mpr hrow)) line
  unfold Draft.finish at hfinish
  split at hfinish <;> cases hfinish
  rename_i hzero
  have hgenerated : Generated.ofTemplate (t ++ commentTag c) = e.finish := by
    have htag : t ++ commentTag c = t ++ Tag.written ('#' :: ' ' :: c) := rfl
    have hsegment : d.segment (.tag (Tag.spaced ('#' :: ' ' :: c) line)) = .ok e := he
    rw [htag, Generated.ofTemplate, hsplit]
    simp only [List.foldlM_append, hd, List.foldlM_cons, List.foldlM_nil, bind, Except.bind,
      hsegment, pure, Except.pure]
  refine ⟨⟨e.source ++ ['\n'], e.rows.reverse.map Row.line⟩, _, z, r, ?_,
    Draft.endsLine_rowsText _, hz, hsub, hsource, ?_⟩
  · rw [hgenerated, Draft.finish, if_pos (hdepth.trans hzero)]
  · have hne : e.rows.reverse ≠ [] := by simp [hrows]
    have hjoin := Outline.rowsText_eq_join hne
    show e.source ++ ['\n'] = _
    rw [Draft.source, hjoin, hrows, List.reverse_cons, Outline.rowsText_append, hzero]
    simp [Outline.rowsText, Draft.indentation, Text.times]

theorem Program.ofTemplate_comment (hc : CommentText c) {name t : Text} {p : Program}
    (h : Program.ofTemplate name t = .ok p) :
    ∃ p', Program.ofTemplate name (t ++ commentTag c) = .ok p' ∧ p'.body = p.body := by
  unfold Program.ofTemplate at h ⊢
  cases hg : Generated.ofTemplate t with
  | error e =>
      rw [hg] at h
      cases h
  | ok g =>
      rw [hg] at h
      dsimp only at h
      cases hparse : parseProgram g.source with
      | error e =>
          rw [hparse] at h
          cases h
      | ok body =>
          rw [hparse] at h
          cases h
          obtain ⟨g', before, z, r, hg', hbefore, hz, hsub, hsource, hsource'⟩ :=
            Generated.ofTemplate_comment hc hg
          have hchars : ∀ d ∈ r, d ≠ '\n' ∧ isQuote d = false := by
            intro d hd
            have hmem := hsub.subset hd
            simp only [List.mem_cons, List.mem_append, List.not_mem_nil, or_false] at hmem
            obtain rfl | hmem | rfl := hmem
            · exact ⟨by decide, rfl⟩
            · exact ⟨fun h => hc.line (h ▸ hmem), (hc.plain d hmem).2⟩
            · exact ⟨by decide, rfl⟩
          rw [hsource] at hparse
          have hparse' := Parser.parseProgram_comment hbefore hz
            (fun hmem => (hchars _ hmem).1 rfl) (fun d hd => (hchars d hd).2) hparse
          rw [← hsource'] at hparse'
          simp only [hg', hparse']
          exact ⟨_, rfl, rfl⟩

/-- The output of a program depends on its body only. -/
theorem Program.render_eq_ok {p p' : Program} (hbody : p'.body = p.body) {ω : Type}
    (host : Host ω) (site : Site) (vars : Entries Value) (shared after : Shared ω)
    (output : Text) :
    p'.render host site vars shared = .ok output after ↔
      p.render host site vars shared = .ok output after := by
  unfold Program.render
  rw [hbody]
  cases Run.program host p.body (begin site vars shared) with
  | ok a s => rfl
  | error signal s => cases signal <;> simp

/-- The program of an empty template does nothing. -/
theorem renderText_of_body {name t : Text} {p : Program} (h : Program.ofTemplate name t = .ok p)
    (hbody : p.body = []) (site : Site) (vars : Entries Value) (shared : Shared Unit) :
    ∃ after, renderText name t site vars shared = .ok [] after := by
  unfold renderText
  rw [h]
  dsimp only
  unfold Program.render
  rw [hbody]
  exact ⟨_, rfl⟩

theorem exists_of_isOk {ε α : Type} {x : Except ε α} (h : x.isOk = true) : ∃ a, x = .ok a := by
  cases x with
  | error e => cases h
  | ok a => exact ⟨a, rfl⟩

theorem ofTemplate_nil (name : Text) : ∃ p, Program.ofTemplate name [] = .ok p ∧ p.body = [] := by
  have hparse : parseProgram ['\n'] = .ok [] := rfl
  have hgenerated : Generated.ofTemplate [] = .ok ⟨['\n'], []⟩ := rfl
  unfold Program.ofTemplate
  rw [hgenerated]
  simp only [hparse]
  exact ⟨_, rfl, rfl⟩

/-- A tag that holds nothing but a comment, in which there is no marker of a statement tag, may be
put behind every template: the program stays the same statements on the same rows, so that what
it outputs is the same. By itself it is a template without output. -/
theorem comment_inert (hc : CommentText c) :
    (∀ name t p, Program.ofTemplate name t = .ok p →
      ∃ p', Program.ofTemplate name (t ++ commentTag c) = .ok p' ∧ p'.body = p.body ∧
        ∀ {ω : Type} (host : Host ω) site vars shared output (after : Shared ω),
          p'.render host site vars shared = .ok output after ↔
            p.render host site vars shared = .ok output after) ∧
    ∀ name site vars shared, ∃ after,
      renderText name (commentTag c) site vars shared = .ok [] after := by
  constructor
  · intro name t p h
    obtain ⟨p', h', hbody⟩ := Program.ofTemplate_comment hc h
    exact ⟨p', h', hbody, fun host site vars shared output after =>
      Program.render_eq_ok hbody host site vars shared after output⟩
  · intro name site vars shared
    obtain ⟨p, h, hbody⟩ := ofTemplate_nil name
    obtain ⟨p', h', hbody'⟩ := Program.ofTemplate_comment hc h
    exact renderText_of_body h' (hbody'.trans hbody) site vars shared

/-- A comment with a colon, brackets and a hyphen, behind a print and a line break. -/
theorem comment_inert_note :
    let c := "a note: see {x} - or (y)".toList
    let t := "<%= x %>\n".toList
    CommentText c ∧
      (∃ p p', Program.ofTemplate Program.anonymous t = .ok p ∧
        Program.ofTemplate Program.anonymous (t ++ commentTag c) = .ok p' ∧ p'.body = p.body) ∧
      ∀ site vars shared, ∃ after,
        renderText Program.anonymous (commentTag c) site vars shared = .ok [] after := by
  intro c t
  have hc : CommentText c := by
    have hplain : (c.all fun d => d ≠ '%' && !isQuote d) = true := by decide
    refine ⟨by decide, by simpa using hplain, by decide, by decide +kernel, by decide +kernel, ?_⟩
    rintro before after hparts -
    have hnone : ¬ "end".toList <:+: c := by decide +kernel
    exact hnone ⟨before, after, hparts.symm⟩
  have hok : (Program.ofTemplate Program.anonymous t).isOk = true := by decide +kernel
  obtain ⟨p, hp⟩ := exists_of_isOk hok
  obtain ⟨p', hp', hbody, -⟩ := (comment_inert hc).1 _ t p hp
  exact ⟨hc, ⟨p, p', hp, hp', hbody⟩, (comment_inert hc).2 _⟩

/-- A marker cuts a comment as it cuts code: what comes behind it is a statement, or a block is
opened that is not closed, or closed that is not open. -/
theorem comment_cut_at_markers :
    let cut := ["a; b".toList, ['{', ':'], [':', '}'], "the end".toList]
    (cut.all fun c => c.all fun d => d ≠ '\n' && d ≠ '%' && !isQuote d) = true ∧
      (Program.ofTemplate Program.anonymous []).toOption.map (·.body.length) = some 0 ∧
      cut.map (fun c =>
        (Program.ofTemplate Program.anonymous ([] ++ commentTag c)).toOption.map
          (·.body.length)) = [some 1, none, none, none] := by
  decide +kernel

end TemplateEngine
