import TemplateEngine.Proofs.Text.Replacement
import TemplateEngine.Template.Generated

/-!
# Lines of segments

A text has a line for every line break and one more if anything follows the last of them.
The segments of a template that begins on a line lie, with all of their line breaks, within
the lines of the template. Only a last piece of literal text may end in the line break that
ends the template.
-/
namespace TemplateEngine.Text

@[simp] theorem length_lines_nil : (lines []).length = 0 := rfl

theorem length_lines_break (t : Text) : (lines ('\n' :: t)).length = (lines t).length + 1 := by
  obtain ⟨piece, pieces, ht⟩ := List.exists_cons_of_ne_nil (cutAt_ne_nil '\n' t)
  have hlast : ([] :: piece :: pieces).getLast? = (piece :: pieces).getLast? :=
    List.getLast?_cons_cons
  simp only [lines, cutAt, if_true, ht, hlast, List.dropLast_cons_cons, List.map_cons]
  split
  · split <;> simp
  · rfl

theorem length_lines_cons {c : Char} (hc : c ≠ '\n') (t : Text) :
    (lines (c :: t)).length = max 1 (lines t).length := by
  obtain ⟨piece, pieces, ht⟩ := List.exists_cons_of_ne_nil (cutAt_ne_nil '\n' t)
  simp only [lines, cutAt, if_neg hc, ht]
  cases pieces with
  | nil => cases piece <;> rfl
  | cons next pieces =>
      simp only [List.getLast?_cons_cons, List.dropLast_cons_cons, List.map_cons]
      split
      · split <;> simp
      · simp

theorem newlines_break (t : Text) : newlines ('\n' :: t) = newlines t + 1 :=
  List.count_cons_self

theorem newlines_cons {c : Char} (hc : c ≠ '\n') (t : Text) : newlines (c :: t) = newlines t :=
  List.count_cons_of_ne hc

theorem newlines_cons_congr (c : Char) {s t : Text} (h : newlines s = newlines t) :
    newlines (c :: s) = newlines (c :: t) := by
  simp only [newlines, List.count_cons] at h ⊢
  rw [h]

/-- Whatever is not empty adds its own lines to the line breaks before it. -/
theorem length_lines_append (s : Text) {t : Text} (ht : t ≠ []) :
    (lines (s ++ t)).length = newlines s + (lines t).length := by
  have hpos : 1 ≤ (lines t).length := by
    obtain ⟨c, t, rfl⟩ := List.exists_cons_of_ne_nil ht
    by_cases hc : c = '\n'
    · rw [hc, length_lines_break]
      omega
    · rw [length_lines_cons hc]
      omega
  induction s with
  | nil => simp
  | cons c s ih =>
      by_cases hc : c = '\n'
      · rw [hc, List.cons_append, length_lines_break, ih, newlines_break]
        omega
      · rw [List.cons_append, length_lines_cons hc, ih, newlines_cons hc]
        omega

theorem length_lines_concat (s : Text) : (lines (s ++ ['\n'])).length = newlines s + 1 :=
  length_lines_append s (List.cons_ne_nil _ _)

/-- What does not end in a line break has a line after the last one. -/
theorem length_lines_of_getLast? {t : Text} (ht : t ≠ []) (hlast : t.getLast? ≠ some '\n') :
    (lines t).length = newlines t + 1 := by
  obtain ⟨s, c, rfl⟩ := List.eq_nil_or_concat t |>.resolve_left ht
  have hc : c ≠ '\n' := by simpa using hlast
  rw [List.concat_eq_append, length_lines_append s (List.cons_ne_nil _ _), length_lines_cons hc,
    newlines_append, newlines_cons hc]
  rfl

end TemplateEngine.Text

namespace TemplateEngine

namespace Segment

theorem beforeOpener_parts (t : Text) : (beforeOpener t).1 ++ (beforeOpener t).2 = t := by
  fun_induction beforeOpener t <;> grind

/-- Nothing but an opener stops literal text. -/
theorem beforeOpener_stops (t : Text) :
    (beforeOpener t).2 = [] ∨ ∃ inside, (beforeOpener t).2 = '<' :: '%' :: inside := by
  fun_induction beforeOpener t <;> grind

/-- An opener takes no line break. -/
theorem opener_parts (t : Text) :
    ∃ signs, signs ++ (opener t).2.2 = t ∧ Text.newlines signs = 0 := by
  unfold opener
  split
  · exact ⟨['=', 'r', ' '], rfl, rfl⟩
  · exact ⟨['='], rfl, rfl⟩
  · exact ⟨['-'], rfl, rfl⟩
  · exact ⟨[], rfl, rfl⟩

/-- A body has the line breaks up to its closer, which ends in a sign. -/
theorem body?_parts {skip : Nat} {t body after : Text} {trims : Bool}
    (h : body? skip t = some (body, trims, after)) :
    ∃ passed, t = passed ++ '>' :: after ∧ Text.newlines passed = Text.newlines body := by
  fun_induction body? skip t generalizing body with
  | case1 => cases h
  | case2 skip c rest ih =>
      obtain ⟨⟨inner, closing⟩, hinner, heq⟩ := Option.map_eq_some_iff.mp h
      cases heq
      obtain ⟨passed, rfl, hpassed⟩ := ih hinner
      exact ⟨c :: passed, rfl, Text.newlines_cons_congr c hpassed⟩
  | case3 rest ih =>
      obtain ⟨⟨inner, closing⟩, hinner, heq⟩ := Option.map_eq_some_iff.mp h
      cases heq
      obtain ⟨passed, rfl, hpassed⟩ := ih hinner
      refine ⟨'%' :: '%' :: '>' :: passed, rfl, ?_⟩
      simp [Text.newlines_cons, hpassed]
  | case4 rest =>
      cases h
      exact ⟨['-', '%'], rfl, rfl⟩
  | case5 rest =>
      cases h
      exact ⟨['%'], rfl, rfl⟩
  | case6 c rest _ _ _ ih =>
      obtain ⟨⟨inner, closing⟩, hinner, heq⟩ := Option.map_eq_some_iff.mp h
      cases heq
      obtain ⟨passed, rfl, hpassed⟩ := ih hinner
      exact ⟨c :: passed, rfl, Text.newlines_cons_congr c hpassed⟩

/-- Where no tag opens, all of a text is literal. -/
theorem eq_of_beforeOpener {t piece rest : Text} (h : beforeOpener t = (piece, rest))
    (hnone : ∀ inside, rest ≠ '<' :: '%' :: inside) : piece = t := by
  have hparts := beforeOpener_parts t
  have hstops := beforeOpener_stops t
  rw [h] at hparts hstops
  obtain rfl | ⟨inside, hinside⟩ := hstops
  · rw [← hparts, List.append_nil]
  · exact absurd hinside (hnone inside)

/-- A text up to the sign that ends its first tag, which no line break follows within the tag. -/
theorem exists_passed {t piece inside body after : Text} {trims : Bool}
    (hbefore : beforeOpener t = (piece, '<' :: '%' :: inside))
    (hbody : body? 0 (opener inside).2.2 = some (body, trims, after)) :
    ∃ passed, t = passed ++ '>' :: after ∧
      Text.newlines passed = Text.newlines piece + Text.newlines body := by
  have hparts := beforeOpener_parts t
  rw [hbefore] at hparts
  obtain ⟨signs, hsigns, hopener⟩ := opener_parts inside
  obtain ⟨passed, hpassed, hnewlines⟩ := body?_parts hbody
  refine ⟨piece ++ '<' :: '%' :: signs ++ passed, ?_, ?_⟩
  · rw [← hparts, ← hsigns, hpassed]
    simp
  · simp [Text.newlines_cons, hopener, hnewlines]

/-- A line break that is dropped ends a line. -/
theorem length_lines_dropNewline (t : Text) :
    (if (dropNewline t).1 then 1 else 0) + (Text.lines (dropNewline t).2).length =
      (Text.lines t).length := by
  unfold dropNewline
  split
  · rw [Text.length_lines_cons (by decide), Text.length_lines_break]
    simp
    omega
  · rw [Text.length_lines_break]
    exact Nat.add_comm ..
  · exact Nat.zero_add _

theorem newlines_replace {old new : Text} (hold : old ≠ [])
    (h : Text.newlines old = Text.newlines new) (t : Text) :
    Text.newlines (Text.replace old new t) = Text.newlines t := by
  induction t using Text.replace_induction old hold with
  | nil => rw [Text.replace_nil hold]
  | found t ih => rw [Text.replace_found hold, Text.newlines_append, Text.newlines_append, ih, h]
  | other c t hc ih =>
      rw [Text.replace_other hold new hc]
      exact Text.newlines_cons_congr c ih

@[simp] theorem newlines_unescapeLiteral (t : Text) :
    Text.newlines (unescapeLiteral t) = Text.newlines t := by
  rw [unescapeLiteral, newlines_replace (by decide) (by decide),
    newlines_replace (by decide) (by decide)]

theorem isPrefixOf_concat {old t : Text} {c : Char} (hc : c ∉ old)
    (h : old.isPrefixOf t = false) : old.isPrefixOf (t ++ [c]) = false := by
  rw [← Bool.not_eq_true, List.isPrefixOf_iff_prefix] at h ⊢
  intro hprefix
  obtain heq | hprefix := List.prefix_concat_iff.mp hprefix
  · exact hc (heq ▸ List.mem_append_right _ List.mem_cons_self)
  · exact h hprefix

/-- A character that a replaced piece does not have stays at the end. -/
theorem replace_concat {old : Text} (hold : old ≠ []) (new : Text) {c : Char} (hc : c ∉ old)
    (t : Text) : Text.replace old new (t ++ [c]) = Text.replace old new t ++ [c] := by
  induction t using Text.replace_induction old hold with
  | nil =>
      have hnil : old.isPrefixOf [] = false := by
        obtain ⟨first, rest, rfl⟩ := List.exists_cons_of_ne_nil hold
        rfl
      have hother := isPrefixOf_concat hc hnil
      rw [List.nil_append] at hother ⊢
      rw [Text.replace_other hold new hother, Text.replace_nil hold, List.nil_append]
  | found t ih =>
      rw [List.append_assoc, Text.replace_found hold, ih, Text.replace_found hold,
        List.append_assoc]
  | other first t hfirst ih =>
      have hother := isPrefixOf_concat hc hfirst
      rw [List.cons_append] at hother ⊢
      rw [Text.replace_other hold new hother, ih, Text.replace_other hold new hfirst,
        List.cons_append]

theorem unescapeLiteral_concat (t : Text) :
    unescapeLiteral (t ++ ['\n']) = unescapeLiteral t ++ ['\n'] := by
  rw [unescapeLiteral, replace_concat (by decide) _ (by decide),
    replace_concat (by decide) _ (by decide)]
  rfl

/-- The text that is kept before a tag has no more line breaks. -/
theorem newlines_kept (fresh : Bool) (piece : Text) (trims : Bool) :
    Text.newlines ((if trims then withoutIndentation? fresh piece else none).getD piece) ≤
      Text.newlines piece := by
  have hle (p : Char → Bool) :
      Text.newlines (Text.trimEndWhile p piece) ≤ Text.newlines piece := by
    rw [Text.trimEndWhile, Text.newlines, List.count_reverse]
    exact Nat.le_trans ((List.dropWhile_sublist p).count_le '\n')
      (Nat.le_of_eq List.count_reverse)
  unfold withoutIndentation?
  grind [Text.newlines_nil]

theorem newlines_dropNewline (t : Text) :
    (if (dropNewline t).1 then 1 else 0) + Text.newlines (dropNewline t).2 = Text.newlines t := by
  unfold dropNewline
  split
  · rw [Text.newlines_cons (by decide), Text.newlines_break]
    exact Nat.add_comm ..
  · rw [Text.newlines_break]
    exact Nat.add_comm ..
  · exact Nat.zero_add _

/-- The line of the template that a segment is on. -/
def line : Segment → Nat
  | .literal _ line => line
  | .tag found => found.line

/-- The number of line breaks in a segment. -/
def breaks : Segment → Nat
  | .literal text _ => text.newlines
  | .tag found => found.body.newlines

/-- A segment that lies within the first lines of a template, up to `bound`. -/
def Within (bound : Nat) : Segment → Prop
  | .literal text line => 1 ≤ line ∧ line + Text.newlines text ≤ bound
  | .tag found => 1 ≤ found.line ∧ found.line + Text.newlines found.body ≤ bound

theorem within_ofLiteral {bound line : Nat} {piece : Text} (hline : 1 ≤ line)
    (hbound : line + Text.newlines piece ≤ bound) :
    ∀ segment ∈ ofLiteral piece line, segment.Within bound := by
  unfold ofLiteral
  split
  · intro segment hsegment
    cases hsegment
  · intro segment hsegment
    rw [List.mem_singleton.mp hsegment]
    exact ⟨hline, by rwa [newlines_unescapeLiteral]⟩

end Segment

namespace Splitting

open Segment

/-- Segments that lie within the lines of a template, the last of which may be literal text
that ends with its last line break. -/
def Within (bound : Nat) (segments : List Segment) : Prop :=
  ∃ settled last, segments = settled ++ last ∧ (∀ segment ∈ settled, segment.Within bound) ∧
    (last = [] ∨ ∃ text line, last = [.literal (text ++ ['\n']) line] ∧
      1 ≤ line ∧ line + Text.newlines text ≤ bound)

variable {bound line : Nat} {segments : List Segment}

theorem Within.append_left {before : List Segment} (h : Within bound segments)
    (hbefore : ∀ segment ∈ before, segment.Within bound) : Within bound (before ++ segments) := by
  obtain ⟨settled, last, rfl, hsettled, hlast⟩ := h
  refine ⟨before ++ settled, last, (List.append_assoc ..).symm, ?_, hlast⟩
  intro segment hsegment
  obtain hmem | hmem := List.mem_append.mp hsegment
  · exact hbefore segment hmem
  · exact hsettled segment hmem

theorem within_last {piece : Text} (hline : 1 ≤ line)
    (hbound : line + (Text.lines piece).length ≤ bound + 1) :
    Within bound (ofLiteral piece line) := by
  by_cases hnil : piece = []
  · exact ⟨[], [], by rw [ofLiteral, hnil]; rfl, by simp, .inl rfl⟩
  · by_cases hbreak : piece.getLast? = some '\n'
    · obtain ⟨text, rfl⟩ := List.getLast?_eq_some_iff.mp hbreak
      rw [Text.length_lines_concat] at hbound
      refine ⟨[], ofLiteral (text ++ ['\n']) line, rfl, by simp, .inr ?_⟩
      refine ⟨unescapeLiteral text, line, ?_, hline, ?_⟩
      · rw [← unescapeLiteral_concat]
        simp [ofLiteral]
      · rw [newlines_unescapeLiteral]
        omega
    · rw [Text.length_lines_of_getLast? hnil hbreak] at hbound
      exact ⟨ofLiteral piece line, [], (List.append_nil _).symm,
        within_ofLiteral hline (by omega), .inl rfl⟩

/-- The segments of text that begins on a line lie within the lines of a template that has
the lines of the text from there on. -/
theorem within_run (bound fuel : Nat) (fresh : Bool) (line : Nat) (t : Text) (hline : 1 ≤ line)
    (hbound : line + (Text.lines t).length ≤ bound + 1) :
    Within bound (run fuel fresh line t).segments := by
  induction fuel generalizing fresh line t with
  | zero => exact ⟨[], [], rfl, by simp, .inl rfl⟩
  | succ fuel ih =>
      unfold run
      split
      · rename_i piece inside hbefore
        simp only
        split
        · exact ⟨[], [], rfl, by simp, .inl rfl⟩
        · rename_i body trims after hbody
          obtain ⟨passed, htag, hcount⟩ := exists_passed hbefore hbody
          have hlines : (Text.lines t).length =
              Text.newlines piece + Text.newlines body + max 1 (Text.lines after).length := by
            rw [htag, Text.length_lines_append _ (List.cons_ne_nil _ _), hcount,
              Text.length_lines_cons (by decide)]
          rw [List.append_cons]
          have hrest (trims : Bool) :
              let found := if trims then dropNewline after else (false, after)
              (if found.1 then 1 else 0) + (Text.lines found.2).length =
                (Text.lines after).length := by
            cases trims
            · exact Nat.zero_add _
            · exact length_lines_dropNewline after
          refine Within.append_left (ih _ _ _ ?_ ?_) ?_
          · omega
          · have hleft := hrest trims
            simp only at hleft
            omega
          · intro segment hsegment
            obtain hmem | hmem := List.mem_append.mp hsegment
            · refine within_ofLiteral hline ?_ segment hmem
              exact Nat.le_trans (Nat.add_le_add_left (newlines_kept ..) line) (by omega)
            · rw [List.mem_singleton.mp hmem]
              constructor
              · exact Nat.le_add_right_of_le hline
              · simp only
                omega
      · rename_i piece rest hnone hbefore
        obtain rfl := eq_of_beforeOpener hbefore hnone
        exact within_last hline hbound

/-- Segments from one template line to another, each of them where the one before it ends or
later. -/
def Ordered : Nat → List Segment → Nat → Prop
  | line, [], upto => line ≤ upto
  | line, segment :: rest, upto =>
    line ≤ segment.line ∧ Ordered (segment.line + segment.breaks) rest upto

theorem Ordered.mono {line line' upto upto' : Nat} {segments : List Segment}
    (h : Ordered line segments upto) (hline : line' ≤ line) (hupto : upto ≤ upto') :
    Ordered line' segments upto' := by
  induction segments generalizing line line' with
  | nil => exact Nat.le_trans hline (Nat.le_trans h hupto)
  | cons segment rest ih => exact ⟨Nat.le_trans hline h.1, ih h.2 (Nat.le_refl _)⟩

theorem ordered_ofLiteral {line upto : Nat} {piece : Text} {segments : List Segment}
    (h : Ordered (line + piece.newlines) segments upto) :
    Ordered line (ofLiteral piece line ++ segments) upto := by
  unfold ofLiteral
  split
  · exact h.mono (Nat.le_add_right _ _) (Nat.le_refl _)
  · refine ⟨Nat.le_refl _, ?_⟩
    rw [breaks, newlines_unescapeLiteral]
    exact h

/-- The segments of a text lie on the lines from its first to its last. -/
theorem ordered_run (fuel : Nat) (fresh : Bool) (line : Nat) (t : Text) :
    Ordered line (run fuel fresh line t).segments (line + t.newlines) := by
  induction fuel generalizing fresh line t with
  | zero => exact Nat.le_add_right _ _
  | succ fuel ih =>
      unfold run
      split
      · rename_i piece inside hbefore
        simp only
        split
        · exact Nat.le_add_right _ _
        · rename_i body trims after hbody
          obtain ⟨passed, htag, hcount⟩ := exists_passed hbefore hbody
          have hlines : t.newlines = piece.newlines + body.newlines + after.newlines := by
            rw [htag, Text.newlines_append, hcount, Text.newlines_cons (by decide)]
          have hrest : let found := if trims then dropNewline after else (false, after)
              (if found.1 then 1 else 0) + Text.newlines found.2 = after.newlines := by
            cases trims
            · exact Nat.zero_add _
            · exact newlines_dropNewline after
          simp only at hrest
          -- the text that is kept before the tag ends no later than the text that is there
          have hkept := newlines_kept fresh piece (opener inside).2.1
          refine ordered_ofLiteral ⟨?_, ?_⟩
          · exact Nat.add_le_add_left hkept line
          · refine (ih _ _ _).mono ?_ ?_
            · exact Nat.le_add_right _ _
            · omega
      · rename_i piece rest hnone hbefore
        obtain rfl := eq_of_beforeOpener hbefore hnone
        rw [← List.append_nil (ofLiteral piece line)]
        exact ordered_ofLiteral (Nat.le_refl _)

theorem ordered_ofTemplate (t : Text) :
    Ordered 1 (Splitting.ofTemplate t).segments (t.newlines + 1) :=
  (ordered_run (t.length + 1) true 1 t).mono (Nat.le_refl 1) (Nat.le_of_eq (Nat.add_comm ..))

end Splitting

end TemplateEngine
