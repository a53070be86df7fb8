import TemplateEngine.Proofs.Template.Bodies

/-!
# Pieces of a template

A template that splits is a sequence of pieces, one for every segment: literal text in which
only doubled percent signs stand behind less-than signs, and tags. The piece of a tag begins
with the indentation that the tag takes away and ends with the line break that it takes away;
its body is read from what stands between the opener and the closer. So every character of the
template belongs to one piece, and every segment is on the line of its piece.
-/
namespace TemplateEngine

namespace Segment

/-- A body as it is read from what is written in a tag. The first argument counts the
characters of a quoted run still to come. -/
def unescapeBody : Nat → Text → Text
  | _, [] => []
  | skip + 1, c :: rest => c :: unescapeBody skip rest
  | 0, '%' :: '%' :: '>' :: rest => '%' :: '>' :: unescapeBody 0 rest
  | 0, c :: rest => c :: unescapeBody (quotedAfter c rest) rest

/-- The closer of a tag, with a hyphen or without one. -/
def closer (hyphen : Bool) : Text := if hyphen then ['-', '%', '>'] else ['%', '>']

/-- A tag as it is written, with the indentation and the line break that it takes away. -/
structure Written where
  indentation : Option Text
  opener : Opener
  raw : Text
  hyphen : Bool
  newline : Text
  deriving DecidableEq, Repr

/-- What is written for one segment. -/
inductive Piece where
  | literal (raw : Text)
  | tag (written : Written)
  deriving DecidableEq, Repr

namespace Written

/-- The characters of a tag. -/
def text (w : Written) : Text :=
  w.indentation.getD [] ++ (w.opener.text ++ (w.raw ++ (closer w.hyphen ++ w.newline)))

/-- The tag that is read, when the piece begins on a line. -/
def tag (w : Written) (line : Nat) : Tag :=
  ⟨w.opener.kind, unescapeBody 0 w.raw, line + (w.indentation.getD []).newlines,
    w.indentation.isSome, w.hyphen⟩

/-- What a tag takes away belongs to it, between the text before and the text behind it. Only
an opener with a hyphen takes indentation away, the spaces and tabs from the start of its line;
a closer with a hyphen takes one line break away if there is one, and no other closer does. -/
structure Fits (before after : Text) (w : Written) : Prop where
  admits : w.opener.admits w.raw = true
  trims : w.indentation.isSome = true → w.opener.trims = true
  blank : ∀ blanks ∈ w.indentation, ∀ c ∈ blanks, c = ' ' ∨ c = '\t'
  fresh : w.indentation.isSome = true → before = [] ∨ before.getLast? = some '\n'
  newline : w.newline = [] ∨ w.hyphen = true ∧ (w.newline = ['\n'] ∨ w.newline = ['\r', '\n'])
  takes : w.hyphen = true → w.newline = [] →
    ¬ ['\n'] <+: after ∧ ¬ ['\r', '\n'] <+: after

end Written

namespace Piece

/-- The characters of a piece. -/
def text : Piece → Text
  | literal raw => raw
  | tag w => w.text

/-- The segment that is read from a piece. -/
def segment (line : Nat) : Piece → Segment
  | literal raw => .literal (unescapeLiteral raw) line
  | tag w => .tag (w.tag line)

/-- The segments of pieces behind a text. -/
def segments : Text → List Piece → List Segment
  | _, [] => []
  | before, p :: ps => p.segment (1 + before.newlines) :: segments (before ++ p.text) ps

/-- A literal text is not empty and has no opening sign that is not escaped. -/
def Fits (before after : Text) : Piece → Prop
  | literal raw => raw ≠ [] ∧ ∀ u v, raw = u ++ '<' :: '%' :: v → v.head? = some '%'
  | tag w => w.Fits before after

/-- Pieces that fit behind a text. -/
def Fit : Text → List Piece → Prop
  | _, [] => True
  | before, p :: ps => p.Fits before (ps.flatMap text) ∧ Fit (before ++ p.text) ps

/-- Whether a piece is literal text. -/
def isLiteral : Piece → Bool
  | literal _ => true
  | tag _ => false

/-- No two pieces of literal text are next to each other. -/
def Apart : List Piece → Prop
  | p :: q :: ps => (p.isLiteral = false ∨ q.isLiteral = false) ∧ Apart (q :: ps)
  | _ => True

end Piece

variable {t : Text}

/-- A quoted run that ends within a text does not depend on what comes behind. -/
theorem quotedAfter_of_le {c : Char} {raw after : Text}
    (h : quotedAfter c (raw ++ after) ≤ raw.length) :
    quotedAfter c raw = quotedAfter c (raw ++ after) := by
  unfold quotedAfter at h ⊢
  split
  · rename_i hquote
    rw [if_pos hquote] at h
    cases hlong : closing? c (raw ++ after) with
    | some n =>
        rw [hlong, Option.getD_some] at h
        obtain ⟨w, others, hparts, rfl, hw⟩ := exists_quotedRest hlong
        obtain ⟨inner, rfl⟩ : w <+: raw :=
          List.prefix_of_prefix_length_le ⟨others, hparts.symm⟩ ⟨after, rfl⟩ h
        rw [hw.closing? hquote]
    | none =>
        cases hshort : closing? c raw with
        | none => rfl
        | some n =>
            obtain ⟨w, others, rfl, rfl, hw⟩ := exists_quotedRest hshort
            rw [List.append_assoc, hw.closing? hquote] at hlong
            cases hlong
  · rfl

theorem unescapeBody_other {c : Char} {rest : Text} (h : c = '%' → ∀ u, rest ≠ '%' :: '>' :: u) :
    unescapeBody 0 (c :: rest) = c :: unescapeBody (quotedAfter c rest) rest := by
  rw [unescapeBody]
  rintro u rfl rfl
  exact h rfl u rfl

/-- What is written in a tag, between the opener and the closer. -/
theorem exists_raw {skip : Nat} {body after : Text} {hyphen : Bool}
    (h : body? skip t = some (body, hyphen, after)) :
    ∃ raw, t = raw ++ (closer hyphen ++ after) ∧ skip ≤ raw.length ∧
      unescapeBody skip raw = body := by
  fun_induction body? skip t generalizing body with
  | case1 => cases h
  | case2 skip c rest ih =>
      obtain ⟨⟨inner, closing⟩, hinner, heq⟩ := Option.map_eq_some_iff.mp h
      cases heq
      obtain ⟨raw, rfl, hskip, hraw⟩ := ih hinner
      exact ⟨c :: raw, rfl, Nat.succ_le_succ hskip, by rw [unescapeBody, hraw]⟩
  | case3 rest ih =>
      obtain ⟨⟨inner, closing⟩, hinner, heq⟩ := Option.map_eq_some_iff.mp h
      cases heq
      obtain ⟨raw, rfl, -, hraw⟩ := ih hinner
      exact ⟨'%' :: '%' :: '>' :: raw, rfl, Nat.zero_le _, by rw [unescapeBody, hraw]⟩
  | case4 rest =>
      cases h
      exact ⟨[], rfl, Nat.le_refl 0, rfl⟩
  | case5 rest =>
      cases h
      exact ⟨[], rfl, Nat.le_refl 0, rfl⟩
  | case6 c rest hescaped _ _ ih =>
      obtain ⟨⟨inner, closing⟩, hinner, heq⟩ := Option.map_eq_some_iff.mp h
      cases heq
      obtain ⟨raw, rfl, hskip, hraw⟩ := ih hinner
      refine ⟨c :: raw, rfl, Nat.zero_le _, ?_⟩
      rw [unescapeBody_other, quotedAfter_of_le hskip, hraw]
      rintro rfl u rfl
      exact hescaped _ rfl rfl

/-- The opener of a tag, in front of its body. -/
theorem exists_opener {inside raw after : Text} {hyphen : Bool} (hinside : inside.head? ≠ some '%')
    (h : (opener inside).2.2 = raw ++ (closer hyphen ++ after)) :
    ∃ o : Opener, inside = o.signs ++ (raw ++ (closer hyphen ++ after)) ∧
      opener inside = (o.kind, o.trims, raw ++ (closer hyphen ++ after)) ∧
      o.admits raw = true := by
  fun_cases opener inside with
  | case1 rest =>
      obtain rfl : rest = _ := h
      exact ⟨.rawPrint, rfl, rfl, rfl⟩
  | case2 rest hraw =>
      rw [opener.eq_2 _ hraw] at h
      obtain rfl : rest = _ := h
      refine ⟨.print, rfl, rfl, ?_⟩
      rcases raw with _ | ⟨c, _ | ⟨d, raw⟩⟩
      · rfl
      · simp [Opener.admits, List.isPrefixOf]
      · have hboth : ¬ (c = 'r' ∧ d = ' ') := by
          rintro ⟨rfl, rfl⟩
          exact hraw _ rfl
        simp only [Opener.admits, List.isPrefixOf, Bool.and_true, Bool.not_eq_true',
          Bool.and_eq_false_iff, beq_eq_false_iff_ne]
        by_cases hc : 'r' = c
        · exact .inr fun hd => hboth ⟨hc.symm, hd.symm⟩
        · exact .inl hc
  | case3 rest =>
      obtain rfl : rest = _ := h
      exact ⟨.trimming, rfl, rfl, rfl⟩
  | case4 _ hraw hprint htrim =>
      rw [opener.eq_4 _ hraw hprint htrim] at h
      obtain rfl : inside = _ := h
      refine ⟨.statement, rfl, rfl, ?_⟩
      cases raw with
      | nil => cases hyphen <;> simp [closer] at hinside htrim
      | cons c raw =>
          simp only [List.cons_append, List.head?_cons, ne_eq, Option.some.injEq] at hinside
          have hequal : c ≠ '=' := fun hc => hprint _ (by rw [hc]; rfl)
          have hdash : c ≠ '-' := fun hc => htrim _ (by rw [hc]; rfl)
          simp [Opener.admits, hinside, hequal, hdash]

/-- The indentation that a tag takes away. -/
theorem exists_indentation {fresh : Bool} {piece kept : Text}
    (h : withoutIndentation? fresh piece = some kept) :
    ∃ blanks, piece = kept ++ blanks ∧ (∀ c ∈ blanks, c = ' ' ∨ c = '\t') ∧
      (kept = [] ∧ fresh = true ∨ kept.getLast? = some '\n') := by
  have hkept : Text.trimEndWhile (fun c => c = ' ' || c = '\t') piece = kept ∧
      (kept = [] ∧ fresh = true ∨ kept.getLast? = some '\n') := by
    simp only [withoutIndentation?] at h
    split at h
    · rename_i hnone
      split at h
      · rename_i hfresh
        cases h
        exact ⟨List.getLast?_eq_none_iff.mp hnone, .inl ⟨rfl, hfresh⟩⟩
      · cases h
    · rename_i last hlast
      split at h
      · rename_i hbreak
        cases h
        exact ⟨rfl, .inr (hbreak ▸ hlast)⟩
      · cases h
  obtain ⟨rfl, hends⟩ := hkept
  refine ⟨(piece.reverse.takeWhile fun c => c = ' ' || c = '\t').reverse, ?_, ?_, hends⟩
  · rw [Text.trimEndWhile, ← List.reverse_append, List.takeWhile_append_dropWhile,
      List.reverse_reverse]
  · intro c hc
    have hblank := List.all_eq_true.mp List.all_takeWhile c (List.mem_reverse.mp hc)
    simpa using hblank

/-- The text that a tag keeps before it, and the indentation that it takes away. -/
theorem exists_kept (trims fresh : Bool) (piece : Text) :
    let kept? := if trims then withoutIndentation? fresh piece else none
    ∃ indentation : Option Text, piece = kept?.getD piece ++ indentation.getD [] ∧
      kept?.isSome = indentation.isSome ∧ (indentation.isSome = true → trims = true) ∧
      (∀ blanks ∈ indentation, ∀ c ∈ blanks, c = ' ' ∨ c = '\t') ∧
      (indentation.isSome = true →
        kept?.getD piece = [] ∧ fresh = true ∨ (kept?.getD piece).getLast? = some '\n') := by
  intro kept?
  cases trims with
  | false => exact ⟨none, by simp [kept?]⟩
  | true =>
      cases hkept : kept? with
      | none => exact ⟨none, by simp⟩
      | some kept =>
          obtain ⟨blanks, hpiece, hblank, hends⟩ := exists_indentation hkept
          exact ⟨some blanks, hpiece, rfl, fun _ => rfl, by simpa using hblank, fun _ => hends⟩

/-- The line break that a closer takes away, and what it leaves of the text behind it. -/
theorem exists_behind (hyphen : Bool) (after : Text) :
    let behind := if hyphen then dropNewline after else (false, after)
    ∃ newline, after = newline ++ behind.2 ∧
      (newline = [] ∨ hyphen = true ∧ (newline = ['\n'] ∨ newline = ['\r', '\n'])) ∧
      (hyphen = true → newline = [] → ¬ ['\n'] <+: behind.2 ∧ ¬ ['\r', '\n'] <+: behind.2) ∧
      newline.newlines = (if behind.1 then 1 else 0) ∧
      (behind.1 = true → newline.getLast? = some '\n') := by
  intro behind
  cases hyphen with
  | false => exact ⟨[], by simp [behind]⟩
  | true =>
      have hbehind : behind = dropNewline after := rfl
      rw [hbehind]
      fun_cases dropNewline after with
      | case1 rest => exact ⟨['\r', '\n'], rfl, .inr ⟨rfl, .inr rfl⟩, by simp, rfl, fun _ => rfl⟩
      | case2 rest => exact ⟨['\n'], rfl, .inr ⟨rfl, .inl rfl⟩, by simp, rfl, fun _ => rfl⟩
      | case3 _ hboth hbreak =>
          refine ⟨[], rfl, .inl rfl, fun _ _ => ⟨?_, ?_⟩, rfl, by simp⟩
          · rintro ⟨rest, rfl⟩
            exact hbreak rest rfl
          · rintro ⟨rest, rfl⟩
            exact hboth rest rfl

theorem newlines_unescapeBody (skip : Nat) (t : Text) :
    (unescapeBody skip t).newlines = t.newlines := by
  fun_induction unescapeBody skip t with
  | case1 => rfl
  | case2 skip c rest ih => exact Text.newlines_cons_congr c ih
  | case3 rest ih => simpa [Text.newlines_cons] using ih
  | case4 c rest _ ih => exact Text.newlines_cons_congr c ih

/-- A tag opens where no second percent sign takes the meaning of the first one away. -/
theorem head?_of_beforeOpener {piece inside : Text}
    (h : beforeOpener t = (piece, '<' :: '%' :: inside)) : inside.head? ≠ some '%' := by
  fun_induction beforeOpener t generalizing piece with
  | case1 => cases h
  | case2 rest piece' after hrest ih =>
      cases h
      exact ih hrest
  | case3 rest hdouble =>
      cases h
      intro hhead
      obtain ⟨others, rfl⟩ := List.head?_eq_some_iff.mp hhead
      exact hdouble others rfl
  | case4 c rest _ hopener piece' after hrest ih =>
      cases h
      exact ih hrest

/-- Literal text has no opening sign that is not escaped. -/
theorem escaped_of_beforeOpener {u v : Text} (h : (beforeOpener t).1 = u ++ '<' :: '%' :: v) :
    v.head? = some '%' := by
  fun_induction beforeOpener t generalizing u with
  | case1 => simp at h
  | case2 rest piece after hrest ih =>
      rcases u with _ | ⟨a, _ | ⟨b, _ | ⟨c, u⟩⟩⟩
      · obtain rfl : '%' :: piece = v := by simpa using h
        rfl
      · simp at h
      · simp at h
      · exact ih (by rw [hrest]; simpa using And.right (And.right (And.right (by simpa using h))))
  | case3 rest => simp at h
  | case4 c rest _ hopener piece after hrest ih =>
      cases u with
      | nil =>
          obtain ⟨rfl, rfl⟩ : c = '<' ∧ piece = '%' :: v := by simpa using h
          have hparts := beforeOpener_parts rest
          rw [hrest] at hparts
          exact (hopener _ rfl hparts.symm).elim
      | cons a u => exact ih (by rw [hrest]; exact (List.cons.inj h).2)

end Segment

namespace Splitting

open Segment

variable {t : Text}

/-- A round that meets a tag reads literal text, which may be empty, and the piece of the tag. -/
theorem exists_round {before piece inside body after : Text} {fresh hyphen : Bool}
    (hfresh : fresh = true → before = [] ∨ before.getLast? = some '\n')
    (hbefore : beforeOpener t = (piece, '<' :: '%' :: inside))
    (hbody : body? 0 (opener inside).2.2 = some (body, hyphen, after)) :
    let kept? := if (opener inside).2.1 then withoutIndentation? fresh piece else none
    let behind := if hyphen then dropNewline after else (false, after)
    let tagLine := 1 + before.newlines + piece.newlines
    ∃ (kept : Text) (w : Written), kept?.getD piece = kept ∧ t = kept ++ (w.text ++ behind.2) ∧
      (∀ u v, kept = u ++ '<' :: '%' :: v → v.head? = some '%') ∧
      w.Fits (before ++ kept) behind.2 ∧
      w.tag (1 + (before ++ kept).newlines) =
        ⟨(opener inside).1, body, tagLine, kept?.isSome, hyphen⟩ ∧
      1 + (before ++ kept ++ w.text).newlines =
        tagLine + body.newlines + (if behind.1 then 1 else 0) ∧
      (behind.1 = true → (before ++ kept ++ w.text).getLast? = some '\n') := by
  have hparts := beforeOpener_parts t
  have hescaped := fun u v => @escaped_of_beforeOpener t u v
  obtain ⟨raw, hraw, -, hread⟩ := exists_raw hbody
  obtain ⟨o, rfl, hopener, hadmits⟩ := exists_opener (head?_of_beforeOpener hbefore) hraw
  obtain ⟨indentation, hpiece, hsome, htrims, hblank, hstart⟩ := exists_kept o.trims fresh piece
  obtain ⟨newline, hafter, hfound, htakes, hbreaks, hends⟩ := exists_behind hyphen after
  have hlines : raw.newlines = body.newlines := by rw [← hread, newlines_unescapeBody]
  simp only [hbefore, hopener] at hparts hescaped ⊢
  generalize (if o.trims then withoutIndentation? fresh piece else none) = kept?
    at hpiece hsome hstart ⊢
  generalize (if hyphen then dropNewline after else (false, after)) = behind
    at hafter htakes hbreaks hends ⊢
  subst hafter
  generalize kept?.getD piece = kept at hpiece hstart ⊢
  subst hpiece
  have htext : kept ++ Written.text ⟨indentation, o, raw, hyphen, newline⟩ =
      kept ++ indentation.getD [] ++ (o.text ++ (raw ++ (closer hyphen ++ newline))) := by
    rw [Written.text, List.append_assoc]
  refine ⟨kept, ⟨indentation, o, raw, hyphen, newline⟩, rfl, ?_, ?_, ?_, ?_, ?_, ?_⟩
  · rw [← hparts, ← List.append_assoc kept, htext]
    simp [Opener.text]
  · intro u v hkept
    have hhead := hescaped u (v ++ indentation.getD []) (by simp [hkept])
    cases v with
    | cons d v => simpa using hhead
    | nil =>
        cases indentation with
        | none => simp at hhead
        | some blanks =>
            have hblanks := hblank blanks rfl '%' (List.mem_of_mem_head? (by simpa using hhead))
            simp at hblanks
  · refine ⟨hadmits, htrims, hblank, fun h => ?_, hfound, htakes⟩
    obtain ⟨rfl, hnew⟩ | hlast := hstart h
    · rw [List.append_nil]
      exact hfresh hnew
    · exact .inr (by rw [List.getLast?_append, hlast, Option.some_or])
  · rw [Written.tag, hread, hsome]
    simp only [Text.newlines_append]
    congr 1
    omega
  · have hsigns : o.text.newlines = 0 := by cases o <;> rfl
    have hcloser : (closer hyphen).newlines = 0 := by cases hyphen <;> rfl
    rw [List.append_assoc, htext]
    simp only [Text.newlines_append, hsigns, hcloser, hlines, hbreaks]
    omega
  · intro h
    rw [List.append_assoc, htext]
    simp only [List.getLast?_append, hends h, Option.some_or]

theorem apart_tag (w : Written) {ps : List Piece} (h : Piece.Apart ps) :
    Piece.Apart (.tag w :: ps) := by
  cases ps with
  | nil => trivial
  | cons p ps => exact ⟨.inl rfl, h⟩

/-- Literal text before pieces is one more piece, unless it is empty. -/
theorem exists_literal {before kept : Text} {ps : List Piece}
    (hescaped : ∀ u v, kept = u ++ '<' :: '%' :: v → v.head? = some '%')
    (hfit : Piece.Fit (before ++ kept) ps) (hapart : Piece.Apart ps)
    (hfirst : ∀ p ∈ ps.head?, p.isLiteral = false) :
    ∃ qs, qs.flatMap Piece.text = kept ++ ps.flatMap Piece.text ∧
      Piece.segments before qs =
        ofLiteral kept (1 + before.newlines) ++ Piece.segments (before ++ kept) ps ∧
      Piece.Fit before qs ∧ Piece.Apart qs := by
  by_cases hkept : kept = []
  · subst hkept
    rw [List.append_nil] at hfit ⊢
    exact ⟨ps, rfl, rfl, hfit, hapart⟩
  · refine ⟨.literal kept :: ps, rfl, ?_, ⟨⟨hkept, hescaped⟩, hfit⟩, ?_⟩
    · rw [ofLiteral, if_neg (by simpa using hkept)]
      rfl
    · cases ps with
      | nil => trivial
      | cons p ps => exact ⟨.inr (hfirst p rfl), hapart⟩

/-- The pieces of text behind a text that ends a line, when the next tag may trim. -/
theorem exists_pieces {fuel : Nat} {fresh : Bool} (hfuel : t.length < fuel) (before : Text)
    (hfresh : fresh = true → before = [] ∨ before.getLast? = some '\n')
    (hclosed : (run fuel fresh (1 + before.newlines) t).unclosed = none) :
    ∃ ps, ps.flatMap Piece.text = t ∧
      Piece.segments before ps = (run fuel fresh (1 + before.newlines) t).segments ∧
      Piece.Fit before ps ∧ Piece.Apart ps := by
  induction fuel generalizing before fresh t with
  | zero => cases hfuel
  | succ fuel ih =>
      rcases hbefore : beforeOpener t with ⟨piece, rest⟩
      obtain hnone | ⟨inside, hinside⟩ := beforeOpener_stops t
      · have hparts := beforeOpener_parts t
        have hescaped := fun u v => @escaped_of_beforeOpener t u v
        rw [hbefore] at hnone hparts
        cases hnone
        obtain rfl : piece = t := by rwa [List.append_nil] at hparts
        rw [hbefore] at hescaped
        simp only [run, hbefore]
        have hnil : Piece.Fit (before ++ piece) [] := trivial
        simpa [Piece.segments] using exists_literal hescaped hnil trivial (by simp)
      · rw [hbefore] at hinside
        cases hinside
        cases hbody : body? 0 (opener inside).2.2 with
        | none =>
            simp only [run, hbefore, hbody] at hclosed
            cases hclosed
        | some found =>
            obtain ⟨body, hyphen, after⟩ := found
            have hshorter := length_behind_lt hbefore hbody
            obtain ⟨kept, w, hkept, ht, hescaped, hfits, htag, hline, hends⟩ :=
              exists_round hfresh hbefore hbody
            rw [run_tag hbefore hbody] at hclosed ⊢
            rw [← hline] at hclosed ⊢
            obtain ⟨ps, hps, hsegments, hfit, hapart⟩ := ih
              (Nat.lt_of_lt_of_le hshorter (Nat.le_of_lt_succ hfuel)) _ (fun h => .inr (hends h))
              hclosed
            have hfitting : Piece.Fit (before ++ kept) (.tag w :: ps) := ⟨hps ▸ hfits, hfit⟩
            obtain ⟨qs, hqs, hall⟩ := exists_literal hescaped hfitting
              (apart_tag w hapart) (by simp [Piece.isLiteral])
            refine ⟨qs, ?_, ?_, hall.2⟩
            · rw [hqs, List.flatMap_cons, hps, ht]
              rfl
            · rw [hall.1, hkept, ← htag, ← hsegments]
              rfl

/-- Every template that splits is made of one piece for each of its segments. -/
theorem ofTemplate_pieces (h : (ofTemplate t).unclosed = none) :
    ∃ ps, ps.flatMap Piece.text = t ∧ Piece.segments [] ps = (ofTemplate t).segments ∧
      Piece.Fit [] ps ∧ Piece.Apart ps :=
  exists_pieces (Nat.lt_succ_self _) [] (fun _ => .inl rfl) h

/-- A template with escaped delimiters, indentation and line breaks that tags take away, and a
closer in quotes. -/
theorem ofTemplate_pieces_trimming :
    let t := "1 <%% 2 %%>\n \t<%- if x: -%>\r\n<%=r '%>' + y %%> z --%>\n\n<% end %> <%= a %>".toList
    (ofTemplate t).unclosed = none ∧
      ∃ ps, ps.flatMap Piece.text = t ∧ Piece.segments [] ps = (ofTemplate t).segments ∧
        Piece.Fit [] ps ∧ Piece.Apart ps := by
  intro t
  have hclosed : (ofTemplate t).unclosed = none := by decide
  exact ⟨hclosed, ofTemplate_pieces hclosed⟩

end Splitting

end TemplateEngine
