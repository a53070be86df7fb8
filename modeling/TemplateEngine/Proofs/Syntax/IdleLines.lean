import TemplateEngine.Proofs.Syntax.WholeLines

/-!
# Lines without code

A comment on the last line of a source is as good as a blank line there, or none: what is left
are the tokens that close the source. A source that ends in such a line is parsed like one that
ends in a comment instead, down to the lines that its statements are on.
-/
namespace TemplateEngine

namespace Lexer

open Segment (isQuote)

section Closing

variable {p : Position} {indents : List Nat} {brackets : List Char} {start ended : Bool}

/-- The kinds of the tokens that close a source. -/
def closingKinds (indents : List Nat) (ended : Bool) : List TokenKind :=
  (if ended then [] else [.newline]) ++ (List.replicate indents.length .dedent ++ [.endOfInput])

theorem isLayout_of_mem_closingKinds {t : Token} (h : t.kind ∈ closingKinds indents ended) :
    IsLayout t := by
  unfold closingKinds at h
  cases ended <;> simp [IsLayout] at h ⊢ <;> tauto

theorem kinds?_end (p : Position) (start : Bool) :
    (lexed ⟨[], p, indents, [], start, ended⟩).kinds? = some (closingKinds indents ended) := by
  have hdone : round ⟨[], p, indents, [], start, ended⟩ =
      .done (closing ⟨[], p, indents, [], false, ended⟩) := by
    cases start <;> rfl
  rw [lexed_done hdone]
  cases ended <;> simp [Outcome.kinds?, closing, closingKinds, emptyToken]

/-- At the start of a line, what only blanks and comments follow closes the source. -/
theorem kinds?_of_indentation {t : Text} (h : (indentation false 0 p t).2.2 = []) :
    (lexed ⟨t, p, indents, [], true, ended⟩).kinds? = some (closingKinds indents ended) := by
  rw [← kinds?_end (indentation false 0 p t).2.1 true]
  congr 1
  apply lexed_congr
  simp [round, layout, h, within, indentation, skipBlanks]

/-- The end of a line of code closes the source as well. -/
theorem kinds?_newline (p : Position) :
    (lexed ⟨['\n'], p, indents, [], false, ended⟩).kinds? = some (closingKinds indents ended) := by
  cases ended with
  | true =>
      have hround : round ⟨['\n'], p, indents, [], false, true⟩ =
          .more [] ⟨[], p.step '\n', indents, [], true, true⟩ := rfl
      rw [lexed_more hround, Outcome.kinds?_after, kinds?_end]
      rfl
  | false =>
      have hround : round ⟨['\n'], p, indents, [], false, false⟩ =
          .more [⟨.newline, ⟨p, p.step '\n'⟩⟩] ⟨[], p.step '\n', indents, [], true, true⟩ := rfl
      rw [lexed_more hround, Outcome.kinds?_after, kinds?_end]
      rfl

/-- A line break inside brackets leaves them open. -/
theorem kinds?_open (t : Text) (ht : t = [] ∨ t = ['\n']) (p : Position) (bracket : Char)
    (outer : List Char) :
    (lexed ⟨t, p, indents, bracket :: outer, false, ended⟩).kinds? = none := by
  have hend (p : Position) :
      (lexed ⟨[], p, indents, bracket :: outer, false, ended⟩).kinds? = none := by
    have hround : round ⟨[], p, indents, bracket :: outer, false, ended⟩ =
        .failed (.unmatchedBracket bracket p) indents.length := rfl
    rw [lexed_failed hround]
    rfl
  rcases ht with rfl | rfl
  · exact hend p
  · have hround : round ⟨['\n'], p, indents, bracket :: outer, false, ended⟩ =
        .more [] ⟨[], p.step '\n', indents, bracket :: outer, false, ended⟩ := rfl
    rw [lexed_more hround, Outcome.kinds?_after, hend]
    rfl

end Closing

/-- Nothing, or a line of blanks. -/
def IsBlankLine (t : Text) : Prop :=
  t = [] ∨ ∃ w, t = w ++ ['\n'] ∧ ∀ g ∈ w, Text.isBlank g = true ∧ g ≠ '\n'

/-- Where a text can be cut into tokens at all, it closes the source. -/
def OnlyCloses (t : Text) : Prop :=
  ∀ p indents brackets start ended kinds, (start = true → brackets = []) →
    (lexed ⟨t, p, indents, brackets, start, ended⟩).kinds? = some kinds →
      brackets = [] ∧ kinds = closingKinds indents ended

section Idle

variable {p : Position} {indents : List Nat} {brackets : List Char} {start ended : Bool}
  {w c : Text}

/-- Blanks on a line are all passed over, or there is one that is no part of the language. -/
theorem indentation_blanks (hw : ∀ g ∈ w, Text.isBlank g = true ∧ g ≠ '\n') (width : Nat)
    (p : Position) :
    (indentation false width p (w ++ ['\n'])).2.2 = [] ∨
      ∃ width' p' g r, indentation false width p (w ++ ['\n']) = (width', p', g :: r) ∧
        Text.isBlank g = true ∧ g ≠ '\n' ∧ isInlineBlank g = false := by
  induction w generalizing width p with
  | nil => exact .inl rfl
  | cons g w ih =>
      obtain ⟨hblank, hnewline⟩ := hw g List.mem_cons_self
      have hrest := ih fun g' hg' => hw g' (List.mem_cons_of_mem _ hg')
      rw [List.cons_append]
      cases hinline : isInlineBlank g with
      | false =>
          obtain ⟨-, -, -, hhash, -⟩ := isBlank_not_mark hblank
          simp only [isInlineBlank, Bool.or_eq_false_iff, decide_eq_false_iff_not] at hinline
          obtain ⟨⟨⟨hspace, htab⟩, hreturn⟩, hfeed⟩ := hinline
          refine .inr ⟨width, p, g, w ++ ['\n'], ?_, hblank, hnewline, ?_⟩
          · simp [indentation, hnewline, hspace, htab, hreturn, hfeed, hhash]
          · simp [isInlineBlank, hspace, htab, hreturn, hfeed]
      | true =>
          obtain ⟨width', hstep⟩ : ∃ width', indentation false width p (g :: (w ++ ['\n'])) =
              indentation false width' (p.step g) (w ++ ['\n']) := by
            simp only [isInlineBlank, Bool.or_eq_true, decide_eq_true_eq] at hinline
            rcases hinline with ((rfl | rfl) | rfl) | rfl
            · exact ⟨width + 1, rfl⟩
            · exact ⟨(width / tabWidth + 1) * tabWidth, rfl⟩
            · exact ⟨width, rfl⟩
            · exact ⟨width, rfl⟩
          rw [hstep]
          exact hrest width' _

/-- Within a line of code, what is left of it closes the source. -/
theorem onlyCloses_within {kinds : List TokenKind}
    (hw : ∀ g ∈ w, Text.isBlank g = true ∧ g ≠ '\n')
    (h : (lexed ⟨w ++ ['\n'], p, indents, brackets, false, ended⟩).kinds? = some kinds) :
    brackets = [] ∧ kinds = closingKinds indents ended := by
  induction w generalizing p with
  | nil =>
      cases brackets with
      | nil => exact ⟨rfl, Option.some.inj (h.symm.trans (kinds?_newline p))⟩
      | cons bracket outer =>
          rw [List.nil_append, kinds?_open _ (.inr rfl)] at h
          cases h
  | cons g w ih =>
      obtain ⟨hblank, hnewline⟩ := hw g List.mem_cons_self
      rw [List.cons_append] at h
      cases hinline : isInlineBlank g with
      | true =>
          rw [lexed_inlineBlank hinline] at h
          exact ih (fun g' hg' => hw g' (List.mem_cons_of_mem _ hg')) h
      | false =>
          rw [failure_of_isBlank hblank hnewline hinline] at h
          cases h

theorem IsBlankLine.onlyCloses {z : Text} (hz : IsBlankLine z) : OnlyCloses z := by
  intro p indents brackets start ended kinds hstart h
  obtain rfl | ⟨w, rfl, hw⟩ := hz
  · cases brackets with
    | nil => exact ⟨rfl, Option.some.inj (h.symm.trans (kinds?_end p start))⟩
    | cons bracket outer =>
        cases start with
        | true => cases hstart rfl
        | false =>
            rw [kinds?_open _ (.inl rfl)] at h
            cases h
  · cases start with
    | false => exact onlyCloses_within hw h
    | true =>
        cases hstart rfl
        refine ⟨rfl, ?_⟩
        obtain hall | ⟨width, p', g, r, hmeasured, hblank, hnewline, hinline⟩ :=
          indentation_blanks hw 0 p
        · exact Option.some.inj (h.symm.trans (kinds?_of_indentation hall))
        · obtain ⟨error, n, hfailed⟩ | ⟨ts, indents', ended', hlexed⟩ :=
            lexed_indented indents ended hmeasured
          · have hround := hfailed []
            rw [List.append_nil] at hround
            rw [lexed_failed hround] at h
            cases h
          · have hgoes := hlexed []
            rw [List.append_nil] at hgoes
            rw [hgoes, failure_of_isBlank hblank hnewline hinline] at h
            cases h

theorem indentation_comment (hc : '\n' ∉ c) (width : Nat) (p : Position) :
    (indentation true width p (c ++ ['\n'])).2.2 = [] := by
  induction c generalizing p with
  | nil => rfl
  | cons d c ih =>
      rw [List.mem_cons, not_or] at hc
      rw [List.cons_append, indentation, if_neg (Ne.symm hc.1), if_pos rfl]
      exact ih hc.2 _

theorem skipBlanks_commentLine (hc : '\n' ∉ c) (p : Position) :
    skipBlanks true p (c ++ ['\n']) = (p.after c, ['\n']) := by
  induction c generalizing p with
  | nil => rfl
  | cons d c ih =>
      rw [List.mem_cons, not_or] at hc
      rw [List.cons_append, skipBlanks_comment p _ (Ne.symm hc.1), ih hc.2, Position.after_cons]

variable (indents ended) in
/-- A comment closes the source wherever a line may end. -/
theorem kinds?_comment (hc : '\n' ∉ c) (p : Position) (start : Bool) :
    (lexed ⟨'#' :: (c ++ ['\n']), p, indents, [], start, ended⟩).kinds? =
      some (closingKinds indents ended) := by
  cases start with
  | true =>
      apply kinds?_of_indentation
      rw [indentation]
      exact indentation_comment hc 0 _
  | false =>
      have hpassed : skipBlanks false p ('#' :: (c ++ ['\n'])) =
          skipBlanks false ((p.step '#').after c) ['\n'] := by
        rw [skipBlanks_hash, skipBlanks_commentLine hc]
        rfl
      rw [lexed_eq_lexedIn, lexedIn_congr hpassed, ← lexed_eq_lexedIn]
      exact kinds?_newline _

end Idle

theorem matches_of_kinds {ts ts' : List Token} (hkinds : ts'.map Token.kind = ts.map Token.kind)
    (hlayout : ∀ t ∈ ts, IsLayout t) : List.Forall₂ Token.Matches ts ts' := by
  induction ts generalizing ts' with
  | nil =>
      rw [List.map_eq_nil_iff.mp hkinds]
      exact .nil
  | cons t ts ih =>
      obtain ⟨t', ts', rfl, hkind, hrest⟩ := List.map_eq_cons_iff.mp hkinds
      exact .cons ⟨hkind.symm, .inl (hlayout t List.mem_cons_self)⟩
        (ih hrest fun u hu => hlayout u (List.mem_cons_of_mem _ hu))

variable {c z : Text}

/-- A comment line stands for whatever line of blanks there is. -/
theorem standsFor_comment (hz : IsBlankLine z) (hc : '\n' ∉ c) :
    StandsFor z ('#' :: (c ++ ['\n'])) := by
  intro p indents brackets start ended hstart hok
  obtain ⟨rfl, hkinds⟩ :=
    hz.onlyCloses p indents brackets start ended _ hstart
      (Outcome.kinds?_eq_some.mpr ⟨hok, rfl⟩)
  obtain ⟨hok', hkinds'⟩ := Outcome.kinds?_eq_some.mp
    (kinds?_comment indents ended hc p start)
  refine ⟨hok', matches_of_kinds (hkinds'.trans hkinds.symm) fun t ht => ?_⟩
  have hmem := List.mem_map_of_mem (f := Token.kind) ht
  rw [hkinds] at hmem
  exact isLayout_of_mem_closingKinds hmem

theorem IsBlankLine.behind (hz : IsBlankLine z) : Behind z := by
  have hblank : ∀ g ∈ z, Text.isBlank g = true := by
    obtain rfl | ⟨w, rfl, hw⟩ := hz
    · exact nofun
    · intro g hg
      obtain hg | hg := List.mem_append.mp hg
      · exact (hw g hg).1
      · rw [List.mem_singleton.mp hg]
        rfl
  refine ⟨fun g hg => ?_, fun g hg => ?_⟩
  · have hgap : isGap g = true := by simp [isGap, hblank g (List.mem_of_mem_head? hg)]
    simp [endsCode, hgap]
  · obtain ⟨-, -, hquote, -, -⟩ := isBlank_not_mark (hblank g hg)
    simpa [isQuote] using hquote

theorem behind_comment (hc : ∀ d ∈ c, isQuote d = false) : Behind ('#' :: (c ++ ['\n'])) := by
  refine ⟨fun g hg => ?_, fun g hg => ?_⟩
  · cases hg
    decide
  · simp only [List.mem_cons, List.mem_append, List.not_mem_nil, or_false] at hg
    obtain rfl | hg | rfl := hg
    · decide
    · exact hc g hg
    · decide

/-- In a source that ends in lines without code, the last of them may be a comment. -/
theorem tokenize_comment {t : Text} {tokens : List Token} (ht : t.EndsLine) (hz : IsBlankLine z)
    (hc : '\n' ∉ c) (hquote : ∀ d ∈ c, isQuote d = false)
    (h : tokenize (t ++ z) = .ok tokens) :
    ∃ tokens', tokenize (t ++ '#' :: (c ++ ['\n'])) = .ok tokens' ∧
      List.Forall₂ Token.Matches tokens tokens' := by
  have hstands := (standsFor_comment hz hc).behind hz.behind (behind_comment hquote) ht
  obtain ⟨hok, rfl⟩ := tokenize_eq_ok.mp h
  obtain ⟨hok', hmatches⟩ := hstands .start [] [] true true (fun _ => rfl) hok
  exact ⟨_, tokenize_eq_ok.mpr ⟨hok', rfl⟩, hmatches⟩

end Lexer

namespace Parser

/-- Where tokens match, statements begin on the same lines. -/
instance abreast_matches : Abreast (List.Forall₂ Token.Matches) fun _ => True where
  kind := by
    rintro _ _ (_ | ⟨hmatches, -⟩)
    · rfl
    · exact hmatches.1
  tail := by
    rintro _ _ (_ | ⟨-, hrest⟩)
    · exact .nil
    · exact hrest
  length := List.Forall₂.length_eq
  line := by
    rintro _ _ (_ | ⟨hmatches, -⟩) hbegins
    · rfl
    · obtain hlayout | hline := hmatches.2
      · rw [Lexer.mayBegin_layout hlayout] at hbegins
        cases hbegins
      · exact hline
  begins := fun _ _ => trivial

/-- A source with a comment for its last blank line is the same program. -/
theorem parseProgram_comment {t z c : Text} {body : Block} (ht : t.EndsLine)
    (hz : Lexer.IsBlankLine z) (hc : '\n' ∉ c) (hquote : ∀ d ∈ c, Segment.isQuote d = false)
    (h : parseProgram (t ++ z) = .ok body) :
    parseProgram (t ++ '#' :: (c ++ ['\n'])) = .ok body := by
  unfold parseProgram onSource at h ⊢
  split at h
  · cases h
  · rename_i tokens htokens
    obtain ⟨tokens', htokens', hmatches⟩ := Lexer.tokenize_comment ht hz hc hquote htokens
    split at h
    · rename_i rest hrun
      cases h
      have hloop : Keeps (List.Forall₂ Token.Matches) (looping programLoop) fun b =>
          AllBegin (fun _ => True) (linesBlock b) := keeps_looping keeps_programLoop
      obtain ⟨rest', hrun', -, -⟩ := hloop tokens tokens' body rest hmatches hrun
      simp only [htokens', hrun']
    · cases h

end Parser

end TemplateEngine
