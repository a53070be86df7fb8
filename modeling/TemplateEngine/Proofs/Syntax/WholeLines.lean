import Mathlib.Data.List.Forall2
import TemplateEngine.Proofs.Syntax.QuotedRuns

/-!
# What comes behind whole lines

No token goes on behind a line break but a string, and that needs another quote. So the tokens
of whole lines are the same whatever comes behind them, as long as it holds no quote: two texts of
which one stands for the other do so behind all lines as well. What stands for a text is cut into
tokens of the same kinds, and they are on the same lines except for those of the layout.
-/
namespace TemplateEngine

open Segment (isQuote)

theorem Position.Passes.eq_after {p p' : Position} {passed rest : Text}
    (h : p.Passes (passed ++ rest) p' rest) : p' = p.after passed := by
  obtain ⟨passed', hparts, rfl⟩ := h
  rw [List.append_cancel_right hparts]

/-- A text that ends a line. -/
def Text.EndsLine (t : Text) : Prop := ∀ c ∈ t.getLast?, c = '\n'

theorem Text.EndsLine.of_suffix {s t : Text} (ht : t.EndsLine) (hs : s <:+ t) : s.EndsLine := by
  obtain ⟨before, rfl⟩ := hs
  intro c hc
  refine ht c ?_
  rw [List.getLast?_append, hc]
  rfl

theorem Text.EndsLine.tail {c : Char} {t : Text} (ht : Text.EndsLine (c :: t)) : t.EndsLine :=
  ht.of_suffix (List.suffix_cons c t)

/-- What does not end a line is not all that is left. -/
theorem Text.EndsLine.ne_nil {c : Char} {t : Text} (ht : Text.EndsLine (c :: t)) (hc : c ≠ '\n') :
    t ≠ [] := by
  rintro rfl
  exact hc (ht c rfl)

namespace Literal

variable {start p : Position} {quote : Char} {triple : Bool} {mode : StringMode} {value : Text}
  {found : Scanned} {t z : Text}

/-- Three quotes are needed to end a string that begins with three. -/
theorem stringBody_quote (ht : [quote, quote].isPrefixOf t = false) :
    stringBody start quote true .plain p value (quote :: t) =
      stringBody start quote true .plain (p.step quote) (quote :: value) t := by
  rw [stringBody.eq_def]
  simp only [if_true]
  split
  · rw [if_neg]
    rintro hquotes
    simp only [Bool.and_eq_true, decide_eq_true_eq] at hquotes
    simp [hquotes.1, hquotes.2] at ht
  · rfl

/-- A string that ends before a text without its quote is one without that text. -/
theorem stringBody_before (hquote : isQuote quote = true) (hz : quote ∉ z)
    (hmode : mode ≠ .escape)
    (h : stringBody start quote triple mode p value (t ++ z) = .ok found) :
    ∃ rest, found.rest = rest ++ z ∧
      stringBody start quote triple mode p value t = .ok ⟨found.kind, rest, found.stop⟩ := by
  induction hn : t.length using Nat.strongRecOn generalizing mode p value t with
  | ind n ih =>
      subst hn
      have hends := closing?_of_stringBody hquote h hmode
      cases t with
      | nil => exact absurd (Segment.closing?_eq_none hz) hends
      | cons c t =>
          by_cases hc : c = quote
          · subst hc
            cases plain_of_quote (.inl rfl) hquote hmode h
            by_cases hclosed : ∃ after, t = closers c triple ++ after
            · obtain ⟨after, rfl⟩ := hclosed
              rw [List.cons_append, List.append_assoc, stringBody_close] at h
              cases h
              exact ⟨after, rfl, stringBody_close after⟩
            · cases triple with
              | false => exact absurd ⟨t, rfl⟩ hclosed
              | true =>
                  have hquotes : [c, c].isPrefixOf t = false := by
                    rw [Bool.eq_false_iff, ne_eq, List.isPrefixOf_iff_prefix]
                    rintro ⟨after, rfl⟩
                    exact hclosed ⟨after, rfl⟩
                  have hhead : z.head? ≠ some c := fun h => hz (List.mem_of_head? h)
                  have happend := pair_isPrefixOf_append hhead t
                  rw [hquotes] at happend
                  rw [List.cons_append, stringBody_quote happend] at h
                  rw [stringBody_quote hquotes]
                  exact ih _ (Nat.lt_succ_self _) nofun h rfl
          · by_cases hescape : c = '\\'
            · subst hescape
              cases t with
              | nil =>
                  have hnone : quote ∉ '\\' :: z := by
                    rw [List.mem_cons, not_or]
                    exact ⟨Ne.symm hc, hz⟩
                  exact absurd (Segment.closing?_eq_none hnone) hends
              | cons d t =>
                  obtain ⟨mode', value', hmode', hstep⟩ := stringBody_of_escape hquote hmode h
                  rw [List.cons_append, List.cons_append, hstep] at h
                  rw [hstep]
                  exact ih _ (Nat.lt_succ_of_lt (Nat.lt_succ_self _)) hmode' h rfl
            · obtain ⟨mode', value', hmode', hstep⟩ := stringBody_of_char hc hescape hmode h
              rw [List.cons_append, hstep] at h
              rw [hstep]
              exact ih _ (Nat.lt_succ_self _) hmode' h rfl

theorem string_before (hquote : isQuote quote = true) (hz : quote ∉ z)
    (h : string p quote (t ++ z) = .ok found) :
    ∃ rest, found.rest = rest ++ z ∧ string p quote t = .ok ⟨found.kind, rest, found.stop⟩ := by
  have hhead : z.head? ≠ some quote := fun h => hz (List.mem_of_head? h)
  rw [string_eq, pair_isPrefixOf_append hhead] at h
  rw [string_eq]
  split at h
  · rename_i hquotes
    have hlength : 2 ≤ t.length := (List.isPrefixOf_iff_prefix.mp hquotes).length_le
    rw [List.drop_append_of_le_length hlength] at h
    rw [if_pos hquotes]
    exact stringBody_before hquote hz nofun h
  · rename_i hquotes
    rw [if_neg hquotes]
    exact stringBody_before hquote hz nofun h

end Literal

/-- A token of the same kind, on the same line unless it is one of the layout. -/
def Token.Matches (t t' : Token) : Prop :=
  t.kind = t'.kind ∧ (Lexer.IsLayout t ∨ t'.span.line = t.span.line)

theorem Token.matches_self (ts : List Token) : List.Forall₂ Token.Matches ts ts :=
  List.forall₂_same.mpr fun _ _ => ⟨rfl, .inr rfl⟩

namespace Lexer

/-- Where the first outcome is that of a whole source, so is the second one, with tokens that
match. -/
def Outcome.MatchedBy (o o' : Outcome) : Prop :=
  o.failure = none → o'.failure = none ∧ List.Forall₂ Token.Matches o.tokens o'.tokens

theorem Outcome.MatchedBy.after {o o' : Outcome} {ts ts' : List Token} (h : o.MatchedBy o')
    (hts : List.Forall₂ Token.Matches ts ts') : (o.after ts).MatchedBy (o'.after ts') :=
  fun hok => ⟨(h hok).1, List.rel_append hts (h hok).2⟩

theorem Outcome.MatchedBy.of_failed {s : Lexer} {o' : Outcome} {error : LexError} {n : Nat}
    (h : s.round = .failed error n) : s.lexed.MatchedBy o' := by
  intro hok
  rw [lexed_failed h] at hok
  cases hok

/-- From every state the second text is cut into tokens that match those of the first. -/
def StandsFor (t t' : Text) : Prop :=
  ∀ p indents brackets start ended, (start = true → brackets = []) →
    (lexed ⟨t, p, indents, brackets, start, ended⟩).MatchedBy
      (lexed ⟨t', p, indents, brackets, start, ended⟩)

/-- A text that goes on with no token, and ends no string. -/
structure Behind (z : Text) : Prop where
  stops : Stops z
  unquoted : ∀ c ∈ z, isQuote c = false

theorem Behind.not_mem {z : Text} (hz : Behind z) {quote : Char} (hquote : isQuote quote = true) :
    quote ∉ z := by
  intro hmem
  rw [hz.unquoted quote hmem] at hquote
  cases hquote

section Blanks

variable {comment : Bool} {width width' : Nat} {p p' : Position} {c : Char} {r t : Text}

/-- The indentation goes on with a character, and a line break begins it anew, or it ends there,
whatever comes behind. -/
theorem indentation_cons (comment : Bool) (width : Nat) (p : Position) (c : Char) :
    (∃ comment' width', (c = '\n' → comment' = false ∧ width' = 0) ∧ ∀ t,
      indentation comment width p (c :: t) = indentation comment' width' (p.step c) t) ∨
    ∀ t, indentation comment width p (c :: t) = (width, p, c :: t) := by
  by_cases hnewline : c = '\n'
  · exact .inl ⟨false, 0, fun _ => ⟨rfl, rfl⟩, fun t => by rw [indentation, if_pos hnewline]⟩
  · have hnot : ∀ {q : Prop}, c = '\n' → q := fun h => absurd h hnewline
    simp only [indentation, if_neg hnewline]
    repeat' split
    all_goals first
      | exact .inl ⟨_, _, hnot, fun _ => rfl⟩
      | exact .inr fun _ => rfl

theorem indentation_append (h : indentation comment width p t = (width', p', c :: r))
    (tail : Text) :
    indentation comment width p (t ++ tail) = (width', p', c :: (r ++ tail)) := by
  induction t generalizing comment width p with
  | nil => cases h
  | cons d t ih =>
      rw [List.cons_append]
      obtain ⟨comment', width', -, hstep⟩ | hstop := indentation_cons comment width p d
      · rw [hstep] at h ⊢
        exact ih h
      · rw [hstop] at h ⊢
        cases h
        rfl

/-- Behind blank lines the indentation is measured anew. -/
theorem indentation_lines (ht : Text.EndsLine t) (hstart : t = [] → comment = false ∧ width = 0)
    (h : (indentation comment width p t).2.2 = []) (tail : Text) :
    indentation comment width p (t ++ tail) = indentation false 0 (p.after t) tail := by
  induction t generalizing comment width p with
  | nil =>
      obtain ⟨rfl, rfl⟩ := hstart rfl
      rfl
  | cons d t ih =>
      obtain ⟨comment', width', hnewline, hstep⟩ | hstop := indentation_cons comment width p d
      · rw [hstep] at h
        rw [List.cons_append, Position.after_cons, hstep]
        exact ih ht.tail (fun hnil => hnewline (by_contra fun hd => ht.ne_nil hd hnil)) h
      · rw [hstop] at h
        cases h

/-- Blanks that are passed over up to the end of a line go on behind it. -/
theorem skipBlanks_lines (ht : Text.EndsLine t) (hstart : t = [] → comment = false)
    (h : skipBlanks comment p t = (p', [])) (tail : Text) :
    skipBlanks comment p (t ++ tail) = skipBlanks false p' tail := by
  fun_induction skipBlanks comment p t
  case case1 comment p =>
    cases h
    rw [hstart rfl]
    rfl
  case case2 => cases h
  case case3 p d t hd ih =>
    rw [List.cons_append, skipBlanks_comment p _ hd]
    exact ih ht.tail (absurd · (ht.ne_nil hd)) h
  case case4 comment p d t hcomment hd ih =>
    rw [Bool.not_eq_true] at hcomment
    subst hcomment
    rw [List.cons_append, skipBlanks_plain p _ hd]
    exact ih ht.tail (fun _ => rfl) h
  case case5 comment p t hcomment _ ih =>
    rw [Bool.not_eq_true] at hcomment
    subst hcomment
    rw [List.cons_append, skipBlanks_hash]
    exact ih ht.tail (absurd · (ht.ne_nil (by decide))) h
  case case6 comment p hcomment t _ _ ih =>
    rw [Bool.not_eq_true] at hcomment
    subst hcomment
    rw [List.cons_append, List.cons_append, skipBlanks_continued]
    exact ih ht.tail.tail (fun _ => rfl) h
  case case7 => cases h
  case case8 => cases h

end Blanks

section Replacing

variable {z z' : Text} {p : Position} {indents : List Nat} {brackets : List Char} {ended : Bool}

/-- A string is the same whatever comes behind the text that it ends in. -/
theorem token_replace_string (hz : Behind z) (hz' : Behind z') {quote : Char}
    (hquote : isQuote quote = true) {t : Text} {tokens : List Token} {next : Lexer}
    (h : token ⟨quote :: (t ++ z), p, indents, brackets, false, ended⟩ quote (t ++ z) =
      .more tokens next) :
    ∃ rest k span outer stop, rest <:+ t ∧ tokens = [⟨k, span⟩] ∧
      next = ⟨rest ++ z, stop, indents, outer, false, false⟩ ∧
      ∀ q, ∃ span' stop',
        token ⟨quote :: (t ++ z'), q, indents, brackets, false, ended⟩ quote (t ++ z') =
          .more [⟨k, span'⟩] ⟨rest ++ z', stop', indents, outer, false, false⟩ := by
  rw [token_of_isQuote hquote] at h
  split at h
  · rename_i found hfound
    cases h
    obtain ⟨rest, hrest, halone⟩ := Literal.string_before hquote (hz.not_mem hquote) hfound
    have hsuffix : rest <:+ t := by
      have hshorter := Literal.length_string halone
      obtain ⟨passed, hpassed, -⟩ := Literal.passes_string halone
      obtain heq | hsuffix := List.suffix_cons_iff.mp ⟨passed, hpassed.symm⟩
      · have hlength := congrArg List.length heq
        simp only [List.length_cons] at hlength hshorter
        omega
      · exact hsuffix
    refine ⟨rest, found.kind, _, brackets, found.stop, hsuffix, rfl, ?_, fun q => ?_⟩
    · rw [hrest]
      rfl
    · have hhead : z'.head? ≠ some quote := fun h => hz'.not_mem hquote (List.mem_of_head? h)
      obtain ⟨stop', happend⟩ := Literal.string_append hhead halone q
      rw [token_of_isQuote hquote, happend]
      exact ⟨_, _, rfl⟩
  · cases h

/-- A token is the same, and at the same place, whatever comes behind the text that it ends
in. -/
theorem token_same (hz : Behind z) (hz' : Behind z') {c : Char} {t : Text} {tokens : List Token}
    {next : Lexer}
    (h : token ⟨c :: (t ++ z), p, indents, brackets, false, ended⟩ c (t ++ z) =
      .more tokens next) :
    ∃ rest outer stop tokens', rest <:+ t ∧
      next = ⟨rest ++ z, stop, indents, outer, false, false⟩ ∧
      token ⟨c :: (t ++ z'), p, indents, brackets, false, ended⟩ c (t ++ z') =
        .more tokens' ⟨rest ++ z', stop, indents, outer, false, false⟩ ∧
      List.Forall₂ Token.Matches tokens tokens' := by
  obtain ⟨rest, k, span, outer, stop, hrest, rfl, rfl, hother⟩ :
      ∃ rest k span outer stop, rest <:+ t ∧ tokens = [⟨k, span⟩] ∧
        next = ⟨rest ++ z, stop, indents, outer, false, false⟩ ∧
        ∀ q, ∃ span' stop',
          token ⟨c :: (t ++ z'), q, indents, brackets, false, ended⟩ c (t ++ z') =
            .more [⟨k, span'⟩] ⟨rest ++ z', stop', indents, outer, false, false⟩ := by
    cases hquote : isQuote c with
    | true => exact token_replace_string hz hz' hquote h
    | false => exact token_replace hz.stops hz'.stops (by simpa [isQuote] using hquote) h
  obtain ⟨span', stop', hsame⟩ := hother p
  obtain ⟨⟨_, ⟨⟩, hstart⟩, hpasses⟩ := token_spec h
  obtain ⟨⟨_, ⟨⟩, hstart'⟩, hpasses'⟩ := token_spec hsame
  have hstop : stop' = stop := by
    obtain ⟨before, rfl⟩ := hrest
    rw [List.append_assoc, ← List.cons_append] at hpasses hpasses'
    exact hpasses'.eq_after.trans hpasses.eq_after.symm
  subst hstop
  refine ⟨rest, outer, _, _, hrest, rfl, hsame, .cons ⟨rfl, .inr ?_⟩ .nil⟩
  rw [Span.line, Span.line, hstart, hstart']

variable (indents ended) in
/-- The indentation of a line of code opens or closes blocks whatever comes behind the line. -/
theorem lexed_indented {t r : Text} {width : Nat} {p' : Position} {c : Char}
    (h : indentation false 0 p t = (width, p', c :: r)) :
    (∃ error n, ∀ tail, round ⟨t ++ tail, p, indents, [], true, ended⟩ = .failed error n) ∨
    ∃ ts indents' ended', ∀ tail, lexed ⟨t ++ tail, p, indents, [], true, ended⟩ =
      (lexed ⟨c :: (r ++ tail), p', indents', [], false, ended'⟩).after ts := by
  have hmeasured := indentation_append h
  by_cases hdeeper : indents.headD 0 < width
  · refine .inr ⟨[emptyToken p' .indent], width :: indents, false, fun tail => lexed_more ?_⟩
    simp [-List.headD_eq_head?_getD, round, layout, hmeasured, hdeeper]
  · by_cases hshallower : width < indents.headD 0
    · by_cases hkept : (closeTo width indents).headD 0 = width
      · cases hclosed : indents.length - (closeTo width indents).length with
        | zero =>
            refine .inr ⟨[], closeTo width indents, false, fun tail => lexed_congr ?_⟩
            simp [-List.headD_eq_head?_getD, round, layout, hmeasured, hdeeper, hshallower, hkept, hclosed]
        | succ closed =>
            refine .inr ⟨List.replicate (closed + 1) (emptyToken p' .dedent),
              closeTo width indents, false, fun tail => lexed_more ?_⟩
            simp [-List.headD_eq_head?_getD, round, layout, hmeasured, hdeeper, hshallower, hkept, hclosed,
              List.replicate_succ]
      · refine .inl ⟨.inconsistentDedent p', (closeTo width indents).length, fun tail => ?_⟩
        simp [-List.headD_eq_head?_getD, round, layout, hmeasured, hdeeper, hshallower, hkept]
    · refine .inr ⟨[], indents, ended, fun tail => lexed_congr ?_⟩
      simp [-List.headD_eq_head?_getD, round, layout, hmeasured, hdeeper, hshallower]

/-- At the start of a line. -/
theorem matched_start (h : StandsFor z z') {t : Text} (ht : t.EndsLine)
    (hcode : ∀ {r p indents ended}, Text.EndsLine r → r.length ≤ t.length →
      (lexed ⟨r ++ z, p, indents, [], false, ended⟩).MatchedBy
        (lexed ⟨r ++ z', p, indents, [], false, ended⟩)) :
    (lexed ⟨t ++ z, p, indents, [], true, ended⟩).MatchedBy
      (lexed ⟨t ++ z', p, indents, [], true, ended⟩) := by
  rcases hmeasured : indentation false 0 p t with ⟨width, p', r⟩
  have hpasses := passes_indentation false 0 p t
  rw [hmeasured] at hpasses
  obtain ⟨passed, rfl, -⟩ := hpasses
  cases r with
  | nil =>
      have hthrough : ∀ tail, lexed ⟨passed ++ [] ++ tail, p, indents, [], true, ended⟩ =
          lexed ⟨tail, p.after (passed ++ []), indents, [], true, ended⟩ := by
        intro tail
        have hanew : indentation false 0 p (passed ++ [] ++ tail) =
            indentation false 0 (p.after (passed ++ [])) tail :=
          indentation_lines ht (fun _ => ⟨rfl, rfl⟩) (congrArg (·.2.2) hmeasured) tail
        have hlayout : layout ⟨passed ++ [] ++ tail, p, indents, [], true, ended⟩ =
            layout ⟨tail, p.after (passed ++ []), indents, [], true, ended⟩ := by
          simp only [layout, hanew]
        apply lexed_congr
        rw [round, round, hlayout]
        rfl
      rw [hthrough, hthrough]
      exact h _ _ _ _ _ fun _ => rfl
  | cons c r =>
      have hline : Text.EndsLine (c :: r) := ht.of_suffix (List.suffix_append passed _)
      obtain ⟨error, n, hfailed⟩ | ⟨ts, indents', ended', hlexed⟩ :=
        lexed_indented indents ended hmeasured
      · exact .of_failed (hfailed z)
      · rw [hlexed, hlexed]
        exact (hcode hline (by simp)).after (Token.matches_self _)

/-- Within a line. -/
theorem matched_within (hz : Behind z) (hz' : Behind z') (h : StandsFor z z') {t : Text}
    (ht : t.EndsLine)
    (hrest : ∀ {r p indents brackets start ended}, Text.EndsLine r → r.length < t.length →
      (start = true → brackets = []) →
        (lexed ⟨r ++ z, p, indents, brackets, start, ended⟩).MatchedBy
          (lexed ⟨r ++ z', p, indents, brackets, start, ended⟩)) :
    (lexed ⟨t ++ z, p, indents, brackets, false, ended⟩).MatchedBy
      (lexed ⟨t ++ z', p, indents, brackets, false, ended⟩) := by
  rcases hskip : skipBlanks false p t with ⟨p', r⟩
  cases r with
  | nil =>
      have hthrough : ∀ tail, lexed ⟨t ++ tail, p, indents, brackets, false, ended⟩ =
          lexed ⟨tail, p', indents, brackets, false, ended⟩ := by
        intro tail
        rw [lexed_eq_lexedIn, lexed_eq_lexedIn]
        exact lexedIn_congr (skipBlanks_lines ht (fun _ => rfl) hskip tail)
      rw [hthrough, hthrough]
      exact h _ _ _ _ _ nofun
  | cons c r =>
      have hpasses := passes_skipBlanks false p t
      rw [hskip] at hpasses
      obtain ⟨passed, hparts, hp'⟩ := hpasses
      have hline : Text.EndsLine (c :: r) := ht.of_suffix ⟨passed, hparts.symm⟩
      have hshorter : r.length < t.length := by
        rw [hparts]
        simp
        omega
      have hround : ∀ tail, round ⟨t ++ tail, p, indents, brackets, false, ended⟩ =
          if c = '\n' then
            if !brackets.isEmpty then
              .more [] ⟨r ++ tail, p'.step c, indents, brackets, false, ended⟩
            else if ended then .more [] ⟨r ++ tail, p'.step c, indents, brackets, true, ended⟩
            else .more [⟨.newline, ⟨p', p'.step c⟩⟩]
              ⟨r ++ tail, p'.step c, indents, brackets, true, true⟩
          else token ⟨c :: (r ++ tail), p', indents, brackets, false, ended⟩ c (r ++ tail) := by
        intro tail
        obtain ⟨q, hskip'⟩ := skipBlanks_append hskip
          (fun hc => hline.ne_nil (by rw [hc]; decide)) p tail
        have hq := passes_skipBlanks false p (t ++ tail)
        rw [hskip', hparts, List.append_assoc] at hq
        obtain rfl : q = p' := hq.eq_after.trans hp'.symm
        rw [round_within rfl, within]
        simp only [hskip']
        rfl
      by_cases hc : c = '\n'
      · simp only [if_pos hc] at hround
        cases hopen : brackets.isEmpty with
        | false =>
            simp only [hopen, Bool.not_false, if_true] at hround
            rw [lexed_more (hround z), lexed_more (hround z')]
            exact (hrest hline.tail hshorter (absurd · Bool.false_ne_true)).after .nil
        | true =>
            have hnil := List.isEmpty_iff.mp hopen
            simp only [hopen, Bool.not_true, Bool.false_eq_true, if_false] at hround
            cases ended with
            | true =>
                rw [lexed_more (hround z), lexed_more (hround z')]
                exact (hrest hline.tail hshorter fun _ => hnil).after .nil
            | false =>
                rw [lexed_more (hround z), lexed_more (hround z')]
                exact (hrest hline.tail hshorter fun _ => hnil).after (Token.matches_self _)
      · simp only [if_neg hc] at hround
        cases htoken : token ⟨c :: (r ++ z), p', indents, brackets, false, ended⟩ c (r ++ z) with
        | done tokens => exact absurd htoken (token_ne_done _ _ _ _)
        | failed error n => exact .of_failed ((hround z).trans htoken)
        | more tokens next =>
            obtain ⟨rest, outer, stop, tokens', hsuffix, rfl, hsame, hmatches⟩ :=
              token_same hz hz' htoken
            rw [lexed_more ((hround z).trans htoken), lexed_more ((hround z').trans hsame)]
            have hless := Nat.lt_of_le_of_lt hsuffix.sublist.length_le hshorter
            exact (hrest (hline.tail.of_suffix hsuffix) hless
              (absurd · Bool.false_ne_true)).after hmatches

/-- What stands for a text that goes on with no token and ends no string does so behind whole
lines. -/
theorem StandsFor.behind (hz : Behind z) (hz' : Behind z') (h : StandsFor z z') {t : Text}
    (ht : t.EndsLine) : StandsFor (t ++ z) (t ++ z') := by
  intro p indents brackets start ended hstart
  induction hn : t.length using Nat.strongRecOn
    generalizing t p indents brackets start ended with
  | ind n ih =>
      subst hn
      have hinside {p indents brackets ended} {r : Text} (hr : r.EndsLine)
          (hlength : r.length ≤ t.length) :
          (lexed ⟨r ++ z, p, indents, brackets, false, ended⟩).MatchedBy
            (lexed ⟨r ++ z', p, indents, brackets, false, ended⟩) := by
        refine matched_within hz hz' h hr fun hs hshorter hopen => ?_
        exact ih _ (Nat.lt_of_lt_of_le hshorter hlength) hs _ _ _ _ _ hopen rfl
      cases start with
      | false => exact hinside ht (Nat.le_refl _)
      | true =>
          cases hstart rfl
          exact matched_start h ht hinside

end Replacing

end Lexer

end TemplateEngine
