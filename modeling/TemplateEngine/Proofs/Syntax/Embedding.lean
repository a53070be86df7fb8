import TemplateEngine.Proofs.Syntax.Gaps
import TemplateEngine.Proofs.Syntax.Lines
import TemplateEngine.Proofs.Syntax.Parting

/-!
# Lexing an expression inside a call

The tokens of a text that stands alone are the tokens of the same text between the
parentheses of a call, up to the end of its last line. Inside parentheses line
breaks do not count and indentation is not measured, so the simulation follows the
rounds of the text that stands alone and passes over the blanks that the other side
meets. A comment at the end of the text goes on with what follows it.
-/
namespace TemplateEngine

open TemplateEngine.Parser (breaksLine headToken)

namespace Lexer

variable {tail : Text} {indents : List Nat} {brackets : List Char} {ended : Bool}

section Blanks

variable (p : Position) (t : Text)

theorem skipBlanks_comment {c : Char} (hc : c ≠ '\n') :
    skipBlanks true p (c :: t) = skipBlanks true (p.step c) t := by
  rw [skipBlanks.eq_def]
  simp [hc]

theorem skipBlanks_plain {c : Char}
    (hc : (decide (c = ' ') || decide (c = '\t') || decide (c = '\r') ||
      decide (c = '\x0c')) = true) :
    skipBlanks false p (c :: t) = skipBlanks false (p.step c) t := by
  rw [skipBlanks.eq_def]
  simp only [Bool.false_eq_true, if_false, if_pos hc]

theorem skipBlanks_hash : skipBlanks false p ('#' :: t) = skipBlanks true (p.step '#') t := by
  rw [skipBlanks.eq_def]
  simp

theorem skipBlanks_continued : skipBlanks false p ('\\' :: '\n' :: t) =
    skipBlanks false ((p.step '\\').step '\n') t := by
  rw [skipBlanks.eq_def]
  simp

theorem skipBlanks_newline (comment : Bool) :
    skipBlanks comment p ('\n' :: t) = (p, '\n' :: t) := by
  rw [skipBlanks.eq_def]
  simp

end Blanks

theorem skipBlanks_append {comment : Bool} {p p' : Position} {t r : Text} {c : Char}
    (h : skipBlanks comment p t = (p', c :: r)) (hc : c = '\\' → r ≠ []) (q : Position)
    (tail : Text) :
    ∃ q', skipBlanks comment q (t ++ tail) = (q', c :: r ++ tail) := by
  fun_induction skipBlanks comment p t generalizing q
  case case1 => cases h
  case case2 =>
    cases h
    exact ⟨q, skipBlanks_newline q _ true⟩
  case case3 p d t hd ih =>
    rw [List.cons_append, skipBlanks_comment q _ hd]
    exact ih h (q.step d)
  case case4 comment p d t hcomment hd ih =>
    rw [Bool.not_eq_true] at hcomment
    subst hcomment
    rw [List.cons_append, skipBlanks_plain q _ hd]
    exact ih h (q.step d)
  case case5 comment p t hcomment _ ih =>
    rw [Bool.not_eq_true] at hcomment
    subst hcomment
    rw [List.cons_append, skipBlanks_hash]
    exact ih h (q.step '#')
  case case6 comment p hcomment t _ _ ih =>
    rw [Bool.not_eq_true] at hcomment
    subst hcomment
    rw [List.cons_append, List.cons_append, skipBlanks_continued]
    exact ih h ((q.step '\\').step '\n')
  case case7 comment p t hcomment hcontinued _ _ =>
    cases h
    rw [Bool.not_eq_true] at hcomment
    subst hcomment
    obtain ⟨d, t, rfl⟩ := List.exists_cons_of_ne_nil (hc rfl)
    have hd : d ≠ '\n' := fun heq => hcontinued t (by rw [heq])
    refine ⟨q, ?_⟩
    rw [List.cons_append, List.cons_append, skipBlanks.eq_def]
    simp [hd]
  case case8 comment p d t hcomment hd hhash hescape =>
    cases h
    rw [Bool.not_eq_true] at hcomment
    subst hcomment
    refine ⟨q, ?_⟩
    rw [List.cons_append, skipBlanks.eq_def]
    simp only [Bool.false_eq_true, if_false, if_neg hd, if_neg hhash, if_neg hescape]

/-- What is left of a text that holds no more than blanks depends on whether it ends in a
comment. -/
theorem skipBlanks_end {comment : Bool} {p p' : Position} {t : Text}
    (h : skipBlanks comment p t = (p', [])) :
    ∃ inComment, ∀ q tail, ∃ q', skipBlanks comment q (t ++ tail) =
      skipBlanks inComment q' tail := by
  fun_induction skipBlanks comment p t
  case case1 comment p => exact ⟨comment, fun q tail => ⟨q, rfl⟩⟩
  case case2 => cases h
  case case3 p d t hd ih =>
    obtain ⟨inComment, hrest⟩ := ih h
    refine ⟨inComment, fun q tail => ?_⟩
    rw [List.cons_append, skipBlanks_comment q _ hd]
    exact hrest (q.step d) tail
  case case4 comment p d t hcomment hd ih =>
    rw [Bool.not_eq_true] at hcomment
    subst hcomment
    obtain ⟨inComment, hrest⟩ := ih h
    refine ⟨inComment, fun q tail => ?_⟩
    rw [List.cons_append, skipBlanks_plain q _ hd]
    exact hrest (q.step d) tail
  case case5 comment p t hcomment _ ih =>
    rw [Bool.not_eq_true] at hcomment
    subst hcomment
    obtain ⟨inComment, hrest⟩ := ih h
    refine ⟨inComment, fun q tail => ?_⟩
    rw [List.cons_append, skipBlanks_hash]
    exact hrest (q.step '#') tail
  case case6 comment p hcomment t _ _ ih =>
    rw [Bool.not_eq_true] at hcomment
    subst hcomment
    obtain ⟨inComment, hrest⟩ := ih h
    refine ⟨inComment, fun q tail => ?_⟩
    rw [List.cons_append, List.cons_append, skipBlanks_continued]
    exact hrest ((q.step '\\').step '\n') tail
  case case7 => cases h
  case case8 => cases h

theorem skipBlanks_skipBlanks (comment : Bool) (p : Position) (t : Text) :
    skipBlanks false (skipBlanks comment p t).1 (skipBlanks comment p t).2 =
      skipBlanks comment p t := by
  fun_induction skipBlanks comment p t
  all_goals grind [skipBlanks.eq_def]

/-- What comes of a text inside a line, from within a comment or from between tokens. -/
def lexedIn (comment : Bool) (p : Position) (t : Text) (indents : List Nat)
    (brackets : List Char) (ended : Bool) : Outcome :=
  lexed ⟨(skipBlanks comment p t).2, (skipBlanks comment p t).1, indents, brackets, false, ended⟩

theorem lexed_eq_lexedIn (p : Position) (t : Text) :
    lexed ⟨t, p, indents, brackets, false, ended⟩ = lexedIn false p t indents brackets ended := by
  apply lexed_congr
  rw [round_within rfl, round_within rfl, within, within]
  simp only [skipBlanks_skipBlanks]

theorem lexedIn_congr {comment comment' : Bool} {p p' : Position} {t t' : Text}
    (h : skipBlanks comment p t = skipBlanks comment' p' t') :
    lexedIn comment p t indents brackets ended = lexedIn comment' p' t' indents brackets ended := by
  unfold lexedIn
  rw [h]

/-- A line break inside brackets is passed over. -/
theorem lexedIn_newline (comment : Bool) (p : Position) (t : Text) (bracket : Char) :
    lexedIn comment p ('\n' :: t) indents (bracket :: brackets) ended =
      lexedIn false (p.step '\n') t indents (bracket :: brackets) ended := by
  have hround : round ⟨'\n' :: t, p, indents, bracket :: brackets, false, ended⟩ =
      .more [] ⟨t, p.step '\n', indents, bracket :: brackets, false, ended⟩ := by
    rw [round_within rfl, within]
    simp only [skipBlanks_newline]
    rfl
  unfold lexedIn
  rw [skipBlanks_newline, lexed_more hround, Outcome.after_nil, lexed_eq_lexedIn]
  rfl

/-- Indentation that is measured at the start of a line is passed over inside brackets. -/
theorem lexedIn_indentation {comment : Bool} {width width' : Nat} {p p' : Position} {t r : Text}
    (h : indentation comment width p t = (width', p', r)) (tail : Text) (q : Position)
    (bracket : Char) :
    (r = [] → ∃ inComment q', lexedIn comment q (t ++ tail) indents (bracket :: brackets) ended =
      lexedIn inComment q' tail indents (bracket :: brackets) ended) ∧
    (r ≠ [] → ∃ q', lexedIn comment q (t ++ tail) indents (bracket :: brackets) ended =
      lexed ⟨r ++ tail, q', indents, bracket :: brackets, false, ended⟩) := by
  have hstep : ∀ {comment comment' : Bool} {d : Char} {t : Text} {q : Position},
      skipBlanks comment q (d :: (t ++ tail)) = skipBlanks comment' (q.step d) (t ++ tail) →
        lexedIn comment q (d :: t ++ tail) indents (bracket :: brackets) ended =
          lexedIn comment' (q.step d) (t ++ tail) indents (bracket :: brackets) ended := by
    intro comment comment' d t q hskip
    exact lexedIn_congr hskip
  fun_induction indentation comment width p t generalizing q
  case case1 comment width p =>
    cases h
    exact ⟨fun _ => ⟨comment, q, rfl⟩, fun hne => absurd rfl hne⟩
  case case2 comment width p t ih =>
    rw [List.cons_append, lexedIn_newline]
    exact ih h (q.step '\n')
  case case3 width p d t hd ih =>
    rw [hstep (skipBlanks_comment q _ hd)]
    exact ih h (q.step d)
  case case4 comment width p t hcomment _ ih =>
    rw [Bool.not_eq_true] at hcomment
    subst hcomment
    rw [hstep (skipBlanks_plain q _ (by decide))]
    exact ih h (q.step ' ')
  case case5 comment width p t hcomment _ _ ih =>
    rw [Bool.not_eq_true] at hcomment
    subst hcomment
    rw [hstep (skipBlanks_plain q _ (by decide))]
    exact ih h (q.step '\t')
  case case6 comment width p d t _ hcomment _ _ hd ih =>
    rw [Bool.not_eq_true] at hcomment
    subst hcomment
    have hplain : (decide (d = ' ') || decide (d = '\t') || decide (d = '\r') ||
        decide (d = '\x0c')) = true := by
      simp only [Bool.or_eq_true] at hd ⊢
      exact hd.elim (fun hd => .inl (.inr hd)) .inr
    rw [hstep (skipBlanks_plain q _ hplain)]
    exact ih h (q.step d)
  case case7 comment width p t hcomment _ _ _ _ ih =>
    rw [Bool.not_eq_true] at hcomment
    subst hcomment
    rw [hstep (skipBlanks_hash q _)]
    exact ih h (q.step '#')
  case case8 comment width p d t _ hcomment _ _ _ _ =>
    cases h
    rw [Bool.not_eq_true] at hcomment
    subst hcomment
    refine ⟨fun hnil => (nomatch hnil), fun _ => ⟨q, ?_⟩⟩
    rw [lexed_eq_lexedIn]

theorem bracketsAfter?_append {c : Char} {next outer : List Char}
    (h : bracketsAfter? brackets c = some next) :
    bracketsAfter? (brackets ++ outer) c = some (next ++ outer) := by
  unfold bracketsAfter? at h ⊢
  split at h
  · rename_i hopens
    cases h
    rw [if_pos hopens]
    rfl
  · rename_i hopens
    rw [if_neg hopens]
    cases hopener : openerOf? c with
    | none =>
        rw [hopener] at h
        cases h
        rfl
    | some opener =>
        rw [hopener] at h
        cases brackets with
        | nil => cases h
        | cons innermost before =>
            simp only [List.cons_append] at h ⊢
            split at h
            · rename_i heq
              cases h
              rw [if_pos heq]
            · cases h

theorem find?_doubleSymbols_of_stops {c g : Char} (hg : endsCode g = true) :
    doubleSymbols.find? (fun entry => entry.1 = c && entry.2.1 = g) = none := by
  rw [List.find?_eq_none]
  intro entry hentry hmatch
  rw [Bool.and_eq_true, decide_eq_true_eq, decide_eq_true_eq] at hmatch
  have hsecond : ∀ entry ∈ doubleSymbols, endsCode entry.2.1 = false := by decide
  exact ne_of_endsCode hg (hsecond entry hentry) hmatch.2.symm

theorem symbol?_append (htail : Stops tail) (c : Char) (t : Text) :
    symbol? (c :: t ++ tail) =
      (symbol? (c :: t)).map fun found => (found.1, found.2.1, found.2.2 ++ tail) := by
  cases t with
  | nil =>
      cases tail with
      | nil => cases hc : singleSymbols.lookup c <;> simp [symbol?, hc]
      | cons g after =>
          simp only [List.cons_append, List.nil_append, symbol?,
            find?_doubleSymbols_of_stops (htail g rfl), Option.map_map]
          rfl
  | cons d t =>
      simp only [List.cons_append, symbol?]
      split
      · rfl
      · rw [Option.map_map]
        rfl

theorem isIdentifierContinue_of_isGap {c : Char} (h : isGap c = true) :
    Letter.isIdentifierContinue c = false := by
  rw [isGap, Bool.or_eq_true, decide_eq_true_eq] at h
  rcases h with rfl | h
  · exact Letter.isIdentifierContinue_of_isMark (by decide)
  · rw [Bool.eq_false_iff]
    intro hcontinue
    rw [Letter.not_isBlank_of_continue hcontinue] at h
    cases h

theorem isIdentifierContinue_of_endsCode {c : Char} (h : endsCode c = true) :
    Letter.isIdentifierContinue c = false := by
  simp only [endsCode, Bool.or_eq_true, decide_eq_true_eq] at h
  rcases h with ((h | rfl) | rfl) | rfl
  · exact isIdentifierContinue_of_isGap h
  all_goals exact Letter.isIdentifierContinue_of_isMark (by decide)

/-- A word ends where it did, before a text that it does not go on with. -/
theorem word_append (htail : Stops tail) (t : Text) :
    (t ++ tail).takeWhile Letter.isIdentifierContinue = t.takeWhile Letter.isIdentifierContinue ∧
      (t ++ tail).dropWhile Letter.isIdentifierContinue =
        t.dropWhile Letter.isIdentifierContinue ++ tail := by
  induction t with
  | nil =>
      cases tail with
      | nil => exact ⟨rfl, rfl⟩
      | cons g after => simp [isIdentifierContinue_of_endsCode (htail g rfl)]
  | cons c t ih =>
      cases hc : Letter.isIdentifierContinue c with
      | true => simpa [hc] using ih
      | false => simp [hc]

theorem breaksLine_ofWord (w : Text) : breaksLine (TokenKind.ofWord w) = false := by
  unfold TokenKind.ofWord
  repeat' split
  all_goals rfl

theorem breaksLine_number {p : Position} {t : Text} {found : Literal.Scanned}
    (h : Literal.number p t = .ok found) : breaksLine found.kind = false := by
  unfold Literal.number at h
  dsimp only at h
  split at h
  · rename_i kind hkind
    cases h
    split at hkind
    · obtain ⟨n, -, rfl⟩ := Option.map_eq_some_iff.mp hkind
      rfl
    · obtain ⟨x, -, rfl⟩ := Option.map_eq_some_iff.mp hkind
      rfl
  · cases h

theorem breaksLine_stringBody {start : Position} {quote : Char} {triple : Bool}
    {mode : Literal.StringMode} {p : Position} {value t : Text} {found : Literal.Scanned}
    (h : Literal.stringBody start quote triple mode p value t = .ok found) :
    breaksLine found.kind = false := by
  fun_induction Literal.stringBody start quote triple mode p value t <;> grind [breaksLine]

theorem breaksLine_string {p : Position} {quote : Char} {t : Text} {found : Literal.Scanned}
    (h : Literal.string p quote t = .ok found) : breaksLine found.kind = false := by
  unfold Literal.string at h
  split at h
  · split at h
    · exact breaksLine_stringBody h
    · exact breaksLine_stringBody h
  · exact breaksLine_stringBody h

theorem not_code_of_quote {c : Char} (hc : c = '"' ∨ c = '\'') :
    ¬ Letter.isIdentifierStart c = true ∧ ¬ c.isDigit = true ∧
      (decide (c = '"') || decide (c = '\'')) = true := by
  rcases hc with rfl | rfl
  · exact ⟨by rw [Letter.isIdentifierStart_of_isMark (by decide)]; decide, by decide, by decide⟩
  · exact ⟨by rw [Letter.isIdentifierStart_of_isMark (by decide)]; decide, by decide, by decide⟩

/-- A token other than a string is the same before a text that it does not go on with, and inside
more brackets. -/
theorem token_append_of_stops (htail : Stops tail) {c : Char} (hquote : ¬ (c = '"' ∨ c = '\''))
    {t : Text} {p : Position} {start : Bool} {tokens : List Token} {next : Lexer}
    (h : token ⟨c :: t, p, indents, brackets, start, ended⟩ c t = .more tokens next) :
    ∃ k span, tokens = [⟨k, span⟩] ∧ breaksLine k = false ∧ next.indents = indents ∧
      ∀ q indents' outer ended', ∃ span' stop,
        token ⟨c :: t ++ tail, q, indents', brackets ++ outer, false, ended'⟩ c (t ++ tail) =
          .more [⟨k, span'⟩]
            ⟨next.rest ++ tail, stop, indents', next.brackets ++ outer, false, false⟩ := by
  have hquote : ¬ ((decide (c = '"') || decide (c = '\'')) = true) := by simpa using hquote
  unfold token at h
  dsimp only at h
  split at h
  · rename_i hstart
    cases h
    refine ⟨_, _, rfl, breaksLine_ofWord _, rfl, ?_⟩
    intro q indents' outer ended'
    have hword := word_append htail t
    unfold token
    rw [if_pos hstart]
    simp only [hword.1, hword.2]
    exact ⟨_, _, rfl⟩
  · rename_i hstart
    split at h
    · rename_i hdigit
      split at h
      · rename_i found hfound
        cases h
        refine ⟨_, _, rfl, breaksLine_number hfound, rfl, ?_⟩
        intro q indents' outer ended'
        obtain ⟨stop, happend⟩ := Literal.number_append htail hfound q
        rw [List.cons_append] at happend
        unfold token
        dsimp only
        rw [if_neg hstart, if_pos hdigit, happend]
        exact ⟨_, _, rfl⟩
      · cases h
    · rename_i hdigit
      split at h
      · cases h
      · rename_i mark lexeme rest hsymbol
        split at h
        · cases h
        · rename_i after hafter
          cases h
          refine ⟨_, _, rfl, rfl, rfl, ?_⟩
          intro q indents' outer ended'
          have happend := symbol?_append htail c t
          rw [hsymbol, List.cons_append] at happend
          unfold token
          dsimp only
          rw [if_neg hstart, if_neg hdigit, if_neg hquote, happend]
          dsimp only [Option.map_some]
          rw [bracketsAfter?_append hafter]
          exact ⟨_, _, rfl⟩

/-- A token is the same before a gap and inside more brackets. -/
theorem token_append (htail : Gap tail) {c : Char} {t : Text} {p : Position}
    {start : Bool} {tokens : List Token} {next : Lexer}
    (h : token ⟨c :: t, p, indents, brackets, start, ended⟩ c t = .more tokens next) :
    ∃ k span, tokens = [⟨k, span⟩] ∧ breaksLine k = false ∧ next.indents = indents ∧
      ∀ q indents' outer ended', ∃ span' stop,
        token ⟨c :: t ++ tail, q, indents', brackets ++ outer, false, ended'⟩ c (t ++ tail) =
          .more [⟨k, span'⟩]
            ⟨next.rest ++ tail, stop, indents', next.brackets ++ outer, false, false⟩ := by
  by_cases hquote : c = '"' ∨ c = '\''
  · obtain ⟨hstart, hdigit, htest⟩ := not_code_of_quote hquote
    unfold token at h
    dsimp only at h
    rw [if_neg hstart, if_neg hdigit, if_pos htest] at h
    split at h
    · rename_i found hfound
      cases h
      refine ⟨_, _, rfl, breaksLine_string hfound, rfl, ?_⟩
      intro q indents' outer ended'
      obtain ⟨stop, happend⟩ := Literal.string_append (htail.head?_ne hquote) hfound q
      unfold token
      dsimp only
      rw [if_neg hstart, if_neg hdigit, if_pos htest, happend]
      exact ⟨_, _, rfl⟩
    · cases h
  · exact token_append_of_stops htail.stops hquote h

theorem token_backslash (s : Lexer) (t : Text) :
    ∃ error n, s.token '\\' t = .failed error n := by
  have hstart : Letter.isIdentifierStart '\\' = false :=
    Letter.isIdentifierStart_of_isMark (by decide)
  have hsymbol : symbol? ('\\' :: t) = none := by
    cases t <;> rfl
  unfold token
  simp only [hstart, hsymbol, Bool.false_eq_true, if_false]
  exact ⟨_, _, rfl⟩

/-- Tokens that end a source: nothing but the end, after the end of a line perhaps. -/
def Closes (E : List Token) : Prop :=
  (headToken E).kind = .endOfInput ∨
    (headToken E).kind = .newline ∧ (headToken E.tail).kind = .endOfInput

/-- The tokens of a text that stands alone, cut where the first line ends, and inside more
brackets, where the text is followed by another one. -/
def Embeds (s : Lexer) (tail : Text) (outer : List Char) : Prop :=
  ∃ U E, s.lexed.tokens = U ++ E ∧ (∀ t ∈ U, breaksLine t.kind = false) ∧
    breaksLine (headToken E).kind = true ∧
    (Closes E → ∀ q indents ended, ∃ inComment q' ended' V, V.map Token.kind = U.map Token.kind ∧
      lexed ⟨s.rest ++ tail, q, indents, s.brackets ++ outer, false, ended⟩ =
        (lexedIn inComment q' tail indents outer ended').after V)

theorem embeds_end {s : Lexer} {bracket : Char} {outer : List Char}
    (hindents : s.indents = []) (hrest : ∀ q indents ended, ∃ inComment q',
      lexed ⟨s.rest ++ tail, q, indents, s.brackets ++ bracket :: outer, false, ended⟩ =
        lexedIn inComment q' tail indents (bracket :: outer) ended)
    (hclosing : ∃ p, s.lexed.tokens = closing { s with rest := [], position := p }) :
    Embeds s tail (bracket :: outer) := by
  obtain ⟨p, hclosing⟩ := hclosing
  refine ⟨[], s.lexed.tokens, rfl, by simp, ?_, ?_⟩
  · rw [hclosing]
    unfold closing
    rw [hindents]
    cases s.lineEnded <;> rfl
  · intro _ q indents ended
    obtain ⟨inComment, q', hlexed⟩ := hrest q indents ended
    exact ⟨inComment, q', ended, [], rfl, hlexed⟩

section Embedding

variable {s : Lexer} {bracket : Char} {outer : List Char}

theorem embeds_token (htail : Gap tail) (hround : s.round = s.within) (hindents : s.indents = [])
    (hok : s.lexed.failure = none)
    (ih : ∀ next : Lexer, next.roundsLeft < s.roundsLeft → next.indents = [] →
      next.lexed.failure = none → Embeds next tail (bracket :: outer))
    {p : Position} {c : Char} {after : Text}
    (hskip : skipBlanks false s.position s.rest = (p, c :: after)) (hc : c ≠ '\n') :
    Embeds s tail (bracket :: outer) := by
  have hstep : s.round = token { s with rest := c :: after, position := p } c after := by
    rw [hround, within, hskip]
    simp only [if_neg hc]
  cases htoken : token { s with rest := c :: after, position := p } c after with
  | done tokens => exact absurd htoken (token_ne_done _ _ _ _)
  | failed error n =>
      rw [htoken] at hstep
      rw [lexed_failed hstep] at hok
      cases hok
  | more tokens next =>
      have hbackslash : c ≠ '\\' := by
        rintro rfl
        obtain ⟨error, n, hfailed⟩ :=
          token_backslash { s with rest := '\\' :: after, position := p } after
        rw [hfailed] at htoken
        cases htoken
      obtain ⟨k, span, rfl, hk, hnext, happend⟩ := token_append htail htoken
      rw [htoken] at hstep
      have hlexed := lexed_more hstep
      rw [hlexed] at hok
      obtain ⟨U, E, htokens, hU, hE, hinside⟩ :=
        ih next (round_fewer hstep) (hnext.trans hindents) hok
      refine ⟨⟨k, span⟩ :: U, E, ?_, ?_, hE, ?_⟩
      · rw [hlexed, Outcome.after, htokens]
        rfl
      · intro t ht
        rcases List.mem_cons.mp ht with rfl | ht
        · exact hk
        · exact hU t ht
      · intro hcloses q indents ended
        obtain ⟨q₁, hskip'⟩ := skipBlanks_append hskip (absurd · hbackslash) q tail
        obtain ⟨span', stop, htoken'⟩ := happend q₁ indents (bracket :: outer) ended
        obtain ⟨inComment, q', ended', V, hV, hlexed'⟩ := hinside hcloses stop indents false
        refine ⟨inComment, q', ended', ⟨k, span'⟩ :: V, ?_, ?_⟩
        · rw [List.map_cons, List.map_cons, hV]
        · have hround' : round ⟨s.rest ++ tail, q, indents, s.brackets ++ bracket :: outer, false,
              ended⟩ = .more [⟨k, span'⟩] ⟨next.rest ++ tail, stop, indents,
                next.brackets ++ bracket :: outer, false, false⟩ := by
            rw [round_within rfl, within]
            simp only [hskip']
            rw [List.cons_append]
            dsimp only
            rw [if_neg hc, ← htoken']
            rfl
          rw [lexed_more hround', hlexed', Outcome.after_after]
          rfl

/-- A line break inside the added brackets is passed over, whatever it meant alone. -/
theorem lexed_break {p : Position} {after : Text}
    (hskip : skipBlanks false s.position s.rest = (p, '\n' :: after)) (tail : Text) (q : Position)
    (indents : List Nat) (ended : Bool) :
    ∃ q', lexed ⟨s.rest ++ tail, q, indents, s.brackets ++ bracket :: outer, false, ended⟩ =
      lexed ⟨after ++ tail, q', indents, s.brackets ++ bracket :: outer, false, ended⟩ := by
  obtain ⟨q', hskip'⟩ := skipBlanks_append hskip (absurd · (by decide)) q tail
  obtain ⟨innermost, others, hbrackets⟩ :
      ∃ innermost others, s.brackets ++ bracket :: outer = innermost :: others := by
    cases s.brackets with
    | nil => exact ⟨bracket, outer, rfl⟩
    | cons innermost others => exact ⟨innermost, _, rfl⟩
  have hround : round ⟨s.rest ++ tail, q, indents, s.brackets ++ bracket :: outer, false, ended⟩ =
      .more [] ⟨after ++ tail, q'.step '\n', indents, s.brackets ++ bracket :: outer, false,
        ended⟩ := by
    rw [round_within rfl, within, hbrackets]
    simp only [hskip']
    rfl
  exact ⟨_, lexed_more hround⟩

theorem Embeds.of_break {p : Position} {after : Text}
    (hskip : skipBlanks false s.position s.rest = (p, '\n' :: after)) {start ended : Bool}
    {q : Position} (h : Embeds ⟨after, q, [], s.brackets, start, ended⟩ tail (bracket :: outer))
    (hlexed : s.lexed = lexed ⟨after, q, [], s.brackets, start, ended⟩) :
    Embeds s tail (bracket :: outer) := by
  obtain ⟨U, E, htokens, hU, hE, hinside⟩ := h
  refine ⟨U, E, ?_, hU, hE, ?_⟩
  · rw [hlexed, htokens]
  · intro hcloses q indents ended
    obtain ⟨q₁, hbreak⟩ := lexed_break hskip tail q indents ended (s := s)
    obtain ⟨inComment, q', ended', V, hV, hlexed'⟩ := hinside hcloses q₁ indents ended
    exact ⟨inComment, q', ended', V, hV, hbreak.trans hlexed'⟩

theorem embeds_break (hround : s.round = s.within) (hindents : s.indents = [])
    (hok : s.lexed.failure = none)
    (ih : ∀ next : Lexer, next.roundsLeft < s.roundsLeft → next.indents = [] →
      next.lexed.failure = none → Embeds next tail (bracket :: outer))
    {p : Position} {after : Text}
    (hskip : skipBlanks false s.position s.rest = (p, '\n' :: after)) :
    Embeds s tail (bracket :: outer) := by
  by_cases hbrackets : s.brackets = []
  · cases hended : s.lineEnded with
    | true =>
        have hstep : s.round = .more []
            ⟨after, p.step '\n', s.indents, s.brackets, true, s.lineEnded⟩ := by
          rw [hround, within, hskip]
          simp [hbrackets, hended]
        have hlexed := lexed_more hstep
        rw [Outcome.after_nil] at hlexed
        have hnext := ih _ (round_fewer hstep) hindents (hlexed ▸ hok)
        rw [hindents] at hnext hlexed
        exact hnext.of_break hskip hlexed
    | false =>
        have hstep : s.round = .more [⟨.newline, ⟨p, p.step '\n'⟩⟩]
            ⟨after, p.step '\n', s.indents, s.brackets, true, true⟩ := by
          rw [hround, within, hskip]
          simp [hbrackets, hended]
        have hlexed := lexed_more hstep
        rw [hlexed] at hok
        obtain ⟨U, E, htokens, hU, hE, hinside⟩ := ih _ (round_fewer hstep) hindents hok
        refine ⟨[], ⟨.newline, ⟨p, p.step '\n'⟩⟩ :: (U ++ E), ?_, by simp, rfl, ?_⟩
        · rw [hlexed, Outcome.after, htokens]
          rfl
        · intro hcloses q indents ended
          -- The line ended here, so nothing is left of the text but blanks.
          have hend : (headToken (U ++ E)).kind = .endOfInput := by
            rcases hcloses with hhead | ⟨-, hnext⟩
            · cases hhead
            · exact hnext
          have hnil : U = [] := by
            cases U with
            | nil => rfl
            | cons t U =>
                have hbreaks := hU t List.mem_cons_self
                have hkind : t.kind = .endOfInput := hend
                rw [hkind] at hbreaks
                cases hbreaks
          subst hnil
          obtain ⟨q₁, hbreak⟩ := lexed_break hskip tail q indents ended (s := s)
          obtain ⟨inComment, q', ended', V, hV, hlexed'⟩ := hinside (.inl hend) q₁ indents ended
          exact ⟨inComment, q', ended', V, hV, hbreak.trans hlexed'⟩
  · obtain ⟨innermost, others, heq⟩ := List.exists_cons_of_ne_nil hbrackets
    have hstep : s.round = .more []
        ⟨after, p.step '\n', s.indents, s.brackets, s.lineStart, s.lineEnded⟩ := by
      rw [hround, within, hskip]
      simp [heq]
    have hlexed := lexed_more hstep
    rw [Outcome.after_nil] at hlexed
    have hnext := ih _ (round_fewer hstep) hindents (hlexed ▸ hok)
    rw [hindents] at hnext hlexed
    exact hnext.of_break hskip hlexed

theorem embeds_within (htail : Gap tail) (hround : s.round = s.within) (hindents : s.indents = [])
    (hok : s.lexed.failure = none)
    (ih : ∀ next : Lexer, next.roundsLeft < s.roundsLeft → next.indents = [] →
      next.lexed.failure = none → Embeds next tail (bracket :: outer)) :
    Embeds s tail (bracket :: outer) := by
  rcases hskip : skipBlanks false s.position s.rest with ⟨p, rest⟩
  cases rest with
  | cons c after =>
      by_cases hc : c = '\n'
      · subst hc
        exact embeds_break hround hindents hok ih hskip
      · exact embeds_token htail hround hindents hok ih hskip hc
  | nil =>
      cases hbrackets : s.brackets with
      | cons innermost others =>
          have hstep : s.round = .failed (.unmatchedBracket innermost p) s.indents.length := by
            rw [hround, within, hskip]
            simp only [hbrackets]
          rw [lexed_failed hstep] at hok
          cases hok
      | nil =>
          have hstep : s.round = .done (closing { s with rest := [], position := p }) := by
            rw [hround, within, hskip]
            simp only [hbrackets]
          apply embeds_end hindents
          · intro q indents ended
            obtain ⟨inComment, hrest⟩ := skipBlanks_end hskip
            obtain ⟨q', hrest⟩ := hrest q tail
            refine ⟨inComment, q', ?_⟩
            rw [hbrackets, List.nil_append, lexed_eq_lexedIn]
            exact lexedIn_congr hrest
          · rw [lexed_done hstep]
            exact ⟨p, rfl⟩

/-- The indentation of a line matters only where the text stands alone. -/
theorem embeds_layout (hstart : (s.lineStart && s.brackets.isEmpty) = true)
    (hindents : s.indents = []) (hok : s.lexed.failure = none)
    (ih : ∀ next : Lexer, next.roundsLeft < s.roundsLeft → next.indents = [] →
      next.lexed.failure = none → Embeds next tail (bracket :: outer)) :
    Embeds s tail (bracket :: outer) := by
  have hflags : s.lineStart = true ∧ s.brackets = [] := by
    rw [Bool.and_eq_true, List.isEmpty_iff] at hstart
    exact hstart
  rcases hmeasured : indentation false 0 s.position s.rest with ⟨width, p, rest⟩
  have hlength : rest.length ≤ s.rest.length := by
    have h := length_indentation false 0 s.position s.rest
    rwa [hmeasured] at h
  have hinside : ∀ q indents ended,
      lexed ⟨s.rest ++ tail, q, indents, s.brackets ++ bracket :: outer, false, ended⟩ =
        lexedIn false q (s.rest ++ tail) indents (bracket :: outer) ended := by
    intro q indents ended
    rw [hflags.2, List.nil_append, lexed_eq_lexedIn]
  cases rest with
  | nil =>
      have hstep : s.round = .done (closing { s with rest := [], position := p }) := by
        rw [round, if_pos hstart, layout, hmeasured]
        simp only [List.isEmpty_nil, if_true, within, skipBlanks, hflags.2]
        rfl
      apply embeds_end hindents
      · intro q indents ended
        rw [hinside]
        exact (lexedIn_indentation hmeasured tail q bracket).1 rfl
      · rw [lexed_done hstep]
        exact ⟨p, rfl⟩
  | cons c after =>
      by_cases hwidth : 0 < width
      · have hstep : s.round = .more [emptyToken p .indent]
            ⟨c :: after, p, [width], s.brackets, false, false⟩ := by
          rw [round, if_pos hstart, layout, hmeasured]
          simp [hindents, hwidth]
        refine ⟨[], s.lexed.tokens, rfl, by simp, ?_, ?_⟩
        · rw [lexed_more hstep]
          rfl
        · intro hcloses
          rw [lexed_more hstep] at hcloses
          rcases hcloses with hkind | ⟨hkind, -⟩ <;> cases hkind
      · have hstep : s.round = round ⟨c :: after, p, [], s.brackets, false, s.lineEnded⟩ := by
          rw [round, if_pos hstart, layout, hmeasured, round_within rfl]
          simp [hindents, hwidth]
        have hlexed := lexed_congr hstep
        have hfewer : roundsLeft ⟨c :: after, p, [], s.brackets, false, s.lineEnded⟩ <
            s.roundsLeft := by
          simp only [roundsLeft, hflags.1, Bool.toNat_true, Bool.toNat_false]
          omega
        obtain ⟨U, E, htokens, hU, hE, hnext⟩ := ih _ hfewer rfl (hlexed ▸ hok)
        refine ⟨U, E, ?_, hU, hE, ?_⟩
        · rw [hlexed, htokens]
        · intro hcloses q indents ended
          obtain ⟨q₁, hskipped⟩ : ∃ q₁,
              lexedIn false q (s.rest ++ tail) indents (bracket :: outer) ended =
                lexed ⟨c :: after ++ tail, q₁, indents, bracket :: outer, false, ended⟩ :=
            (lexedIn_indentation hmeasured tail q bracket).2 (List.cons_ne_nil c after)
          obtain ⟨inComment, q', ended', V, hV, hlexed'⟩ := hnext hcloses q₁ indents ended
          refine ⟨inComment, q', ended', V, hV, ?_⟩
          rw [hinside, hskipped, ← hlexed', hflags.2]
          rfl

/-- The tokens of a text that stands alone are those of the same text inside brackets. -/
theorem embeds (htail : Gap tail) (s : Lexer) (hindents : s.indents = [])
    (hok : s.lexed.failure = none) : Embeds s tail (bracket :: outer) := by
  induction hn : s.roundsLeft using Nat.strongRecOn generalizing s with
  | ind n ih =>
      have ih : ∀ next : Lexer, next.roundsLeft < s.roundsLeft → next.indents = [] →
          next.lexed.failure = none → Embeds next tail (bracket :: outer) := by
        intro next hless hnext hok
        exact ih next.roundsLeft (hn ▸ hless) next hnext hok rfl
      by_cases hstart : (s.lineStart && s.brackets.isEmpty) = true
      · exact embeds_layout hstart hindents hok ih
      · have hround : s.round = s.within := by
          rw [round, if_neg hstart]
        exact embeds_within htail hround hindents hok ih

end Embedding

end Lexer

end TemplateEngine
