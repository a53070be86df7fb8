import TemplateEngine.Proofs.Syntax.Lines
import TemplateEngine.Proofs.Syntax.StatementLines

/-!
# The places of tokens

A lexer is at the place that the characters behind it lead to, and each round goes on from
there. So a token that is no matter of layout starts where the characters before it end,
and its line is one more than the number of line breaks among them.
-/
namespace TemplateEngine

/-- From a place with a text ahead to the place after some of its characters, with the others
ahead. -/
def Position.Passes (p : Position) (t : Text) (p' : Position) (t' : Text) : Prop :=
  ∃ passed, t = passed ++ t' ∧ p' = p.after passed

namespace Position.Passes

variable {p p' p'' : Position} {t t' t'' : Text}

theorem refl (p : Position) (t : Text) : p.Passes t p t := ⟨[], rfl, rfl⟩

theorem cons {c : Char} (h : (p.step c).Passes t p' t') : p.Passes (c :: t) p' t' := by
  obtain ⟨passed, rfl, rfl⟩ := h
  exact ⟨c :: passed, rfl, rfl⟩

theorem trans (h : p.Passes t p' t') (h' : p'.Passes t' p'' t'') : p.Passes t p'' t'' := by
  obtain ⟨passed, rfl, rfl⟩ := h
  obtain ⟨more, rfl, rfl⟩ := h'
  exact ⟨passed ++ more, (List.append_assoc ..).symm, (after_append ..).symm⟩

end Position.Passes

namespace Literal

theorem digitRun_parts (t : Text) : (digitRun t).1 ++ (digitRun t).2 = t := by
  induction t using digitRun.induct with
  | case1 => rfl
  | case2 c rest hc _ _ _ ih => simp only [digitRun, hc, if_true, List.cons_append, ih]
  | case3 d rest hd _ _ hunderscore _ ih =>
      rw [digitRun, if_neg hunderscore, if_pos rfl]
      simp only [hd, if_true, List.cons_append, ih]
  | case4 d rest hd hunderscore =>
      rw [digitRun, if_neg hunderscore, if_pos rfl]
      simp [hd]
  | case5 hunderscore => rfl
  | case6 c rest hc hunderscore => simp [digitRun, hc, hunderscore]

theorem fraction_parts (t : Text) : (fraction t).1 ++ (fraction t).2 = t := by
  unfold fraction
  split
  · rename_i rest
    split
    · exact congrArg ('.' :: ·) (digitRun_parts rest)
    · rfl
  · rfl

theorem exponent_parts (t : Text) : (exponent t).1 ++ (exponent t).2 = t := by
  unfold exponent
  split
  · rename_i c sign rest
    split
    · split
      · exact congrArg (c :: sign :: ·) (digitRun_parts rest)
      · split
        · exact congrArg (c :: ·) (digitRun_parts (sign :: rest))
        · rfl
    · rfl
  · rfl

theorem passes_number {p : Position} {t : Text} {found : Scanned} (h : number p t = .ok found) :
    p.Passes t found.stop found.rest := by
  have hwhole := digitRun_parts t
  have hpoint := fraction_parts (digitRun t).2
  have hpower := exponent_parts (fraction (digitRun t).2).2
  unfold number at h
  simp only at h
  split at h
  · cases h
    refine ⟨_, ?_, rfl⟩
    rw [List.append_assoc, hpower, List.append_assoc, hpoint, hwhole]
  · cases h

theorem passes_stringBody {start : Position} {quote : Char} {triple : Bool} {mode : StringMode}
    {p : Position} {value t : Text} {found : Scanned}
    (h : stringBody start quote triple mode p value t = .ok found) :
    p.Passes t found.stop found.rest := by
  fun_induction stringBody start quote triple mode p value t <;>
    grind [Position.Passes.cons, Position.Passes.refl]

theorem passes_string {p : Position} {quote : Char} {t : Text} {found : Scanned}
    (h : string p quote t = .ok found) : p.Passes (quote :: t) found.stop found.rest := by
  unfold string at h
  split at h
  · split at h
    · rename_i a b after hquotes
      rw [Bool.and_eq_true, decide_eq_true_iff, decide_eq_true_iff] at hquotes
      obtain ⟨rfl, rfl⟩ := hquotes
      exact (passes_stringBody h).cons.cons.cons
    · exact (passes_stringBody h).cons
  · exact (passes_stringBody h).cons

end Literal

namespace Lexer

theorem Skips.passes {idle : Prop} {comment : Bool} {p p' : Position} {t t' : Text}
    (h : Skips idle comment p t p' t') : p.Passes t p' t' := by
  obtain ⟨gap, ht, hp, -⟩ := h
  exact ⟨gap, ht, hp⟩

theorem passes_indentation (comment : Bool) (width : Nat) (p : Position) (t : Text) :
    p.Passes t (indentation comment width p t).2.1 (indentation comment width p t).2.2 :=
  (skips_indentation True.intro comment width p t).passes

theorem passes_skipBlanks (comment : Bool) (p : Position) (t : Text) :
    p.Passes t (skipBlanks comment p t).1 (skipBlanks comment p t).2 :=
  (skips_skipBlanks True comment p t).passes

theorem symbol?_parts {t lexeme rest : Text} {mark : Symbol}
    (h : symbol? t = some (mark, lexeme, rest)) : lexeme ++ rest = t := by
  unfold symbol? at h
  grind [Option.map_eq_some_iff]

/-- Where a lexer is: behind the characters of a source that it has passed. -/
def At (source : Text) (s : Lexer) : Prop := Position.start.Passes source s.position s.rest

theorem At.passes {source : Text} {s next : Lexer} (hs : s.At source)
    (h : s.position.Passes s.rest next.position next.rest) : next.At source :=
  Position.Passes.trans hs h

/-- A round of one token yields that token, from where the lexer is, and goes on behind it. -/
theorem token_spec {s next : Lexer} {c : Char} {after : Text} {tokens : List Token}
    (h : s.token c after = .more tokens next) :
    (∃ t, tokens = [t] ∧ t.span = ⟨s.position, next.position⟩) ∧
      s.position.Passes (c :: after) next.position next.rest := by
  unfold token at h
  simp only at h
  split at h
  · cases h
    refine ⟨⟨_, rfl, rfl⟩, c :: after.takeWhile Letter.isIdentifierContinue, ?_, rfl⟩
    exact congrArg (c :: ·) List.takeWhile_append_dropWhile.symm
  · split at h
    · split at h
      · rename_i found hfound
        cases h
        exact ⟨⟨_, rfl, rfl⟩, Literal.passes_number hfound⟩
      · cases h
    · split at h
      · split at h
        · rename_i found hfound
          cases h
          exact ⟨⟨_, rfl, rfl⟩, Literal.passes_string hfound⟩
        · cases h
      · split at h
        · cases h
        · rename_i mark lexeme rest hsymbol
          split at h
          · cases h
          · cases h
            exact ⟨⟨_, rfl, rfl⟩, lexeme, (symbol?_parts hsymbol).symm, rfl⟩

/-- A token of the layout. -/
def IsLayout (t : Token) : Prop := t.kind ∈ [.newline, .indent, .dedent, .endOfInput]

/-- The round of a token that is none of the layout, at a place of the source within a line. -/
structure TokenRound (source : Text) (t : Token) (next : Lexer) (s : Lexer) (c : Char)
    (after : Text) : Prop where
  position : s.At source
  rest : s.rest = c :: after
  inside : (s.lineStart && s.brackets.isEmpty) = false
  visible : c ≠ '\n'
  start : t.span.start = s.position
  token : s.token c after = .more [t] next

theorem layout_spec {s next : Lexer} {tokens : List Token} (h : s.layout = .ok (tokens, next)) :
    (∀ t ∈ tokens, IsLayout t) ∧ next.lineStart = false ∧
      s.position.Passes s.rest next.position next.rest := by
  have hpasses := passes_indentation false 0 s.position s.rest
  unfold layout at h
  simp only at h
  split at h
  · cases h
    exact ⟨fun t ht => (nomatch ht), rfl, hpasses⟩
  · split at h
    · cases h
      refine ⟨?_, rfl, hpasses⟩
      intro t ht
      rw [List.mem_singleton.mp ht]
      exact List.mem_cons_of_mem _ List.mem_cons_self
    · split at h
      · split at h
        · cases h
          refine ⟨?_, rfl, hpasses⟩
          intro t ht
          rw [List.eq_of_mem_replicate ht]
          exact List.mem_cons_of_mem _ (List.mem_cons_of_mem _ List.mem_cons_self)
        · cases h
      · cases h
        exact ⟨fun t ht => (nomatch ht), rfl, hpasses⟩

/-- What a round yields is a matter of layout, or one token at the place that it starts at. -/
def Yielded (source : Text) (tokens : List Token) (next : Lexer) : Prop :=
  (∀ t ∈ tokens, IsLayout t) ∨
    ∃ t s c after, tokens = [t] ∧ TokenRound source t next s c after

theorem within_spec {source : Text} {s next : Lexer} {tokens : List Token} (hs : s.At source)
    (hinside : (s.lineStart && s.brackets.isEmpty) = false) (h : s.within = .more tokens next) :
    Yielded source tokens next ∧ next.At source := by
  have hblanks := passes_skipBlanks false s.position s.rest
  obtain ⟨p, c, after, hskip, hcases⟩ := within_cases h
  rw [hskip] at hblanks
  have hplace : Position.start.Passes source p (c :: after) := hs.trans hblanks
  have hnext : Position.start.Passes source (p.step c) after :=
    hplace.trans (.cons (.refl _ after))
  obtain ⟨-, -, rfl, rfl⟩ | ⟨-, -, -, rfl, rfl⟩ | ⟨-, -, -, rfl, rfl⟩ | ⟨hvisible, htoken⟩ := hcases
  · exact ⟨.inl fun t ht => (nomatch ht), hnext⟩
  · exact ⟨.inl fun t ht => (nomatch ht), hnext⟩
  · refine ⟨.inl ?_, hnext⟩
    intro t ht
    rw [List.mem_singleton.mp ht]
    exact List.mem_cons_self
  · obtain ⟨⟨t, rfl, hspan⟩, hpasses⟩ := token_spec htoken
    have hround : TokenRound source t next { s with rest := c :: after, position := p } c after :=
      ⟨hplace, rfl, hinside, hvisible, congrArg Span.start hspan, htoken⟩
    exact ⟨.inr ⟨t, _, c, after, rfl, hround⟩, hplace.trans hpasses⟩

theorem round_spec {source : Text} {s next : Lexer} {tokens : List Token} (hs : s.At source)
    (h : s.round = .more tokens next) : Yielded source tokens next ∧ next.At source := by
  unfold round at h
  split at h
  · split at h
    · cases h
    · rename_i mid hlayout
      obtain ⟨-, hwithin, hpasses⟩ := layout_spec hlayout
      exact within_spec (hs.trans hpasses) (by rw [hwithin, Bool.false_and]) h
    · rename_i mid hlayout
      cases h
      obtain ⟨htokens, -, hpasses⟩ := layout_spec hlayout
      exact ⟨.inl htokens, hs.trans hpasses⟩
  · rename_i hinside
    exact within_spec hs (Bool.eq_false_iff.mpr hinside) h

/-- The last round yields the tokens of the end of the source. -/
theorem isLayout_of_done {s : Lexer} {tokens : List Token} (h : s.round = .done tokens) :
    ∀ t ∈ tokens, IsLayout t := by
  have hclosing : ∀ s : Lexer, ∀ t ∈ s.closing, IsLayout t := by
    intro s t ht
    unfold closing at ht
    grind [IsLayout, emptyToken]
  have hwithin : ∀ s : Lexer, s.within = .done tokens → ∀ t ∈ tokens, IsLayout t := by
    intro s h
    unfold within token at h
    grind
  unfold round at h
  grind

/-- No statement begins at a token of the layout. -/
theorem mayBegin_layout {t : Token} {ts : List Token} (h : IsLayout t) :
    Parser.mayBegin (t :: ts) = false := by
  simp only [IsLayout, List.mem_cons, List.not_mem_nil, or_false] at h
  unfold Parser.mayBegin Parser.headToken
  obtain h | h | h | h := h <;> simp [h]

/-- Where a statement may begin in the tokens of a source that can be cut whole, there is the
round of its first token, and the tokens after it are those of what it leaves. -/
theorem exists_round {source : Text} {s : Lexer} (hs : s.At source)
    (hwhole : s.lexed.failure = none) {ts : List Token} (hts : ts <:+ s.lexed.tokens)
    (hbegin : Parser.mayBegin ts = true) :
    ∃ s' c after next, TokenRound source (Parser.headToken ts) next s' c after ∧
      next.lexed.tokens = ts.tail ∧ next.lexed.failure = none := by
  induction hleft : s.roundsLeft using Nat.strongRecOn generalizing s with
  | ind left ih =>
      subst hleft
      cases hround : s.round with
      | failed error openIndents =>
          rw [lexed, run, hround] at hwhole
          cases hwhole
      | done tokens =>
          rw [lexed_done hround] at hts
          cases ts with
          | nil => cases hbegin
          | cons t ts =>
              have ht := isLayout_of_done hround t (hts.subset List.mem_cons_self)
              rw [mayBegin_layout ht] at hbegin
              cases hbegin
      | more tokens next =>
          obtain ⟨hyielded, hnext⟩ := round_spec hs hround
          rw [lexed_more hround] at hwhole hts
          have hlater (h : ts <:+ next.lexed.tokens) :=
            ih _ (round_fewer hround) hnext hwhole h rfl
          obtain hts' | ⟨us, rfl⟩ := List.suffix_or_suffix_of_suffix hts
            (List.suffix_append tokens next.lexed.tokens)
          · exact hlater hts'
          · cases us with
            | nil => exact hlater (List.suffix_refl _)
            | cons t us =>
                have hsuffix : t :: us <:+ tokens := List.suffix_append_self_iff.mp hts
                cases hyielded with
                | inl hlayout =>
                    have ht := hlayout t (hsuffix.subset List.mem_cons_self)
                    rw [List.cons_append, mayBegin_layout ht] at hbegin
                    cases hbegin
                | inr hone =>
                    obtain ⟨t', s', c, after, rfl, htoken⟩ := hone
                    obtain ⟨rfl, hnone⟩ : t = t' ∧ us = [] := by
                      simpa using hsuffix.eq_of_length_le (by simp)
                    subst hnone
                    exact ⟨s', c, after, next, htoken, rfl, hwhole⟩

/-- The line of a token counts the line breaks before it. -/
theorem TokenRound.line {source : Text} {t : Token} {next s : Lexer} {c : Char} {after : Text}
    (h : TokenRound source t next s c after) :
    ∃ before, source = before ++ c :: after ∧ t.span.line = before.newlines + 1 := by
  obtain ⟨before, hsource, hposition⟩ := h.position
  refine ⟨before, h.rest ▸ hsource, ?_⟩
  rw [Span.line, h.start, hposition, Position.line_after, Nat.add_comm]
  rfl

/-- The row below a text that ends with a line break: what is left of the call that prints it. -/
def closingRow : Text := ['"', '"', '"', ')']

theorem round_within_of_inside {s : Lexer} (h : (s.lineStart && s.brackets.isEmpty) = false) :
    s.round = s.within := by
  rw [round, h]
  rfl

/-- Ahead of a closing parenthesis its token is the next one. -/
theorem headToken_rightParen {s : Lexer} {rest : Text}
    (hinside : (s.lineStart && s.brackets.isEmpty) = false) (hrest : s.rest = ')' :: '\n' :: rest)
    (hwhole : s.lexed.failure = none) :
    (Parser.headToken s.lexed.tokens).kind = .symbol .rightParen := by
  obtain ⟨_, p, indents, brackets, start, ended⟩ := s
  cases hrest
  have hround : round ⟨')' :: '\n' :: rest, p, indents, brackets, start, ended⟩ =
      token ⟨')' :: '\n' :: rest, p, indents, brackets, start, ended⟩ ')' ('\n' :: rest) := by
    rw [round_within_of_inside hinside, within]
    simp [skipBlanks_of_visible (c := ')') (by decide)]
  have hsymbol : symbol? (')' :: '\n' :: rest) = some (.rightParen, [')'], '\n' :: rest) := rfl
  rw [token, if_neg (by decide), if_neg (by decide), if_neg (by decide), hsymbol] at hround
  simp only at hround
  split at hround
  · rw [lexed, run, hround] at hwhole
    cases hwhole
  · rw [lexed_more hround]
    rfl

theorem token_quote (s : Lexer) (after : Text) :
    s.token '"' after =
      match Literal.string s.position '"' after with
      | .ok found => .more [⟨found.kind, ⟨s.position, found.stop⟩⟩] (s.pass found.stop found.rest)
      | .error error => .failed error s.indents.length := by
  rw [token, if_neg (by decide), if_neg (by decide)]
  exact if_pos (by decide)

/-- In a row that closes the call of a print no statement begins. -/
theorem TokenRound.not_closing {source : Text} {t : Token} {next s : Lexer} {c : Char}
    {after : Text} (h : TokenRound source t next s c after)
    (hlast : c :: after <:+ closingRow ++ ['\n']) (hwhole : next.lexed.failure = none) :
    Parser.mayBegin (t :: next.lexed.tokens) = false := by
  have hround := h.token
  simp only [closingRow, List.cons_append, List.nil_append, List.suffix_cons_iff,
    List.suffix_nil, List.cons.injEq] at hlast
  obtain ⟨rfl, rfl⟩ | ⟨rfl, rfl⟩ | ⟨rfl, rfl⟩ | ⟨rfl, rfl⟩ | ⟨rfl, -⟩ | hnil := hlast
  · have hopen : Literal.string s.position '"' ['"', '"', ')', '\n'] =
        .error (.unterminatedString s.position) := rfl
    rw [token_quote, hopen] at hround
    cases hround
  · rw [token_quote] at hround
    cases hround
    have hparen := headToken_rightParen (s := s.pass _ _) h.inside rfl hwhole
    unfold Parser.mayBegin
    exact decide_eq_false (not_not_intro hparen)
  · have hopen : Literal.string s.position '"' [')', '\n'] =
        .error (.unterminatedString s.position) := rfl
    rw [token_quote, hopen] at hround
    cases hround
  · have hsymbol : symbol? [')', '\n'] = some (.rightParen, [')'], ['\n']) := rfl
    rw [Lexer.token, if_neg (by decide), if_neg (by decide), if_neg (by decide), hsymbol] at hround
    simp only at hround
    split at hround
    · cases hround
    · cases hround
      rfl
  · exact absurd rfl h.visible
  · cases hnil

end Lexer

namespace Parser

variable {source : Text} {tokens : List Token} {line : Nat}

/-- A statement begins at a character, and its line counts the line breaks before that. -/
theorem exists_round_of_begins (htokens : tokenize source = .ok tokens)
    (hbegins : Begins tokens line) :
    ∃ before c after, source = before ++ c :: after ∧ c ≠ '\n' ∧ line = Text.newlines before + 1 ∧
      ¬ c :: after <:+ Lexer.closingRow ++ ['\n'] := by
  unfold tokenize at htokens
  simp only at htokens
  split at htokens
  · cases htokens
  · rename_i hwhole
    cases htokens
    rw [Lexer.outcome_eq_lexed] at hwhole hbegins
    obtain ⟨ts, hts, hbegin, rfl⟩ := hbegins
    have hstart : (Lexer.ofText source).At source := Position.Passes.refl _ source
    obtain ⟨s, c, after, next, hround, htail, hnext⟩ :=
      Lexer.exists_round hstart hwhole hts hbegin
    obtain ⟨before, hsource, hline⟩ := hround.line
    refine ⟨before, c, after, hsource, hround.visible, hline, ?_⟩
    intro hlast
    have hclosing := hround.not_closing hlast hnext
    rw [htail] at hclosing
    cases ts with
    | nil => cases hbegin
    | cons t ts => exact Bool.noConfusion (hbegin.symm.trans hclosing)

/-- In a source that ends a line, the line of a statement is one of its rows. -/
theorem Begins.line_le (htokens : tokenize source = .ok tokens) (hbegins : Begins tokens line)
    {rows : Text} (hsource : source = rows ++ ['\n']) : 1 ≤ line ∧ line ≤ source.newlines := by
  obtain ⟨before, c, after, hparts, hc, rfl, -⟩ := exists_round_of_begins htokens hbegins
  have hend : ['\n'] <:+ c :: after :=
    List.suffix_of_suffix_length_le ⟨rows, hsource.symm⟩ ⟨before, hparts.symm⟩ (by simp)
  have hbreak : 1 ≤ Text.newlines (c :: after) := hend.sublist.count_le '\n'
  rw [hparts, Text.newlines_append]
  omega

/-- The row that closes the call of a print is the line of no statement. -/
theorem Begins.line_lt (htokens : tokenize source = .ok tokens) (hbegins : Begins tokens line)
    {rows : Text} (hsource : source = rows ++ '\n' :: Lexer.closingRow ++ ['\n']) :
    line < source.newlines := by
  obtain ⟨before, c, after, hparts, hc, rfl, hopen⟩ := exists_round_of_begins htokens hbegins
  have hend : '\n' :: (Lexer.closingRow ++ ['\n']) <:+ source := ⟨rows, by simp [hsource]⟩
  have hbreaks : 2 ≤ Text.newlines (c :: after) := by
    obtain hlast | hlast := List.suffix_or_suffix_of_suffix ⟨before, hparts.symm⟩ hend
    · obtain hrow | hrow := List.suffix_cons_iff.mp hlast
      · exact absurd (List.head_eq_of_cons_eq hrow) hc
      · exact absurd hrow hopen
    · exact hlast.sublist.count_le '\n'
  rw [hparts, Text.newlines_append]
  omega

end Parser

end TemplateEngine
