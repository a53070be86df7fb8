import TemplateEngine.Proofs.Syntax.Enclosed
import TemplateEngine.Proofs.Syntax.TokenPlaces

/-!
# Texts that read alike

Two texts within a line read alike when they are cut into tokens of the same kinds,
wherever they stand. Blanks and comments are of no account, and code keeps its tokens
when what comes behind it is replaced by what reads alike, as long as no token reaches
over the seam.
-/
namespace TemplateEngine.Lexer

/-- The kinds of all tokens, unless the text cannot be cut into tokens. -/
def Outcome.kinds? (o : Outcome) : Option (List TokenKind) :=
  match o.failure with
  | none => some (o.tokens.map Token.kind)
  | some _ => none

theorem Outcome.kinds?_eq_some {o : Outcome} {kinds : List TokenKind} :
    o.kinds? = some kinds ↔ o.failure = none ∧ o.tokens.map Token.kind = kinds := by
  unfold Outcome.kinds?
  cases o.failure <;> simp

theorem Outcome.kinds?_after (ts : List Token) (o : Outcome) :
    (o.after ts).kinds? = o.kinds?.map (ts.map Token.kind ++ ·) := by
  unfold Outcome.kinds? Outcome.after
  cases o.failure <;> simp

/-- Where the first text can be cut into tokens, the second one is cut into tokens of the same
kinds. -/
def ReadsAs (t t' : Text) : Prop :=
  ∀ brackets ended p q kinds,
    (lexed ⟨t, p, [], brackets, false, ended⟩).kinds? = some kinds →
      (lexed ⟨t', q, [], brackets, false, ended⟩).kinds? = some kinds

section Rounds

variable {t t' : Text}

/-- A text that cannot be cut into tokens reads as any other. -/
theorem readsAs_of_failed (h : ∀ brackets ended p, ∃ error n,
    round ⟨t, p, [], brackets, false, ended⟩ = .failed error n) : ReadsAs t t' := by
  intro brackets ended p q kinds hkinds
  obtain ⟨error, n, hround⟩ := h brackets ended p
  rw [lexed_failed hround] at hkinds
  cases hkinds

/-- On a line a backslash continues nothing. -/
theorem round_backslash {brackets : List Char} {ended : Bool} {p : Position}
    (ht : '\n' ∉ t) :
    ∃ error n, round ⟨'\\' :: t, p, [], brackets, false, ended⟩ = .failed error n := by
  have hskip : skipBlanks false p ('\\' :: t) = (p, '\\' :: t) := by
    rw [skipBlanks.eq_def]
    cases t with
    | nil => rfl
    | cons c t =>
        have hc : c ≠ '\n' := fun h => ht (h ▸ List.mem_cons_self)
        simp [hc]
  obtain ⟨error, n, htoken⟩ := token_backslash ⟨'\\' :: t, p, [], brackets, false, ended⟩ t
  refine ⟨error, n, ?_⟩
  rw [round_within rfl, within]
  simp only [hskip]
  exact htoken

/-- Texts read alike if they yield a token of the same kind and leave texts that read alike. -/
theorem readsAs_of_round
    (h : ∀ brackets ended p tokens next,
      round ⟨t, p, [], brackets, false, ended⟩ = .more tokens next →
        ∃ r r' k span outer stop, ReadsAs r r' ∧ tokens = [⟨k, span⟩] ∧
          next = ⟨r, stop, [], outer, false, false⟩ ∧
          ∀ q, ∃ span' stop', round ⟨t', q, [], brackets, false, ended⟩ =
            .more [⟨k, span'⟩] ⟨r', stop', [], outer, false, false⟩)
    (hdone : ∀ brackets ended p tokens,
      round ⟨t, p, [], brackets, false, ended⟩ ≠ .done tokens) : ReadsAs t t' := by
  intro brackets ended p q kinds hkinds
  cases hround : round ⟨t, p, [], brackets, false, ended⟩ with
  | done tokens => exact absurd hround (hdone brackets ended p tokens)
  | failed error n =>
      rw [lexed_failed hround] at hkinds
      cases hkinds
  | more tokens next =>
      obtain ⟨r, r', k, span, outer, stop, hreads, rfl, rfl, hother⟩ :=
        h brackets ended p tokens next hround
      obtain ⟨span', stop', hround'⟩ := hother q
      rw [lexed_more hround, Outcome.kinds?_after] at hkinds
      obtain ⟨kinds, hrest, rfl⟩ := Option.map_eq_some_iff.mp hkinds
      rw [lexed_more hround', Outcome.kinds?_after, hreads outer false stop stop' kinds hrest]
      rfl

end Rounds

section Blanks

variable {t t' : Text}

/-- The end of a text is read alike at every place. -/
theorem readsAs_nil : ReadsAs [] [] := by
  intro brackets ended p q kinds hkinds
  cases brackets with
  | nil =>
      have hround : ∀ p, round ⟨[], p, [], [], false, ended⟩ =
          .done (closing ⟨[], p, [], [], false, ended⟩) := fun _ => rfl
      rw [lexed_done (hround _)] at hkinds ⊢
      cases ended <;> exact hkinds
  | cons innermost outer =>
      have hround : round ⟨[], p, [], innermost :: outer, false, ended⟩ =
          .failed (.unmatchedBracket innermost p) 0 := rfl
      rw [lexed_failed hround] at hkinds
      cases hkinds

/-- A blank before a text may be left out. -/
theorem ReadsAs.of_blank {g : Char} (hg : Text.isBlank g = true) (hnewline : g ≠ '\n')
    (h : ReadsAs t t') : ReadsAs (g :: t) t' := by
  intro brackets ended p q kinds hkinds
  cases hinline : isInlineBlank g with
  | true =>
      rw [lexed_inlineBlank hinline] at hkinds
      exact h brackets ended _ q kinds hkinds
  | false =>
      rw [failure_of_isBlank hg hnewline hinline] at hkinds
      cases hkinds

theorem ReadsAs.blank {g : Char} (hg : isInlineBlank g = true) (h : ReadsAs t t') :
    ReadsAs (g :: t) (g :: t') := by
  intro brackets ended p q kinds hkinds
  rw [lexed_inlineBlank hg] at hkinds ⊢
  exact h brackets ended _ _ kinds hkinds

theorem skipBlanks_comment_line (p : Position) (ht : '\n' ∉ t) :
    skipBlanks true p t = (p.after t, []) := by
  induction t generalizing p with
  | nil => rfl
  | cons c t ih =>
      rw [List.mem_cons, not_or] at ht
      rw [skipBlanks_comment p t (Ne.symm ht.1), ih (p.step c) ht.2, Position.after_cons]

/-- A comment up to the end of a line reads as any other. -/
theorem readsAs_comment (ht : '\n' ∉ t) (ht' : '\n' ∉ t') : ReadsAs ('#' :: t) ('#' :: t') := by
  have hend {s : Text} (hs : '\n' ∉ s) (brackets : List Char) (ended : Bool) (p : Position) :
      lexed ⟨'#' :: s, p, [], brackets, false, ended⟩ =
        lexed ⟨[], (p.step '#').after s, [], brackets, false, ended⟩ := by
    rw [lexed_eq_lexedIn, lexed_eq_lexedIn]
    apply lexedIn_congr
    rw [skipBlanks_hash, skipBlanks_comment_line _ hs]
    rfl
  intro brackets ended p q kinds hkinds
  rw [hend ht] at hkinds
  rw [hend ht']
  exact readsAs_nil brackets ended _ _ kinds hkinds

end Blanks

section Code

variable {v v' : Text}

/-- Code that begins with a token other than a string does so before it is known what comes
behind it. -/
theorem token_of_append {tail : Text} (htail : Stops tail) {c : Char}
    (hquote : ¬ (c = '"' ∨ c = '\'')) {t : Text} {s : Lexer} {tokens : List Token} {next : Lexer}
    (h : s.token c (t ++ tail) = .more tokens next) :
    ∃ tokens next, s.token c t = .more tokens next := by
  have hquote : ¬ ((decide (c = '"') || decide (c = '\'')) = true) := by simpa using hquote
  unfold token at h ⊢
  dsimp only at h ⊢
  by_cases hstart : Letter.isIdentifierStart c = true
  · rw [if_pos hstart]
    exact ⟨_, _, rfl⟩
  · rw [if_neg hstart] at h ⊢
    by_cases hdigit : c.isDigit = true
    · rw [if_pos hdigit] at h ⊢
      split at h
      · rename_i found hfound
        obtain ⟨rest, -, hnumber⟩ := Literal.number_of_append (t := c :: t) htail hfound
        rw [hnumber]
        exact ⟨_, _, rfl⟩
      · cases h
    · rw [if_neg hdigit, if_neg hquote] at h ⊢
      have hsymbol := symbol?_append htail c t
      rw [List.cons_append] at hsymbol
      rw [hsymbol] at h
      cases halone : symbol? (c :: t) with
      | none =>
          rw [halone] at h
          cases h
      | some found =>
          rw [halone] at h
          dsimp only [Option.map_some] at h ⊢
          split at h
          · cases h
          · exact ⟨_, _, rfl⟩

/-- A token other than a string takes no more than the code that it stands in, whatever comes
behind that. -/
theorem token_replace (hv : Stops v) (hv' : Stops v') {c : Char}
    (hquote : ¬ (c = '"' ∨ c = '\'')) {t : Text} {p : Position} {indents : List Nat}
    {brackets : List Char} {ended : Bool} {tokens : List Token} {next : Lexer}
    (h : token ⟨c :: (t ++ v), p, indents, brackets, false, ended⟩ c (t ++ v) =
      .more tokens next) :
    ∃ rest k span outer stop, rest <:+ t ∧ tokens = [⟨k, span⟩] ∧
      next = ⟨rest ++ v, stop, indents, outer, false, false⟩ ∧
      ∀ q, ∃ span' stop',
        token ⟨c :: (t ++ v'), q, indents, brackets, false, ended⟩ c (t ++ v') =
          .more [⟨k, span'⟩] ⟨rest ++ v', stop', indents, outer, false, false⟩ := by
  obtain ⟨alone, before, halone⟩ : ∃ alone before,
      token ⟨c :: t, p, indents, brackets, false, ended⟩ c t = .more alone before :=
    token_of_append hv hquote h
  have hsuffix : before.rest <:+ t := by
    obtain ⟨-, passed, hpassed, -⟩ := token_spec halone
    have hshorter := (token_shorter halone).1
    obtain heq | hsuffix := List.suffix_cons_iff.mp ⟨passed, hpassed.symm⟩
    · rw [heq, List.length_cons] at hshorter
      omega
    · exact hsuffix
  obtain ⟨k, span, rfl, -, -, happend⟩ := token_append_of_stops hv hquote halone
  obtain ⟨k', span', heq, -, -, happend'⟩ := token_append_of_stops hv' hquote halone
  cases heq
  obtain ⟨span', stop, hbefore⟩ := happend p indents [] ended
  rw [List.append_nil] at hbefore
  cases h.symm.trans hbefore
  refine ⟨before.rest, k, span', _, stop, hsuffix, rfl, rfl, fun q => ?_⟩
  obtain ⟨span', stop', hsame⟩ := happend' q indents [] ended
  rw [List.append_nil] at hsame
  exact ⟨span', stop', hsame⟩

theorem readsAs_of_token (hv : Stops v) (hv' : Stops v') {c : Char} {k : Text}
    (hvisible : c ∉ [' ', '\t', '\r', '\x0c', '#', '\\']) (hnewline : c ≠ '\n')
    (hquote : Segment.isQuote c = false)
    (hrest : ∀ rest, rest <:+ k → ReadsAs (rest ++ v) (rest ++ v')) :
    ReadsAs (c :: (k ++ v)) (c :: (k ++ v')) := by
  have hquote : ¬ (c = '"' ∨ c = '\'') := by simpa [Segment.isQuote] using hquote
  apply readsAs_of_round
  · intro brackets ended p tokens next hround
    rw [round_token hvisible hnewline] at hround
    obtain ⟨rest, kind, span, outer, stop, hsuffix, rfl, rfl, hother⟩ :=
      token_replace hv hv' hquote hround
    refine ⟨_, _, kind, span, outer, stop, hrest rest hsuffix, rfl, rfl, fun q => ?_⟩
    rw [round_token hvisible hnewline]
    exact hother q
  · intro brackets ended p tokens hround
    rw [round_token hvisible hnewline] at hround
    exact token_ne_done _ _ _ _ hround

/-- Code without quotes, on a line, before texts that read alike. -/
theorem ReadsAs.of_code {k : Text} (hk : ∀ c ∈ k, Segment.isQuote c = false ∧ c ≠ '\n')
    (hv : Stops v) (hv' : Stops v') (hline : '\n' ∉ v) (hline' : '\n' ∉ v')
    (h : ReadsAs v v') : ReadsAs (k ++ v) (k ++ v') := by
  induction hn : k.length using Nat.strongRecOn generalizing k with
  | ind n ih =>
      subst hn
      cases k with
      | nil => exact h
      | cons c k =>
          obtain ⟨hquote, hnewline⟩ := hk c List.mem_cons_self
          have hk : ∀ d ∈ k, Segment.isQuote d = false ∧ d ≠ '\n' := fun d hd =>
            hk d (List.mem_cons_of_mem c hd)
          have hnot : ∀ {v}, '\n' ∉ v → '\n' ∉ k ++ v := fun hv hmem =>
            (List.mem_append.mp hmem).elim (fun hd => (hk _ hd).2 rfl) hv
          have hrest : ∀ rest, rest <:+ k → ReadsAs (rest ++ v) (rest ++ v') := by
            intro rest hrest
            have hless : rest.length < (c :: k).length :=
              Nat.lt_succ_of_le hrest.sublist.length_le
            exact ih _ hless (fun d hd => hk d (hrest.subset hd)) rfl
          rw [List.cons_append, List.cons_append]
          cases hinline : isInlineBlank c with
          | true => exact (hrest k (List.suffix_refl k)).blank hinline
          | false =>
              by_cases hhash : c = '#'
              · subst hhash
                exact readsAs_comment (hnot hline) (hnot hline')
              · by_cases hescape : c = '\\'
                · subst hescape
                  exact readsAs_of_failed fun brackets ended p => round_backslash (hnot hline)
                · exact readsAs_of_token hv hv'
                    (visible_of_not_isInlineBlank hinline hhash hescape) hnewline hquote hrest

end Code

section Sources

variable {t t' : Text} {tokens : List Token}

/-- A text on a line that begins with no blank. -/
def OnLine (t : Text) : Prop := '\n' ∉ t ∧ ∀ c ∈ t.head?, isInlineBlank c = false

theorem indentation_comment_line (p : Position) (ht : '\n' ∉ t) :
    indentation true 0 p t = (0, p.after t, []) := by
  induction t generalizing p with
  | nil => rfl
  | cons c t ih =>
      rw [List.mem_cons, not_or] at ht
      rw [indentation, if_neg (Ne.symm ht.1), if_pos rfl, ih (p.step c) ht.2, Position.after_cons]

/-- The indentation of such a text opens no block. -/
theorem lexed_ofText (ht : OnLine t) :
    (ofText t).lexed = lexed ⟨t, .start, [], [], false, true⟩ := by
  obtain ⟨hline, hfirst⟩ := ht
  cases t with
  | nil => exact lexed_congr rfl
  | cons c t =>
      have hblank := hfirst c rfl
      simp only [isInlineBlank, Bool.or_eq_false_iff, decide_eq_false_iff_not] at hblank
      obtain ⟨⟨⟨hspace, htab⟩, hreturn⟩, hfeed⟩ := hblank
      rw [List.mem_cons, not_or] at hline
      by_cases hhash : c = '#'
      · subst hhash
        have hmeasured : indentation false 0 .start ('#' :: t) =
            (0, (Position.start.step '#').after t, []) := by
          rw [indentation]
          exact indentation_comment_line _ hline.2
        have hskipped : skipBlanks false .start ('#' :: t) =
            ((Position.start.step '#').after t, []) := by
          rw [skipBlanks_hash, skipBlanks_comment_line _ hline.2]
        apply lexed_congr
        rw [round_within (s := ⟨'#' :: t, .start, [], [], false, true⟩) rfl, within, round]
        simp [ofText, layout, hmeasured, hskipped, within, skipBlanks]
      · have hmeasured : indentation false 0 .start (c :: t) = (0, .start, c :: t) := by
          rw [indentation, if_neg (Ne.symm hline.1), if_neg Bool.false_ne_true, if_neg hspace,
            if_neg htab, if_neg hhash]
          simp [hreturn, hfeed]
        apply lexed_congr
        rw [round_within (s := ⟨c :: t, .start, [], [], false, true⟩) rfl, round]
        simp [ofText, layout, hmeasured]

theorem kinds?_of_tokenize (h : tokenize t = .ok tokens) :
    (ofText t).lexed.kinds? = some (tokens.map Token.kind) := by
  obtain ⟨hok, rfl⟩ := tokenize_eq_ok.mp h
  exact Outcome.kinds?_eq_some.mpr ⟨hok, rfl⟩

theorem exists_tokenize {kinds : List TokenKind} (h : (ofText t).lexed.kinds? = some kinds) :
    ∃ tokens, tokenize t = .ok tokens ∧ tokens.map Token.kind = kinds := by
  obtain ⟨hok, hkinds⟩ := Outcome.kinds?_eq_some.mp h
  exact ⟨_, tokenize_eq_ok.mpr ⟨hok, rfl⟩, hkinds⟩

/-- Texts that read alike within a line are sources with the same kinds of tokens. -/
theorem ReadsAs.tokenize (h : ReadsAs t t') (ht : OnLine t) (ht' : OnLine t')
    (htokens : tokenize t = .ok tokens) :
    ∃ tokens', TemplateEngine.tokenize t' = .ok tokens' ∧
      tokens'.map Token.kind = tokens.map Token.kind := by
  have hkinds := kinds?_of_tokenize htokens
  rw [lexed_ofText ht] at hkinds
  apply exists_tokenize
  rw [lexed_ofText ht']
  exact h [] true .start .start _ hkinds

end Sources

end TemplateEngine.Lexer
