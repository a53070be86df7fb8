import TemplateEngine.Proofs.Syntax.SkippedText

/-!
# Rounds without fuel

Every round consumes characters or leaves the start of a line, so the rounds of
a source end on their own and the fuel that they are given never shows. What
comes of a state is therefore what its first round yields, followed by what
comes of the next state.
-/
namespace TemplateEngine

namespace Literal

theorem length_digitRun (t : Text) : (digitRun t).2.length ≤ t.length := by
  induction t using digitRun.induct with
  | case1 => simp [digitRun]
  | case2 c rest hc _ _ _ ih =>
      simp only [digitRun, hc, if_true, List.length_cons]
      omega
  | case3 d rest hd _ _ hunderscore _ ih =>
      rw [digitRun, if_neg hunderscore, if_pos rfl]
      simp only [hd, if_true, List.length_cons] at ih ⊢
      omega
  | case4 d rest hd hunderscore =>
      rw [digitRun, if_neg hunderscore, if_pos rfl]
      simp [hd]
  | case5 hunderscore => simp [digitRun]
  | case6 c rest hc hunderscore => simp [digitRun, hc, hunderscore]

theorem length_fraction (t : Text) : (fraction t).2.length ≤ t.length := by
  unfold fraction
  split
  · split
    · rename_i rest _
      have h := length_digitRun rest
      simp only [List.length_cons]
      omega
    · simp
  · simp

theorem length_exponent (t : Text) : (exponent t).2.length ≤ t.length := by
  unfold exponent
  split
  · rename_i c sign rest
    have h := length_digitRun rest
    have h' := length_digitRun (sign :: rest)
    simp only [List.length_cons] at h'
    split
    · split
      · simp only [List.length_cons]
        omega
      · split
        · simp only [List.length_cons]
          omega
        · simp
    · simp
  · simp

/-- A number takes its first digit at least. -/
theorem length_number {p : Position} {c : Char} {t : Text} {found : Scanned} (hc : c.isDigit = true)
    (h : number p (c :: t) = .ok found) : found.rest.length < (c :: t).length := by
  have hrun : (digitRun (c :: t)).2.length ≤ t.length := by
    simp only [digitRun, hc, if_true]
    exact length_digitRun t
  have hfraction := length_fraction (digitRun (c :: t)).2
  have hexponent := length_exponent (fraction (digitRun (c :: t)).2).2
  have hrest : found.rest = (exponent (fraction (digitRun (c :: t)).2).2).2 := by
    unfold number at h
    simp only at h
    split at h
    · cases h
      rfl
    · cases h
  rw [hrest, List.length_cons]
  omega

theorem length_stringBody {start : Position} {quote : Char} {triple : Bool} {mode : StringMode}
    {p : Position} {value t : Text} {found : Scanned}
    (h : stringBody start quote triple mode p value t = .ok found) :
    found.rest.length ≤ t.length := by
  fun_induction stringBody start quote triple mode p value t <;> grind

theorem length_string {p : Position} {quote : Char} {t : Text} {found : Scanned}
    (h : string p quote t = .ok found) : found.rest.length ≤ t.length := by
  unfold string at h
  split at h
  · split at h
    · have hbody := length_stringBody h
      simp only [List.length_cons]
      omega
    · exact length_stringBody h
  · exact length_stringBody h

end Literal

namespace Lexer

theorem length_indentation (comment : Bool) (width : Nat) (p : Position) (t : Text) :
    (indentation comment width p t).2.2.length ≤ t.length :=
  (skips_indentation True.intro comment width p t).length_le

theorem length_skipBlanks (comment : Bool) (p : Position) (t : Text) :
    (skipBlanks comment p t).2.length ≤ t.length :=
  (skips_skipBlanks True comment p t).length_le

theorem length_symbol? {t lexeme rest : Text} {mark : Symbol}
    (h : symbol? t = some (mark, lexeme, rest)) : rest.length < t.length := by
  unfold symbol? at h
  grind [Option.map_eq_some_iff]

/-- How many rounds are left at most: two for every character, and one for the start of
a line. -/
def roundsLeft (s : Lexer) : Nat := 2 * s.rest.length + s.lineStart.toNat

theorem layout_shorter {s next : Lexer} {tokens : List Token} (h : s.layout = .ok (tokens, next)) :
    next.rest.length ≤ s.rest.length ∧ next.lineStart = false := by
  have hlength := length_indentation false 0 s.position s.rest
  unfold layout at h
  grind

theorem token_shorter {s next : Lexer} {c : Char} {after : Text} {tokens : List Token}
    (h : s.token c after = .more tokens next) :
    next.rest.length ≤ after.length ∧ next.lineStart = s.lineStart := by
  unfold token at h
  simp only at h
  split at h
  · cases h
    exact ⟨(List.dropWhile_sublist _).length_le, rfl⟩
  · split at h
    · rename_i hdigit
      split at h
      · rename_i found hfound
        cases h
        exact ⟨Nat.le_of_lt_succ (Literal.length_number hdigit hfound), rfl⟩
      · cases h
    · split at h
      · split at h
        · rename_i found hfound
          cases h
          exact ⟨Literal.length_string hfound, rfl⟩
        · cases h
      · split at h
        · cases h
        · rename_i mark lexeme rest hsymbol
          split at h
          · cases h
          · cases h
            exact ⟨Nat.le_of_lt_succ (length_symbol? hsymbol), rfl⟩

/-- No round of a token is the last one. -/
theorem token_ne_done (s : Lexer) (c : Char) (t : Text) (tokens : List Token) :
    s.token c t ≠ .done tokens := by
  intro h
  unfold token at h
  dsimp only at h
  repeat' split at h
  all_goals cases h

/-- A round within a line that goes on passes blanks and then a line break, which ends a line
only outside brackets and only once, or takes a token. -/
theorem within_cases {s next : Lexer} {tokens : List Token} (h : s.within = .more tokens next) :
    ∃ p c after, skipBlanks false s.position s.rest = (p, c :: after) ∧
      ((c = '\n' ∧ s.brackets ≠ [] ∧ tokens = [] ∧
          next = { s with rest := after, position := p.step c }) ∨
        (c = '\n' ∧ s.brackets = [] ∧ s.lineEnded = true ∧ tokens = [] ∧
          next = { s with rest := after, position := p.step c, lineStart := true }) ∨
        (c = '\n' ∧ s.brackets = [] ∧ s.lineEnded = false ∧
          tokens = [⟨.newline, ⟨p, p.step c⟩⟩] ∧
          next =
            { s with rest := after, position := p.step c, lineStart := true, lineEnded := true }) ∨
        (c ≠ '\n' ∧ token { s with rest := c :: after, position := p } c after =
          .more tokens next)) := by
  unfold within at h
  cases hskip : skipBlanks false s.position s.rest with
  | mk p rest =>
      rw [hskip] at h
      cases rest with
      | nil =>
          simp only at h
          split at h <;> cases h
      | cons c after =>
          refine ⟨p, c, after, rfl, ?_⟩
          simp only at h
          split at h
          · rename_i hbreak
            split at h
            · rename_i hinside
              cases h
              exact .inl ⟨hbreak, by simpa using hinside, rfl, rfl⟩
            · rename_i hinside
              have houtside : s.brackets = [] := by simpa using hinside
              split at h
              · rename_i hended
                cases h
                exact .inr (.inl ⟨hbreak, houtside, hended, rfl, rfl⟩)
              · rename_i hended
                cases h
                exact .inr (.inr (.inl ⟨hbreak, houtside, by simpa using hended, rfl, rfl⟩))
          · rename_i hvisible
            exact .inr (.inr (.inr ⟨hvisible, h⟩))

/-- The last round passes blanks and is at the end of the source, outside brackets. -/
theorem exists_of_within_done {s : Lexer} {tokens : List Token} (h : s.within = .done tokens) :
    ∃ p, skipBlanks false s.position s.rest = (p, []) ∧ s.brackets = [] ∧
      tokens = closing { s with rest := [], position := p } := by
  unfold within at h
  cases hskip : skipBlanks false s.position s.rest with
  | mk p rest =>
      rw [hskip] at h
      cases rest with
      | nil =>
          simp only at h
          split at h
          · cases h
          · rename_i hbrackets
            cases h
            exact ⟨p, rfl, hbrackets, rfl⟩
      | cons c after =>
          simp only at h
          repeat' split at h
          all_goals first
            | cases h
            | exact absurd h (token_ne_done _ _ _ _)

theorem within_shorter {s next : Lexer} {tokens : List Token}
    (h : s.within = .more tokens next) :
    next.rest.length < s.rest.length := by
  obtain ⟨p, c, after, hskip, hcases⟩ := within_cases h
  have hlength := length_skipBlanks false s.position s.rest
  rw [hskip, List.length_cons] at hlength
  obtain ⟨-, -, -, rfl⟩ | ⟨-, -, -, -, rfl⟩ | ⟨-, -, -, -, rfl⟩ | ⟨-, htoken⟩ := hcases
  · exact hlength
  · exact hlength
  · exact hlength
  · have hshorter := (token_shorter htoken).1
    omega

/-- Every round leaves fewer rounds to come. -/
theorem round_fewer {s next : Lexer} {tokens : List Token} (h : s.round = .more tokens next) :
    next.roundsLeft < s.roundsLeft := by
  have hbound : next.lineStart.toNat ≤ 1 := Bool.toNat_le _
  unfold round at h
  split at h
  · rename_i hstart
    simp only [Bool.and_eq_true] at hstart
    split at h
    · cases h
    · rename_i mid hlayout
      have hmid := layout_shorter hlayout
      have hwithin := within_shorter h
      simp only [roundsLeft, hstart.1, Bool.toNat_true]
      omega
    · rename_i mid hlayout
      cases h
      have hnext := layout_shorter hlayout
      simp only [roundsLeft, hstart.1, hnext.2, Bool.toNat_true, Bool.toNat_false]
      omega
  · have hwithin := within_shorter h
    simp only [roundsLeft]
    omega

/-- What comes of a state, without fuel. -/
def lexed (s : Lexer) : Outcome := run (s.roundsLeft + 1) s

/-- Tokens before an outcome. -/
def Outcome.after (tokens : List Token) (o : Outcome) : Outcome :=
  { o with tokens := tokens ++ o.tokens }

@[simp] theorem Outcome.after_nil (o : Outcome) : Outcome.after [] o = o := rfl

@[simp] theorem Outcome.after_after (ts us : List Token) (o : Outcome) :
    Outcome.after ts (Outcome.after us o) = Outcome.after (ts ++ us) o := by
  simp [Outcome.after]

/-- Fuel for all the rounds that are left is as good as more of it. -/
theorem run_enough {s : Lexer} {fuel other : Nat} (hfuel : s.roundsLeft < fuel)
    (hother : s.roundsLeft < other) : run fuel s = run other s := by
  induction fuel generalizing s other with
  | zero => omega
  | succ fuel ih =>
      obtain ⟨other, rfl⟩ := Nat.exists_eq_add_one.mpr (Nat.lt_of_le_of_lt (Nat.zero_le _) hother)
      rw [run, run]
      cases hround : s.round with
      | more tokens next =>
          have hfewer := round_fewer hround
          have hnext : run fuel next = run other next := ih (by omega) (by omega)
          simp only [hnext]
      | done tokens => rfl
      | failed error openIndents => rfl

theorem run_eq_lexed {s : Lexer} {fuel : Nat} (hfuel : s.roundsLeft < fuel) :
    run fuel s = s.lexed := run_enough hfuel (Nat.lt_succ_self _)

theorem lexed_more {s next : Lexer} {tokens : List Token} (h : s.round = .more tokens next) :
    s.lexed = next.lexed.after tokens := by
  have hfewer := round_fewer h
  rw [lexed, run]
  simp only [h]
  rw [run_eq_lexed hfewer]
  rfl

theorem lexed_done {s : Lexer} {tokens : List Token} (h : s.round = .done tokens) :
    s.lexed = ⟨tokens, none, 0⟩ := by
  rw [lexed, run]
  simp only [h]

theorem lexed_failed {s : Lexer} {error : LexError} {n : Nat} (h : s.round = .failed error n) :
    s.lexed = ⟨[], some error, n⟩ := by
  rw [lexed, run]
  simp only [h]

/-- States with the same next round come to the same. -/
theorem lexed_congr {s t : Lexer} (h : s.round = t.round) : s.lexed = t.lexed := by
  rw [lexed, lexed, run, run, h]
  cases hround : t.round with
  | more tokens next =>
      have hs : next.roundsLeft < s.roundsLeft := round_fewer (h.trans hround)
      have ht : next.roundsLeft < t.roundsLeft := round_fewer hround
      simp only [run_enough hs ht]
  | done tokens => rfl
  | failed error openIndents => rfl

theorem outcome_eq_lexed (source : Text) : outcome source = (ofText source).lexed := by
  refine run_eq_lexed ?_
  simp only [roundsLeft, ofText, Bool.toNat_true]
  omega

end Lexer

theorem tokenize_eq_ok {source : Text} {tokens : List Token} :
    tokenize source = .ok tokens ↔
      (Lexer.ofText source).lexed.failure = none ∧ (Lexer.ofText source).lexed.tokens = tokens := by
  unfold tokenize
  rw [Lexer.outcome_eq_lexed]
  dsimp only
  cases (Lexer.ofText source).lexed.failure <;> simp

end TemplateEngine
