import TemplateEngine.Proofs.Syntax.Enclosed
import TemplateEngine.Proofs.Syntax.StatementReading
import TemplateEngine.Proofs.Template.Translation

/-!
# Reading a line that prints an expression

What the parser makes of the tokens of a call is settled by what it makes of its
only argument, as nothing after the closing parenthesis goes on with the call. All
statements are about a parser that succeeds: whether it does is another matter,
since the calls take up some of the depth that operands may nest to.

An expression that a text is on its own is what the parser finds between the
parentheses of the two calls that print it. So a line that prints, if it is read
at all, is read as a statement that appends the filtered value of that expression.
-/
namespace TemplateEngine.Parser

/-- The only result that a parser can have on a list. -/
def Only {α : Type} (p : Parser α) (Y : List Token) (a : α) (Z : List Token) : Prop :=
  ∀ b W, p Y = .ok (b, W) → b = a ∧ W = Z

/-- Tokens that no expression goes on with. -/
def Ends (Z : List Token) : Prop :=
  breaksLine (headToken Z).kind = true ∨ leavesCall (headToken Z).kind = true

section Ends

variable {Z : List Token} (hZ : Ends Z)
include hZ

theorem Ends.ne {k : TokenKind} (hk : inside k = true) : (headToken Z).kind ≠ k := by
  rw [inside, Bool.and_eq_true, Bool.not_eq_true', Bool.not_eq_true'] at hk
  rintro heq
  rw [Ends, heq, hk.1, hk.2] at hZ
  rcases hZ with hZ | hZ <;> cases hZ

theorem Ends.trailersLoop (operand : Nat → Parser Expr) (e : Expr) (fuel : Nat) :
    trailersLoop operand e (fuel + 1) Z = .ok (e, Z) := by
  rw [Parser.trailersLoop, bind_kind]
  cases hk : (headToken Z).kind with
  | symbol mark =>
      have hne : ∀ other, inside (.symbol other) = true → mark ≠ other := by
        rintro other hother rfl
        exact hZ.ne hother hk
      cases mark with
      | leftParen => exact absurd rfl (hne .leftParen rfl)
      | leftBracket => exact absurd rfl (hne .leftBracket rfl)
      | dot => exact absurd rfl (hne .dot rfl)
      | _ => rfl
  | _ => rfl

theorem Ends.chainLoop (operand : Nat → Parser Expr) (least : Nat) (e : Expr) (fuel : Nat) :
    chainLoop operand least e (fuel + 1) Z = .ok (e, Z) := by
  rw [chainLoop_succ, bind_kind, bind_nextKind, connectiveAt?_of_ends hZ]
  rfl

/-- An operand with nothing after it that goes on with it is a full expression. -/
theorem Ends.expressionWith {operand : Nat → Parser Expr} {Y : List Token} {e : Expr}
    (hop : Only (operand orPower) Y e Z) : Only (expressionWith operand) Y e Z := by
  intro b W h
  have h : conditionalLoop operand (Y.length + 1) Y = .ok (b, W) := h
  rw [conditionalLoop] at h
  obtain ⟨a, Y', ha, h⟩ := exists_of_ok h
  obtain ⟨rfl, rfl⟩ := hop a Y' ha
  rw [bind_at (hZ.ne rfl)] at h
  cases h
  exact ⟨rfl, rfl⟩

omit hZ in
/-- What a call is made of, whatever goes on with it. -/
theorem exists_of_operand_call {depth least : Nat} {x : Text} {s₁ s₂ : Span} {Y W : List Token}
    {b : Expr} (h : operand (depth + 1) least
      (⟨.identifier x, s₁⟩ :: ⟨.symbol .leftParen, s₂⟩ :: Y) = .ok (b, W)) :
    ∃ args keywords Z' e Y',
      looping (argumentsLoop (operand depth) [] []) Y = .ok ((args, keywords), Z') ∧
      (headToken Z').kind = .symbol .rightParen ∧
      Parser.trailersLoop (operand depth) (.call (.name x) args keywords) (Y.length + 1) Z'.tail =
        .ok (e, Y') ∧
      Parser.chainLoop (operand depth) least e (Y'.length + 1) Y' = .ok (b, W) := by
  rw [operand] at h
  obtain ⟨e, Y', hheaded, hchain⟩ := exists_of_ok h
  have hcall : (looping (argumentsLoop (operand depth) [] []) >>= fun found =>
      expectSymbol .rightParen >>= fun _ =>
        Parser.trailersLoop (operand depth) (.call (.name x) found.1 found.2) (Y.length + 1)) Y =
      .ok (e, Y') := hheaded
  obtain ⟨⟨args, keywords⟩, Z', hfound, hcall⟩ := exists_of_ok hcall
  obtain ⟨_, Z, hexpect, htrailers⟩ := exists_of_ok hcall
  rw [expectSymbol, expect] at hexpect
  split at hexpect
  · rename_i hclosing
    cases hexpect
    exact ⟨args, keywords, Z', e, Y', hfound, hclosing, htrailers, hchain⟩
  · cases hexpect

/-- A call is what the parser makes of its arguments, if nothing goes on with it. -/
theorem Ends.operand_call {depth least : Nat} {x : Text} {s₁ s₂ s₃ : Span} {Y : List Token}
    {args : List Expr}
    (hargs : Only (looping (argumentsLoop (operand depth) [] [])) Y (args, [])
      (⟨.symbol .rightParen, s₃⟩ :: Z)) :
    Only (operand (depth + 1) least)
      (⟨.identifier x, s₁⟩ :: ⟨.symbol .leftParen, s₂⟩ :: Y) (.call (.name x) args []) Z := by
  intro b W h
  obtain ⟨args', keywords, Z', e, Y', hfound, -, htrailers, hchain⟩ := exists_of_operand_call h
  obtain ⟨hargs, rfl⟩ := hargs _ _ hfound
  cases hargs
  rw [List.tail_cons, hZ.trailersLoop] at htrailers
  cases htrailers
  rw [hZ.chainLoop] at hchain
  cases hchain
  exact ⟨rfl, rfl⟩

omit hZ in
/-- Arguments that start with one that has no name start with an expression. -/
theorem exists_of_arguments {operand : Nat → Parser Expr} {Y W : List Token}
    {b : List Expr × List (Text × Expr)}
    (hclosing : (headToken Y).kind ≠ .symbol .rightParen)
    (hname : argumentName? (headToken Y).kind (headToken Y.tail).kind = none)
    (h : looping (argumentsLoop operand [] []) Y = .ok (b, W)) :
    ∃ a Y', Parser.expressionWith operand Y = .ok (a, Y') ∧
      (skipSymbol .comma >>= fun goesOn =>
        if goesOn then argumentsLoop operand [a] [] Y.length else pure ([a], [])) Y' =
          .ok (b, W) := by
  have h : argumentsLoop operand [] [] (Y.length + 1) Y = .ok (b, W) := h
  rw [argumentsLoop_succ, bind_at hclosing] at h
  simp only [Bool.false_eq_true, if_false] at h
  rw [bind_kind, bind_nextKind, argument, hname] at h
  exact exists_of_ok h

/-- The only argument of a call. -/
theorem Ends.arguments {operand : Nat → Parser Expr} {Y : List Token} {e : Expr}
    (hclosing : (headToken Y).kind ≠ .symbol .rightParen)
    (hname : argumentName? (headToken Y).kind (headToken Y.tail).kind = none)
    (harg : Only (Parser.expressionWith operand) Y e Z) :
    Only (looping (argumentsLoop operand [] [])) Y ([e], []) Z := by
  intro b W h
  obtain ⟨a, Y', ha, h⟩ := exists_of_arguments hclosing hname h
  obtain ⟨rfl, rfl⟩ := harg a Y' ha
  rw [skipSymbol, bind_skip_false (hZ.ne rfl)] at h
  cases h
  exact ⟨rfl, rfl⟩

end Ends

section Printed

variable {Y Z : List Token} {s₁ s₂ s₃ s₄ : Span} {e : Expr}

/-- The tokens of the calls that print, up to the expression. -/
def printTokens (s₁ s₂ s₃ s₄ : Span) : List Token :=
  [⟨.identifier Draft.appendName, s₁⟩, ⟨.symbol .leftParen, s₂⟩,
    ⟨.identifier Draft.filterName, s₃⟩, ⟨.symbol .leftParen, s₄⟩]

/-- The expression that prints, where both calls are closed at the end of the line. -/
theorem only_printed {s₅ s₆ s₇ : Span}
    (hargs : Only (looping (argumentsLoop (operand 98) [] [])) Y ([e], [])
      (⟨.symbol .rightParen, s₅⟩ :: ⟨.symbol .rightParen, s₆⟩ :: ⟨.newline, s₇⟩ :: Z)) :
    Only expression (printTokens s₁ s₂ s₃ s₄ ++ Y)
      (.call (.name Draft.appendName) [Outline.filterCall e] []) (⟨.newline, s₇⟩ :: Z) := by
  have houter : Ends (⟨.newline, s₇⟩ :: Z) := .inl rfl
  have hinner : Ends (⟨.symbol .rightParen, s₆⟩ :: ⟨.newline, s₇⟩ :: Z) := .inr rfl
  have hfilter : ∀ least, Only (operand 99 least)
      (⟨.identifier Draft.filterName, s₃⟩ :: ⟨.symbol .leftParen, s₄⟩ :: Y)
      (Outline.filterCall e) (⟨.symbol .rightParen, s₆⟩ :: ⟨.newline, s₇⟩ :: Z) := by
    intro least
    exact hinner.operand_call hargs
  apply houter.expressionWith
  apply houter.operand_call
  apply hinner.arguments
  · intro hclosing
    cases hclosing
  · rfl
  · exact hinner.expressionWith (hfilter orPower)

/-- A call that is not closed makes no expression that prints. -/
theorem closed_of_printed {F W : List Token} {b : Expr}
    (hargs : Only (looping (argumentsLoop (operand 98) [] [])) Y ([e], []) F)
    (h : expression (printTokens s₁ s₂ s₃ s₄ ++ Y) = .ok (b, W)) :
    (headToken F).kind = .symbol .rightParen := by
  have hoperand : ∀ {operand : Nat → Parser Expr} {X W : List Token} {b : Expr},
      expressionWith operand X = .ok (b, W) → ∃ a X', operand orPower X = .ok (a, X') := by
    intro operand X W b h
    have h : conditionalLoop operand (X.length + 1) X = .ok (b, W) := h
    rw [conditionalLoop] at h
    obtain ⟨a, X', ha, -⟩ := exists_of_ok h
    exact ⟨a, X', ha⟩
  obtain ⟨_, _, hcall⟩ := hoperand h
  obtain ⟨_, _, _, _, _, hfound, -⟩ := exists_of_operand_call hcall
  have hname : (headToken ((printTokens s₁ s₂ s₃ s₄ ++ Y).drop 2)).kind ≠
      .symbol .rightParen := by
    intro hclosing
    cases hclosing
  obtain ⟨_, _, harg, -⟩ := exists_of_arguments hname rfl hfound
  obtain ⟨_, _, hcall⟩ := hoperand harg
  obtain ⟨_, _, _, _, _, hfound, hclosing, -⟩ := exists_of_operand_call hcall
  obtain ⟨-, rfl⟩ := hargs _ _ hfound
  exact hclosing

end Printed

end TemplateEngine.Parser

namespace TemplateEngine

open TemplateEngine.Lexer

namespace Parser

/-- What the parser finds in a text that is an expression on its own. -/
theorem exists_of_parseExpression {t : Text} {e : Expr} (h : parseExpression t = .ok e) :
    (ofText t).lexed.failure = none ∧
      ∃ E, expression (ofText t).lexed.tokens = .ok (e, E) ∧ Closes E := by
  unfold parseExpression onSource tokenize at h
  simp only [outcome_eq_lexed] at h
  cases hfailure : (ofText t).lexed.failure with
  | some error =>
      rw [hfailure] at h
      cases h
  | none =>
      refine ⟨rfl, ?_⟩
      rw [hfailure] at h
      dsimp only at h
      split at h
      · rename_i e' E' hread
        cases h
        unfold onlyExpression at hread
        obtain ⟨a, E, hexpr, hread⟩ := exists_of_ok hread
        obtain ⟨skipped, E₁, hskip, hread⟩ := exists_of_ok hread
        have hend : (headToken E₁).kind = .endOfInput ∧ a = e := by
          obtain ⟨ended, E₂, hended, hread⟩ := exists_of_ok hread
          cases hended
          split at hread
          · rename_i hend
            cases hread
            exact ⟨of_decide_eq_true hend, rfl⟩
          · cases hread
        obtain ⟨hend, rfl⟩ := hend
        refine ⟨E, hexpr, ?_⟩
        rw [skip] at hskip
        split at hskip
        · rename_i hnewline
          cases hskip
          exact .inr ⟨hnewline, hend⟩
        · cases hskip
          exact .inl hend
      · cases h

theorem beside_append {U V E F : List Token} (hkinds : V.map Token.kind = U.map Token.kind)
    (hU : ∀ t ∈ U, breaksLine t.kind = false) : Beside E F U.length (U ++ E) (V ++ F) := by
  induction U generalizing V with
  | nil =>
      rw [List.map_eq_nil_iff.mp hkinds]
      exact .here
  | cons u U ih =>
      obtain ⟨⟨k, s'⟩, V, rfl, hk, hothers⟩ := List.map_eq_cons_iff.mp hkinds
      obtain ⟨k', s⟩ := u
      dsimp only at hk
      subst k'
      exact .next (hU _ List.mem_cons_self)
        (ih hothers fun t ht => hU t (List.mem_cons_of_mem _ ht))

theorem Beside.eq_of_breaks {E F X Y : List Token} {n : Nat} (h : Beside E F n X Y)
    (hX : breaksLine (headToken X).kind = true) : X = E ∧ Y = F := by
  cases h with
  | here => exact ⟨rfl, rfl⟩
  | next hk _ => exact absurd (hk.symm.trans hX) Bool.false_ne_true

section Argument

variable {U V E E' F : List Token} {e : Expr} (hkinds : V.map Token.kind = U.map Token.kind)
  (hU : ∀ t ∈ U, breaksLine t.kind = false) (hparts : Parts E F)
  (hexpr : expression (U ++ E) = .ok (e, E')) (hends : breaksLine (headToken E').kind = true)
include hU hparts hexpr hends

include hkinds in
/-- An expression that ends with its line is also what the parser finds inside a call. -/
theorem only_inside (depth : Nat) :
    E' = E ∧ Only (expressionWith (operand depth)) (V ++ F) e F := by
  have hagree := agree_expressionWith hparts (agree_operand hparts maxExprDepth depth) U.length
  obtain ⟨m, Y, -, hbeside, honly⟩ := hagree _ _ (beside_append hkinds hU) e E' hexpr
  obtain ⟨rfl, rfl⟩ := hbeside.eq_of_breaks hends
  exact ⟨rfl, honly⟩

omit hends in
theorem nonempty_of_expression : U ≠ [] := by
  rintro rfl
  have hagree := agree_operand hparts maxExprDepth maxExprDepth
  exact fails_expressionWith hagree _ hexpr

omit hparts hU in
/-- An expression starts with no name before an equals sign: it would end there. -/
theorem not_named {x : Text} {s s' : Span} {rest : List Token}
    (hU : U ++ E = ⟨.identifier x, s⟩ :: ⟨.symbol .equals, s'⟩ :: rest) : False := by
  have hname : expression (⟨.identifier x, s⟩ :: ⟨.symbol .equals, s'⟩ :: rest) =
      .ok (.name x, ⟨.symbol .equals, s'⟩ :: rest) := rfl
  rw [hU, hname] at hexpr
  cases hexpr
  cases hends

include hkinds

omit hends in
theorem head_inside : (headToken (V ++ F)).kind ≠ .symbol .rightParen := by
  obtain ⟨u, U, rfl⟩ := List.exists_cons_of_ne_nil
    (nonempty_of_expression hU hparts hexpr)
  obtain ⟨v, V, rfl, hv, hothers⟩ := List.map_eq_cons_iff.mp hkinds
  intro hclosing
  obtain ⟨k, s⟩ := u
  have hk : k = .symbol .rightParen := hv.symm.trans hclosing
  subst hk
  cases hexpr

theorem argumentName?_inside :
    argumentName? (headToken (V ++ F)).kind (headToken (V ++ F).tail).kind = none := by
  obtain ⟨u, U, rfl⟩ := List.exists_cons_of_ne_nil
    (nonempty_of_expression hU hparts hexpr)
  obtain ⟨v, V, rfl, hv, hothers⟩ := List.map_eq_cons_iff.mp hkinds
  unfold argumentName?
  split
  · rename_i x hx hequals
    exfalso
    cases V with
    | nil => exact (hparts.ne_of_inside (k := .symbol .equals) rfl).2 hequals
    | cons w V =>
        cases U with
        | nil => cases hothers
        | cons u' U =>
            rw [List.map_cons, List.map_cons, List.cons.injEq] at hothers
            obtain ⟨k, s⟩ := u
            obtain ⟨k', s'⟩ := u'
            have hk : k = .identifier x := hv.symm.trans hx
            have hk' : k' = .symbol .equals := hothers.1.symm.trans hequals
            subst hk hk'
            have hU : ⟨.identifier x, s⟩ :: ⟨.symbol .equals, s'⟩ :: U ++ E =
                ⟨.identifier x, s⟩ :: ⟨.symbol .equals, s'⟩ :: (U ++ E) := rfl
            exact not_named hexpr hends hU
  · rfl

end Argument

section Statement

variable {body : Bool → Parser Block} {inLoop : Bool} {x : Text} {s : Span} {Y : List Token}

/-- A statement that starts with a name starts with an expression. -/
theorem exists_of_statement {W : List Token} {stmt : Stmt}
    (h : statement body inLoop (⟨.identifier x, s⟩ :: Y) = .ok (stmt, W)) :
    ∃ e X, expression (⟨.identifier x, s⟩ :: Y) = .ok (e, X) ∧
      ((headToken X).kind = .newline →
        stmt = .at s.line (.expr e) ∧ W = X.tail) := by
  obtain ⟨e, X, hexpr, hends⟩ := exists_of_statement_name h
  refine ⟨e, X, hexpr, fun hnewline => ?_⟩
  rcases hends with ⟨hstmt, hend⟩ | ⟨hextends, -⟩
  · obtain ⟨t, rest, rfl⟩ := exists_token hnewline (by simp)
    cases hend
    exact ⟨hstmt, rfl⟩
  · rw [hnewline] at hextends
    cases hextends

end Statement

end Parser

namespace Lexer

open TemplateEngine.Parser

/-- A line that appends starts with a name. -/
theorem lexed_append (rest : Text) (p : Position) :
    lexed (lineState (Draft.appendName ++ '(' :: rest) p 0) =
      (lexed ⟨'(' :: rest, p.after Draft.appendName, [], [], false, false⟩).after
        [⟨.identifier Draft.appendName, ⟨p, p.after Draft.appendName⟩⟩] := by
  have hstart : lexed (lineState (Draft.appendName ++ '(' :: rest) p 0) =
      lexed ⟨Draft.appendName ++ '(' :: rest, p, [], [], false, true⟩ :=
    lexed_sameDepth ⟨by decide, by decide⟩ _ p 0
  have hword : Lexeme.isWord Draft.appendName = true := Lexeme.isWord_of_isLatin (by decide)
  rw [hstart, lexed_word hword (Lexeme.endsWord_cons (by decide) rest)]
  rfl

/-- A line that prints, cut up to the text between its parentheses. -/
theorem lexed_printCall (inner next : Text) (p : Position) :
    ∃ s₂ s₃ s₄ q, lexed (lineState (Draft.printCall false inner ++ '\n' :: next) p 0) =
      (lexed ⟨inner ++ ')' :: ')' :: '\n' :: next, q, [], twoCalls, false, false⟩).after
        (printTokens ⟨p, p.after Draft.appendName⟩ s₂ s₃ s₄) := by
  have hfilter : Lexeme.isWord Draft.filterName = true := Lexeme.isWord_of_isLatin (by decide)
  have hmark : ('(', Symbol.leftParen) ∈ Lexeme.marks := by decide
  have houter : bracketsAfter? [] '(' = some ['('] := by decide
  have hinner : bracketsAfter? ['('] '(' = some twoCalls := by decide
  have htext : Draft.printCall false inner ++ '\n' :: next = Draft.appendName ++ '(' ::
      (Draft.filterName ++ '(' :: (inner ++ ')' :: ')' :: '\n' :: next)) := by
    simp [Draft.printCall]
  rw [htext, lexed_append, lexed_mark hmark houter,
    lexed_word hfilter (Lexeme.endsWord_cons (by decide) _), lexed_mark hmark hinner,
    Outcome.after_after, Outcome.after_after, Outcome.after_after]
  exact ⟨_, _, _, _, rfl⟩

/-- What follows an expression in a line that prints does not go on with it. -/
theorem leaves_of_closed {o : Outcome} {next : Text} (h : Closed o next ∨ Interrupted o) :
    leavesCall (headToken o.tokens).kind = true := by
  rcases h with ⟨q, s₁, s₂, s₃, rfl⟩ | ⟨name, s, rest, htokens⟩
  · rfl
  · rw [htokens]
    rfl

/-- An expression, with blanks around it, is the only argument inside the parentheses. -/
theorem only_argument {before t behind next : Text} {e : Expr} (hparse : parseExpression t = .ok e)
    (hbefore : ∀ g ∈ before, Text.isBlank g = true) (hbehind : ∀ g ∈ behind, Text.isBlank g = true)
    (hnext : StartsAppend next) (p : Position)
    (hok : (lexed ⟨before ++ (t ++ behind) ++ ')' :: ')' :: '\n' :: next, p, [], twoCalls, false,
      false⟩).failure = none) :
    ∃ V o, lexed ⟨before ++ (t ++ behind) ++ ')' :: ')' :: '\n' :: next, p, [], twoCalls, false,
        false⟩ = o.after V ∧ (Closed o next ∨ Interrupted o) ∧
      Only (looping (argumentsLoop (operand 98) [] [])) (V ++ o.tokens) ([e], []) o.tokens := by
  rw [List.append_assoc, List.append_assoc] at hok ⊢
  obtain ⟨hfailure, E', hexpr, hcloses⟩ := exists_of_parseExpression hparse
  obtain ⟨q, hblanks⟩ := lexed_blanks hbefore p _ hok
  rw [hblanks] at hok ⊢
  have hgap : Gap (behind ++ ')' :: ')' :: '\n' :: next) := by
    cases behind with
    | nil => exact ⟨')', _, rfl, rfl⟩
    | cons g behind =>
        refine ⟨g, _, rfl, ?_⟩
        rw [isGap, hbehind g List.mem_cons_self, Bool.or_true]
  have hembeds : Embeds (ofText t) (behind ++ ')' :: ')' :: '\n' :: next) twoCalls :=
    embeds hgap (ofText t) rfl hfailure
  obtain ⟨U, E, htokens, hU, hE, hinside⟩ := hembeds
  rw [htokens] at hexpr
  have hbreaks : breaksLine (headToken E').kind = true := by
    rcases hcloses with hend | ⟨hnewline, -⟩
    · rw [hend]
      rfl
    · rw [hnewline]
      rfl
  -- What the parser finds in the text alone is found before any token that leaves a call.
  have hinserted : Parts E [⟨.symbol .rightParen, ⟨q, q⟩⟩] := ⟨hE, rfl⟩
  obtain ⟨rfl, -⟩ := only_inside rfl hU hinserted hexpr hbreaks 98
  obtain ⟨comment, q', ended, V, hV, hlexed⟩ := hinside hcloses q [] false
  have hlexed : lexed ⟨t ++ (behind ++ ')' :: ')' :: '\n' :: next), q, [], twoCalls, false,
      false⟩ = (lexedIn comment q' (behind ++ ')' :: ')' :: '\n' :: next) [] twoCalls
        ended).after V := hlexed
  rw [hlexed] at hok ⊢
  have hafter := closed_or_interrupted hbehind hnext comment q' hok
  refine ⟨V, _, rfl, hafter, ?_⟩
  generalize lexedIn comment q' (behind ++ ')' :: ')' :: '\n' :: next) [] twoCalls ended = o
    at hafter
  have hparts : Parts E' o.tokens := ⟨hE, leaves_of_closed hafter⟩
  have hends : Ends o.tokens := .inr hparts.leaves
  apply hends.arguments
  · exact head_inside hV hU hparts hexpr
  · exact argumentName?_inside hV hU hparts hexpr hbreaks
  · exact (only_inside hV hU hparts hexpr hbreaks 98).2

/-- A line that prints is read as the statement that appends the filtered value. -/
theorem statement_printed {before t behind next : Text} {e : Expr}
    (hparse : parseExpression t = .ok e) (hbefore : ∀ g ∈ before, Text.isBlank g = true)
    (hbehind : ∀ g ∈ behind, Text.isBlank g = true) (hnext : StartsAppend next) {p : Position}
    {o : Outcome} (ho : o = lexed (lineState
      (Draft.printCall false (before ++ (t ++ behind)) ++ '\n' :: next) p 0))
    (hok : o.failure = none) {body : Bool → Parser Block} {inLoop : Bool} {stmt : Stmt}
    {W : List Token} (h : statement body inLoop o.tokens = .ok (stmt, W)) :
    stmt = .at p.line (Outline.appendCall (Outline.filterCall e)) ∧ W.length < o.tokens.length ∧
      ∃ q, W = (lexed (lineState next q 0)).tokens ∧
        (lexed (lineState next q 0)).failure = none := by
  obtain ⟨s₂, s₃, s₄, q, hprint⟩ := lexed_printCall (before ++ (t ++ behind)) next p
  rw [hprint] at ho
  subst ho
  obtain ⟨V, o, hlexed, hafter, hargs⟩ := only_argument hparse hbefore hbehind hnext q hok
  rw [hlexed] at hok h ⊢
  have h : statement body inLoop (printTokens ⟨p, p.after Draft.appendName⟩ s₂ s₃ s₄ ++
      (V ++ o.tokens)) = .ok (stmt, W) := h
  obtain ⟨call, X, hcall, hstmt⟩ := exists_of_statement h
  rcases hafter with ⟨q₂, s₅, s₆, s₇, rfl⟩ | ⟨name, s, rest, hname⟩
  · obtain ⟨rfl, rfl⟩ := only_printed hargs call X hcall
    obtain ⟨hstmt, hW⟩ := hstmt rfl
    have hW : W = (lexed (lineState next q₂ 0)).tokens := hW
    refine ⟨hstmt, ?_, q₂, hW, hok⟩
    rw [hW]
    simp only [Outcome.after, printTokens, List.length_append, List.length_cons, List.length_nil]
    omega
  · have hclosing := closed_of_printed hargs hcall
    rw [hname] at hclosing
    cases hclosing

end Lexer

end TemplateEngine
