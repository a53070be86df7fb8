import TemplateEngine.Proofs.Syntax.Parting

/-!
# Expressions on parting lists of tokens

The parsers of expressions agree on parting lists, however deep operands may still
nest on either side. Each parser is looked at with operands that agree and fail
where the lists part, and the induction is on the depth. A loop takes a token for
every round, so the fuel of either side is enough for all rounds before that place.
-/
namespace TemplateEngine.Parser

variable {E F : List Token}

/-- What comes after the start of a subscript. -/
def subscriptFrom (operand : Nat → Parser Expr) (object : Expr) (start : Option Expr) :
    Parser Expr := do
  if ← skipSymbol .colon then
    let stop ←
      if ← at_ (.symbol .rightBracket) then pure none
      else do let e ← expressionWith operand; pure (some e)
    expectSymbol .rightBracket
    return .slice object start stop
  expectSymbol .rightBracket
  match start with
  | some index => return .index object index
  | none => fail .emptySubscript

/-- The name of the next argument, if it has one. -/
def argumentName? (current next : TokenKind) : Option Text :=
  match current, next with
  | .identifier name, .symbol .equals => some name
  | _, _ => none

/-- An argument with a name, and the arguments after it. -/
def named (operand : Nat → Parser Expr) (args : List Expr) (keywords : List (Text × Expr))
    (next : List Expr → List (Text × Expr) → Parser (List Expr × List (Text × Expr)))
    (name : Text) : Parser (List Expr × List (Text × Expr)) := do
  let value ← expressionWith operand
  if keywords.any fun entry => entry.1 = name then fail (.repeatedKeyword name)
  let keywords := keywords ++ [(name, value)]
  if ← skipSymbol .comma then next args keywords else return (args, keywords)

/-- An argument without a name, and the arguments after it. -/
def positional (operand : Nat → Parser Expr) (args : List Expr) (keywords : List (Text × Expr))
    (next : List Expr → List (Text × Expr) → Parser (List Expr × List (Text × Expr))) :
    Parser (List Expr × List (Text × Expr)) := do
  if !keywords.isEmpty then fail .positionalAfterKeyword
  let arg ← expressionWith operand
  let args := args ++ [arg]
  if ← skipSymbol .comma then next args keywords else return (args, keywords)

/-- The next argument, and the arguments after it. -/
def argument (operand : Nat → Parser Expr) (args : List Expr) (keywords : List (Text × Expr))
    (next : List Expr → List (Text × Expr) → Parser (List Expr × List (Text × Expr)))
    (current following : TokenKind) : Parser (List Expr × List (Text × Expr)) :=
  match argumentName? current following with
  | some name => do
    bump
    bump
    named operand args keywords next name
  | none => positional operand args keywords next

theorem argumentsLoop_succ (operand : Nat → Parser Expr) (args : List Expr)
    (keywords : List (Text × Expr)) (fuel : Nat) :
    argumentsLoop operand args keywords (fuel + 1) =
      (at_ (.symbol .rightParen) >>= fun closed => if closed then pure (args, keywords) else
        kind >>= fun current => nextKind >>= fun following =>
          argument operand args keywords (fun args keywords =>
            argumentsLoop operand args keywords fuel) current following) := by
  rw [argumentsLoop]
  congr 1
  funext closed
  congr 2
  funext current
  congr 1
  funext following
  split
  · rfl
  · rename_i hother
    have hnone : argumentName? current following = none := by
      unfold argumentName?
      split
      · exact (hother _ rfl rfl).elim
      · rfl
    rw [argument, hnone]
    rfl

/-- An operator with its second operand, and what the chain makes of both. -/
def link (operand : Nat → Parser Expr) (least : Nat) (lhs : Expr) (next : Expr → Parser Expr) :
    Option (Nat × Connective × Nat) → Parser Expr
  | none => pure lhs
  | some (power, op, width) =>
    if power < least then pure lhs
    else do
      bumps width
      let rhs ← operand (power + 1)
      next (op.apply lhs rhs)

theorem chainLoop_succ (operand : Nat → Parser Expr) (least : Nat) (lhs : Expr) (fuel : Nat) :
    chainLoop operand least lhs (fuel + 1) =
      (kind >>= fun current => nextKind >>= fun next =>
        link operand least lhs (fun e => chainLoop operand least e fuel)
          (connectiveAt? current next)) := by
  rw [chainLoop]
  rfl

section Depth

variable {operand operand' : Nat → Parser Expr}

/-- Operands that agree on parting lists and do not start where the lists part. -/
structure AgreeOperands (E F : List Token) (operand operand' : Nat → Parser Expr) : Prop where
  agree : ∀ least n, Agree E F n (operand least) (operand' least)
  fails : ∀ least, Fails E (operand least)

variable (h : Parts E F) (hop : AgreeOperands E F operand operand')

include hop in
theorem fails_expressionWith : Fails E (expressionWith operand) := by
  have hloop : Fails E (conditionalLoop operand (E.length + 1)) := by
    rw [conditionalLoop]
    exact (hop.fails orPower).bind
  exact hloop

include h hop

theorem agree_conditionalLoop {n f g : Nat} (hf : n < f) (hg : n < g) :
    Agree E F n (conditionalLoop operand f) (conditionalLoop operand' g) := by
  induction f generalizing n g with
  | zero => omega
  | succ f ih =>
      obtain ⟨g, rfl⟩ := Nat.exists_eq_add_one.mpr (Nat.lt_of_le_of_lt (Nat.zero_le n) hg)
      rw [conditionalLoop, conditionalLoop]
      apply (hop.agree orPower n).bind
      intro value m hm
      apply h.agree_at rfl
      · intro hpos
        obtain ⟨m, rfl⟩ := Nat.exists_eq_add_one.mpr hpos
        apply agree_bump
        apply (hop.agree orPower m).bind
        intro condition j hj
        apply (agree_expect h.breaks rfl).bind
        intro _ i hi
        apply (ih (n := i) (g := g) (by omega) (by omega)).bind
        intro otherwise k _
        exact agree_pure _
      · exact agree_pure _

theorem agree_expressionWith (n : Nat) :
    Agree E F n (expressionWith operand) (expressionWith operand') :=
  agree_looping fun _ _ hf hg => agree_conditionalLoop h hop hf hg

theorem agree_itemsLoop {close : Symbol} (hclose : inside (.symbol close) = true) {n f g : Nat}
    (hf : n < f) (hg : n < g) :
    Agree E F n (itemsLoop operand close f) (itemsLoop operand' close g) := by
  induction f generalizing n g with
  | zero => omega
  | succ f ih =>
      obtain ⟨g, rfl⟩ := Nat.exists_eq_add_one.mpr (Nat.lt_of_le_of_lt (Nat.zero_le n) hg)
      rw [itemsLoop, itemsLoop]
      apply h.agree_at hclose
      · intro _
        exact agree_pure _
      · apply (agree_expressionWith h hop n).bind
        intro item m hm
        apply h.agree_skip rfl
        · intro l hl
          apply (ih (n := l) (g := g) (by omega) (by omega)).bind
          intro items k _
          exact agree_pure _
        · exact agree_pure _

theorem agree_itemsUntil {close : Symbol} (hclose : inside (.symbol close) = true) (n : Nat) :
    Agree E F n (itemsUntil operand close) (itemsUntil operand' close) := by
  have hbreaks : breaksLine (.symbol close) = false := rfl
  unfold itemsUntil
  apply (agree_looping fun _ _ hf hg => agree_itemsLoop h hop hclose hf hg).bind
  intro items m _
  apply (agree_expect h.breaks hbreaks).bind
  intro _ l _
  exact agree_pure _

/-- After a comma that the line ends behind, no item comes. -/
theorem agree_tupleLoop {n f g : Nat} (hf : n < f) (hg : n < g) :
    Agree E F n (tupleLoop operand (fun k => k = .symbol .rightParen) f)
      (tupleLoop operand' (fun k => k = .symbol .rightParen) g) := by
  induction f generalizing n g with
  | zero => omega
  | succ f ih =>
      obtain ⟨g, rfl⟩ := Nat.exists_eq_add_one.mpr (Nat.lt_of_le_of_lt (Nat.zero_le n) hg)
      rw [tupleLoop, tupleLoop]
      apply h.agree_skip rfl
      · intro m hm
        cases m with
        | zero =>
            apply agree_of_fails
            intro r hr
            obtain ⟨k, X₁, hk, hr⟩ := exists_of_ok hr
            cases hk
            have hne : (headToken E).kind ≠ .symbol .rightParen := by
              intro heq
              have hbreaks := h.breaks
              rw [heq] at hbreaks
              cases hbreaks
            simp only [decide_eq_false hne, Bool.false_eq_true, if_false] at hr
            exact (fails_expressionWith hop).bind r hr
        | succ m =>
            apply agree_kind
            intro k _
            split
            · exact agree_pure _
            · apply (agree_expressionWith h hop _).bind
              intro item l hl
              apply (ih (n := l) (g := g) (by omega) (by omega)).bind
              intro items i _
              exact agree_pure _
      · exact agree_pure _

theorem agree_parenthesized (n : Nat) :
    Agree E F n (parenthesized operand) (parenthesized operand') := by
  have hne : (headToken E).kind ≠ .symbol .rightParen := by
    intro heq
    have hbreaks := h.breaks
    rw [heq] at hbreaks
    cases hbreaks
  have hclosing : ∀ m, Agree E F m (expectSymbol .rightParen) (expectSymbol .rightParen) :=
    fun m => agree_expect h.breaks rfl
  -- What follows the first item cannot end with the line: the parenthesis is still open.
  have hfirst : ∀ (first : Expr) (m : Nat),
      Agree E F m
        (skipSymbol .rightParen >>= fun closed => if closed then pure first else do
          let items ← looping (tupleLoop operand fun k => k = .symbol .rightParen)
          expectSymbol .rightParen
          return .tuple (first :: items))
        (skipSymbol .rightParen >>= fun closed => if closed then pure first else do
          let items ← looping (tupleLoop operand' fun k => k = .symbol .rightParen)
          expectSymbol .rightParen
          return .tuple (first :: items)) := by
    intro first m
    cases m with
    | zero =>
        apply agree_of_fails
        intro r hr
        rw [skipSymbol, bind_skip_false hne] at hr
        simp only [Bool.false_eq_true, if_false] at hr
        obtain ⟨items, X₁, hitems, hr⟩ := exists_of_ok hr
        have hstop : (headToken E).kind ≠ .symbol .comma := (h.ne_of_inside rfl).1
        have hitems : tupleLoop operand (fun k => k = .symbol .rightParen) (E.length + 1) E =
            .ok (items, X₁) := hitems
        rw [tupleLoop, skipSymbol, bind_skip_false hstop] at hitems
        cases hitems
        obtain ⟨_, X₂, hexpect, -⟩ := exists_of_ok hr
        rw [expectSymbol, expect, if_neg hne] at hexpect
        cases hexpect
    | succ m =>
        apply agree_skip
        · exact agree_pure _
        · apply (agree_looping fun _ _ hf hg => agree_tupleLoop h hop hf hg).bind
          intro items l _
          apply (hclosing l).bind
          intro _ i _
          exact agree_pure _
  unfold parenthesized
  cases n with
  | zero =>
      apply agree_of_fails
      intro r hr
      rw [skipSymbol, bind_skip_false hne] at hr
      exact (fails_expressionWith hop).bind r hr
  | succ n =>
      apply agree_skip
      · exact agree_pure _
      · apply (agree_expressionWith h hop _).bind
        intro first m _
        exact hfirst first m

theorem agree_entriesLoop {n f g : Nat} (hf : n < f) (hg : n < g) :
    Agree E F n (entriesLoop operand f) (entriesLoop operand' g) := by
  induction f generalizing n g with
  | zero => omega
  | succ f ih =>
      obtain ⟨g, rfl⟩ := Nat.exists_eq_add_one.mpr (Nat.lt_of_le_of_lt (Nat.zero_le n) hg)
      rw [entriesLoop, entriesLoop]
      apply h.agree_at rfl
      · intro _
        exact agree_pure _
      · apply (agree_expressionWith h hop n).bind
        intro key m hm
        apply (agree_expect h.breaks rfl).bind
        intro _ l hl
        apply (agree_expressionWith h hop l).bind
        intro value i hi
        apply h.agree_skip rfl
        · intro j hj
          apply (ih (n := j) (g := g) (by omega) (by omega)).bind
          intro entries k _
          exact agree_pure _
        · exact agree_pure _

omit hop in
theorem agree_stringsLoop {n f g : Nat} (hf : n < f) (hg : n < g) :
    Agree E F n (stringsLoop f) (stringsLoop g) := by
  induction f generalizing n g with
  | zero => omega
  | succ f ih =>
      obtain ⟨g, rfl⟩ := Nat.exists_eq_add_one.mpr (Nat.lt_of_le_of_lt (Nat.zero_le n) hg)
      rw [stringsLoop, stringsLoop]
      cases n with
      | zero =>
          apply agree_kind_here
          have hbreaks := h.breaks
          have hleaves := h.leaves
          cases hE : (headToken E).kind with
          | string t =>
              rw [hE] at hbreaks
              cases hbreaks
          | _ =>
              cases hF : (headToken F).kind with
              | string t =>
                  rw [hF] at hleaves
                  cases hleaves
              | _ => exact agree_pure _
      | succ n =>
          apply agree_kind
          intro k _
          split
          · apply agree_bump
            apply (ih (n := n) (g := g) (by omega) (by omega)).bind
            intro rest l _
            exact agree_pure _
          · exact agree_pure _

omit hop in
theorem fails_atom : Fails E (atom operand) := by
  intro r hr
  have hbreaks := h.breaks
  unfold atom at hr
  obtain ⟨k, X₁, hk, hr⟩ := exists_of_ok hr
  cases hk
  cases hE : (headToken E).kind with
  | newline | endOfInput | indent | dedent =>
      rw [hE] at hr
      cases hr
  | _ =>
      rw [hE] at hbreaks
      cases hbreaks

theorem agree_atom (n : Nat) : Agree E F n (atom operand) (atom operand') := by
  cases n with
  | zero => exact agree_of_fails (fails_atom h)
  | succ n =>
      have hbumped : ∀ e : Expr, Agree E F (n + 1) (bump >>= fun _ => pure e)
          (bump >>= fun _ => pure e) := by
        intro e
        apply agree_bump
        exact agree_pure _
      unfold atom
      apply agree_kind
      intro k _
      split
      · exact hbumped _
      · exact hbumped _
      · exact hbumped _
      · exact hbumped _
      · apply (agree_looping fun _ _ hf hg => agree_stringsLoop h hf hg).bind
        intro t m _
        exact agree_pure _
      · exact hbumped _
      · apply agree_bump
        exact agree_parenthesized h hop n
      · apply agree_bump
        apply (agree_itemsUntil h hop rfl n).bind
        intro items l _
        exact agree_pure _
      · apply agree_bump
        apply (agree_looping fun _ _ hf hg => agree_entriesLoop h hop hf hg).bind
        intro entries l _
        apply (agree_expect h.breaks rfl).bind
        intro _ i _
        exact agree_pure _
      · exact agree_failing fun _ _ hr => nomatch hr

theorem agree_subscript (object : Expr) (n : Nat) :
    Agree E F n (subscript operand object) (subscript operand' object) := by
  have hfrom : ∀ (start : Option Expr) (m : Nat),
      Agree E F m (subscriptFrom operand object start) (subscriptFrom operand' object start) := by
    intro start m
    apply h.agree_skip rfl
    · intro l _
      have hclosing : ∀ (stop : Option Expr) (i : Nat), Agree E F i
          (expectSymbol .rightBracket >>= fun _ => pure (Expr.slice object start stop))
          (expectSymbol .rightBracket >>= fun _ => pure (Expr.slice object start stop)) := by
        intro stop i
        apply (agree_expect h.breaks rfl).bind
        intro _ j _
        exact agree_pure _
      apply h.agree_at rfl
      · intro _
        exact hclosing none l
      · apply (agree_expressionWith h hop l).bind
        intro e i _
        exact hclosing (some e) i
    · apply (agree_expect h.breaks rfl).bind
      intro _ l _
      split
      · exact agree_pure _
      · exact agree_fail _
  unfold subscript
  apply h.agree_at rfl
  · intro _
    exact hfrom none n
  · apply (agree_expressionWith h hop n).bind
    intro e m _
    exact hfrom (some e) m

omit h in
theorem fails_positional {args : List Expr} {keywords : List (Text × Expr)}
    {next : List Expr → List (Text × Expr) → Parser (List Expr × List (Text × Expr))} :
    Fails E (positional operand args keywords next) := by
  intro r hr
  unfold positional at hr
  dsimp only at hr
  split at hr
  · cases hr
  · exact (fails_expressionWith hop).bind r hr

theorem agree_positional {args : List Expr} {keywords : List (Text × Expr)} {n : Nat}
    {next next' : List Expr → List (Text × Expr) → Parser (List Expr × List (Text × Expr))}
    (hnext : ∀ m args keywords, m < n → Agree E F m (next args keywords) (next' args keywords)) :
    Agree E F n (positional operand args keywords next)
      (positional operand' args keywords next') := by
  have hgiven : Agree E F n
      (expressionWith operand >>= fun arg => skipSymbol .comma >>= fun goesOn =>
        if goesOn then next (args ++ [arg]) keywords else pure (args ++ [arg], keywords))
      (expressionWith operand' >>= fun arg => skipSymbol .comma >>= fun goesOn =>
        if goesOn then next' (args ++ [arg]) keywords else pure (args ++ [arg], keywords)) := by
    apply (agree_expressionWith h hop n).bind
    intro arg m hm
    apply h.agree_skip rfl
    · intro l hl
      exact hnext l _ _ (by omega)
    · exact agree_pure _
  unfold positional
  dsimp only
  split
  · exact agree_failing fun _ _ hr => nomatch hr
  · exact hgiven

theorem agree_named {args : List Expr} {keywords : List (Text × Expr)} {name : Text} {n : Nat}
    {next next' : List Expr → List (Text × Expr) → Parser (List Expr × List (Text × Expr))}
    (hnext : ∀ m args keywords, m < n → Agree E F m (next args keywords) (next' args keywords)) :
    Agree E F n (named operand args keywords next name)
      (named operand' args keywords next' name) := by
  unfold named
  dsimp only
  apply (agree_expressionWith h hop n).bind
  intro value m hm
  split
  · exact agree_failing fun _ _ hr => nomatch hr
  · apply h.agree_skip rfl
    · intro l hl
      exact hnext l _ _ (by omega)
    · exact agree_pure _

/-- Arguments in a call that is still open do not end with the line. -/
theorem agree_argumentsLoop {n f g : Nat} (hf : n < f) (hg : n < g) (args : List Expr)
    (keywords : List (Text × Expr)) :
    Agree E F n (argumentsLoop operand args keywords f)
      (argumentsLoop operand' args keywords g) := by
  induction f generalizing n g args keywords with
  | zero => omega
  | succ f ih =>
      obtain ⟨g, rfl⟩ := Nat.exists_eq_add_one.mpr (Nat.lt_of_le_of_lt (Nat.zero_le n) hg)
      have hnext : ∀ m args keywords, m < n → Agree E F m
          (argumentsLoop operand args keywords f) (argumentsLoop operand' args keywords g) := by
        intro m args keywords hm
        exact ih (by omega) (by omega) args keywords
      rw [argumentsLoop_succ, argumentsLoop_succ]
      cases n with
      | zero =>
          have hnone : ∀ following, argumentName? (headToken E).kind following = none := by
            intro following
            have hbreaks := h.breaks
            unfold argumentName?
            split
            · rename_i hname
              rw [hname] at hbreaks
              cases hbreaks
            · rfl
          have hne : (headToken E).kind ≠ .symbol .rightParen := by
            intro heq
            have hbreaks := h.breaks
            rw [heq] at hbreaks
            cases hbreaks
          apply agree_of_fails
          intro r hr
          obtain ⟨closed, X₁, hclosed, hr⟩ := exists_of_ok hr
          cases hclosed
          simp only [decide_eq_false hne, Bool.false_eq_true, if_false] at hr
          obtain ⟨current, X₁, hcurrent, hr⟩ := exists_of_ok hr
          cases hcurrent
          obtain ⟨following, X₁, hfollowing, hr⟩ := exists_of_ok hr
          cases hfollowing
          rw [argument, hnone] at hr
          exact fails_positional hop r hr
      | succ n =>
          apply agree_at
          intro closed
          cases closed with
          | true => exact agree_pure _
          | false =>
              apply agree_kind
              intro k _
              apply agree_nextKind
              · intro k' _ hpos
                obtain ⟨n, rfl⟩ := Nat.exists_eq_add_one.mpr hpos
                unfold argument
                cases argumentName? k k' with
                | none => exact agree_positional h hop hnext
                | some name =>
                    apply agree_bump
                    apply agree_bump
                    apply agree_named h hop
                    intro m args keywords hm
                    exact hnext m args keywords (by omega)
              · intro hn
                have hnone : ∀ k', k' ≠ .symbol .equals → argumentName? k k' = none := by
                  intro k' hk'
                  unfold argumentName?
                  split
                  · exact absurd rfl hk'
                  · rfl
                have hne := h.ne_of_inside (k := .symbol .equals) rfl
                unfold argument
                rw [hnone _ hne.1, hnone _ hne.2]
                exact agree_positional h hop hnext

theorem agree_trailersLoop {n f g : Nat} (hf : n < f) (hg : n < g) (e : Expr) :
    Agree E F n (trailersLoop operand e f) (trailersLoop operand' e g) := by
  induction f generalizing n g e with
  | zero => omega
  | succ f ih =>
      obtain ⟨g, rfl⟩ := Nat.exists_eq_add_one.mpr (Nat.lt_of_le_of_lt (Nat.zero_le n) hg)
      rw [trailersLoop, trailersLoop]
      cases n with
      | zero =>
          apply agree_kind_here
          have hbreaks := h.breaks
          have hleaves := h.leaves
          have hend : ∀ k : TokenKind, breaksLine k = true ∨ leavesCall k = true →
              k ≠ .symbol .leftParen ∧ k ≠ .symbol .leftBracket ∧ k ≠ .symbol .dot := by
            rintro k hk
            refine ⟨?_, ?_, ?_⟩
            all_goals
              rintro rfl
              rcases hk with hk | hk <;> cases hk
          have hE := hend _ (.inl hbreaks)
          have hF := hend _ (.inr hleaves)
          split
          · exact absurd ‹_› hE.1
          · exact absurd ‹_› hE.2.1
          · exact absurd ‹_› hE.2.2
          · split
            · exact absurd ‹_› hF.1
            · exact absurd ‹_› hF.2.1
            · exact absurd ‹_› hF.2.2
            · exact agree_pure _
      | succ n =>
          apply agree_kind
          intro k _
          split
          · apply agree_bump
            apply (agree_looping fun _ _ hf hg => agree_argumentsLoop h hop hf hg [] []).bind
            intro found m hm
            apply (agree_expect h.breaks rfl).bind
            intro _ l hl
            exact ih (by omega) (by omega) _
          · apply agree_bump
            apply (agree_subscript h hop e n).bind
            intro object m hm
            exact ih (by omega) (by omega) _
          · apply agree_bump
            apply (agree_identifier h.breaks).bind
            intro name m hm
            exact ih (by omega) (by omega) _
          · exact agree_pure _

omit hop in
theorem fails_headed : Fails E (headed operand) := by
  intro r hr
  have hbreaks := h.breaks
  unfold headed at hr
  obtain ⟨k, X₁, hk, hr⟩ := exists_of_ok hr
  cases hk
  cases hE : (headToken E).kind with
  | newline | endOfInput | indent | dedent =>
      rw [hE] at hr
      exact (fails_atom h).bind r hr
  | _ =>
      rw [hE] at hbreaks
      cases hbreaks

theorem agree_headed (n : Nat) : Agree E F n (headed operand) (headed operand') := by
  cases n with
  | zero => exact agree_of_fails (fails_headed h)
  | succ n =>
      unfold headed
      apply agree_kind
      intro k _
      split
      · apply agree_bump
        apply (hop.agree notPower n).bind
        intro e m _
        exact agree_pure _
      · apply agree_bump
        apply (hop.agree unaryPower n).bind
        intro e m _
        exact agree_pure _
      · apply agree_bump
        apply (hop.agree unaryPower n).bind
        intro e m _
        exact agree_pure _
      · apply (agree_atom h hop _).bind
        intro e m _
        exact agree_looping fun _ _ hf hg => agree_trailersLoop h hop hf hg e

omit h hop in
/-- An operator takes a second token only if that is the word which it goes on with. -/
theorem width_connectiveAt? {k next : TokenKind} {power width : Nat} {op : Connective}
    (hop : connectiveAt? k next = some (power, op, width)) :
    width = 1 ∨ width = 2 ∧ (next = .keyword .inWord ∨ next = .keyword .notWord) := by
  unfold connectiveAt? at hop
  split at hop
  case h_10 =>
    split at hop
    · rename_i hnext
      cases hop
      exact .inr ⟨rfl, .inl hnext⟩
    · cases hop
  case h_11 =>
    split at hop
    · rename_i hnext
      cases hop
      exact .inr ⟨rfl, .inr hnext⟩
    · cases hop
      exact .inl rfl
  case h_18 => cases hop
  all_goals
    cases hop
    exact .inl rfl

omit h hop in
/-- What comes next matters to an operator only if it is one of two words. -/
theorem connectiveAt?_congr {k next next' : TokenKind}
    (hnext : next ≠ .keyword .inWord ∧ next ≠ .keyword .notWord)
    (hnext' : next' ≠ .keyword .inWord ∧ next' ≠ .keyword .notWord) :
    connectiveAt? k next = connectiveAt? k next' := by
  unfold connectiveAt?
  rw [if_neg hnext.1, if_neg hnext'.1, if_neg hnext.2, if_neg hnext'.2]

omit h hop in
theorem connectiveAt?_of_ends {k next : TokenKind}
    (hk : breaksLine k = true ∨ leavesCall k = true) : connectiveAt? k next = none := by
  cases k with
  | symbol mark => cases mark <;> first | rfl | (rcases hk with hk | hk <;> cases hk)
  | keyword word => rcases hk with hk | hk <;> cases hk
  | _ => rfl

theorem agree_chainLoop {n f g : Nat} (hf : n < f) (hg : n < g) (least : Nat) (lhs : Expr) :
    Agree E F n (chainLoop operand least lhs f) (chainLoop operand' least lhs g) := by
  induction f generalizing n g lhs with
  | zero => omega
  | succ f ih =>
      obtain ⟨g, rfl⟩ := Nat.exists_eq_add_one.mpr (Nat.lt_of_le_of_lt (Nat.zero_le n) hg)
      rw [chainLoop_succ, chainLoop_succ]
      have hlink : ∀ (found : Option (Nat × Connective × Nat)) (m : Nat), m ≤ n →
          (∀ power op width, found = some (power, op, width) → 1 ≤ width ∧ width ≤ m) →
          Agree E F m
            (link operand least lhs (fun e => chainLoop operand least e f) found)
            (link operand' least lhs (fun e => chainLoop operand' least e g) found) := by
        intro found m hm hwidth
        cases found with
        | none => exact agree_pure _
        | some found =>
            obtain ⟨power, op, width⟩ := found
            obtain ⟨hpos, hle⟩ := hwidth power op width rfl
            simp only [link]
            split
            · exact agree_pure _
            · obtain ⟨rest, rfl⟩ : ∃ rest, m = rest + width := ⟨m - width, by omega⟩
              apply agree_bumps
              apply (hop.agree (power + 1) rest).bind
              intro rhs l hl
              exact ih (by omega) (by omega) _
      have hends : ∀ k : TokenKind, breaksLine k = true ∨ leavesCall k = true →
          k ≠ .keyword .inWord ∧ k ≠ .keyword .notWord := by
        intro k hk
        constructor
        all_goals
          rintro rfl
          rcases hk with hk | hk <;> cases hk
      cases n with
      | zero =>
          apply agree_kind_here
          apply agree_nextKind_here
          intro next next'
          rw [connectiveAt?_of_ends (.inl h.breaks), connectiveAt?_of_ends (.inr h.leaves)]
          exact agree_pure _
      | succ n =>
          apply agree_kind
          intro k _
          apply agree_nextKind
          · intro next _ hpos
            apply hlink _ _ (Nat.le_refl _)
            intro power op width hfound
            rcases width_connectiveAt? hfound with hwidth | ⟨hwidth, -⟩ <;> omega
          · intro hn
            have hE := hends _ (.inl h.breaks)
            have hsame := connectiveAt?_congr (k := k) (hends _ (.inr h.leaves)) hE
            rw [hsame]
            apply hlink _ _ (Nat.le_refl _)
            intro power op width hfound
            rcases width_connectiveAt? hfound with hwidth | ⟨-, hnext⟩
            · omega
            · exact absurd hnext (not_or.mpr hE)

end Depth

/-- Operands agree, however deep they may still nest on either side. -/
theorem agree_operand (h : Parts E F) (depth depth' : Nat) :
    AgreeOperands E F (operand depth) (operand depth') := by
  induction depth generalizing depth' with
  | zero =>
      refine ⟨fun _ _ => agree_fail _, ?_⟩
      intro least r hr
      cases hr
  | succ depth ih =>
      have hsucc : ∀ (depth' least n : Nat),
          Agree E F n (operand (depth + 1) least) (operand (depth' + 1) least) := by
        intro depth' least n
        rw [operand, operand]
        apply (agree_headed h (ih depth') n).bind
        intro e m _
        exact agree_looping fun _ _ hf hg => agree_chainLoop h (ih depth') hf hg least e
      constructor
      · intro least n
        cases depth' with
        | zero => exact (hsucc depth least n).failing fun _ _ hr => nomatch hr
        | succ depth' => exact hsucc depth' least n
      · intro least
        rw [operand]
        exact (fails_headed h).bind

end TemplateEngine.Parser
