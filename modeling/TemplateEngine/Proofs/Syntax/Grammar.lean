import TemplateEngine.Proofs.Syntax.Consumption
import TemplateEngine.Proofs.Syntax.Operands

/-!
# The grammar of expressions

Which kinds of tokens make which expressions, apart from how tightly operators bind. An operand
is a prefix followed by operators and further operands; those, and the expressions in brackets
and between `if` and `else`, are one level deeper. All but the levels is a grammar with a rule
for every construct, and the parser of expressions is sound for it: what it takes off the front
of the tokens is of kinds that derive its result.
-/
namespace TemplateEngine.Parser

/-- The constant that a token is. -/
def constantAt? : TokenKind → Option Constant
  | .int n => some (.int n)
  | .float x => some (.float x)
  | .bool b => some (.bool b)
  | .noneWord => some .none
  | _ => none

section Rules

-- Derives the operands one level deeper.
variable (Inner : List TokenKind → Expr → Prop)

/-- Full expressions. -/
inductive Full : List TokenKind → Expr → Prop
  | operand {u : List TokenKind} {e : Expr} : Inner u e → Full u e
  | conditional {u v w : List TokenKind} {value condition otherwise : Expr} :
      Inner u value → Inner v condition → Full w otherwise →
      Full (u ++ .keyword .ifWord :: (v ++ .keyword .elseWord :: w))
        (.conditional condition value otherwise)

/-- Full expressions separated by commas, with or without a comma behind the last one. -/
inductive Items : List TokenKind → List Expr → Prop
  | nil : Items [] []
  | one {u : List TokenKind} {e : Expr} : Full Inner u e → Items u [e]
  | cons {u w : List TokenKind} {e : Expr} {es : List Expr} : Full Inner u e → Items w es →
      Items (u ++ .symbol .comma :: w) (e :: es)

/-- The entries of a dict. -/
inductive Entries : List TokenKind → List (Expr × Expr) → Prop
  | nil : Entries [] []
  | one {u v : List TokenKind} {key value : Expr} : Full Inner u key → Full Inner v value →
      Entries (u ++ .symbol .colon :: v) [(key, value)]
  | cons {u v w : List TokenKind} {key value : Expr} {entries : List (Expr × Expr)} :
      Full Inner u key → Full Inner v value → Entries w entries →
      Entries (u ++ .symbol .colon :: (v ++ .symbol .comma :: w)) ((key, value) :: entries)

/-- The arguments of a call. -/
inductive Arguments : List TokenKind → List Expr → List (Text × Expr) → Prop
  | nil : Arguments [] [] []
  | one {u : List TokenKind} {e : Expr} : Full Inner u e → Arguments u [e] []
  | cons {u w : List TokenKind} {e : Expr} {es : List Expr} {keywords : List (Text × Expr)} :
      Full Inner u e → Arguments w es keywords →
      Arguments (u ++ .symbol .comma :: w) (e :: es) keywords
  | oneNamed {u : List TokenKind} {name : Text} {e : Expr} : Full Inner u e →
      Arguments (.identifier name :: .symbol .equals :: u) [] [(name, e)]
  | consNamed {u w : List TokenKind} {name : Text} {e : Expr} {es : List Expr}
      {keywords : List (Text × Expr)} : Full Inner u e → Arguments w es keywords →
      Arguments (.identifier name :: .symbol .equals :: (u ++ .symbol .comma :: w)) es
        ((name, e) :: keywords)

/-- A bound of a slice, which may be absent. -/
inductive Bound : List TokenKind → Option Expr → Prop
  | absent : Bound [] none
  | present {u : List TokenKind} {e : Expr} : Full Inner u e → Bound u (some e)

/-- Expressions without operators, with the calls, subscripts and attributes behind them. -/
inductive Primary : List TokenKind → Expr → Prop
  | constant {k : TokenKind} {c : Constant} : constantAt? k = some c → Primary [k] (.constant c)
  | strings {u : List TokenKind} {t : Text} : u ≠ [] → (∀ k ∈ u, ∃ s, k = .string s) →
      Primary u (.constant (.str t))
  | name {n : Text} : Primary [.identifier n] (.name n)
  | parentheses {u : List TokenKind} {e : Expr} : Full Inner u e →
      Primary (.symbol .leftParen :: (u ++ [.symbol .rightParen])) e
  | tuple {u : List TokenKind} {es : List Expr} : Items Inner u es →
      Primary (.symbol .leftParen :: (u ++ [.symbol .rightParen])) (.tuple es)
  | list {u : List TokenKind} {es : List Expr} : Items Inner u es →
      Primary (.symbol .leftBracket :: (u ++ [.symbol .rightBracket])) (.list es)
  | dict {u : List TokenKind} {entries : List (Expr × Expr)} : Entries Inner u entries →
      Primary (.symbol .leftBrace :: (u ++ [.symbol .rightBrace])) (.dict entries)
  | call {u v : List TokenKind} {function : Expr} {args : List Expr}
      {keywords : List (Text × Expr)} : Primary u function → Arguments Inner v args keywords →
      Primary (u ++ .symbol .leftParen :: (v ++ [.symbol .rightParen]))
        (.call function args keywords)
  | index {u v : List TokenKind} {object key : Expr} : Primary u object → Full Inner v key →
      Primary (u ++ .symbol .leftBracket :: (v ++ [.symbol .rightBracket])) (.index object key)
  | slice {u v w : List TokenKind} {object : Expr} {start stop : Option Expr} :
      Primary u object → Bound Inner v start → Bound Inner w stop →
      Primary (u ++ .symbol .leftBracket :: (v ++ .symbol .colon :: (w ++ [.symbol .rightBracket])))
        (.slice object start stop)
  | member {u : List TokenKind} {object : Expr} {n : Text} : Primary u object →
      Primary (u ++ [.symbol .dot, .identifier n]) (.attribute object n)

/-- Operands: a prefix, and infix operators with their right operands. -/
inductive Chain : List TokenKind → Expr → Prop
  | primary {u : List TokenKind} {e : Expr} : Primary Inner u e → Chain u e
  | not {u : List TokenKind} {e : Expr} : Inner u e → Chain (.keyword .notWord :: u) (.not e)
  | neg {u : List TokenKind} {e : Expr} : Inner u e → Chain (.symbol .minus :: u) (.unary .neg e)
  | pos {u : List TokenKind} {e : Expr} : Inner u e → Chain (.symbol .plus :: u) (.unary .pos e)
  | link {u v : List TokenKind} {lhs rhs : Expr} {current next : TokenKind} {power width : Nat}
      {op : Connective} : Chain u lhs → connectiveAt? current next = some (power, op, width) →
      Inner v rhs → Chain (u ++ ([current, next].take width ++ v)) (op.apply lhs rhs)

end Rules

/-- Operands with operands inside them nested at most `depth` deep. -/
def Derives : (depth : Nat) → List TokenKind → Expr → Prop
  | 0 => fun _ _ => False
  | depth + 1 => Chain (Derives depth)

section Parsers

variable {Inner : List TokenKind → Expr → Prop} {operand : Nat → Parser Expr}
  (hop : ∀ least, Takes (operand least) Inner)
include hop

theorem takes_conditionalLoop (fuel : Nat) : Takes (conditionalLoop operand fuel) (Full Inner) := by
  induction fuel with
  | zero => exact takes_failWanted
  | succ fuel ih =>
      unfold conditionalLoop
      apply TakesFrom.bind (hop orPower)
      intro u value hvalue
      apply takes_at
      · apply takes_bump (by simp)
        apply TakesFrom.bind (hop orPower)
        intro v condition hcondition
        apply takes_expect (by simp)
        apply TakesFrom.bind ih
        intro w otherwise hotherwise
        exact takes_pure (by simpa using .conditional hvalue hcondition hotherwise)
      · exact takes_pure (by simpa using .operand hvalue)

theorem takes_expressionWith : Takes (expressionWith operand) (Full Inner) :=
  takes_looping fun fuel => takes_conditionalLoop hop (fuel + 1)

theorem takes_itemsLoop (close : Symbol) (fuel : Nat) :
    Takes (itemsLoop operand close fuel) (Items Inner) := by
  induction fuel with
  | zero => exact takes_pure .nil
  | succ fuel ih =>
      unfold itemsLoop
      apply takes_at
      · exact takes_pure .nil
      · apply TakesFrom.bind (takes_expressionWith hop)
        intro u item hitem
        apply takes_skip (by simp)
        · apply TakesFrom.bind ih
          intro w items hitems
          exact takes_pure (by simpa using .cons hitem hitems)
        · exact takes_pure (by simpa using .one hitem)

theorem takes_itemsUntil (close : Symbol) : Takes (itemsUntil operand close) fun u es =>
    ∃ v, u = v ++ [.symbol close] ∧ Items Inner v es := by
  unfold itemsUntil
  apply TakesFrom.bind (takes_looping fun fuel => takes_itemsLoop hop close (fuel + 1))
  intro u items hitems
  apply takes_expect (by simp)
  exact takes_pure ⟨u, by simp, hitems⟩

/-- Items behind the first one. -/
theorem takes_tupleLoop (stop : TokenKind → Bool) (fuel : Nat) :
    Takes (tupleLoop operand stop fuel) fun w es =>
      ∀ u e, Full Inner u e → Items Inner (u ++ w) (e :: es) := by
  induction fuel with
  | zero => exact takes_pure fun u e he => by simpa using .one he
  | succ fuel ih =>
      unfold tupleLoop
      apply takes_skip (by simp)
      · apply takes_kind
        intro k
        split
        · exact takes_pure fun u e he => .cons he .nil
        · apply Takes.from
          apply TakesFrom.bind (takes_expressionWith hop)
          intro v item hitem
          apply TakesFrom.bind ih
          intro w items hitems
          refine takes_pure fun u e he => ?_
          simpa using .cons he (hitems v item hitem)
      · exact takes_pure fun u e he => by simpa using .one he

theorem takes_parenthesized : Takes (parenthesized operand) fun u e =>
    Primary Inner (.symbol .leftParen :: u) e := by
  unfold parenthesized
  apply takes_skip (by simp)
  · exact takes_pure (.tuple .nil)
  · apply TakesFrom.bind (takes_expressionWith hop)
    intro u first hfirst
    apply takes_skip (by simp)
    · exact takes_pure (.parentheses hfirst)
    · apply TakesFrom.bind (takes_looping fun fuel => takes_tupleLoop hop _ (fuel + 1))
      intro w items hitems
      apply takes_expect (by simp)
      refine takes_pure ?_
      rw [← List.append_assoc]
      exact .tuple (hitems u first hfirst)

theorem takes_entriesLoop (fuel : Nat) : Takes (entriesLoop operand fuel) (Entries Inner) := by
  induction fuel with
  | zero => exact takes_pure .nil
  | succ fuel ih =>
      unfold entriesLoop
      apply takes_at
      · exact takes_pure .nil
      · apply TakesFrom.bind (takes_expressionWith hop)
        intro u key hkey
        apply takes_expect (by simp)
        apply TakesFrom.bind (takes_expressionWith hop)
        intro v value hvalue
        apply takes_skip (by simp)
        · apply TakesFrom.bind ih
          intro w entries hentries
          exact takes_pure (by simpa using .cons hkey hvalue hentries)
        · exact takes_pure (by simpa using .one hkey hvalue)

omit hop in
theorem takes_stringsLoop (fuel : Nat) :
    Takes (stringsLoop fuel) fun u _ => ∀ k ∈ u, ∃ s, k = .string s := by
  induction fuel with
  | zero => exact takes_pure (by simp)
  | succ fuel ih =>
      unfold stringsLoop
      apply takes_kind
      intro k
      split
      · apply takes_bump (by simp)
        apply TakesFrom.bind ih
        intro u rest hrest
        exact takes_pure (by simpa using hrest)
      · exact takes_pure (by simp)

omit hop in
theorem takes_strings (t : Text) : TakesAt (.string t) (looping stringsLoop) fun u _ =>
    u ≠ [] ∧ ∀ k ∈ u, ∃ s, k = .string s := by
  apply takes_looping
  intro fuel
  unfold stringsLoop
  apply takes_kind_at
  apply takes_bump (by simp)
  apply TakesFrom.bind (takes_stringsLoop fuel)
  intro u rest hrest
  exact takes_pure (by simpa using hrest)

theorem takes_atom : Takes (atom operand) (Primary Inner) := by
  have htaken {k : TokenKind} {e : Expr} (hk : k ≠ .endOfInput) (he : Primary Inner [k] e) :
      TakesAt k (bump >>= fun _ => pure e) (Primary Inner) := takes_bump hk (takes_pure he)
  unfold atom
  apply takes_kind
  intro k
  split
  · exact htaken (by simp) (.constant rfl)
  · exact htaken (by simp) (.constant rfl)
  · exact htaken (by simp) (.constant rfl)
  · exact htaken (by simp) (.constant rfl)
  · apply TakesFrom.bind (takes_strings _)
    intro u t ht
    exact takes_pure (by simpa using .strings ht.1 ht.2)
  · exact htaken (by simp) .name
  · apply takes_bump (by simp)
    exact takes_parenthesized hop
  · apply takes_bump (by simp)
    apply TakesFrom.bind (takes_itemsUntil hop _)
    rintro _ items ⟨u, rfl, hitems⟩
    exact takes_pure (by simpa using .list hitems)
  · apply takes_bump (by simp)
    apply TakesFrom.bind (takes_looping fun fuel => takes_entriesLoop hop (fuel + 1))
    intro u entries hentries
    apply takes_expect (by simp)
    exact takes_pure (.dict hentries)
  · exact takes_failWanted

/-- Arguments behind those that were read. -/
theorem takes_argumentsLoop (args : List Expr) (keywords : List (Text × Expr)) (fuel : Nat) :
    Takes (argumentsLoop operand args keywords fuel) fun u found =>
      ∃ es others, found = (args ++ es, keywords ++ others) ∧ Arguments Inner u es others := by
  induction fuel generalizing args keywords with
  | zero => exact takes_pure ⟨[], [], by simp, .nil⟩
  | succ fuel ih =>
      rw [argumentsLoop_succ]
      apply takes_at
      · exact takes_pure ⟨[], [], by simp, .nil⟩
      · apply takes_kind
        intro current
        apply takes_nextKind
        intro following
        unfold argument argumentName?
        split
        · rename_i name hname
          split at hname
          · cases hname
            apply takes_bump_ahead (by simp)
            apply takes_bump (by simp)
            unfold named
            apply TakesFrom.bind (takes_expressionWith hop)
            intro u value hvalue
            split
            · exact TakesFrom.bind takes_fail (T := fun _ _ => False) fun _ _ h => h.elim
            · apply takes_skip (by simp)
              · refine (ih _ _).mono ?_
                rintro w _ ⟨es, others, rfl, hothers⟩
                exact ⟨es, (name, value) :: others, by simp, by simpa using .consNamed hvalue hothers⟩
              · exact takes_pure ⟨[], [(name, value)], by simp, by simpa using .oneNamed hvalue⟩
          · cases hname
        · apply Takes.from
          unfold positional
          split
          · exact TakesFrom.bind takes_fail (T := fun _ _ => False) fun _ _ h => h.elim
          · apply TakesFrom.bind (takes_expressionWith hop)
            intro u arg harg
            apply takes_skip (by simp)
            · refine (ih _ _).mono ?_
              rintro w _ ⟨es, others, rfl, hothers⟩
              exact ⟨arg :: es, others, by simp, by simpa using .cons harg hothers⟩
            · exact takes_pure ⟨[arg], [], by simp, by simpa using .one harg⟩

theorem takes_subscript {object : Expr} {u : List TokenKind} (hobject : Primary Inner u object) :
    Takes (subscript operand object) fun w e =>
      Primary Inner (u ++ .symbol .leftBracket :: w) e := by
  have hfrom : ∀ v start, Bound Inner v start → Takes (subscriptFrom operand object start)
      fun w e => Primary Inner (u ++ .symbol .leftBracket :: (v ++ w)) e := by
    intro v start hstart
    have hclosing : ∀ w stop, Bound Inner w stop →
        Takes (expectSymbol .rightBracket >>= fun _ => pure (Expr.slice object start stop)) fun x e =>
          Primary Inner (u ++ .symbol .leftBracket :: (v ++ .symbol .colon :: (w ++ x))) e :=
      fun w stop hstop => takes_expect (by simp) (takes_pure (.slice hobject hstart hstop))
    unfold subscriptFrom
    apply takes_skip (by simp)
    · rw [if_pos rfl]
      apply takes_at
      · exact (hclosing [] none .absent).from
      · apply TakesFrom.bind (takes_expressionWith hop)
        intro w e he
        exact hclosing w (some e) (.present he)
    · apply takes_expect (by simp)
      cases hstart with
      | absent => exact takes_fail
      | present he => exact takes_pure (.index hobject he)
  unfold subscript
  apply takes_at
  · exact (hfrom [] none .absent).from
  · apply TakesFrom.bind (takes_expressionWith hop)
    intro v e he
    exact hfrom v (some e) (.present he)

theorem takes_trailersLoop {e : Expr} {u : List TokenKind} (he : Primary Inner u e) (fuel : Nat) :
    Takes (trailersLoop operand e fuel) fun w e => Primary Inner (u ++ w) e := by
  induction fuel generalizing e u with
  | zero => exact takes_pure (by simpa using he)
  | succ fuel ih =>
      unfold trailersLoop
      apply takes_kind
      intro k
      split
      · apply takes_bump (by simp)
        apply TakesFrom.bind (takes_looping fun fuel => takes_argumentsLoop hop [] [] (fuel + 1))
        rintro v _ ⟨args, keywords, rfl, hargs⟩
        apply takes_expect (by simp)
        refine (ih (.call he hargs)).mono fun w e h => ?_
        simpa using h
      · apply takes_bump (by simp)
        apply TakesFrom.bind (takes_subscript hop he)
        intro v object hobject
        refine (ih hobject).mono fun w e h => ?_
        simpa using h
      · apply takes_bump (by simp)
        apply takes_identifier
        intro name
        refine (ih (.member he)).mono fun w e h => ?_
        simpa using h
      · exact takes_pure (by simpa using he)

theorem takes_headed : Takes (headed operand) (Chain Inner) := by
  unfold headed
  apply takes_kind
  intro k
  split
  · apply takes_bump (by simp)
    apply TakesFrom.bind (hop _)
    intro u e he
    exact takes_pure (by simpa using .not he)
  · apply takes_bump (by simp)
    apply TakesFrom.bind (hop _)
    intro u e he
    exact takes_pure (by simpa using .neg he)
  · apply takes_bump (by simp)
    apply TakesFrom.bind (hop _)
    intro u e he
    exact takes_pure (by simpa using .pos he)
  · apply Takes.from
    apply TakesFrom.bind (takes_atom hop)
    intro u e he
    apply takes_looping
    intro fuel
    exact (takes_trailersLoop hop he (fuel + 1)).mono fun w e h => .primary h

omit hop in
/-- An infix operator is the next token or the next two. -/
theorem takes_connective {current next : TokenKind} {power width : Nat} {op : Connective}
    (h : connectiveAt? current next = some (power, op, width)) {α : Type} {f : Unit → Parser α}
    {T : List TokenKind → α → Prop}
    (hf : Takes (f ()) fun w => T ([current, next].take width ++ w)) :
    TakesAhead current next (bumps width >>= f) T := by
  have hwidth : current ≠ .endOfInput ∧ (width = 1 ∨ width = 2 ∧ next ≠ .endOfInput) := by
    unfold connectiveAt? at h
    split at h
    all_goals grind
  obtain ⟨hcurrent, rfl | ⟨rfl, hnext⟩⟩ := hwidth
  · exact takes_bump_ahead hcurrent hf.from
  · change TakesAhead current next (bump >>= fun _ => bump >>= f) T
    exact takes_bump_ahead hcurrent (takes_bump hnext hf)

theorem takes_chainLoop (least : Nat) {lhs : Expr} {u : List TokenKind} (hlhs : Chain Inner u lhs)
    (fuel : Nat) : Takes (chainLoop operand least lhs fuel) fun w e => Chain Inner (u ++ w) e := by
  induction fuel generalizing lhs u with
  | zero => exact takes_pure (by simpa using hlhs)
  | succ fuel ih =>
      rw [chainLoop_succ]
      apply takes_kind
      intro current
      apply takes_nextKind
      intro next
      unfold link
      split
      · exact takes_pure (by simpa using hlhs)
      · rename_i power op width hconnective
        split
        · exact takes_pure (by simpa using hlhs)
        · apply takes_connective hconnective
          apply TakesFrom.bind (hop _)
          intro v rhs hrhs
          refine (ih (.link hlhs hconnective hrhs)).mono fun w e h => ?_
          simpa using h

end Parsers

/-- The parser of operands is sound. -/
theorem takes_operand (depth least : Nat) : Takes (operand depth least) (Derives depth) := by
  induction depth generalizing least with
  | zero => exact takes_fail
  | succ depth ih =>
      unfold operand
      apply TakesFrom.bind (takes_headed ih)
      intro u e he
      exact takes_looping fun fuel => takes_chainLoop ih least he (fuel + 1)

/-- The parser of expressions is sound. -/
theorem takes_expression : Takes expression (Full (Derives maxExprDepth)) :=
  takes_expressionWith (takes_operand _)

/-- The parser of expressions that may be a tuple without parentheses is sound. -/
theorem takes_expressionList : Takes expressionList fun u e =>
    Full (Derives maxExprDepth) u e ∨ ∃ es, e = .tuple es ∧ Items (Derives maxExprDepth) u es := by
  unfold expressionList
  apply TakesFrom.bind takes_expression
  intro u first hfirst
  apply takes_at
  · apply Takes.from
    apply TakesFrom.bind
      (takes_looping fun fuel => takes_tupleLoop (takes_operand _) endsExpression (fuel + 1))
    intro w items hitems
    exact takes_pure (.inr ⟨_, rfl, by simpa using hitems u first hfirst⟩)
  · exact takes_pure (.inl (by simpa using hfirst))

end TemplateEngine.Parser
