import TemplateEngine.Proofs.Syntax.Operands

/-!
# What parsers leave

A parser looks at the kinds of tokens and takes tokens off the front. So on two lists that have
the same kinds in every place it gives the same, and leaves lists of that sort again. Read as
a rule about all pairs of such lists, this goes through every loop of the parser without
counting. A list beside itself is the case of an end of some tokens: what a parser leaves of it
is an end of them again.
-/
namespace TemplateEngine.Parser

/-- A relation between lists of tokens that are of the same kinds, place by place. -/
class Alongside (R : List Token → List Token → Prop) : Prop where
  kind : ∀ {X Y}, R X Y → (headToken X).kind = (headToken Y).kind
  tail : ∀ {X Y}, R X Y → R X.tail Y.tail
  length : ∀ {X Y}, R X Y → X.length = Y.length

/-- An end of some tokens, beside itself. -/
def EndOf (all : List Token) (X Y : List Token) : Prop := X = Y ∧ X <:+ all

instance alongside_endOf (all : List Token) : Alongside (EndOf all) where
  kind := fun h => by rw [h.1]
  tail := fun h => ⟨by rw [h.1], (List.tail_suffix _).trans h.2⟩
  length := fun h => by rw [h.1]

section Walk

variable {α β : Type} {R : List Token → List Token → Prop}

/-- On two lists in a relation a parser gives the same and leaves two such lists again, and its
result has a property. -/
def Keeps (R : List Token → List Token → Prop) (p : Parser α) (P : α → Prop) : Prop :=
  ∀ X Y a X', R X Y → p X = .ok (a, X') → ∃ Y', p Y = .ok (a, Y') ∧ R X' Y' ∧ P a

/-- On two lists in a relation a parser gives the same and leaves two such lists again. -/
abbrev Moves (R : List Token → List Token → Prop) (p : Parser α) : Prop := Keeps R p fun _ => True

theorem Keeps.bind {p : Parser α} {f : α → Parser β} {P : α → Prop} {Q : β → Prop}
    (hp : Keeps R p P) (hf : ∀ a, P a → Keeps R (f a) Q) : Keeps R (p >>= f) Q := by
  intro X Y b X' hXY hrun
  obtain ⟨a, mid, hfirst, hrest⟩ := exists_of_ok hrun
  obtain ⟨mid', hfirst', hmid, ha⟩ := hp X Y a mid hXY hfirst
  rw [bind_ok hfirst']
  exact hf a ha mid mid' b X' hmid hrest

theorem keeps_pure {a : α} {P : α → Prop} (ha : P a) : Keeps R (pure a : Parser α) P := by
  intro X Y b X' hXY hrun
  cases hrun
  exact ⟨Y, rfl, hXY, ha⟩

theorem moves_pure (a : α) : Moves R (pure a : Parser α) := keeps_pure trivial

theorem keeps_fail {fault : SyntaxFault} {P : α → Prop} : Keeps R (fail fault : Parser α) P := by
  intro X Y a X' _ hrun
  cases hrun

theorem keeps_failWanted {what : Wanted} {P : α → Prop} :
    Keeps R (failWanted what : Parser α) P := by
  intro X Y a X' _ hrun
  cases hrun

variable [Alongside R]

theorem moves_kind : Moves R kind := by
  intro X Y a X' hXY hrun
  cases hrun
  exact ⟨Y, by rw [kind, Alongside.kind hXY], hXY, trivial⟩

theorem moves_nextKind : Moves R nextKind := by
  intro X Y a X' hXY hrun
  cases hrun
  exact ⟨Y, by rw [nextKind, Alongside.kind (Alongside.tail hXY)], hXY, trivial⟩

theorem moves_bump : Moves R bump := by
  intro X Y a X' hXY hrun
  cases hrun
  exact ⟨Y.tail, rfl, Alongside.tail hXY, trivial⟩

theorem moves_at (k : TokenKind) : Moves R (at_ k) := by
  intro X Y a X' hXY hrun
  cases hrun
  exact ⟨Y, by rw [at_, Alongside.kind hXY], hXY, trivial⟩

theorem moves_skip (k : TokenKind) : Moves R (skip k) := by
  intro X Y a X' hXY hrun
  unfold skip at hrun ⊢
  rw [← Alongside.kind hXY]
  split at hrun
  · rename_i hkind
    cases hrun
    exact ⟨Y.tail, if_pos hkind, Alongside.tail hXY, trivial⟩
  · rename_i hkind
    cases hrun
    exact ⟨Y, if_neg hkind, hXY, trivial⟩

theorem moves_expect (k : TokenKind) : Moves R (expect k) := by
  intro X Y a X' hXY hrun
  unfold expect at hrun ⊢
  rw [← Alongside.kind hXY]
  split at hrun
  · rename_i hkind
    cases hrun
    exact ⟨Y.tail, if_pos hkind, Alongside.tail hXY, trivial⟩
  · cases hrun

theorem moves_identifier : Moves R identifier := by
  intro X Y a X' hXY hrun
  unfold identifier at hrun ⊢
  rw [← Alongside.kind hXY]
  split at hrun
  · cases hrun
    exact ⟨Y.tail, rfl, Alongside.tail hXY, trivial⟩
  · cases hrun

theorem keeps_looping {loop : Nat → Parser α} {P : α → Prop}
    (hloop : ∀ fuel, Keeps R (loop fuel) P) : Keeps R (looping loop) P := by
  intro X Y a X' hXY hrun
  unfold looping
  rw [← Alongside.length hXY]
  exact hloop _ X Y a X' hXY hrun

section Operands

variable {operand : Nat → Parser Expr} (hop : ∀ least, Moves R (operand least))
include hop

theorem moves_conditionalLoop (fuel : Nat) : Moves R (conditionalLoop operand fuel) := by
  induction fuel with
  | zero => exact keeps_failWanted
  | succ fuel ih =>
      unfold conditionalLoop
      apply Keeps.bind (hop orPower)
      intro value _
      apply Keeps.bind (moves_at _)
      intro conditional _
      split
      · apply Keeps.bind moves_bump
        intro _ _
        apply Keeps.bind (hop orPower)
        intro condition _
        apply Keeps.bind (moves_expect _)
        intro _ _
        exact Keeps.bind ih fun otherwise _ => moves_pure _
      · exact moves_pure _

theorem moves_expressionWith : Moves R (expressionWith operand) :=
  keeps_looping (moves_conditionalLoop hop)

theorem moves_itemsLoop (close : Symbol) (fuel : Nat) :
    Moves R (itemsLoop operand close fuel) := by
  induction fuel with
  | zero => exact moves_pure _
  | succ fuel ih =>
      unfold itemsLoop
      apply Keeps.bind (moves_at _)
      intro closed _
      split
      · exact moves_pure _
      · apply Keeps.bind (moves_expressionWith hop)
        intro item _
        apply Keeps.bind (moves_skip _)
        intro comma _
        split
        · exact Keeps.bind ih fun items _ => moves_pure _
        · exact moves_pure _

theorem moves_itemsUntil (close : Symbol) : Moves R (itemsUntil operand close) := by
  unfold itemsUntil
  apply Keeps.bind (keeps_looping (moves_itemsLoop hop close))
  intro items _
  exact Keeps.bind (moves_expect _) fun _ _ => moves_pure _

theorem moves_tupleLoop (stop : TokenKind → Bool) (fuel : Nat) :
    Moves R (tupleLoop operand stop fuel) := by
  induction fuel with
  | zero => exact moves_pure _
  | succ fuel ih =>
      unfold tupleLoop
      apply Keeps.bind (moves_skip _)
      intro comma _
      split
      · apply Keeps.bind moves_kind
        intro next _
        split
        · exact moves_pure _
        · apply Keeps.bind (moves_expressionWith hop)
          intro item _
          exact Keeps.bind ih fun items _ => moves_pure _
      · exact moves_pure _

theorem moves_parenthesized : Moves R (parenthesized operand) := by
  unfold parenthesized
  apply Keeps.bind (moves_skip _)
  intro empty _
  split
  · exact moves_pure _
  · apply Keeps.bind (moves_expressionWith hop)
    intro first _
    apply Keeps.bind (moves_skip _)
    intro closed _
    split
    · exact moves_pure _
    · apply Keeps.bind (keeps_looping (moves_tupleLoop hop _))
      intro items _
      exact Keeps.bind (moves_expect _) fun _ _ => moves_pure _

theorem moves_entriesLoop (fuel : Nat) : Moves R (entriesLoop operand fuel) := by
  induction fuel with
  | zero => exact moves_pure _
  | succ fuel ih =>
      unfold entriesLoop
      apply Keeps.bind (moves_at _)
      intro closed _
      split
      · exact moves_pure _
      · apply Keeps.bind (moves_expressionWith hop)
        intro key _
        apply Keeps.bind (moves_expect _)
        intro _ _
        apply Keeps.bind (moves_expressionWith hop)
        intro value _
        apply Keeps.bind (moves_skip _)
        intro comma _
        split
        · exact Keeps.bind ih fun entries _ => moves_pure _
        · exact moves_pure _

omit hop in
theorem moves_stringsLoop (fuel : Nat) : Moves R (stringsLoop fuel) := by
  induction fuel with
  | zero => exact moves_pure _
  | succ fuel ih =>
      unfold stringsLoop
      apply Keeps.bind moves_kind
      intro k _
      split
      · apply Keeps.bind moves_bump
        intro _ _
        exact Keeps.bind ih fun rest _ => moves_pure _
      · exact moves_pure _

theorem moves_atom : Moves R (atom operand) := by
  have htaken : ∀ e : Expr, Moves R (bump >>= fun _ => pure e) := fun e =>
    Keeps.bind moves_bump fun _ _ => moves_pure e
  unfold atom
  apply Keeps.bind moves_kind
  intro k _
  split
  · exact htaken _
  · exact htaken _
  · exact htaken _
  · exact htaken _
  · exact Keeps.bind (keeps_looping moves_stringsLoop) fun t _ => moves_pure _
  · exact htaken _
  · exact Keeps.bind moves_bump fun _ _ => moves_parenthesized hop
  · apply Keeps.bind moves_bump
    intro _ _
    exact Keeps.bind (moves_itemsUntil hop _) fun items _ => moves_pure _
  · apply Keeps.bind moves_bump
    intro _ _
    apply Keeps.bind (keeps_looping (moves_entriesLoop hop))
    intro entries _
    exact Keeps.bind (moves_expect _) fun _ _ => moves_pure _
  · exact keeps_failWanted

theorem moves_argumentsLoop (args : List Expr) (keywords : List (Text × Expr)) (fuel : Nat) :
    Moves R (argumentsLoop operand args keywords fuel) := by
  induction fuel generalizing args keywords with
  | zero => exact moves_pure _
  | succ fuel ih =>
      rw [argumentsLoop_succ]
      apply Keeps.bind (moves_at _)
      intro closed _
      split
      · exact moves_pure _
      · apply Keeps.bind moves_kind
        intro current _
        apply Keeps.bind moves_nextKind
        intro following _
        have hmore : ∀ (args : List Expr) (keywords : List (Text × Expr)),
            Moves R (skipSymbol .comma >>= fun comma =>
              if comma then argumentsLoop operand args keywords fuel
              else pure (args, keywords)) := by
          intro args keywords
          apply Keeps.bind (moves_skip _)
          intro comma _
          split
          · exact ih args keywords
          · exact moves_pure _
        unfold argument
        split
        · apply Keeps.bind moves_bump
          intro _ _
          apply Keeps.bind moves_bump
          intro _ _
          apply Keeps.bind (moves_expressionWith hop)
          intro value _
          split
          · exact Keeps.bind (P := fun _ => False) keeps_fail fun _ h => h.elim
          · exact hmore _ _
        · unfold positional
          split
          · exact Keeps.bind (P := fun _ => False) keeps_fail fun _ h => h.elim
          · apply Keeps.bind (moves_expressionWith hop)
            intro arg _
            exact hmore _ _

theorem moves_subscript (object : Expr) : Moves R (subscript operand object) := by
  have hfrom : ∀ start : Option Expr, Moves R (subscriptFrom operand object start) := by
    intro start
    have hclosing : ∀ stop : Option Expr,
        Moves R (expectSymbol .rightBracket >>= fun _ => pure (Expr.slice object start stop)) :=
      fun stop => Keeps.bind (moves_expect _) fun _ _ => moves_pure _
    unfold subscriptFrom
    apply Keeps.bind (moves_skip _)
    intro colon _
    split
    · apply Keeps.bind (moves_at _)
      intro absent _
      split
      · exact hclosing none
      · exact Keeps.bind (moves_expressionWith hop) fun e _ => hclosing (some e)
    · apply Keeps.bind (moves_expect _)
      intro _ _
      split
      · exact moves_pure _
      · exact keeps_fail
  unfold subscript
  apply Keeps.bind (moves_at _)
  intro absent _
  split
  · exact hfrom none
  · exact Keeps.bind (moves_expressionWith hop) fun e _ => hfrom (some e)

theorem moves_trailersLoop (e : Expr) (fuel : Nat) :
    Moves R (trailersLoop operand e fuel) := by
  induction fuel generalizing e with
  | zero => exact moves_pure _
  | succ fuel ih =>
      unfold trailersLoop
      apply Keeps.bind moves_kind
      intro k _
      split
      · apply Keeps.bind moves_bump
        intro _ _
        apply Keeps.bind (keeps_looping (moves_argumentsLoop hop [] []))
        intro args _
        exact Keeps.bind (moves_expect _) fun _ _ => ih _
      · apply Keeps.bind moves_bump
        intro _ _
        exact Keeps.bind (moves_subscript hop e) fun e _ => ih e
      · apply Keeps.bind moves_bump
        intro _ _
        exact Keeps.bind moves_identifier fun name _ => ih _
      · exact moves_pure _

theorem moves_headed : Moves R (headed operand) := by
  unfold headed
  apply Keeps.bind moves_kind
  intro k _
  split
  · apply Keeps.bind moves_bump
    intro _ _
    exact Keeps.bind (hop _) fun e _ => moves_pure _
  · apply Keeps.bind moves_bump
    intro _ _
    exact Keeps.bind (hop _) fun e _ => moves_pure _
  · apply Keeps.bind moves_bump
    intro _ _
    exact Keeps.bind (hop _) fun e _ => moves_pure _
  · apply Keeps.bind (moves_atom hop)
    intro e _
    exact keeps_looping (moves_trailersLoop hop e)

omit hop in
theorem moves_bumps (width : Nat) : Moves R (bumps width) := by
  induction width with
  | zero => exact moves_pure _
  | succ width ih => exact Keeps.bind moves_bump fun _ _ => ih

theorem moves_chainLoop (least : Nat) (lhs : Expr) (fuel : Nat) :
    Moves R (chainLoop operand least lhs fuel) := by
  induction fuel generalizing lhs with
  | zero => exact moves_pure _
  | succ fuel ih =>
      rw [chainLoop_succ]
      apply Keeps.bind moves_kind
      intro current _
      apply Keeps.bind moves_nextKind
      intro next _
      unfold link
      split
      · exact moves_pure _
      · split
        · exact moves_pure _
        · apply Keeps.bind (moves_bumps _)
          intro _ _
          exact Keeps.bind (hop _) fun rhs _ => ih _

end Operands

theorem moves_operand (depth least : Nat) : Moves R (operand depth least) := by
  induction depth generalizing least with
  | zero => exact keeps_fail
  | succ depth ih =>
      unfold operand
      apply Keeps.bind (moves_headed ih)
      intro e _
      exact keeps_looping (moves_chainLoop ih least e)

theorem moves_expression : Moves R expression := moves_expressionWith (moves_operand _)

theorem moves_expressionList : Moves R expressionList := by
  unfold expressionList
  apply Keeps.bind moves_expression
  intro first _
  apply Keeps.bind (moves_at _)
  intro comma _
  split
  · exact Keeps.bind (keeps_looping (moves_tupleLoop (moves_operand _) _)) fun items _ =>
      moves_pure _
  · exact moves_pure _

end Walk

end TemplateEngine.Parser
