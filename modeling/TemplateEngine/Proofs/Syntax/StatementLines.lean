import TemplateEngine.Proofs.Script.RaisedLines
import TemplateEngine.Proofs.Syntax.ExpressionReading
import TemplateEngine.Proofs.Syntax.TokensLeft

/-!
# Where the statements of a program begin

The line of a statement or an except clause is that of the token at which it begins. That
is no token of the layout, no closing parenthesis, and no string before one, since
from there nothing can be read.
-/
namespace TemplateEngine.Parser

/-- Where a statement or an except clause may begin: at no line break, change of indentation or
closing parenthesis, nor at a string that is followed by one. -/
def mayBegin (tokens : List Token) : Bool :=
  match (headToken tokens).kind with
  | .newline | .indent | .dedent | .endOfInput | .symbol .rightParen => false
  | .string _ => (headToken tokens.tail).kind ≠ .symbol .rightParen
  | _ => true

section Beginning

variable {tokens rest : List Token} {inLoop : Bool}

/-- An expression does not begin at a token of the layout. -/
theorem fails_operand {depth least : Nat}
    (h : (headToken tokens).kind ∈ [.newline, .indent, .dedent, .endOfInput, .symbol .rightParen]) :
    Fails tokens (operand depth least) := by
  cases depth with
  | zero =>
      intro r hr
      cases hr
  | succ depth =>
      have hatom : Fails tokens (atom (operand depth)) := by
        intro r hr
        rw [atom, bind_kind] at hr
        simp only [List.mem_cons, List.not_mem_nil, or_false] at h
        rcases h with h | h | h | h | h <;>
          · rw [h] at hr
            cases hr
      have hheaded : Fails tokens (headed (operand depth)) := by
        intro r hr
        rw [headed, bind_kind] at hr
        simp only [List.mem_cons, List.not_mem_nil, or_false] at h
        rcases h with h | h | h | h | h <;>
          · rw [h] at hr
            exact hatom.bind r hr
      exact hheaded.bind

theorem fails_expressionList
    (h : (headToken tokens).kind ∈ [.newline, .indent, .dedent, .endOfInput, .symbol .rightParen]) :
    Fails tokens expressionList := by
  have hloop : Fails tokens (conditionalLoop (operand maxExprDepth) (tokens.length + 1)) := by
    rw [conditionalLoop]
    exact (fails_operand h).bind
  have hexpression : Fails tokens expression := hloop
  exact hexpression.bind

/-- A string before a closing parenthesis is a whole expression. -/
theorem expressionList_string {t : Text} {s : Span}
    (hrest : (headToken rest).kind = .symbol .rightParen) :
    expressionList (⟨.string t, s⟩ :: rest) = .ok (.constant (.str t), rest) := by
  have hstops : Stops conditionalPower rest := by
    rw [Stops, hrest]
    rfl
  have hspells : Spells (Constant.str t).print [⟨.string t, s⟩] := rfl
  have htrails : Trails 99 (Constant.str t).print (.constant (.str t)) := trails_constant trivial
  have hcompletes := htrails.heads.leads.completes (by decide)
  have hexpression : expression ([⟨.string t, s⟩] ++ rest) = .ok (.constant (.str t), rest) :=
    hcompletes.expression hspells hstops
  have hcomma : (headToken rest).kind ≠ .symbol .comma := by
    rw [hrest]
    decide
  rw [expressionList]
  rw [List.singleton_append] at hexpression
  rw [bind_ok hexpression, bind_at hcomma]
  rfl

theorem simple_string {t : Text} {s : Span}
    (hrest : (headToken rest).kind = .symbol .rightParen) :
    simple inLoop (⟨.string t, s⟩ :: rest) = .ok (.expr (.constant (.str t)), rest) := by
  have hequals : (headToken rest).kind ≠ .symbol .equals := by
    rw [hrest]
    decide
  rw [simple, bind_kind]
  show (expressionList >>= _) _ = _
  rw [bind_ok (expressionList_string hrest), skipSymbol, bind_skip_false hequals]
  show (kind >>= _) _ = _
  rw [bind_kind, hrest]
  rfl

theorem fails_lineEnd (hrest : (headToken rest).kind = .symbol .rightParen) :
    Fails rest lineEnd := by
  have hnewline : (headToken rest).kind ≠ .newline := by
    rw [hrest]
    decide
  have hinput : (headToken rest).kind ≠ .endOfInput := by
    rw [hrest]
    decide
  intro r hr
  rw [lineEnd, bind_skip_false hnewline, if_neg Bool.false_ne_true, atEnd, bind_at hinput] at hr
  cases hr

/-- What is read as a statement on one line begins where a statement may begin. -/
theorem mayBegin_of_simple {a : Action} {after : List Token}
    (h : simple inLoop tokens = .ok (a, after)) (hend : lineEnd after = .ok ((), rest)) :
    mayBegin tokens = true := by
  have hlayout : (headToken tokens).kind ∉
      [.newline, .indent, .dedent, .endOfInput, .symbol .rightParen] := by
    intro hkind
    have hfails := fails_expressionList hkind
    rw [simple, bind_kind] at h
    simp only [List.mem_cons, List.not_mem_nil, or_false] at hkind
    rcases hkind with hkind | hkind | hkind | hkind | hkind <;>
      · rw [hkind] at h
        exact hfails.bind _ h
  unfold mayBegin
  split
  case h_6 t hkind =>
    rw [decide_eq_true_iff]
    intro hparen
    cases tokens with
    | nil => cases hkind
    | cons first others =>
        obtain ⟨kind, s⟩ := first
        have hkind : kind = .string t := hkind
        have hafter : (headToken others).kind = .symbol .rightParen := hparen
        subst hkind
        rw [simple_string hafter] at h
        cases h
        exact fails_lineEnd hafter _ hend
  case h_7 => rfl
  all_goals
    rename_i hkind
    exact absurd (by rw [hkind]; decide) hlayout

end Beginning

section Statements

variable {R : List Token → List Token → Prop}

section Actions

variable [Alongside R]

theorem moves_atEnd : Moves R atEnd := moves_at _

theorem moves_lineEnd : Moves R lineEnd := by
  unfold lineEnd
  apply Keeps.bind (moves_skip _)
  intro ended _
  split
  · exact moves_pure _
  · apply Keeps.bind moves_atEnd
    intro ended _
    split
    · exact moves_pure _
    · exact keeps_failWanted

/-- An action that no block belongs to has no statements inside it. -/
theorem keeps_simple (inLoop : Bool) :
    Keeps R (simple inLoop) fun action => action.lines = [] := by
  unfold simple
  apply Keeps.bind moves_kind
  intro k _
  split
  · exact Keeps.bind moves_bump fun _ _ => keeps_pure rfl
  · split
    · exact Keeps.bind moves_bump fun _ _ => keeps_pure rfl
    · exact keeps_fail
  · split
    · exact Keeps.bind moves_bump fun _ _ => keeps_pure rfl
    · exact keeps_fail
  · apply Keeps.bind moves_bump
    intro _ _
    apply Keeps.bind (moves_at _)
    intro ended _
    split
    · exact keeps_pure rfl
    · apply Keeps.bind moves_atEnd
      intro ended _
      split
      · exact keeps_pure rfl
      · exact Keeps.bind moves_expression fun e _ => keeps_pure rfl
  · apply Keeps.bind moves_expressionList
    intro e _
    apply Keeps.bind (moves_skip _)
    intro equals _
    have htarget : Moves R (target e) := by
      unfold target
      split
      · exact moves_pure _
      · exact keeps_fail
    split
    · apply Keeps.bind htarget
      intro t _
      exact Keeps.bind moves_expressionList fun value _ => keeps_pure rfl
    · apply Keeps.bind moves_kind
      intro k _
      split
      · apply Keeps.bind moves_bump
        intro _ _
        apply Keeps.bind htarget
        intro t _
        split
        · exact keeps_fail
        · exact Keeps.bind moves_expression fun value _ => keeps_pure rfl
      · exact keeps_pure rfl

theorem moves_namesLoop (fuel : Nat) : Moves R (namesLoop fuel) := by
  induction fuel with
  | zero => exact moves_pure _
  | succ fuel ih =>
      unfold namesLoop
      apply Keeps.bind (moves_skip _)
      intro comma _
      split
      · apply Keeps.bind moves_identifier
        intro name _
        exact Keeps.bind ih fun names _ => moves_pure _
      · exact moves_pure _

theorem moves_alias? : Moves R alias? := by
  unfold alias?
  apply Keeps.bind (moves_skip _)
  intro present _
  split
  · exact Keeps.bind moves_identifier fun name _ => moves_pure _
  · exact moves_pure _

end Actions

/-- Lists of tokens that are on the same line wherever a statement may begin. Such lines have a
property. -/
class Abreast (R : List Token → List Token → Prop) (B : outParam (Nat → Prop)) : Prop
    extends Alongside R where
  line : ∀ {X Y}, R X Y → mayBegin X = true →
    (headToken Y).span.line = (headToken X).span.line
  begins : ∀ {X Y}, R X Y → mayBegin X = true → B (headToken X).span.line

variable {B : Nat → Prop} [Abreast R B]

/-- Lines that all have a property. -/
def AllBegin (B : Nat → Prop) (lines : List Nat) : Prop := ∀ line ∈ lines, B line

theorem allBegin_nil : AllBegin B [] := by
  intro line hline
  cases hline

theorem allBegin_append {lines others : List Nat} (h : AllBegin B lines)
    (h' : AllBegin B others) : AllBegin B (lines ++ others) :=
  List.forall_mem_append.mpr ⟨h, h'⟩

/-- A statement on one line has that line, and no others inside it. -/
theorem allBegin_of_simple {α : Type} {inLoop : Bool} {f : Nat → Action → α}
    {X Y X' : List Token} {a : α} (hXY : R X Y)
    (hrun : (simple inLoop >>= fun action => lineEnd >>= fun _ =>
      pure (f (headToken X).span.line action)) X = .ok (a, X')) :
    ∃ Y' action, (simple inLoop >>= fun action => lineEnd >>= fun _ =>
        pure (f (headToken Y).span.line action)) Y = .ok (a, Y') ∧ R X' Y' ∧
      a = f (headToken X).span.line action ∧
        AllBegin B (Stmt.at (headToken X).span.line action).lines := by
  obtain ⟨action, mid, hsimple, hrun⟩ := exists_of_ok hrun
  obtain ⟨_, final, hend, hrun⟩ := exists_of_ok hrun
  cases hrun
  obtain ⟨mid', hsimple', hmid, hlines⟩ := keeps_simple inLoop X Y action mid hXY hsimple
  obtain ⟨final', hend', hfinal, -⟩ := moves_lineEnd mid mid' () _ hmid hend
  have hbegins := mayBegin_of_simple hsimple hend
  refine ⟨final', action, ?_, hfinal, rfl, ?_⟩
  · rw [bind_ok hsimple', bind_ok hend', Abreast.line hXY hbegins]
    rfl
  · rw [Stmt.lines, hlines]
    exact List.forall_mem_singleton.mpr (Abreast.begins hXY hbegins)

/-- The line of a token of some kind, where a statement may begin at such tokens. -/
theorem keeps_lineAt {β : Type} {k : TokenKind}
    (hk : ∀ tokens, (headToken tokens).kind = k → mayBegin tokens = true) {f : Nat → Parser β}
    {q : Parser β} {Q : β → Prop} (hf : ∀ n, B n → Keeps R (f n) Q) (hq : Keeps R q Q) :
    Keeps R (at_ k >>= fun found => if found then line >>= f else q) Q := by
  intro X Y b X' hXY hrun
  by_cases hkind : (headToken X).kind = k
  · have hbegins := hk X hkind
    have hkind' : (headToken Y).kind = k := (Alongside.kind hXY).symm.trans hkind
    have hline : line Y = .ok ((headToken X).span.line, Y) := by
      rw [line, Abreast.line hXY hbegins]
    have hat : at_ k X = .ok (true, X) := by rw [at_, decide_eq_true hkind]
    have hat' : at_ k Y = .ok (true, Y) := by rw [at_, decide_eq_true hkind']
    rw [bind_ok hat, if_pos rfl] at hrun
    rw [bind_ok hat', if_pos rfl, bind_ok hline]
    exact hf _ (Abreast.begins hXY hbegins) X Y b X' hXY hrun
  · have hkind' : (headToken Y).kind ≠ k := fun h => hkind ((Alongside.kind hXY).trans h)
    rw [bind_at hkind, if_neg Bool.false_ne_true] at hrun
    rw [bind_at hkind', if_neg Bool.false_ne_true]
    exact hq X Y b X' hXY hrun

section Blocks

variable {body : Bool → Parser Block}
  (hbody : ∀ inLoop, Keeps R (body inLoop) fun b => AllBegin B (linesBlock b))
include hbody

theorem keeps_block (inLoop : Bool) :
    Keeps R (block body inLoop) fun b => AllBegin B (linesBlock b) := by
  unfold block
  apply Keeps.bind (moves_expect _)
  intro _ _
  apply Keeps.bind (moves_at _)
  intro ended _
  split
  · apply Keeps.bind moves_bump
    intro _ _
    apply Keeps.bind (moves_skip _)
    intro indented _
    split
    · exact hbody inLoop
    · exact keeps_pure allBegin_nil
  · intro X Y b X' hXY hrun
    obtain ⟨n, _, hline, hrun⟩ := exists_of_ok hrun
    cases hline
    obtain ⟨Y', action, hrun', hrest, rfl, hlines⟩ :=
      allBegin_of_simple (f := fun line action => [Stmt.at line action]) hXY hrun
    refine ⟨Y', hrun', hrest, ?_⟩
    show AllBegin B (linesBlock [Stmt.at (headToken X).span.line action])
    rwa [linesBlock, linesBlock, List.append_nil]

theorem keeps_branchesLoop (inLoop : Bool) (fuel : Nat) :
    Keeps R (branchesLoop body inLoop fuel) fun r =>
      AllBegin B (linesBranches r.1) ∧ AllBegin B (linesOption r.2) := by
  induction fuel with
  | zero => exact keeps_pure ⟨allBegin_nil, allBegin_nil⟩
  | succ fuel ih =>
      unfold branchesLoop
      apply Keeps.bind (moves_skip _)
      intro elif _
      split
      · apply Keeps.bind moves_expression
        intro condition _
        apply Keeps.bind (keeps_block hbody inLoop)
        intro inner hinner
        apply Keeps.bind ih
        intro r hr
        apply keeps_pure
        rw [linesBranches]
        exact ⟨allBegin_append hinner hr.1, hr.2⟩
      · apply Keeps.bind (moves_skip _)
        intro otherwise _
        split
        · apply Keeps.bind (keeps_block hbody inLoop)
          intro inner hinner
          apply keeps_pure
          rw [linesOption]
          exact ⟨allBegin_nil, hinner⟩
        · exact keeps_pure ⟨allBegin_nil, allBegin_nil⟩

theorem keeps_ifStatement (inLoop : Bool) :
    Keeps R (ifStatement body inLoop) fun action => AllBegin B action.lines := by
  unfold ifStatement
  apply Keeps.bind (moves_expect _)
  intro _ _
  apply Keeps.bind moves_expression
  intro condition _
  apply Keeps.bind (keeps_block hbody inLoop)
  intro inner hinner
  apply Keeps.bind (keeps_looping (keeps_branchesLoop hbody inLoop))
  intro r hr
  apply keeps_pure
  rw [Action.lines, linesBranches]
  exact allBegin_append (allBegin_append hinner hr.1) hr.2

theorem keeps_forStatement :
    Keeps R (forStatement body) fun action => AllBegin B action.lines := by
  unfold forStatement
  apply Keeps.bind (moves_expect _)
  intro _ _
  apply Keeps.bind moves_identifier
  intro first _
  apply Keeps.bind (keeps_looping moves_namesLoop)
  intro others _
  apply Keeps.bind (moves_expect _)
  intro _ _
  apply Keeps.bind moves_expressionList
  intro items _
  apply Keeps.bind (keeps_block hbody true)
  intro inner hinner
  apply keeps_pure
  rw [Action.lines]
  exact hinner

theorem keeps_whileStatement :
    Keeps R (whileStatement body) fun action => AllBegin B action.lines := by
  unfold whileStatement
  apply Keeps.bind (moves_expect _)
  intro _ _
  apply Keeps.bind moves_expression
  intro condition _
  apply Keeps.bind (keeps_block hbody true)
  intro inner hinner
  apply keeps_pure
  rw [Action.lines]
  exact hinner

/-- An except clause has the line of the word that it begins with. -/
theorem keeps_handlersLoop (inLoop : Bool) (fuel : Nat) :
    Keeps R (handlersLoop body inLoop fuel) fun handlers =>
      AllBegin B (linesHandlers handlers) := by
  induction fuel with
  | zero => exact keeps_pure allBegin_nil
  | succ fuel ih =>
      have hclause : ∀ n, B n → ∀ matcher : Option Expr,
          Keeps R (alias? >>= fun name => block body inLoop >>= fun inner =>
            handlersLoop body inLoop fuel >>= fun handlers =>
              pure (Handler.clause matcher name inner n :: handlers)) fun handlers =>
            AllBegin B (linesHandlers handlers) := by
        intro n hn matcher
        apply Keeps.bind moves_alias?
        intro name _
        apply Keeps.bind (keeps_block hbody inLoop)
        intro inner hinner
        apply Keeps.bind ih
        intro handlers hhandlers
        apply keeps_pure
        rw [linesHandlers]
        exact List.forall_mem_cons.mpr ⟨hn, allBegin_append hinner hhandlers⟩
      have hexcept : ∀ tokens, (headToken tokens).kind = .keyword .exceptWord →
          mayBegin tokens = true := by
        intro tokens hkind
        rw [mayBegin, hkind]
      unfold handlersLoop
      apply keeps_lineAt hexcept
      · intro n hn
        apply Keeps.bind moves_bump
        intro _ _
        apply Keeps.bind (moves_at _)
        intro bare _
        split
        · exact hclause n hn none
        · exact Keeps.bind moves_expression fun e _ => hclause n hn (some e)
      · exact keeps_pure allBegin_nil

theorem keeps_tryStatement (inLoop : Bool) :
    Keeps R (tryStatement body inLoop) fun action => AllBegin B action.lines := by
  have hattempt : ∀ (inner : Block) (handlers : List Handler) (cleanup : Option Block),
      AllBegin B (linesBlock inner) → AllBegin B (linesHandlers handlers) →
        AllBegin B (linesOption cleanup) →
          Keeps R (if handlers.isEmpty && cleanup.isNone then
              fail .bareTry >>= fun _ : Unit => pure (Action.attempt inner handlers cleanup)
            else pure (Action.attempt inner handlers cleanup)) fun action =>
            AllBegin B action.lines := by
    intro inner handlers cleanup hinner hhandlers hcleanup
    split
    · exact Keeps.bind (P := fun _ => False) keeps_fail fun _ h => h.elim
    · apply keeps_pure
      rw [Action.lines]
      exact allBegin_append hinner (allBegin_append hhandlers hcleanup)
  unfold tryStatement
  apply Keeps.bind (moves_expect _)
  intro _ _
  apply Keeps.bind (keeps_block hbody inLoop)
  intro inner hinner
  apply Keeps.bind (keeps_looping (keeps_handlersLoop hbody inLoop))
  intro handlers hhandlers
  apply Keeps.bind (moves_skip _)
  intro present _
  split
  · apply Keeps.bind (keeps_block hbody inLoop)
    intro b hb
    exact hattempt inner handlers (some b) hinner hhandlers (by rw [linesOption]; exact hb)
  · exact hattempt inner handlers none hinner hhandlers allBegin_nil

theorem keeps_withStatement (inLoop : Bool) :
    Keeps R (withStatement body inLoop) fun action => AllBegin B action.lines := by
  unfold withStatement
  apply Keeps.bind (moves_expect _)
  intro _ _
  apply Keeps.bind moves_expression
  intro context _
  apply Keeps.bind moves_alias?
  intro name _
  apply Keeps.bind (keeps_block hbody inLoop)
  intro inner hinner
  apply keeps_pure
  rw [Action.lines]
  exact hinner

theorem keeps_statement (inLoop : Bool) :
    Keeps R (statement body inLoop) fun stmt => AllBegin B stmt.lines := by
  intro X Y stmt X' hXY hrun
  have hword : ∀ {p : Parser Action} {word : Keyword},
      Keeps R p (fun action => AllBegin B action.lines) →
        (headToken X).kind = .keyword word →
          (p >>= fun action => pure (Stmt.at (headToken X).span.line action)) X =
            .ok (stmt, X') →
          ∃ Y', (p >>= fun action => pure (Stmt.at (headToken Y).span.line action)) Y =
            .ok (stmt, Y') ∧ R X' Y' ∧ AllBegin B stmt.lines := by
    intro p word hp hkind hrun
    have hbegins : mayBegin X = true := by rw [mayBegin, hkind]
    have hstmt : Keeps R (p >>= fun action => pure (Stmt.at (headToken X).span.line action))
        fun stmt => AllBegin B stmt.lines := by
      apply Keeps.bind hp
      intro action haction
      apply keeps_pure
      rw [Stmt.lines]
      exact List.forall_mem_cons.mpr ⟨Abreast.begins hXY hbegins, haction⟩
    rw [Abreast.line hXY hbegins]
    exact hstmt X Y stmt X' hXY hrun
  unfold statement at hrun ⊢
  obtain ⟨n, _, hline, hrun⟩ := exists_of_ok hrun
  cases hline
  have hline : line Y = .ok ((headToken Y).span.line, Y) := rfl
  rw [bind_kind] at hrun
  rw [bind_ok hline, bind_kind, ← Alongside.kind hXY]
  generalize hkind : (headToken X).kind = k at hrun ⊢
  split at hrun
  · exact hword (keeps_ifStatement hbody inLoop) hkind hrun
  · exact hword (keeps_forStatement hbody) hkind hrun
  · exact hword (keeps_whileStatement hbody) hkind hrun
  · exact hword (keeps_tryStatement hbody inLoop) hkind hrun
  · exact hword (keeps_withStatement hbody inLoop) hkind hrun
  · cases hrun
  · cases hrun
  · cases hrun
  · cases hrun
  · cases hrun
  · cases hrun
  · obtain ⟨Y', action, hrun', hrest, rfl, hlines⟩ := allBegin_of_simple hXY hrun
    exact ⟨Y', hrun', hrest, hlines⟩

theorem keeps_blockLoop (inLoop : Bool) (fuel : Nat) :
    Keeps R (blockLoop body inLoop fuel) fun b => AllBegin B (linesBlock b) := by
  induction fuel with
  | zero => exact keeps_pure allBegin_nil
  | succ fuel ih =>
      unfold blockLoop
      apply Keeps.bind (moves_skip _)
      intro closed _
      split
      · exact keeps_pure allBegin_nil
      · apply Keeps.bind moves_atEnd
        intro ended _
        split
        · exact keeps_pure allBegin_nil
        · apply Keeps.bind (moves_skip _)
          intro blank _
          split
          · exact ih
          · apply Keeps.bind (keeps_statement hbody inLoop)
            intro first hfirst
            apply Keeps.bind ih
            intro others hothers
            apply keeps_pure
            rw [linesBlock]
            exact allBegin_append hfirst hothers

end Blocks

theorem keeps_blockBody (depth : Nat) (inLoop : Bool) :
    Keeps R (blockBody depth inLoop) fun b => AllBegin B (linesBlock b) := by
  induction depth generalizing inLoop with
  | zero => exact keeps_fail
  | succ depth ih =>
      unfold blockBody
      exact keeps_looping (keeps_blockLoop ih inLoop)

theorem keeps_programLoop (fuel : Nat) :
    Keeps R (programLoop fuel) fun b => AllBegin B (linesBlock b) := by
  induction fuel with
  | zero => exact keeps_pure allBegin_nil
  | succ fuel ih =>
      unfold programLoop
      apply Keeps.bind moves_atEnd
      intro ended _
      split
      · exact keeps_pure allBegin_nil
      · apply Keeps.bind (moves_skip _)
        intro blank _
        split
        · exact ih
        · apply Keeps.bind (keeps_statement (keeps_blockBody _) false)
          intro first hfirst
          apply Keeps.bind ih
          intro others hothers
          apply keeps_pure
          rw [linesBlock]
          exact allBegin_append hfirst hothers

end Statements

/-- A line on which a statement or an except clause begins among some tokens. -/
def Begins (all : List Token) (line : Nat) : Prop :=
  ∃ tokens, tokens <:+ all ∧ mayBegin tokens = true ∧ (headToken tokens).span.line = line

instance abreast_endOf (all : List Token) : Abreast (EndOf all) (Begins all) where
  line := fun h _ => by rw [h.1]
  begins := fun h hbegins => ⟨_, h.2, hbegins, rfl⟩

/-- Every statement and except clause of a program has the line of a token of the source, one
where a statement may begin. -/
theorem exists_begins_of_parseProgram {source : Text} {body : Block}
    (h : parseProgram source = .ok body) :
    ∃ tokens, tokenize source = .ok tokens ∧ AllBegin (Begins tokens) (linesBlock body) := by
  unfold parseProgram onSource at h
  split at h
  · cases h
  · rename_i tokens htokens
    split at h
    · rename_i rest hrun
      cases h
      have hloop : Keeps (EndOf tokens) (looping programLoop) fun b =>
          AllBegin (Begins tokens) (linesBlock b) := keeps_looping keeps_programLoop
      obtain ⟨-, -, -, hall⟩ := hloop tokens tokens body rest ⟨rfl, List.suffix_refl _⟩ hrun
      exact ⟨tokens, htokens, hall⟩
    · cases h

end TemplateEngine.Parser
