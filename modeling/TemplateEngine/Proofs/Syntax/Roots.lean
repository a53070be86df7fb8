import TemplateEngine.Proofs.Syntax.Consumption

/-!
# The expressions of a program

The expressions that the statements of a program hold, in all of its blocks, whole and not cut
into the ones inside them. The parser of statements makes no expressions of its own, so what
holds of everything that the parser of expressions gives holds of all of them. It may be that it
gives this from some tokens only, as long as what comes after good tokens is good as well.
-/
namespace TemplateEngine

/-- The expressions of a target. An item of an object is an expression itself. -/
def Target.expressions : Target → List Expr
  | .name _ => []
  | .index object key => [.index object key]
  | .unpack _ => []

mutual

/-- The expressions of a statement. -/
def Stmt.expressions (s : Stmt) : List Expr :=
  match s with
  | .at _ action => action.expressions
  termination_by structural s

/-- The expressions of what a statement does. -/
def Action.expressions (a : Action) : List Expr :=
  match a with
  | .expr value => [value]
  | .assign target value => target.expressions ++ [value]
  | .augAssign target _ value => target.expressions ++ [value]
  | .branch branches otherwise => expressionsBranches branches ++ expressionsOption otherwise
  | .forEach target items body => target.expressions ++ items :: expressionsBlock body
  | .whileTrue condition body => condition :: expressionsBlock body
  | .attempt body handlers cleanup =>
    expressionsBlock body ++ (expressionsHandlers handlers ++ expressionsOption cleanup)
  | .raise exception => exception.toList
  | .within context _ body => context :: expressionsBlock body
  | .pass => []
  | .breakLoop => []
  | .continueLoop => []
  termination_by structural a

/-- The expressions of statements. -/
def expressionsBlock (stmts : List Stmt) : List Expr :=
  match stmts with
  | [] => []
  | s :: stmts => s.expressions ++ expressionsBlock stmts
  termination_by structural stmts

/-- The expressions of the branches of a conditional statement. -/
def expressionsBranches (branches : List (Expr × List Stmt)) : List Expr :=
  match branches with
  | [] => []
  | (condition, body) :: branches =>
    condition :: (expressionsBlock body ++ expressionsBranches branches)
  termination_by structural branches

/-- The expressions of except clauses. -/
def expressionsHandlers (handlers : List Handler) : List Expr :=
  match handlers with
  | [] => []
  | .clause matcher _ body _ :: handlers =>
    matcher.toList ++ (expressionsBlock body ++ expressionsHandlers handlers)
  termination_by structural handlers

/-- The expressions of a block that may be absent. -/
def expressionsOption (block : Option (List Stmt)) : List Expr :=
  match block with
  | none => []
  | some body => expressionsBlock body
  termination_by structural block

end

namespace Parser

variable {α β : Type} {Good : List Token → Prop}

/-- From good tokens a parser gives what has a property, and leaves good tokens. -/
def Gives (Good : List Token → Prop) (p : Parser α) (P : α → Prop) : Prop :=
  ∀ X a X', Good X → p X = .ok (a, X') → P a ∧ Good X'

/-- Tokens that stay good when the first one is taken. -/
class Lasting (Good : List Token → Prop) : Prop where
  tail : ∀ {X}, Good X → Good X.tail

instance lasting_true : Lasting fun _ => True where
  tail := fun _ => trivial

section Combinators

variable {p : Parser α} {P : α → Prop} {Q : β → Prop}

theorem gives_pure {a : α} (ha : P a) : Gives Good (pure a) P := by
  intro X b X' hX hrun
  cases hrun
  exact ⟨ha, hX⟩

theorem Gives.bind {f : α → Parser β} (hp : Gives Good p P)
    (hf : ∀ a, P a → Gives Good (f a) Q) : Gives Good (p >>= f) Q := by
  intro X b X' hX hrun
  obtain ⟨a, mid, hfirst, hrest⟩ := exists_of_ok hrun
  obtain ⟨ha, hmid⟩ := hp X a mid hX hfirst
  exact hf a ha mid b X' hmid hrest

theorem Gives.mono {P' : α → Prop} (hp : Gives Good p P) (h : ∀ a, P a → P' a) :
    Gives Good p P' := fun X a X' hX hrun => (hp X a X' hX hrun).imp_left (h a)

/-- A part that is read unless it is absent, and what follows. -/
theorem Gives.unless {f : Option α → Parser β} {P : Option α → Prop} {isAbsent : Bool}
    (hnone : P none) (hp : Gives Good p fun a => P (some a))
    (hf : ∀ found, P found → Gives Good (f found) Q) :
    Gives Good (if isAbsent then pure none >>= f else p >>= fun a => pure (some a) >>= f) Q := by
  cases isAbsent with
  | true => exact hf none hnone
  | false => exact hp.bind fun a ha => hf (some a) ha

/-- A part that is read if it is present, and what follows. -/
theorem Gives.when {f : Option α → Parser β} {P : Option α → Prop} {isPresent : Bool}
    (hnone : P none) (hp : Gives Good p fun a => P (some a))
    (hf : ∀ found, P found → Gives Good (f found) Q) :
    Gives Good (if isPresent then p >>= fun a => pure (some a) >>= f else pure none >>= f) Q := by
  cases isPresent with
  | true => exact hp.bind fun a ha => hf (some a) ha
  | false => exact hf none hnone

theorem Gives.looping {loop : Nat → Parser α} (h : ∀ fuel, Gives Good (loop fuel) P) :
    Gives Good (looping loop) P := fun X a X' hX hrun => h _ X a X' hX hrun

theorem gives_fail {fault : SyntaxFault} : Gives Good (fail fault : Parser α) P := by
  intro X a X' _ hrun
  cases hrun

theorem gives_failWanted {what : Wanted} : Gives Good (failWanted what : Parser α) P := by
  intro X a X' _ hrun
  cases hrun

theorem gives_failUnexpected : Gives Good (failUnexpected : Parser α) P := by
  intro X a X' _ hrun
  cases hrun

theorem gives_kind : Gives Good kind fun _ => True := by
  intro X k X' hX hrun
  cases hrun
  exact ⟨trivial, hX⟩

theorem gives_line : Gives Good line fun _ => True := by
  intro X n X' hX hrun
  cases hrun
  exact ⟨trivial, hX⟩

theorem gives_at {k : TokenKind} : Gives Good (at_ k) fun _ => True := by
  intro X found X' hX hrun
  cases hrun
  exact ⟨trivial, hX⟩

variable [Lasting Good]

theorem gives_bump : Gives Good bump fun _ => True := by
  intro X a X' hX hrun
  cases hrun
  exact ⟨trivial, Lasting.tail hX⟩

theorem gives_skip {k : TokenKind} : Gives Good (skip k) fun _ => True := by
  intro X found X' hX hrun
  unfold skip at hrun
  split at hrun <;> cases hrun
  · exact ⟨trivial, Lasting.tail hX⟩
  · exact ⟨trivial, hX⟩

theorem gives_expect {k : TokenKind} : Gives Good (expect k) fun _ => True := by
  intro X a X' hX hrun
  unfold expect at hrun
  split at hrun <;> cases hrun
  exact ⟨trivial, Lasting.tail hX⟩

theorem gives_identifier : Gives Good identifier fun _ => True := by
  intro X name X' hX hrun
  unfold identifier at hrun
  split at hrun <;> cases hrun
  exact ⟨trivial, Lasting.tail hX⟩

theorem Lasting.suffix {u X : List Token} (h : Good (u ++ X)) : Good X := by
  induction u with
  | nil => exact h
  | cons t u ih => exact ih (Lasting.tail h)

/-- What a parser takes from good tokens tells what it gives. -/
theorem Takes.gives {T : List TokenKind → α → Prop} (h : Takes p T)
    (hP : ∀ u X a, Good (u ++ X) → T (u.map Token.kind) a → P a) : Gives Good p P := by
  intro X a X' hX hrun
  obtain ⟨u, rfl, ha⟩ := h X a X' trivial hrun
  exact ⟨hP u X' a hX ha, Lasting.suffix hX⟩

end Combinators

section Statements

variable {P : Expr → Prop}

/-- Expressions that all have a property. -/
def All (P : Expr → Prop) (es : List Expr) : Prop := ∀ e ∈ es, P e

theorem all_nil : All P [] := by
  intro e he
  cases he

theorem All.append {es others : List Expr} (h : All P es) (h' : All P others) :
    All P (es ++ others) := List.forall_mem_append.mpr ⟨h, h'⟩

theorem All.cons {e : Expr} {es : List Expr} (he : P e) (h : All P es) : All P (e :: es) :=
  List.forall_mem_cons.mpr ⟨he, h⟩

/-- A target holds the expression that it was read as, or none. -/
theorem gives_target {e : Expr} (he : P e) :
    Gives Good (target e) fun t => All P t.expressions := by
  unfold target
  split
  · rename_i t ht
    apply gives_pure
    unfold targetOf? at ht
    split at ht
    · cases ht
      exact all_nil
    · cases ht
      exact all_nil.cons he
    · obtain ⟨names, -, rfl⟩ := Option.map_eq_some_iff.mp ht
      exact all_nil
    · cases ht
  · exact gives_fail

variable [Lasting Good]

theorem gives_lineEnd : Gives Good lineEnd fun _ => True := by
  refine gives_skip.bind fun ended _ => ?_
  split
  · exact gives_pure trivial
  · refine Gives.bind gives_at fun ended _ => ?_
    split
    · exact gives_pure trivial
    · exact gives_failWanted

theorem gives_alias : Gives Good alias? fun _ => True := by
  refine gives_skip.bind fun named _ => ?_
  split
  · exact gives_identifier.bind fun name _ => gives_pure trivial
  · exact gives_pure trivial

theorem gives_namesLoop (fuel : Nat) : Gives Good (namesLoop fuel) fun _ => True := by
  induction fuel with
  | zero => exact gives_pure trivial
  | succ fuel ih =>
      refine Gives.bind gives_skip fun more _ => ?_
      split
      · exact gives_identifier.bind fun name _ => ih.bind fun names _ => gives_pure trivial
      · exact gives_pure trivial

variable (hexpr : Gives Good expression P) (hlist : Gives Good expressionList P)
include hexpr hlist

theorem gives_simple (inLoop : Bool) :
    Gives Good (simple inLoop) fun a => All P a.expressions := by
  refine gives_kind.bind fun k _ => ?_
  split
  · exact gives_bump.bind fun _ _ => gives_pure all_nil
  · split
    · exact gives_bump.bind fun _ _ => gives_pure all_nil
    · exact gives_fail
  · split
    · exact gives_bump.bind fun _ _ => gives_pure all_nil
    · exact gives_fail
  · refine gives_bump.bind fun _ _ => Gives.bind gives_at fun ended _ => ?_
    split
    · exact gives_pure all_nil
    · refine Gives.bind gives_at fun ended _ => ?_
      split
      · exact gives_pure all_nil
      · exact hexpr.bind fun e he => gives_pure (all_nil.cons he)
  · refine hlist.bind fun e he => Gives.bind gives_skip fun equals _ => ?_
    split
    · exact (gives_target he).bind fun t ht =>
        hlist.bind fun value hvalue => gives_pure (ht.append (all_nil.cons hvalue))
    · refine gives_kind.bind fun k _ => ?_
      split
      · refine gives_bump.bind fun _ _ => (gives_target he).bind fun t ht => ?_
        split
        · exact gives_fail
        · exact hexpr.bind fun value hvalue => gives_pure (ht.append (all_nil.cons hvalue))
      · exact gives_pure (all_nil.cons he)

section Blocks

variable {body : Bool → Parser Block}
  (hbody : ∀ inLoop, Gives Good (body inLoop) fun b => All P (expressionsBlock b))
include hbody

theorem gives_block (inLoop : Bool) :
    Gives Good (block body inLoop) fun b => All P (expressionsBlock b) := by
  refine Gives.bind gives_expect fun _ _ => Gives.bind gives_at fun ended _ => ?_
  split
  · refine gives_bump.bind fun _ _ => Gives.bind gives_skip fun indented _ => ?_
    split
    · exact hbody inLoop
    · exact gives_pure all_nil
  · exact gives_line.bind fun n _ => (gives_simple hexpr hlist inLoop).bind fun action haction =>
      gives_lineEnd.bind fun _ _ => gives_pure (haction.append all_nil)

theorem gives_branchesLoop (inLoop : Bool) (fuel : Nat) :
    Gives Good (branchesLoop body inLoop fuel) fun found =>
      All P (expressionsBranches found.1) ∧ All P (expressionsOption found.2) := by
  induction fuel with
  | zero => exact gives_pure ⟨all_nil, all_nil⟩
  | succ fuel ih =>
      refine Gives.bind gives_skip fun isElif _ => ?_
      split
      · exact hexpr.bind fun condition hcondition =>
          (gives_block hexpr hlist hbody inLoop).bind fun inner hinner =>
            ih.bind fun found hfound =>
              gives_pure ⟨(hinner.append hfound.1).cons hcondition, hfound.2⟩
      · refine Gives.bind gives_skip fun isElse _ => ?_
        split
        · exact (gives_block hexpr hlist hbody inLoop).bind fun inner hinner =>
            gives_pure ⟨all_nil, hinner⟩
        · exact gives_pure ⟨all_nil, all_nil⟩

theorem gives_ifStatement (inLoop : Bool) :
    Gives Good (ifStatement body inLoop) fun a => All P a.expressions :=
  Gives.bind gives_expect fun _ _ => hexpr.bind fun _ hcondition =>
    (gives_block hexpr hlist hbody inLoop).bind fun _ hinner =>
      (Gives.looping (gives_branchesLoop hexpr hlist hbody inLoop)).bind fun _ hfound =>
        gives_pure (((hinner.append hfound.1).cons hcondition).append hfound.2)

theorem gives_forStatement : Gives Good (forStatement body) fun a => All P a.expressions := by
  refine Gives.bind gives_expect fun _ _ => gives_identifier.bind fun first _ =>
    (Gives.looping gives_namesLoop).bind fun others _ => Gives.bind gives_expect fun _ _ =>
    hlist.bind fun items hitems => (gives_block hexpr hlist hbody true).bind fun inner hinner =>
    gives_pure ?_
  have htarget : All P (if others.isEmpty then Target.name first
      else .unpack (first :: others)).expressions := by
    split <;> exact all_nil
  exact htarget.append (hinner.cons hitems)

theorem gives_whileStatement : Gives Good (whileStatement body) fun a => All P a.expressions :=
  Gives.bind gives_expect fun _ _ => hexpr.bind fun _ hcondition =>
    (gives_block hexpr hlist hbody true).bind fun _ hinner =>
      gives_pure (hinner.cons hcondition)

theorem gives_handlersLoop (inLoop : Bool) (fuel : Nat) :
    Gives Good (handlersLoop body inLoop fuel) fun found => All P (expressionsHandlers found) := by
  induction fuel with
  | zero => exact gives_pure all_nil
  | succ fuel ih =>
      refine Gives.bind gives_at fun isExcept _ => ?_
      split
      · exact gives_line.bind fun n _ => gives_bump.bind fun _ _ =>
          Gives.bind gives_at fun isBare _ =>
          .unless (P := fun matcher => All P matcher.toList) all_nil
            (hexpr.mono fun _ he => all_nil.cons he) fun matcher hmatcher =>
          gives_alias.bind fun name _ =>
          (gives_block hexpr hlist hbody inLoop).bind fun inner hinner =>
          ih.bind fun handlers hhandlers =>
            gives_pure (hmatcher.append (hinner.append hhandlers))
      · exact gives_pure all_nil

theorem gives_tryStatement (inLoop : Bool) :
    Gives Good (tryStatement body inLoop) fun a => All P a.expressions := by
  refine Gives.bind gives_expect fun _ _ =>
    (gives_block hexpr hlist hbody inLoop).bind fun inner hinner =>
    (Gives.looping (gives_handlersLoop hexpr hlist hbody inLoop)).bind fun handlers hhandlers =>
    Gives.bind gives_skip fun isFinally _ =>
    .when (P := fun cleanup => All P (expressionsOption cleanup)) all_nil
      (gives_block hexpr hlist hbody inLoop) fun cleanup hcleanup => ?_
  dsimp only
  split
  · exact Gives.bind gives_fail fun _ (h : False) => h.elim
  · exact gives_pure (hinner.append (hhandlers.append hcleanup))

theorem gives_withStatement (inLoop : Bool) :
    Gives Good (withStatement body inLoop) fun a => All P a.expressions :=
  Gives.bind gives_expect fun _ _ => hexpr.bind fun _ hcontext => gives_alias.bind fun _ _ =>
    (gives_block hexpr hlist hbody inLoop).bind fun _ hinner => gives_pure (hinner.cons hcontext)

theorem gives_statement (inLoop : Bool) :
    Gives Good (statement body inLoop) fun s => All P s.expressions := by
  have hat (n : Nat) {p : Parser Action} (hp : Gives Good p fun a => All P a.expressions) :
      Gives Good (p >>= fun action => pure (Stmt.at n action)) fun s => All P s.expressions :=
    hp.bind fun action haction => gives_pure haction
  refine gives_line.bind fun n _ => gives_kind.bind fun k _ => ?_
  split
  · exact hat n (gives_ifStatement hexpr hlist hbody inLoop)
  · exact hat n (gives_forStatement hexpr hlist hbody)
  · exact hat n (gives_whileStatement hexpr hlist hbody)
  · exact hat n (gives_tryStatement hexpr hlist hbody inLoop)
  · exact hat n (gives_withStatement hexpr hlist hbody inLoop)
  · exact gives_fail
  · exact gives_fail
  · exact gives_fail
  · exact gives_fail
  · exact gives_fail
  · exact gives_failUnexpected
  · exact (gives_simple hexpr hlist inLoop).bind fun action haction =>
      gives_lineEnd.bind fun _ _ => gives_pure haction

theorem gives_blockLoop (inLoop : Bool) (fuel : Nat) :
    Gives Good (blockLoop body inLoop fuel) fun b => All P (expressionsBlock b) := by
  induction fuel with
  | zero => exact gives_pure all_nil
  | succ fuel ih =>
      refine Gives.bind gives_skip fun closed _ => ?_
      split
      · exact gives_pure all_nil
      · refine Gives.bind gives_at fun ended _ => ?_
        split
        · exact gives_pure all_nil
        · refine Gives.bind gives_skip fun blank _ => ?_
          split
          · exact ih
          · exact (gives_statement hexpr hlist hbody inLoop).bind fun first hfirst =>
              ih.bind fun rest hrest => gives_pure (hfirst.append hrest)

end Blocks

theorem gives_blockBody (depth : Nat) (inLoop : Bool) :
    Gives Good (blockBody depth inLoop) fun b => All P (expressionsBlock b) := by
  induction depth generalizing inLoop with
  | zero => exact gives_fail
  | succ depth ih => exact .looping (gives_blockLoop hexpr hlist ih inLoop)

theorem gives_programLoop (fuel : Nat) :
    Gives Good (programLoop fuel) fun b => All P (expressionsBlock b) := by
  have hbody : ∀ inLoop, Gives Good (blockBody maxBlockDepth inLoop)
      fun b => All P (expressionsBlock b) := gives_blockBody hexpr hlist maxBlockDepth
  induction fuel with
  | zero => exact gives_pure all_nil
  | succ fuel ih =>
      refine Gives.bind gives_at fun ended _ => ?_
      split
      · exact gives_pure all_nil
      · refine Gives.bind gives_skip fun blank _ => ?_
        split
        · exact ih
        · exact (gives_statement hexpr hlist hbody false).bind fun first hfirst =>
            ih.bind fun rest hrest => gives_pure (hfirst.append hrest)

omit hexpr hlist [Lasting Good] in
theorem Gives.onSource {p : Parser α} {Q : α → Prop} (h : Gives Good p Q) {source : Text}
    (hgood : ∀ tokens, tokenize source = .ok tokens → Good tokens) {a : α}
    (ha : onSource p source = .ok a) : Q a := by
  unfold Parser.onSource at ha
  split at ha
  · cases ha
  · rename_i tokens htokens
    split at ha
    · rename_i hrun
      cases ha
      exact (h _ _ _ (hgood tokens htokens) hrun).1
    · cases ha

/-- What holds of everything that the parser of expressions gives holds of all expressions of a
program. -/
theorem expressions_of_parseProgram {source : Text} {program : Block}
    (hgood : ∀ tokens, tokenize source = .ok tokens → Good tokens)
    (h : parseProgram source = .ok program) : All P (expressionsBlock program) :=
  Gives.onSource (.looping (gives_programLoop hexpr hlist)) hgood h

omit hlist in
theorem of_parseExpression {source : Text} {e : Expr}
    (hgood : ∀ tokens, tokenize source = .ok tokens → Good tokens)
    (h : parseExpression source = .ok e) : P e := by
  refine Gives.onSource (p := onlyExpression) ?_ hgood h
  refine hexpr.bind fun e he => Gives.bind gives_skip fun _ _ => Gives.bind gives_at fun ended _ => ?_
  split
  · exact gives_pure he
  · exact gives_failUnexpected

end Statements

end Parser

end TemplateEngine
