import TemplateEngine.Proofs.Syntax.Consumption
import TemplateEngine.Proofs.Syntax.ExpressionRoundTrip
import TemplateEngine.Proofs.Syntax.ProgramText

/-!
# Reading the rows of a program

A simple statement is read off the tokens of its row, up to the end of the line. A
statement with blocks is read off its headers, each with the tokens of its block: the
clauses of a statement are read in turn, up to what continues no statement.
-/
namespace TemplateEngine.Parser

open Lexeme

section Expressions

variable {depth : Nat} {e : Expr} {ts rest : List Token}

/-- A plain expression is read at the depth that statements read it at. -/
theorem item_of_plain (h : e.Plain) : Item maxExprDepth e := by
  refine h.grammatical.readsBack.item ?_
  have hheight := h.height
  unfold maxExprDepth
  omega

/-- An element of something plain is read as well, one level higher than its parts. -/
theorem item_index {object key : Expr} (hobject : object.Plain) (hkey : key.Plain) :
    Item maxExprDepth (.index object key) := by
  refine (Expr.Grammatical.index hobject.grammatical hkey.grammatical).readsBack.item ?_
  have hheight := hobject.height
  have hheight' := hkey.height
  rw [Expr.height]
  unfold maxExprDepth
  omega

theorem item_name {n : Text} (hn : IsName n) : Item maxExprDepth (.name n) :=
  item_of_plain ⟨.name hn, Nat.zero_le _⟩

theorem Item.expressionList (he : Item maxExprDepth e) (hts : Spells e.print ts)
    (hrest : Stops conditionalPower rest) (hcomma : (headToken rest).kind ≠ .symbol .comma) :
    expressionList (ts ++ rest) = .ok (e, rest) := by
  have hfirst : expression (ts ++ rest) = .ok (e, rest) := he.completes.expression hts hrest
  rw [Parser.expressionList, bind_ok hfirst, bind_at hcomma]
  rfl

/-- Names with commas between them are read as a tuple, up to an equals sign. -/
theorem expressionList_names {names : List Text} (hnames : ∀ n ∈ names, IsName n)
    (hts : Spells (Target.unpack names).print ts) (s : Span) (rest : List Token) :
    expressionList (ts ++ ⟨.symbol .equals, s⟩ :: rest) =
      .ok (.tuple (names.map .name), ⟨.symbol .equals, s⟩ :: rest) := by
  match names, hnames with
  | [], _ =>
      have hempty : Expr.Plain (.tuple []) := ⟨.tuple (by simp), Nat.zero_le _⟩
      exact (item_of_plain hempty).expressionList hts rfl (fun h => nomatch h)
  | [n], hnames =>
      obtain ⟨s₁, _, rfl, hcomma⟩ := hts.name (hnames n List.mem_cons_self)
      obtain ⟨s₂, rfl⟩ := hcomma.single rfl
      rfl
  | n :: m :: names, hnames =>
      have hitems : ∀ e ∈ (m :: names).map Expr.name, Item maxExprDepth e := by
        intro e he
        obtain ⟨l, hl, rfl⟩ := List.mem_map.mp he
        exact item_name (hnames l (List.mem_cons_of_mem n hl))
      have hitems' : Spells ([.word n] ++ separated (printItems ((m :: names).map .name) [])) ts := hts
      obtain ⟨us, vs, rfl, hus, hvs⟩ := hitems'.append
      have hstop : Stops conditionalPower (⟨.symbol .equals, s⟩ :: rest) := rfl
      have hfirst : expression (us ++ (vs ++ ⟨.symbol .equals, s⟩ :: rest)) =
          .ok (.name n, vs ++ ⟨.symbol .equals, s⟩ :: rest) :=
        (item_name (hnames n List.mem_cons_self)).completes.expression hus
          (stops_separated hvs hstop)
      have hothers : looping (tupleLoop (operand maxExprDepth) endsExpression)
          (vs ++ ⟨.symbol .equals, s⟩ :: rest) =
            .ok ((m :: names).map .name, ⟨.symbol .equals, s⟩ :: rest) := by
        refine tupleLoop_print (fun k hk => ?_) hstop (fun h => nomatch h) hitems hvs ?_
        · unfold endsExpression
          split <;> first | cases hk | rfl
        · rw [List.length_append]
          omega
      obtain ⟨-, s', ws, rfl, -⟩ := hvs.separated.resolve_left fun h =>
        printItems_ne_nil (hitems _ List.mem_cons_self) [] h.1
      rw [List.append_assoc, Parser.expressionList, bind_ok hfirst, List.cons_append,
        bind_at_self, if_pos rfl, ← List.cons_append, bind_ok hothers]
      rfl

theorem names?_names (names : List Text) : names? (names.map .name) = some names := by
  induction names with
  | nil => rfl
  | cons n names ih => rw [List.map_cons, names?, ih, Option.map_some]

end Expressions

end TemplateEngine.Parser

namespace TemplateEngine

open Lexeme Parser

/-- The expression that a target is read as. -/
def Target.expr : Target → Expr
  | .name n => .name n
  | .index object key => .index object key
  | .unpack names => .tuple (names.map .name)

theorem Target.targetOf?_expr (target : Target) : targetOf? target.expr = some target := by
  cases target with
  | name | index => rfl
  | unpack names => rw [expr, targetOf?, names?_names, Option.map_some]

theorem Target.Plain.item {target : Target} (h : target.Plain)
    (hsingle : ∀ names, target ≠ .unpack names) :
    Item maxExprDepth target.expr ∧ target.print = target.expr.print := by
  cases target with
  | name n => exact ⟨item_name h, rfl⟩
  | index object key => exact ⟨item_index h.1 h.2, rfl⟩
  | unpack names => exact absurd rfl (hsingle names)

theorem Target.Plain.first {target : Target} (h : target.Plain) {ts : List Token}
    (hts : Spells target.print ts) : ∃ t us, ts = t :: us ∧ t.kind.begins = true := by
  cases target with
  | name n =>
      obtain ⟨s, us, rfl, -⟩ := hts.name h
      exact ⟨_, us, rfl, rfl⟩
  | index object key =>
      obtain ⟨t, us, rfl, hbegins, -⟩ := hts.phrase (item_index h.1 h.2).phrase
      exact ⟨t, us, rfl, hbegins⟩
  | unpack names =>
      match names, h with
      | [], _ =>
          obtain ⟨s, us, rfl, -⟩ := hts.cons rfl
          exact ⟨_, us, rfl, rfl⟩
      | [n], h | n :: _ :: _, h =>
          obtain ⟨s, us, rfl, -⟩ := hts.name (h n List.mem_cons_self)
          exact ⟨_, us, rfl, rfl⟩

/-- A target is read as an expression before an equals sign. -/
theorem Target.Plain.expressionList {target : Target} (h : target.Plain) {ts : List Token}
    (hts : Spells target.print ts) (s : Span) (rest : List Token) :
    Parser.expressionList (ts ++ ⟨.symbol .equals, s⟩ :: rest) =
      .ok (target.expr, ⟨.symbol .equals, s⟩ :: rest) := by
  have hstop : Stops conditionalPower (⟨.symbol .equals, s⟩ :: rest) := rfl
  cases target with
  | name n => exact (item_name h).expressionList hts hstop (fun h => nomatch h)
  | index object key =>
      exact (item_index h.1 h.2).expressionList hts hstop (fun h => nomatch h)
  | unpack names => exact expressionList_names h hts s rest

namespace Parser

section Simple

variable {inLoop : Bool} {tokens ts : List Token} {action : Action}

/-- The tokens that simple statements start with. -/
def startsSimple : TokenKind → Bool
  | .keyword .passWord | .keyword .breakWord | .keyword .continueWord | .keyword .raiseWord => true
  | k => k.begins

/-- Tokens are read as a simple statement, up to the end of the line. -/
structure ReadsSimple (inLoop : Bool) (tokens : List Token) (action : Action) : Prop where
  starts : ∃ t ts, tokens = t :: ts ∧ startsSimple t.kind = true
  reads : ∀ (s : Span) (rest : List Token), simple inLoop (tokens ++ ⟨.newline, s⟩ :: rest) =
    .ok (action, ⟨.newline, s⟩ :: rest)

theorem startsSimple_of_begins {k : TokenKind} (h : k.begins = true) : startsSimple k = true := by
  unfold startsSimple
  split <;> first | rfl | exact h

theorem starts_of_simple {k : TokenKind} (h : startsSimple k = true) : starts k = true := by
  cases k with
  | keyword word => cases word <;> first | rfl | cases h
  | newline | indent | dedent | endOfInput => cases h
  | _ => rfl

theorem statement_simple {body : Bool → Parser Block} {t : Token} (ht : startsSimple t.kind = true)
    (ts : List Token) :
    statement body inLoop (t :: ts) =
      (simple inLoop >>= fun action => lineEnd >>= fun _ => pure (.at t.span.line action))
        (t :: ts) := by
  obtain ⟨kind, span⟩ := t
  cases kind with
  | keyword word => cases word <;> first | rfl | cases ht
  | newline | indent | dedent | endOfInput => cases ht
  | _ => rfl

/-- A simple statement and the end of its line. -/
theorem ReadsSimple.row (h : ReadsSimple inLoop tokens action) (depth : Nat) (s : Span) :
    ReadsIn inLoop depth (tokens ++ [⟨.newline, s⟩]) (.at (headToken tokens).span.line action) := by
  obtain ⟨t, ts, rfl, ht⟩ := h.starts
  refine ⟨⟨t, _, rfl, starts_of_simple ht⟩, fun rest _ => ?_⟩
  have hsimple := h.reads s rest
  rw [List.cons_append] at hsimple
  rw [List.append_assoc, List.cons_append, statement_simple ht, List.singleton_append,
    bind_ok hsimple]
  rfl

/-- What a simple statement does that starts with an expression. -/
def afterExpression (e : Expr) : Parser Action := do
  if ← skipSymbol .equals then
    let target ← target e
    let value ← expressionList
    return .assign target value
  match augmentedOp? (← kind) with
  | some op => do
    bump
    match ← target e with
    | .unpack _ => fail .illegalAugmentedTarget
    | target => do
      let value ← expression
      return .augAssign target op value
  | none => return .expr e

theorem simple_expression {t : Token} (ht : t.kind.begins = true) (ts : List Token) :
    simple inLoop (t :: ts) = (expressionList >>= afterExpression) (t :: ts) := by
  obtain ⟨kind, span⟩ := t
  cases kind with
  | keyword word => cases word <;> first | rfl | cases ht
  | _ => rfl

theorem readsSimple_expr {value : Expr} (hvalue : value.Plain) (hts : Spells value.print ts) :
    ReadsSimple inLoop ts (.expr value) := by
  have hitem := item_of_plain hvalue
  have hread : ∀ s rest, expressionList (ts ++ ⟨.newline, s⟩ :: rest) = _ := fun s rest =>
    hitem.expressionList hts (show Stops _ (⟨.newline, s⟩ :: rest) from rfl) (fun h => nomatch h)
  obtain ⟨t, ts, rfl, hbegins, -⟩ := hts.phrase hitem.phrase
  refine ⟨⟨t, ts, rfl, startsSimple_of_begins hbegins⟩, fun s rest => ?_⟩
  have hvalue := hread s rest
  rw [List.cons_append] at hvalue ⊢
  rw [simple_expression hbegins, bind_ok hvalue]
  rfl

theorem readsSimple_assign {target : Target} {value : Expr} (htarget : target.Plain)
    (hvalue : value.Plain)
    (hts : Spells (target.print ++ .blank :: .sign .equals :: .blank :: value.print) ts) :
    ReadsSimple inLoop ts (.assign target value) := by
  obtain ⟨us, _, rfl, hus, hequals⟩ := hts.append
  obtain ⟨s', vs, rfl, hvs⟩ := hequals.blank.cons (l := .sign .equals) rfl
  obtain ⟨t, us', hfirst, hbegins⟩ := htarget.first hus
  refine ⟨⟨t, _, by rw [hfirst]; rfl, startsSimple_of_begins hbegins⟩, fun s rest => ?_⟩
  have hleft := htarget.expressionList hus s' (vs ++ ⟨.newline, s⟩ :: rest)
  have hright := (item_of_plain hvalue).expressionList hvs.blank
    (show Stops _ (⟨.newline, s⟩ :: rest) from rfl) (fun h => nomatch h)
  have hstep : afterExpression target.expr
      (⟨.symbol .equals, s'⟩ :: (vs ++ ⟨.newline, s⟩ :: rest)) =
      (expressionList >>= fun value => pure (.assign target value))
        (vs ++ ⟨.newline, s⟩ :: rest) := by
    have htarget' : Parser.target target.expr (vs ++ ⟨.newline, s⟩ :: rest) =
        .ok (target, vs ++ ⟨.newline, s⟩ :: rest) := by
      rw [Parser.target, target.targetOf?_expr]
      rfl
    rw [afterExpression, skipSymbol, bind_skip, if_pos rfl, bind_ok htarget']
  subst hfirst
  rw [List.append_assoc, List.cons_append, List.cons_append] at *
  rw [simple_expression hbegins, bind_ok hleft, hstep, bind_ok hright]
  rfl

theorem readsSimple_augAssign {target : Target} {op : BinaryOp} {value : Expr} {sign : Symbol}
    (htarget : target.Plain) (hsingle : ∀ names, target ≠ .unpack names)
    (hop : op.augmentedSign? = some sign) (hvalue : value.Plain)
    (hts : Spells (target.print ++ .blank :: .sign sign :: .blank :: value.print) ts) :
    ReadsSimple inLoop ts (.augAssign target op value) := by
  obtain ⟨hitem, hprint⟩ := htarget.item hsingle
  obtain ⟨us, _, rfl, hus, hsign⟩ := hts.append
  obtain ⟨s', vs, rfl, hvs⟩ := hsign.blank.cons (l := .sign sign) rfl
  obtain ⟨t, us', hfirst, hbegins⟩ := htarget.first hus
  refine ⟨⟨t, _, by rw [hfirst]; rfl, startsSimple_of_begins hbegins⟩, fun s rest => ?_⟩
  rw [hprint] at hus
  have hstep : ∀ X, Stops conditionalPower (⟨.symbol sign, s'⟩ :: X) ∧
      afterExpression target.expr (⟨.symbol sign, s'⟩ :: X) =
        (Parser.target target.expr >>= fun found =>
          match found with
          | .unpack _ => fail .illegalAugmentedTarget
          | target => expression >>= fun value => pure (.augAssign target op value)) X := by
    intro X
    cases op <;> cases hop <;> exact ⟨rfl, rfl⟩
  have hcomma : ∀ X : List Token, (headToken (⟨.symbol sign, s'⟩ :: X)).kind ≠ .symbol .comma := by
    intro X
    cases op <;> cases hop <;> exact fun h => nomatch h
  have hleft := hitem.expressionList hus (hstep (vs ++ ⟨.newline, s⟩ :: rest)).1 (hcomma _)
  have hright : expression (vs ++ ⟨.newline, s⟩ :: rest) = .ok (value, ⟨.newline, s⟩ :: rest) :=
    (item_of_plain hvalue).completes.expression hvs.blank rfl
  have htarget' : Parser.target target.expr (vs ++ ⟨.newline, s⟩ :: rest) =
      .ok (target, vs ++ ⟨.newline, s⟩ :: rest) := by
    rw [Parser.target, target.targetOf?_expr]
    rfl
  subst hfirst
  rw [List.append_assoc, List.cons_append, List.cons_append] at *
  rw [simple_expression hbegins, bind_ok hleft, (hstep _).2, bind_ok htarget']
  cases target with
  | name | index =>
      dsimp only
      rw [bind_ok hright]
      rfl
  | unpack names => exact absurd rfl (hsingle names)

theorem readsSimple_raise {exception : Option Expr} (hexception : ∀ e ∈ exception, e.Plain)
    (hts : Spells (printRaise exception) ts) : ReadsSimple inLoop ts (.raise exception) := by
  cases exception with
  | none =>
      obtain ⟨s', rfl⟩ := hts.single (show _ = some (.keyword .raiseWord) from rfl)
      exact ⟨⟨_, _, rfl, rfl⟩, fun s rest => rfl⟩
  | some e =>
      have hitem := item_of_plain (hexception e rfl)
      obtain ⟨s', us, rfl, hus⟩ := hts.cons (show _ = some (.keyword .raiseWord) from rfl)
      refine ⟨⟨_, _, rfl, rfl⟩, fun s rest => ?_⟩
      have hvalue : expression (us ++ ⟨.newline, s⟩ :: rest) = .ok (e, ⟨.newline, s⟩ :: rest) :=
        hitem.completes.expression hus.blank rfl
      have hstep : ∀ X, simple inLoop (⟨.keyword .raiseWord, s'⟩ :: X) =
          (at_ .newline >>= fun bare => if bare then pure (.raise none) else
            at_ .endOfInput >>= fun last => if last then pure (.raise none) else
              expression >>= fun e => pure (.raise (some e))) X := fun _ => rfl
      rw [List.cons_append, hstep, bind_at (hitem.first hus.blank rfl),
        if_neg Bool.false_ne_true, bind_at (hitem.first hus.blank rfl),
        if_neg Bool.false_ne_true, bind_ok hvalue]
      rfl

/-- A statement that is one reserved word. -/
theorem readsSimple_word {word : Keyword} {w : Text} (hw : TokenKind.ofWord w = .keyword word)
    (hsimple : ∀ s X, simple inLoop (⟨.keyword word, s⟩ :: X) = .ok (action, X))
    (hword : startsSimple (.keyword word) = true) (hts : Spells [.word w] ts) :
    ReadsSimple inLoop ts action := by
  obtain ⟨s', rfl⟩ := hts.single (congrArg some hw)
  exact ⟨⟨_, _, rfl, hword⟩, fun s rest => hsimple s' _⟩

end Simple

section Name

variable {body : Bool → Parser Block} {inLoop : Bool} {x : Text} {s : Span} {Y W X : List Token}
  {stmt : Stmt} {e value : Expr} {action : Action}

/-- Tokens that make a statement of more than one expression. -/
def extendsStatement (k : TokenKind) : Bool :=
  k = .symbol .comma || k = .symbol .equals || (augmentedOp? k).isSome

/-- An expression is all of a statement, or an assignment follows. -/
theorem of_afterExpression (h : afterExpression e X = .ok (action, W)) :
    action = .expr e ∧ W = X ∨
      extendsStatement (headToken X).kind = true ∧ ∀ value, action ≠ .expr value := by
  by_cases hequals : (headToken X).kind = .symbol .equals
  · right
    rw [hequals]
    refine ⟨rfl, ?_⟩
    obtain ⟨t, rest, rfl⟩ := exists_token hequals (by simp)
    rw [afterExpression, skipSymbol, bind_skip, if_pos rfl] at h
    obtain ⟨target, X₁, -, h⟩ := exists_of_ok h
    obtain ⟨value, X₂, -, h⟩ := exists_of_ok h
    cases h
    intro value hvalue
    cases hvalue
  · rw [afterExpression, skipSymbol, bind_skip_false hequals] at h
    simp only [Bool.false_eq_true, if_false] at h
    rw [bind_kind] at h
    cases hop : augmentedOp? (headToken X).kind with
    | some op =>
        right
        refine ⟨by simp [extendsStatement, hop], ?_⟩
        rw [hop] at h
        obtain ⟨_, X₁, -, h⟩ := exists_of_ok h
        obtain ⟨target, X₂, -, h⟩ := exists_of_ok h
        intro value hvalue
        subst hvalue
        cases target with
        | unpack names => cases h
        | name n | index object key =>
            obtain ⟨value', X₃, -, h⟩ := exists_of_ok h
            cases h
    | none =>
        rw [hop] at h
        cases h
        exact .inl ⟨rfl, rfl⟩

/-- A statement that starts with a name is the expression that its line holds, unless a token
comes behind that which makes a tuple or an assignment of it. -/
theorem exists_of_statement_name
    (h : statement body inLoop (⟨.identifier x, s⟩ :: Y) = .ok (stmt, W)) :
    ∃ e X, expression (⟨.identifier x, s⟩ :: Y) = .ok (e, X) ∧
      (stmt = .at s.line (.expr e) ∧ lineEnd X = .ok ((), W) ∨
        extendsStatement (headToken X).kind = true ∧
          ∀ line value, stmt = .at line (.expr value) → ∃ items, value = .tuple items) := by
  rw [statement_simple rfl] at h
  obtain ⟨action, X₂, hsimple, h⟩ := exists_of_ok h
  obtain ⟨_, W', hend, h⟩ := exists_of_ok h
  cases h
  rw [simple_expression rfl] at hsimple
  obtain ⟨list, X₁, hlist, hafter⟩ := exists_of_ok hsimple
  unfold expressionList at hlist
  obtain ⟨e, X, hexpr, hlist⟩ := exists_of_ok hlist
  refine ⟨e, X, hexpr, ?_⟩
  by_cases hcomma : (headToken X).kind = .symbol .comma
  · right
    rw [hcomma]
    refine ⟨rfl, ?_⟩
    obtain ⟨t, rest, rfl⟩ := exists_token hcomma (by simp)
    rw [bind_at_self, if_pos rfl] at hlist
    obtain ⟨items, X₃, -, hlist⟩ := exists_of_ok hlist
    cases hlist
    intro line value hvalue
    cases hvalue
    rcases of_afterExpression hafter with ⟨htuple, -⟩ | ⟨-, hother⟩
    · cases htuple
      exact ⟨_, rfl⟩
    · exact absurd rfl (hother value)
  · rw [bind_at hcomma] at hlist
    cases hlist
    rcases of_afterExpression hafter with ⟨rfl, rfl⟩ | ⟨hextends, hother⟩
    · exact .inl ⟨rfl, hend⟩
    · refine .inr ⟨hextends, fun line value hvalue => ?_⟩
      cases hvalue
      exact absurd rfl (hother value)

end Name

end Parser

end TemplateEngine
