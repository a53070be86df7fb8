import TemplateEngine.Proofs.Syntax.StatementReading

/-!
# Reading statements with blocks

The header of a block ends in a colon and the end of its line, and the statements of the
block follow. The branches of a conditional and the clauses of an attempt are read in
turn, each with its block, up to a token that continues no statement.
-/
namespace TemplateEngine.Parser

open Lexeme

/-- Lexemes of a header, with its colon. -/
def headerOf (ls : List Lexeme) : List Lexeme := ls ++ [.sign .colon]

/-- A block that may be absent, behind a word of its own. -/
inductive ReadsOption (inLoop : Bool) (depth : Nat) (word : Text) :
    List Token → Option Block → Prop
  | none : ReadsOption inLoop depth word [] none
  | some {us inner : List Token} {body : Block} (s : Span) :
      Spells (headerOf [.word word]) us → ReadsBlockIn inLoop depth inner body →
      ReadsOption inLoop depth word (us ++ ⟨.newline, s⟩ :: inner) (some body)

/-- Further branches of a conditional. -/
inductive ReadsBranches (inLoop : Bool) (depth : Nat) :
    List Token → List (Expr × Block) → Prop
  | nil : ReadsBranches inLoop depth [] []
  | cons {us inner others : List Token} {condition : Expr} {body : Block}
      {branches : List (Expr × Block)} (s : Span) : condition.Plain →
      Spells (headerOf (printWith "elif".toList condition)) us →
      ReadsBlockIn inLoop depth inner body → ReadsBranches inLoop depth others branches →
      ReadsBranches inLoop depth (us ++ ⟨.newline, s⟩ :: (inner ++ others))
        ((condition, body) :: branches)

/-- Except clauses. -/
inductive ReadsHandlers (inLoop : Bool) (depth : Nat) : List Token → List Handler → Prop
  | nil : ReadsHandlers inLoop depth [] []
  | cons {us inner others : List Token} {matcher : Option Expr} {name : Option Text}
      {body : Block} {handlers : List Handler} (s : Span) :
      (Handler.clause matcher name body (headToken us).span.line).Plain →
      Spells (headerOf (printExcept matcher name)) us → ReadsBlockIn inLoop depth inner body →
      ReadsHandlers inLoop depth others handlers →
      ReadsHandlers inLoop depth (us ++ ⟨.newline, s⟩ :: (inner ++ others))
        (.clause matcher name body (headToken us).span.line :: handlers)

section Headers

variable {inLoop : Bool} {depth : Nat} {word : Text} {us inner : List Token} {body : Block}
  {rest : List Token}

/-- The tokens of a header that is one word. -/
theorem Spells.bare {k : TokenKind} (hword : TokenKind.ofWord word = k)
    (h : Spells (headerOf [.word word]) us) :
    ∃ s s', us = [⟨k, s⟩, ⟨.symbol .colon, s'⟩] := by
  obtain ⟨s, vs, rfl, hvs⟩ := Spells.cons (l := .word word) h (congrArg some hword)
  obtain ⟨s', rfl⟩ := hvs.single rfl
  exact ⟨s, s', rfl⟩

/-- The tokens of a header that is a word with lexemes behind it. -/
theorem Spells.headed {k : TokenKind} {ls : List Lexeme} (hword : TokenKind.ofWord word = k)
    (h : Spells (headerOf (.word word :: .blank :: ls)) us) :
    ∃ s vs s', us = ⟨k, s⟩ :: (vs ++ [⟨.symbol .colon, s'⟩]) ∧ Spells ls vs := by
  obtain ⟨s, ws, rfl, hws⟩ := Spells.cons (l := .word word) h (congrArg some hword)
  obtain ⟨vs, _, rfl, hvs, hcolon⟩ := Spells.append (Spells.blank hws)
  obtain ⟨s', rfl⟩ := hcolon.single rfl
  exact ⟨s, vs, s', rfl, hvs⟩

/-- A plain expression before a colon or a name is read whole. -/
theorem expression_print {e : Expr} (he : e.Plain) {vs : List Token} (hvs : Spells e.print vs)
    (hrest : Stops conditionalPower rest) : expression (vs ++ rest) = .ok (e, rest) :=
  (item_of_plain he).completes.expression hvs hrest

theorem ReadsOption.head {block? : Option Block} {tokens : List Token} {k : Keyword}
    (h : ReadsOption inLoop depth word tokens block?) (hword : TokenKind.ofWord word = .keyword k)
    {kind : TokenKind} (hkind : kind ≠ .keyword k) (hrest : (headToken rest).kind ≠ kind) :
    (headToken (tokens ++ rest)).kind ≠ kind := by
  cases h with
  | none => exact hrest
  | some s hus _ =>
      obtain ⟨s₁, s₂, rfl⟩ := hus.bare hword
      exact hkind.symm

theorem ReadsBranches.head {branches : List (Expr × Block)} {tokens : List Token}
    (h : ReadsBranches inLoop depth tokens branches) (hrest : (headToken rest).kind ≠ .indent) :
    (headToken (tokens ++ rest)).kind ≠ .indent := by
  cases h with
  | nil => exact hrest
  | cons s _ hus _ _ =>
      obtain ⟨s₁, vs, s₂, rfl, -⟩ := hus.headed (show _ = .keyword .elifWord from rfl)
      exact fun h => nomatch h

theorem ReadsHandlers.head {handlers : List Handler} {tokens : List Token}
    (h : ReadsHandlers inLoop depth tokens handlers) (hrest : (headToken rest).kind ≠ .indent) :
    (headToken (tokens ++ rest)).kind ≠ .indent := by
  cases h with
  | nil => exact hrest
  | @cons us inner others matcher name body handlers s _ hus _ _ =>
      have hword : ∃ ls, headerOf (printExcept matcher name) = .word "except".toList :: ls := by
        cases matcher <;> exact ⟨_, rfl⟩
      obtain ⟨ls, hls⟩ := hword
      rw [hls] at hus
      obtain ⟨s', vs, rfl, -⟩ := hus.cons (show _ = some (.keyword .exceptWord) from rfl)
      exact fun h => nomatch h

theorem ReadsBranches.length {branches : List (Expr × Block)} {tokens : List Token}
    (h : ReadsBranches inLoop depth tokens branches) : branches.length ≤ tokens.length := by
  induction h with
  | nil => exact Nat.le_refl 0
  | cons _ _ _ _ _ ih =>
      simp only [List.length_cons, List.length_append]
      omega

theorem ReadsHandlers.length {handlers : List Handler} {tokens : List Token}
    (h : ReadsHandlers inLoop depth tokens handlers) : handlers.length ≤ tokens.length := by
  induction h with
  | nil => exact Nat.le_refl 0
  | cons _ _ _ _ _ ih =>
      simp only [List.length_cons, List.length_append]
      omega

end Headers

section Clauses

variable {inLoop : Bool} {depth fuel : Nat} {tokens others rest : List Token}

/-- The branches of a conditional after its first one. -/
theorem ReadsBranches.branchesLoop {branches : List (Expr × Block)} {otherwise : Option Block}
    (h : ReadsBranches inLoop depth tokens branches)
    (hotherwise : ReadsOption inLoop depth "else".toList others otherwise)
    (hrest : continues (headToken rest).kind = false) (hfuel : branches.length < fuel) :
    branchesLoop (blockBody depth) inLoop fuel (tokens ++ (others ++ rest)) =
      .ok ((branches, otherwise), rest) := by
  have hindent : (headToken (others ++ rest)).kind ≠ .indent :=
    hotherwise.head (k := .elseWord) rfl (fun h => nomatch h) (ne_of_continues hrest rfl)
  induction h generalizing fuel with
  | nil =>
      obtain ⟨fuel, rfl⟩ := Nat.exists_eq_add_one.mpr hfuel
      cases hotherwise with
      | none =>
          rw [List.nil_append, List.nil_append, Parser.branchesLoop,
            bind_skip_false (ne_of_continues hrest rfl), if_neg Bool.false_ne_true,
            bind_skip_false (ne_of_continues hrest rfl)]
          rfl
      | some s hus hinner =>
          obtain ⟨s₁, s₂, rfl⟩ := hus.bare (show _ = .keyword .elseWord from rfl)
          have hbody := hinner s₂ s rest (ne_of_continues hrest rfl)
          have hstep : ∀ X, Parser.branchesLoop (blockBody depth) inLoop (fuel + 1)
              (⟨.keyword .elseWord, s₁⟩ :: X) =
              (block (blockBody depth) inLoop >>= fun inner => pure ([], some inner)) X :=
            fun _ => rfl
          simp only [List.nil_append, List.cons_append]
          rw [hstep, bind_ok hbody]
          rfl
  | @cons us inner tokens condition body branches s hcondition hus hinner hbranches ih =>
      obtain ⟨fuel, rfl⟩ := Nat.exists_eq_add_one.mpr (Nat.lt_of_le_of_lt (Nat.zero_le _) hfuel)
      obtain ⟨s₁, vs, s₂, rfl, hvs⟩ := hus.headed (show _ = .keyword .elifWord from rfl)
      have hothers := ih (Nat.lt_of_succ_lt_succ hfuel)
      have hbody := hinner s₂ s (tokens ++ (others ++ rest)) (hbranches.head hindent)
      have hread := expression_print hcondition hvs (show Stops conditionalPower
        (⟨.symbol .colon, s₂⟩ :: ⟨.newline, s⟩ :: (inner ++ (tokens ++ (others ++ rest)))) from rfl)
      have hstep : ∀ X, Parser.branchesLoop (blockBody depth) inLoop (fuel + 1)
          (⟨.keyword .elifWord, s₁⟩ :: X) =
          (expression >>= fun condition => block (blockBody depth) inLoop >>= fun inner =>
            Parser.branchesLoop (blockBody depth) inLoop fuel >>= fun found =>
              pure ((condition, inner) :: found.1, found.2)) X := fun _ => rfl
      simp only [List.cons_append, List.append_assoc, List.nil_append]
      rw [hstep, bind_ok hread, bind_ok hbody, bind_ok hothers]
      rfl

theorem alias?_print {name : Option Text} (hname : ∀ n ∈ name, IsName n) {vs : List Token}
    (hvs : Spells (printAlias name) vs) (s : Span) (rest : List Token) :
    alias? (vs ++ ⟨.symbol .colon, s⟩ :: rest) = .ok (name, ⟨.symbol .colon, s⟩ :: rest) := by
  cases name with
  | none =>
      obtain rfl := hvs.eq_nil
      rfl
  | some n =>
      obtain ⟨s₁, _, rfl, hn⟩ :=
        hvs.blank.cons (l := .word "as".toList) (show _ = some (.keyword .asWord) from rfl)
      obtain ⟨s₂, ws, rfl, hws⟩ := Spells.name (hname n rfl) (Spells.blank hn)
      obtain rfl := hws.eq_nil
      rfl

theorem stops_alias {name : Option Text} {vs : List Token} (hvs : Spells (printAlias name) vs)
    (s : Span) (rest : List Token) :
    Stops conditionalPower (vs ++ ⟨.symbol .colon, s⟩ :: rest) := by
  cases name with
  | none =>
      obtain rfl := hvs.eq_nil
      rfl
  | some n =>
      obtain ⟨s₁, _, rfl, -⟩ :=
        hvs.blank.cons (l := .word "as".toList) (show _ = some (.keyword .asWord) from rfl)
      rfl

/-- One round of the loop over except clauses: the block of a clause and the clauses after it. -/
def clauseThen (inLoop : Bool) (depth fuel : Nat) (line : Nat) (matcher : Option Expr) :
    Parser (List Handler) := do
  let name ← alias?
  let inner ← block (blockBody depth) inLoop
  let handlers ← handlersLoop (blockBody depth) inLoop fuel
  return .clause matcher name inner line :: handlers

theorem handlersLoop_step (s : Span) (X : List Token) :
    handlersLoop (blockBody depth) inLoop (fuel + 1) (⟨.keyword .exceptWord, s⟩ :: X) =
      (at_ (.symbol .colon) >>= fun bare =>
        if bare then clauseThen inLoop depth fuel s.line none
        else expression >>= fun e => clauseThen inLoop depth fuel s.line (some e)) X := rfl

/-- The header of an except clause is read up to its block. -/
theorem handlersLoop_header {matcher : Option Expr} {name : Option Text} {body : Block} {line : Nat}
    (hplain : (Handler.clause matcher name body line).Plain) {us : List Token}
    (hus : Spells (headerOf (printExcept matcher name)) us) (X : List Token) :
    ∃ s, handlersLoop (blockBody depth) inLoop (fuel + 1) (us ++ X) =
      (block (blockBody depth) inLoop >>= fun inner =>
        handlersLoop (blockBody depth) inLoop fuel >>= fun handlers =>
          pure (.clause matcher name inner (headToken us).span.line :: handlers))
        (⟨.symbol .colon, s⟩ :: X) := by
  cases matcher with
  | none =>
      obtain rfl : name = none := hplain
      obtain ⟨s₁, s₂, rfl⟩ := hus.bare (show _ = .keyword .exceptWord from rfl)
      exact ⟨s₂, rfl⟩
  | some e =>
      obtain ⟨he, hname⟩ := hplain
      obtain ⟨s₁, vs, s₂, rfl, hvs⟩ := hus.headed (show _ = .keyword .exceptWord from rfl)
      obtain ⟨us, ws, rfl, hus, hws⟩ := hvs.append
      have hread := expression_print he hus (stops_alias hws s₂ X)
      have halias := alias?_print hname hws s₂ X
      have hfirst : (headToken (us ++ (ws ++ ⟨.symbol .colon, s₂⟩ :: X))).kind ≠ .symbol .colon :=
        (item_of_plain he).first hus rfl
      refine ⟨s₂, ?_⟩
      simp only [List.cons_append, List.append_assoc, List.nil_append]
      rw [handlersLoop_step, bind_at hfirst, if_neg Bool.false_ne_true, bind_ok hread, clauseThen,
        bind_ok halias]
      rfl

/-- Except clauses, up to a token that starts none. -/
theorem ReadsHandlers.handlersLoop {handlers : List Handler}
    (h : ReadsHandlers inLoop depth tokens handlers)
    (hindent : (headToken rest).kind ≠ .indent)
    (hexcept : (headToken rest).kind ≠ .keyword .exceptWord) (hfuel : handlers.length < fuel) :
    handlersLoop (blockBody depth) inLoop fuel (tokens ++ rest) = .ok (handlers, rest) := by
  induction h generalizing fuel with
  | nil =>
      obtain ⟨fuel, rfl⟩ := Nat.exists_eq_add_one.mpr hfuel
      rw [List.nil_append, Parser.handlersLoop, bind_at hexcept]
      rfl
  | @cons us inner tokens matcher name body handlers s hplain hus hinner hhandlers ih =>
      obtain ⟨fuel, rfl⟩ := Nat.exists_eq_add_one.mpr (Nat.lt_of_le_of_lt (Nat.zero_le _) hfuel)
      obtain ⟨s', hheader⟩ := handlersLoop_header hplain hus
        (⟨.newline, s⟩ :: (inner ++ (tokens ++ rest)))
      have hothers := ih (Nat.lt_of_succ_lt_succ hfuel)
      have hbody := hinner s' s (tokens ++ rest) (hhandlers.head hindent)
      rw [List.append_assoc, List.cons_append, List.append_assoc, hheader, bind_ok hbody,
        bind_ok hothers]
      rfl

end Clauses

section Statements

variable {inLoop : Bool} {depth : Nat} {us inner tokens others : List Token} {body : Block}

/-- A conditional with its branches. -/
theorem reads_branch {condition : Expr} {branches : List (Expr × Block)} {otherwise : Option Block}
    (s : Span) (hcondition : condition.Plain)
    (hus : Spells (headerOf (printWith "if".toList condition)) us)
    (hinner : ReadsBlockIn inLoop depth inner body)
    (hbranches : ReadsBranches inLoop depth tokens branches)
    (hotherwise : ReadsOption inLoop depth "else".toList others otherwise) :
    ReadsIn inLoop depth (us ++ ⟨.newline, s⟩ :: (inner ++ (tokens ++ others)))
      (.at (headToken us).span.line (.branch ((condition, body) :: branches) otherwise)) := by
  obtain ⟨s₁, vs, s₂, rfl, hvs⟩ := hus.headed (show _ = .keyword .ifWord from rfl)
  refine ⟨⟨_, _, rfl, rfl⟩, fun rest hrest => ?_⟩
  have hindent : (headToken (others ++ rest)).kind ≠ .indent :=
    hotherwise.head (k := .elseWord) rfl (fun h => nomatch h) (ne_of_continues hrest rfl)
  have hbody := hinner s₂ s (tokens ++ (others ++ rest)) (hbranches.head hindent)
  have hread := expression_print hcondition hvs (show Stops conditionalPower
    (⟨.symbol .colon, s₂⟩ :: ⟨.newline, s⟩ :: (inner ++ (tokens ++ (others ++ rest)))) from rfl)
  have hloop : looping (branchesLoop (blockBody depth) inLoop) (tokens ++ (others ++ rest)) =
      .ok ((branches, otherwise), rest) := by
    refine hbranches.branchesLoop hotherwise hrest ?_
    have hlength := hbranches.length
    rw [List.length_append]
    omega
  have hstep : ∀ X, ifStatement (blockBody depth) inLoop (⟨.keyword .ifWord, s₁⟩ :: X) =
      (expression >>= fun condition => block (blockBody depth) inLoop >>= fun inner =>
        looping (branchesLoop (blockBody depth) inLoop) >>= fun found =>
          pure (Action.branch ((condition, inner) :: found.1) found.2)) X := fun _ => rfl
  have haction := hstep (vs ++ (⟨.symbol .colon, s₂⟩ :: ⟨.newline, s⟩ ::
    (inner ++ (tokens ++ (others ++ rest)))))
  rw [bind_ok hread, bind_ok hbody, bind_ok hloop] at haction
  have hstatement : ∀ X, statement (blockBody depth) inLoop (⟨.keyword .ifWord, s₁⟩ :: X) =
      (ifStatement (blockBody depth) inLoop >>= fun action => pure (.at s₁.line action))
        (⟨.keyword .ifWord, s₁⟩ :: X) := fun _ => rfl
  simp only [List.cons_append, List.append_assoc, List.nil_append]
  rw [hstatement, bind_ok haction]
  rfl

/-- A loop with a condition. -/
theorem reads_whileTrue {condition : Expr} (s : Span) (hcondition : condition.Plain)
    (hus : Spells (headerOf (printWith "while".toList condition)) us)
    (hinner : ReadsBlockIn true depth inner body) :
    ReadsIn inLoop depth (us ++ ⟨.newline, s⟩ :: inner)
      (.at (headToken us).span.line (.whileTrue condition body)) := by
  obtain ⟨s₁, vs, s₂, rfl, hvs⟩ := hus.headed (show _ = .keyword .whileWord from rfl)
  refine ⟨⟨_, _, rfl, rfl⟩, fun rest hrest => ?_⟩
  have hbody := hinner s₂ s rest (ne_of_continues hrest rfl)
  have hread := expression_print hcondition hvs (show Stops conditionalPower
    (⟨.symbol .colon, s₂⟩ :: ⟨.newline, s⟩ :: (inner ++ rest)) from rfl)
  have hstep : ∀ X, whileStatement (blockBody depth) (⟨.keyword .whileWord, s₁⟩ :: X) =
      (expression >>= fun condition => block (blockBody depth) true >>= fun inner =>
        pure (Action.whileTrue condition inner)) X := fun _ => rfl
  have haction := hstep (vs ++ (⟨.symbol .colon, s₂⟩ :: ⟨.newline, s⟩ :: (inner ++ rest)))
  rw [bind_ok hread, bind_ok hbody] at haction
  have hstatement : ∀ X, statement (blockBody depth) inLoop (⟨.keyword .whileWord, s₁⟩ :: X) =
      (whileStatement (blockBody depth) >>= fun action => pure (.at s₁.line action))
        (⟨.keyword .whileWord, s₁⟩ :: X) := fun _ => rfl
  simp only [List.cons_append, List.append_assoc, List.nil_append]
  rw [hstatement, bind_ok haction]
  rfl

/-- A block with a context. -/
theorem reads_within {context : Expr} {name : Option Text} (s : Span) (hcontext : context.Plain)
    (hname : ∀ n ∈ name, IsName n)
    (hus : Spells (headerOf (printWith "with".toList context ++ printAlias name)) us)
    (hinner : ReadsBlockIn inLoop depth inner body) :
    ReadsIn inLoop depth (us ++ ⟨.newline, s⟩ :: inner)
      (.at (headToken us).span.line (.within context name body)) := by
  obtain ⟨s₁, ws, s₂, rfl, hws⟩ := hus.headed (show _ = .keyword .withWord from rfl)
  obtain ⟨vs, zs, rfl, hvs, hzs⟩ := hws.append
  refine ⟨⟨_, _, rfl, rfl⟩, fun rest hrest => ?_⟩
  have hbody := hinner s₂ s rest (ne_of_continues hrest rfl)
  have hread := expression_print hcontext hvs (stops_alias hzs s₂ (⟨.newline, s⟩ :: (inner ++ rest)))
  have halias := alias?_print hname hzs s₂ (⟨.newline, s⟩ :: (inner ++ rest))
  have hstep : ∀ X, withStatement (blockBody depth) inLoop (⟨.keyword .withWord, s₁⟩ :: X) =
      (expression >>= fun context => alias? >>= fun name =>
        block (blockBody depth) inLoop >>= fun inner =>
          pure (Action.within context name inner)) X := fun _ => rfl
  have haction := hstep
    (vs ++ (zs ++ (⟨.symbol .colon, s₂⟩ :: ⟨.newline, s⟩ :: (inner ++ rest))))
  rw [bind_ok hread, bind_ok halias, bind_ok hbody] at haction
  have hstatement : ∀ X, statement (blockBody depth) inLoop (⟨.keyword .withWord, s₁⟩ :: X) =
      (withStatement (blockBody depth) inLoop >>= fun action => pure (.at s₁.line action))
        (⟨.keyword .withWord, s₁⟩ :: X) := fun _ => rfl
  simp only [List.cons_append, List.append_assoc, List.nil_append]
  rw [hstatement, bind_ok haction]
  rfl

/-- The names of a loop after its first one. -/
theorem namesLoop_print {names : List Text} (hnames : ∀ n ∈ names, IsName n) {vs X : List Token}
    (hvs : Spells (separated (printNames names)) vs) (hX : (headToken X).kind ≠ .symbol .comma)
    {fuel : Nat} (hfuel : vs.length < fuel) : namesLoop fuel (vs ++ X) = .ok (names, X) := by
  induction names generalizing vs fuel with
  | nil =>
      obtain rfl := Spells.eq_nil hvs
      obtain ⟨fuel, rfl⟩ := Nat.exists_eq_add_one.mpr hfuel
      rw [List.nil_append, namesLoop, skipSymbol, bind_skip_false hX]
      rfl
  | cons n names ih =>
      obtain ⟨fuel, rfl⟩ := Nat.exists_eq_add_one.mpr (Nat.lt_of_le_of_lt (Nat.zero_le _) hfuel)
      obtain ⟨s₁, _, rfl, hn⟩ := Spells.cons (l := .sign .comma) hvs rfl
      obtain ⟨s₂, ws, rfl, hws⟩ := Spells.name (hnames n List.mem_cons_self) (Spells.blank hn)
      have hothers := ih (fun m hm => hnames m (List.mem_cons_of_mem n hm)) hws
        (show ws.length < fuel by simp only [List.length_cons] at hfuel; omega)
      have hstep : namesLoop (fuel + 1)
          (⟨.symbol .comma, s₁⟩ :: ⟨.identifier n, s₂⟩ :: (ws ++ X)) =
          (namesLoop fuel >>= fun names => pure (n :: names)) (ws ++ X) := rfl
      rw [List.cons_append, List.cons_append, hstep, bind_ok hothers]
      rfl

/-- What a loop binds, read up to the word behind it. -/
theorem target_print {target : Target} (htarget : target.Loops) {vs : List Token}
    (hvs : Spells target.print vs) (s : Span) (X : List Token) :
    ∃ first others ws s', vs = ⟨.identifier first, s'⟩ :: ws ∧
      (if others.isEmpty then Target.name first else .unpack (first :: others)) = target ∧
      looping namesLoop (ws ++ ⟨.keyword .inWord, s⟩ :: X) =
        .ok (others, ⟨.keyword .inWord, s⟩ :: X) := by
  cases target with
  | name n =>
      obtain ⟨s', ws, rfl, hws⟩ := Spells.name htarget hvs
      obtain rfl := hws.eq_nil
      exact ⟨n, [], [], s', rfl, rfl, rfl⟩
  | index object key => exact htarget.elim
  | unpack names =>
      obtain ⟨hlength, hnames⟩ := htarget
      match names, hlength, hnames with
      | [], hlength, _ | [_], hlength, _ => exact absurd hlength (by simp)
      | n :: m :: names, _, hnames =>
          obtain ⟨s', ws, rfl, hws⟩ := Spells.name (hnames n List.mem_cons_self) hvs
          have hothers : ∀ l ∈ m :: names, IsName l :=
            fun l hl => hnames l (List.mem_cons_of_mem n hl)
          have hcomma : (headToken (⟨.keyword .inWord, s⟩ :: X)).kind ≠ .symbol .comma :=
            fun h => nomatch h
          refine ⟨n, m :: names, ws, s', rfl, rfl, namesLoop_print hothers hws hcomma ?_⟩
          rw [List.length_append]
          omega

/-- A loop over items. -/
theorem reads_forEach {target : Target} {items : Expr} (s : Span) (htarget : target.Loops)
    (hitems : items.Plain)
    (hus : Spells (headerOf (.word "for".toList :: .blank :: (target.print ++
      .blank :: printWith "in".toList items))) us)
    (hinner : ReadsBlockIn true depth inner body) :
    ReadsIn inLoop depth (us ++ ⟨.newline, s⟩ :: inner)
      (.at (headToken us).span.line (.forEach target items body)) := by
  obtain ⟨s₁, zs, s₂, rfl, hzs⟩ := hus.headed (show _ = .keyword .forWord from rfl)
  obtain ⟨vs, _, rfl, hvs, hin⟩ := hzs.append
  obtain ⟨s₃, ws, rfl, hws⟩ :=
    hin.blank.cons (l := .word "in".toList) (show _ = some (.keyword .inWord) from rfl)
  refine ⟨⟨_, _, rfl, rfl⟩, fun rest hrest => ?_⟩
  have hbody := hinner s₂ s rest (ne_of_continues hrest rfl)
  have hread := (item_of_plain hitems).expressionList hws.blank (show Stops conditionalPower
    (⟨.symbol .colon, s₂⟩ :: ⟨.newline, s⟩ :: (inner ++ rest)) from rfl) (fun h => nomatch h)
  obtain ⟨first, names, ys, s', rfl, htarget', hnames⟩ := target_print htarget hvs s₃
    (ws ++ ⟨.symbol .colon, s₂⟩ :: ⟨.newline, s⟩ :: (inner ++ rest))
  have hstep : ∀ X, forStatement (blockBody depth)
      (⟨.keyword .forWord, s₁⟩ :: ⟨.identifier first, s'⟩ :: X) =
      (looping namesLoop >>= fun others => expect (.keyword .inWord) >>= fun _ =>
        expressionList >>= fun items => block (blockBody depth) true >>= fun inner =>
          pure (Action.forEach
            (if others.isEmpty then .name first else .unpack (first :: others)) items inner)) X :=
    fun _ => rfl
  have hexpect : ∀ X : List Token, expect (.keyword .inWord) (⟨.keyword .inWord, s₃⟩ :: X) =
      .ok ((), X) := fun _ => rfl
  have haction := hstep (ys ++ ⟨.keyword .inWord, s₃⟩ ::
    (ws ++ (⟨.symbol .colon, s₂⟩ :: ⟨.newline, s⟩ :: (inner ++ rest))))
  rw [bind_ok hnames, bind_ok (hexpect _), bind_ok hread, bind_ok hbody, htarget'] at haction
  have hstatement : ∀ X, statement (blockBody depth) inLoop (⟨.keyword .forWord, s₁⟩ :: X) =
      (forStatement (blockBody depth) >>= fun action => pure (.at s₁.line action))
        (⟨.keyword .forWord, s₁⟩ :: X) := fun _ => rfl
  simp only [List.cons_append, List.append_assoc, List.nil_append]
  rw [hstatement, bind_ok haction]
  rfl

/-- The last clause of an attempt, or none. -/
theorem ReadsOption.cleanupThen {cleanup : Option Block} {rest : List Token}
    (h : ReadsOption inLoop depth "finally".toList others cleanup)
    (hrest : continues (headToken rest).kind = false) (next : Option Block → Parser Action) :
    Parser.cleanupThen depth inLoop next (others ++ rest) = next cleanup rest := by
  cases h with
  | none =>
      rw [List.nil_append, Parser.cleanupThen, bind_skip_false (ne_of_continues hrest rfl)]
      rfl
  | some s hus hinner =>
      obtain ⟨s₁, s₂, rfl⟩ := hus.bare (show _ = .keyword .finallyWord from rfl)
      have hbody := hinner s₂ s rest (ne_of_continues hrest rfl)
      have hstep : ∀ X, Parser.cleanupThen depth inLoop next (⟨.keyword .finallyWord, s₁⟩ :: X) =
          (block (blockBody depth) inLoop >>= fun inner => next (Option.some inner)) X :=
        fun _ => rfl
      simp only [List.cons_append, List.nil_append]
      rw [hstep, bind_ok hbody]

/-- An attempt with its clauses. -/
theorem reads_attempt {handlers : List Handler} {cleanup : Option Block} (s : Span)
    (hclauses : (handlers.isEmpty && cleanup.isNone) = false)
    (hus : Spells (headerOf [.word "try".toList]) us)
    (hinner : ReadsBlockIn inLoop depth inner body)
    (hhandlers : ReadsHandlers inLoop depth tokens handlers)
    (hcleanup : ReadsOption inLoop depth "finally".toList others cleanup) :
    ReadsIn inLoop depth (us ++ ⟨.newline, s⟩ :: (inner ++ (tokens ++ others)))
      (.at (headToken us).span.line (.attempt body handlers cleanup)) := by
  obtain ⟨s₁, s₂, rfl⟩ := hus.bare (show _ = .keyword .tryWord from rfl)
  refine ⟨⟨_, _, rfl, rfl⟩, fun rest hrest => ?_⟩
  have hindent : (headToken (others ++ rest)).kind ≠ .indent :=
    hcleanup.head (k := .finallyWord) rfl (fun h => nomatch h) (ne_of_continues hrest rfl)
  have hexcept : (headToken (others ++ rest)).kind ≠ .keyword .exceptWord :=
    hcleanup.head (k := .finallyWord) rfl (fun h => nomatch h) (ne_of_continues hrest rfl)
  have hbody := hinner s₂ s (tokens ++ (others ++ rest)) (hhandlers.head hindent)
  have hloop : looping (handlersLoop (blockBody depth) inLoop) (tokens ++ (others ++ rest)) =
      .ok (handlers, others ++ rest) := by
    refine hhandlers.handlersLoop hindent hexcept ?_
    have hlength := hhandlers.length
    rw [List.length_append]
    omega
  have hstep : tryStatement (blockBody depth) inLoop
      (⟨.keyword .tryWord, s₁⟩ :: ⟨.symbol .colon, s₂⟩ :: ⟨.newline, s⟩ ::
        (inner ++ (tokens ++ (others ++ rest)))) =
      (block (blockBody depth) inLoop >>= fun inner =>
        looping (handlersLoop (blockBody depth) inLoop) >>= fun handlers =>
          cleanupThen depth inLoop fun cleanup =>
            if handlers.isEmpty && cleanup.isNone then fail .bareTry
            else pure (Action.attempt inner handlers cleanup))
        (⟨.symbol .colon, s₂⟩ :: ⟨.newline, s⟩ :: (inner ++ (tokens ++ (others ++ rest)))) := by
    rfl
  rw [bind_ok hbody, bind_ok hloop, hcleanup.cleanupThen hrest, hclauses] at hstep
  have hstatement : ∀ X, statement (blockBody depth) inLoop (⟨.keyword .tryWord, s₁⟩ :: X) =
      (tryStatement (blockBody depth) inLoop >>= fun action => pure (.at s₁.line action))
        (⟨.keyword .tryWord, s₁⟩ :: X) := fun _ => rfl
  simp only [List.cons_append, List.append_assoc, List.nil_append]
  rw [hstatement, bind_ok hstep]
  rfl

end Statements

end TemplateEngine.Parser
