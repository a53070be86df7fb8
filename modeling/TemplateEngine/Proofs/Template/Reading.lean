import TemplateEngine.Proofs.Syntax.Lines
import TemplateEngine.Proofs.Syntax.Statements
import TemplateEngine.Proofs.Template.Lines
import TemplateEngine.Proofs.Template.Translation

/-!
# Reading the code of an outline

The tokens of the code of every part, and the statements that the parser reads
off them. The clauses of a block are read in turn by the loop that their header
runs, which stops where a token continues no block.
-/
namespace TemplateEngine.Outline

open TemplateEngine.Parser

theorem Name.ofWord_text (n : Name) : TokenKind.ofWord n.text = .identifier n.text :=
  n.notReserved

/-- Clauses are read off their tokens: the header of each, the end of its line and its
body. -/
inductive ReadsClauses (depth : Nat) : List Token → List ClauseBlock → Prop
  | nil : ReadsClauses depth [] []
  | cons (clause : Clause) (p : Position) (s : Span) {inner tokens : List Token} {body : Block}
      {clauses : List ClauseBlock} :
      ReadsBlock depth inner body → ReadsClauses depth tokens clauses →
      ReadsClauses depth
        (Lexeme.tokens p clause.lexemes ++ ⟨.newline, s⟩ :: (inner ++ tokens))
        ((clause, p.line, body) :: clauses)

theorem tokens_elif (n : Name) (p : Position) : ∃ s₁ s₂ s₃,
    Lexeme.tokens p (Clause.elif n).lexemes =
      [⟨.keyword .elifWord, s₁⟩, ⟨.identifier n.text, s₂⟩, ⟨.symbol .colon, s₃⟩] := by
  rw [← n.ofWord_text]
  exact ⟨_, _, _, rfl⟩

theorem tokens_otherwise (p : Position) : ∃ s₁ s₂,
    Lexeme.tokens p Clause.otherwise.lexemes =
      [⟨.keyword .elseWord, s₁⟩, ⟨.symbol .colon, s₂⟩] :=
  ⟨_, _, rfl⟩

theorem tokens_except (k v : Name) (p : Position) : ∃ s₁ s₂ s₃ s₄ s₅, s₁.line = p.line ∧
    Lexeme.tokens p (Clause.except k v).lexemes =
      [⟨.keyword .exceptWord, s₁⟩, ⟨.identifier k.text, s₂⟩, ⟨.keyword .asWord, s₃⟩,
        ⟨.identifier v.text, s₄⟩, ⟨.symbol .colon, s₅⟩] := by
  rw [← k.ofWord_text, ← v.ofWord_text]
  exact ⟨⟨p, _⟩, _, _, _, _, rfl, rfl⟩

theorem tokens_cleanup (p : Position) : ∃ s₁ s₂,
    Lexeme.tokens p Clause.cleanup.lexemes =
      [⟨.keyword .finallyWord, s₁⟩, ⟨.symbol .colon, s₂⟩] :=
  ⟨_, _, rfl⟩

section Clauses

variable {depth : Nat} {tokens rest : List Token} {clauses : List ClauseBlock}

/-- No clause starts with an indentation. -/
theorem ReadsClauses.head (h : ReadsClauses depth tokens clauses)
    (hrest : continues (headToken rest).kind = false) :
    (headToken (tokens ++ rest)).kind ≠ .indent := by
  cases h with
  | nil => exact ne_of_continues hrest rfl
  | @cons clause p s inner tokens body clauses _ _ =>
      cases clause with
      | elif n => obtain ⟨s₁, s₂, s₃, ht⟩ := tokens_elif n p; simp [ht, headToken]
      | otherwise => obtain ⟨s₁, s₂, ht⟩ := tokens_otherwise p; simp [ht, headToken]
      | except k v =>
          obtain ⟨s₁, s₂, s₃, s₄, s₅, -, ht⟩ := tokens_except k v p
          simp [ht, headToken]
      | cleanup => obtain ⟨s₁, s₂, ht⟩ := tokens_cleanup p; simp [ht, headToken]

theorem ReadsClauses.length (h : ReadsClauses depth tokens clauses) :
    clauses.length ≤ tokens.length := by
  induction h with
  | nil => simp
  | cons _ _ _ _ _ ih =>
      simp only [List.length_cons, List.length_append]
      omega

/-- The clauses of a conditional. -/
theorem ReadsClauses.branchesLoop (h : ReadsClauses depth tokens clauses)
    (hadmits : Header.admits.go (clauses.map Prod.fst) = true) (inLoop : Bool)
    (hrest : continues (headToken rest).kind = false) {fuel : Nat}
    (hfuel : clauses.length < fuel) :
    branchesLoop (blockBody depth) inLoop fuel (tokens ++ rest) =
      .ok ((branches clauses, otherwise? clauses), rest) := by
  induction h generalizing fuel with
  | nil =>
      obtain ⟨fuel, rfl⟩ := Nat.exists_eq_add_one.mpr hfuel
      rw [List.nil_append, Parser.branchesLoop, bind_skip_false (ne_of_continues hrest rfl),
        if_neg Bool.false_ne_true, bind_skip_false (ne_of_continues hrest rfl)]
      rfl
  | @cons clause p s inner tokens body clauses hinner hclauses ih =>
      obtain ⟨fuel, rfl⟩ := Nat.exists_eq_add_one.mpr (Nat.lt_of_le_of_lt (Nat.zero_le _) hfuel)
      cases clause with
      | elif n =>
          obtain ⟨s₁, s₂, s₃, ht⟩ := tokens_elif n p
          have hbody := hinner inLoop s₃ s (tokens ++ rest) (hclauses.head hrest)
          have hothers := ih hadmits (Nat.lt_of_succ_lt_succ hfuel)
          have hstep : Parser.branchesLoop (blockBody depth) inLoop (fuel + 1)
              (⟨.keyword .elifWord, s₁⟩ :: ⟨.identifier n.text, s₂⟩ :: ⟨.symbol .colon, s₃⟩ ::
                ⟨.newline, s⟩ :: (inner ++ (tokens ++ rest))) =
              (block (blockBody depth) inLoop >>= fun inner =>
                Parser.branchesLoop (blockBody depth) inLoop fuel >>= fun found =>
                  pure ((Expr.name n.text, inner) :: found.1, found.2))
                (⟨.symbol .colon, s₃⟩ :: ⟨.newline, s⟩ :: (inner ++ (tokens ++ rest))) := rfl
          simp only [ht, List.cons_append, List.nil_append, List.append_assoc]
          rw [hstep, bind_ok hbody, bind_ok hothers]
          rfl
      | otherwise =>
          obtain ⟨s₁, s₂, ht⟩ := tokens_otherwise p
          cases hclauses with
          | cons => cases hadmits
          | nil =>
              have hbody := hinner inLoop s₂ s rest (ne_of_continues hrest rfl)
              have hstep : Parser.branchesLoop (blockBody depth) inLoop (fuel + 1)
                  (⟨.keyword .elseWord, s₁⟩ :: ⟨.symbol .colon, s₂⟩ :: ⟨.newline, s⟩ ::
                    (inner ++ rest)) =
                  (block (blockBody depth) inLoop >>= fun inner => pure ([], some inner))
                    (⟨.symbol .colon, s₂⟩ :: ⟨.newline, s⟩ :: (inner ++ rest)) := rfl
              simp only [ht, List.cons_append, List.nil_append, List.append_nil]
              rw [hstep, bind_ok hbody]
              rfl
      | except k v => cases hadmits
      | cleanup => cases hadmits

/-- The clauses of an attempt: the handlers, and then the cleanup. -/
theorem ReadsClauses.handlersLoop (h : ReadsClauses depth tokens clauses)
    (hadmits : Header.admits.goOn (clauses.map Prod.fst) = true) (inLoop : Bool)
    (hrest : continues (headToken rest).kind = false) {fuel : Nat}
    (hfuel : clauses.length < fuel) :
    ∃ after, handlersLoop (blockBody depth) inLoop fuel (tokens ++ rest) =
        .ok (handlers clauses, after) ∧
      ∀ next, cleanupThen depth inLoop next after = next (cleanup? clauses) rest := by
  induction h generalizing fuel with
  | nil =>
      obtain ⟨fuel, rfl⟩ := Nat.exists_eq_add_one.mpr hfuel
      refine ⟨rest, ?_, fun next => ?_⟩
      · rw [List.nil_append, Parser.handlersLoop, bind_at (ne_of_continues hrest rfl)]
        rfl
      · rw [cleanupThen, bind_skip_false (ne_of_continues hrest rfl)]
        rfl
  | @cons clause p s inner tokens body clauses hinner hclauses ih =>
      obtain ⟨fuel, rfl⟩ := Nat.exists_eq_add_one.mpr (Nat.lt_of_le_of_lt (Nat.zero_le _) hfuel)
      cases clause with
      | except k v =>
          obtain ⟨s₁, s₂, s₃, s₄, s₅, hline, ht⟩ := tokens_except k v p
          have hbody := hinner inLoop s₅ s (tokens ++ rest) (hclauses.head hrest)
          obtain ⟨after, hothers, hcleanup⟩ := ih hadmits (Nat.lt_of_succ_lt_succ hfuel)
          have hstep : Parser.handlersLoop (blockBody depth) inLoop (fuel + 1)
              (⟨.keyword .exceptWord, s₁⟩ :: ⟨.identifier k.text, s₂⟩ :: ⟨.keyword .asWord, s₃⟩ ::
                ⟨.identifier v.text, s₄⟩ :: ⟨.symbol .colon, s₅⟩ :: ⟨.newline, s⟩ ::
                  (inner ++ (tokens ++ rest))) =
              (block (blockBody depth) inLoop >>= fun inner =>
                Parser.handlersLoop (blockBody depth) inLoop fuel >>= fun handlers =>
                  pure (Handler.clause (some (.name k.text)) (some v.text) inner s₁.line ::
                    handlers))
                (⟨.symbol .colon, s₅⟩ :: ⟨.newline, s⟩ :: (inner ++ (tokens ++ rest))) := rfl
          refine ⟨after, ?_, hcleanup⟩
          simp only [ht, List.cons_append, List.nil_append, List.append_assoc]
          rw [hstep, bind_ok hbody, bind_ok hothers, hline]
          rfl
      | cleanup =>
          obtain ⟨s₁, s₂, ht⟩ := tokens_cleanup p
          cases hclauses with
          | cons => cases hadmits
          | nil =>
              have hbody := hinner inLoop s₂ s rest (ne_of_continues hrest rfl)
              simp only [ht, List.cons_append, List.nil_append, List.append_nil]
              refine ⟨_, rfl, fun next => ?_⟩
              have hstep : cleanupThen depth inLoop next
                  (⟨.keyword .finallyWord, s₁⟩ :: ⟨.symbol .colon, s₂⟩ :: ⟨.newline, s⟩ ::
                    (inner ++ rest)) =
                  (block (blockBody depth) inLoop >>= fun inner => next (some inner))
                    (⟨.symbol .colon, s₂⟩ :: ⟨.newline, s⟩ :: (inner ++ rest)) := rfl
              rw [hstep, bind_ok hbody]
              rfl
      | elif n => cases hadmits
      | otherwise => cases hadmits

end Clauses

section Statements

variable {depth : Nat} {inner tokens : List Token} {body : Block} {clauses : List ClauseBlock}

theorem reads_text (t : Text) (p : Position) (s : Span) :
    Reads depth (Lexeme.tokens p (Part.text t).lexemes ++ [⟨.newline, s⟩])
      (.at p.line (appendCall (.constant (.str t)))) := by
  refine ⟨⟨_, _, rfl, rfl⟩, fun inLoop rest _ => ?_⟩
  have h : statement (blockBody depth) inLoop
      (Lexeme.tokens p (Part.text t).lexemes ++ [⟨.newline, s⟩] ++ rest) =
        .ok (.at p.line (appendCall (.constant (.str (t ++ [])))), rest) := rfl
  rwa [List.append_nil] at h

theorem reads_print (raw : Bool) (n : Name) (p : Position) (s : Span) :
    Reads depth (Lexeme.tokens p (Part.print raw n).lexemes ++ [⟨.newline, s⟩])
      (.at p.line (appendCall (if raw then .name n.text else filterCall (.name n.text)))) := by
  have hword := n.ofWord_text
  refine ⟨by cases raw <;> exact ⟨_, _, rfl, rfl⟩, fun inLoop rest _ => ?_⟩
  cases raw with
  | true =>
      simp only [Part.lexemes, Lexeme.tokens, Lexeme.kind?, hword]
      rfl
  | false =>
      simp only [Part.lexemes, Lexeme.tokens, Lexeme.kind?, hword]
      rfl

theorem tokens_ifTrue (n : Name) (p : Position) : ∃ s₁ s₂ s₃, s₁.line = p.line ∧
    Lexeme.tokens p (Header.ifTrue n).lexemes =
      [⟨.keyword .ifWord, s₁⟩, ⟨.identifier n.text, s₂⟩, ⟨.symbol .colon, s₃⟩] := by
  rw [← n.ofWord_text]
  exact ⟨⟨p, _⟩, _, _, rfl, rfl⟩

theorem tokens_forEach (v n : Name) (p : Position) : ∃ s₁ s₂ s₃ s₄ s₅, s₁.line = p.line ∧
    Lexeme.tokens p (Header.forEach v n).lexemes =
      [⟨.keyword .forWord, s₁⟩, ⟨.identifier v.text, s₂⟩, ⟨.keyword .inWord, s₃⟩,
        ⟨.identifier n.text, s₄⟩, ⟨.symbol .colon, s₅⟩] := by
  rw [← v.ofWord_text, ← n.ofWord_text]
  exact ⟨⟨p, _⟩, _, _, _, _, rfl, rfl⟩

theorem tokens_whileTrue (n : Name) (p : Position) : ∃ s₁ s₂ s₃, s₁.line = p.line ∧
    Lexeme.tokens p (Header.whileTrue n).lexemes =
      [⟨.keyword .whileWord, s₁⟩, ⟨.identifier n.text, s₂⟩, ⟨.symbol .colon, s₃⟩] := by
  rw [← n.ofWord_text]
  exact ⟨⟨p, _⟩, _, _, rfl, rfl⟩

theorem statement_if (body : Bool → Parser Block) (inLoop : Bool) (s : Span) (ts : List Token) :
    statement body inLoop (⟨.keyword .ifWord, s⟩ :: ts) =
      (ifStatement body inLoop >>= fun action => pure (.at s.line action))
        (⟨.keyword .ifWord, s⟩ :: ts) := rfl

/-- A conditional with its clauses. -/
theorem reads_ifTrue (n : Name) (hadmits : Header.admits.go (clauses.map Prod.fst) = true)
    (hinner : ReadsBlock depth inner body) (hclauses : ReadsClauses depth tokens clauses)
    (p : Position) (s : Span) :
    Reads depth (Lexeme.tokens p (Header.ifTrue n).lexemes ++ ⟨.newline, s⟩ :: (inner ++ tokens))
      (.at p.line ((Header.ifTrue n).action body clauses)) := by
  obtain ⟨s₁, s₂, s₃, hline, ht⟩ := tokens_ifTrue n p
  refine ⟨⟨_, _, rfl, rfl⟩, fun inLoop rest hrest => ?_⟩
  have hlength := hclauses.length
  have hbody := hinner inLoop s₃ s (tokens ++ rest) (hclauses.head hrest)
  have hbranches : looping (branchesLoop (blockBody depth) inLoop) (tokens ++ rest) =
      .ok ((branches clauses, otherwise? clauses), rest) := by
    refine hclauses.branchesLoop hadmits inLoop hrest ?_
    rw [List.length_append]
    omega
  have hstep : ifStatement (blockBody depth) inLoop
      (⟨.keyword .ifWord, s₁⟩ :: ⟨.identifier n.text, s₂⟩ :: ⟨.symbol .colon, s₃⟩ ::
        ⟨.newline, s⟩ :: (inner ++ (tokens ++ rest))) =
      (block (blockBody depth) inLoop >>= fun inner =>
        looping (branchesLoop (blockBody depth) inLoop) >>= fun found =>
          pure (Action.branch ((.name n.text, inner) :: found.1) found.2))
        (⟨.symbol .colon, s₃⟩ :: ⟨.newline, s⟩ :: (inner ++ (tokens ++ rest))) := rfl
  rw [bind_ok hbody, bind_ok hbranches] at hstep
  simp only [ht, List.cons_append, List.nil_append, List.append_assoc]
  rw [statement_if, bind_ok hstep, hline]
  rfl

/-- An attempt with its clauses. -/
theorem reads_attempt (hadmits : Header.attempt.admits (clauses.map Prod.fst) = true)
    (hinner : ReadsBlock depth inner body) (hclauses : ReadsClauses depth tokens clauses)
    (p : Position) (s : Span) :
    Reads depth (Lexeme.tokens p Header.attempt.lexemes ++ ⟨.newline, s⟩ :: (inner ++ tokens))
      (.at p.line (Header.attempt.action body clauses)) := by
  refine ⟨⟨_, _, rfl, rfl⟩, fun inLoop rest hrest => ?_⟩
  have hgoOn : Header.admits.goOn (clauses.map Prod.fst) = true ∧
      (handlers clauses).isEmpty = false := by
    match clauses with
    | (.except k v, label, body) :: clauses => exact ⟨hadmits, rfl⟩
  have hlength := hclauses.length
  have hbody := hinner inLoop ⟨p.after "try".toList, p.after "try:".toList⟩ s (tokens ++ rest)
    (hclauses.head hrest)
  have hfuel : clauses.length < (tokens ++ rest).length + 1 := by
    rw [List.length_append]
    omega
  obtain ⟨after, hhandlers, hcleanup⟩ := hclauses.handlersLoop hgoOn.1 inLoop hrest hfuel
  have hhandlers : looping (handlersLoop (blockBody depth) inLoop) (tokens ++ rest) =
      .ok (handlers clauses, after) := hhandlers
  have hstep : tryStatement (blockBody depth) inLoop
      (Lexeme.tokens p Header.attempt.lexemes ++ ⟨.newline, s⟩ :: (inner ++ (tokens ++ rest))) =
      (block (blockBody depth) inLoop >>= fun inner =>
        looping (handlersLoop (blockBody depth) inLoop) >>= fun handlers =>
          cleanupThen depth inLoop fun cleanup =>
            if handlers.isEmpty && cleanup.isNone then fail .bareTry
            else pure (Action.attempt inner handlers cleanup))
        (⟨.symbol .colon, ⟨p.after "try".toList, p.after "try:".toList⟩⟩ ::
          ⟨.newline, s⟩ :: (inner ++ (tokens ++ rest))) := rfl
  rw [bind_ok hbody, bind_ok hhandlers, hcleanup, hgoOn.2] at hstep
  have hstatement : statement (blockBody depth) inLoop
      (Lexeme.tokens p Header.attempt.lexemes ++ ⟨.newline, s⟩ :: (inner ++ (tokens ++ rest))) =
      (tryStatement (blockBody depth) inLoop >>= fun action => pure (.at p.line action))
        (Lexeme.tokens p Header.attempt.lexemes ++ ⟨.newline, s⟩ :: (inner ++ (tokens ++ rest))) :=
    rfl
  rw [List.append_assoc, List.cons_append, List.append_assoc, hstatement, bind_ok hstep]
  rfl

theorem tokens_capture (x : Name) (p : Position) : ∃ s₁ s₂ s₃ s₄ s₅ s₆, s₁.line = p.line ∧
    Lexeme.tokens p (Header.capture x).lexemes =
      [⟨.keyword .withWord, s₁⟩, ⟨.identifier "capture".toList, s₂⟩, ⟨.symbol .leftParen, s₃⟩,
        ⟨.string x.text, s₄⟩, ⟨.symbol .rightParen, s₅⟩, ⟨.symbol .colon, s₆⟩] :=
  ⟨⟨p, _⟩, _, _, _, _, _, rfl, rfl⟩

/-- A loop over items. -/
theorem reads_forEach (v n : Name) (hinner : ReadsBlock depth inner body) (p : Position)
    (s : Span) :
    Reads depth (Lexeme.tokens p (Header.forEach v n).lexemes ++ ⟨.newline, s⟩ :: inner)
      (.at p.line (.forEach (.name v.text) (.name n.text) body)) := by
  obtain ⟨s₁, s₂, s₃, s₄, s₅, hline, ht⟩ := tokens_forEach v n p
  refine ⟨⟨_, _, rfl, rfl⟩, fun inLoop rest hrest => ?_⟩
  have hbody := hinner true s₅ s rest (ne_of_continues hrest rfl)
  have hstep : forStatement (blockBody depth)
      (⟨.keyword .forWord, s₁⟩ :: ⟨.identifier v.text, s₂⟩ :: ⟨.keyword .inWord, s₃⟩ ::
        ⟨.identifier n.text, s₄⟩ :: ⟨.symbol .colon, s₅⟩ :: ⟨.newline, s⟩ :: (inner ++ rest)) =
      (block (blockBody depth) true >>= fun inner =>
        pure (Action.forEach (.name v.text) (.name n.text) inner))
        (⟨.symbol .colon, s₅⟩ :: ⟨.newline, s⟩ :: (inner ++ rest)) := rfl
  have hstatement : ∀ ts, statement (blockBody depth) inLoop (⟨.keyword .forWord, s₁⟩ :: ts) =
      (forStatement (blockBody depth) >>= fun action => pure (.at s₁.line action))
        (⟨.keyword .forWord, s₁⟩ :: ts) := fun _ => rfl
  rw [bind_ok hbody] at hstep
  simp only [ht, List.cons_append, List.nil_append]
  rw [hstatement, bind_ok hstep, hline]
  rfl

/-- A loop with a condition. -/
theorem reads_whileTrue (n : Name) (hinner : ReadsBlock depth inner body) (p : Position)
    (s : Span) :
    Reads depth (Lexeme.tokens p (Header.whileTrue n).lexemes ++ ⟨.newline, s⟩ :: inner)
      (.at p.line (.whileTrue (.name n.text) body)) := by
  obtain ⟨s₁, s₂, s₃, hline, ht⟩ := tokens_whileTrue n p
  refine ⟨⟨_, _, rfl, rfl⟩, fun inLoop rest hrest => ?_⟩
  have hbody := hinner true s₃ s rest (ne_of_continues hrest rfl)
  have hstep : whileStatement (blockBody depth)
      (⟨.keyword .whileWord, s₁⟩ :: ⟨.identifier n.text, s₂⟩ :: ⟨.symbol .colon, s₃⟩ ::
        ⟨.newline, s⟩ :: (inner ++ rest)) =
      (block (blockBody depth) true >>= fun inner =>
        pure (Action.whileTrue (.name n.text) inner))
        (⟨.symbol .colon, s₃⟩ :: ⟨.newline, s⟩ :: (inner ++ rest)) := rfl
  have hstatement : ∀ ts, statement (blockBody depth) inLoop (⟨.keyword .whileWord, s₁⟩ :: ts) =
      (whileStatement (blockBody depth) >>= fun action => pure (.at s₁.line action))
        (⟨.keyword .whileWord, s₁⟩ :: ts) := fun _ => rfl
  rw [bind_ok hbody] at hstep
  simp only [ht, List.cons_append, List.nil_append]
  rw [hstatement, bind_ok hstep, hline]
  rfl

/-- A capture of the output. -/
theorem reads_capture (x : Name) (hinner : ReadsBlock depth inner body) (p : Position)
    (s : Span) :
    Reads depth (Lexeme.tokens p (Header.capture x).lexemes ++ ⟨.newline, s⟩ :: inner)
      (.at p.line (.within (.call (.name "capture".toList) [.constant (.str x.text)] []) none
        body)) := by
  obtain ⟨s₁, s₂, s₃, s₄, s₅, s₆, hline, ht⟩ := tokens_capture x p
  refine ⟨⟨_, _, rfl, rfl⟩, fun inLoop rest hrest => ?_⟩
  have hbody := hinner inLoop s₆ s rest (ne_of_continues hrest rfl)
  have hstep : withStatement (blockBody depth) inLoop
      (⟨.keyword .withWord, s₁⟩ :: ⟨.identifier "capture".toList, s₂⟩ ::
        ⟨.symbol .leftParen, s₃⟩ :: ⟨.string x.text, s₄⟩ :: ⟨.symbol .rightParen, s₅⟩ ::
        ⟨.symbol .colon, s₆⟩ :: ⟨.newline, s⟩ :: (inner ++ rest)) =
      (block (blockBody depth) inLoop >>= fun inner =>
        pure (Action.within
          (.call (.name "capture".toList) [.constant (.str (x.text ++ []))] []) none inner))
        (⟨.symbol .colon, s₆⟩ :: ⟨.newline, s⟩ :: (inner ++ rest)) := rfl
  have hstatement : ∀ ts, statement (blockBody depth) inLoop (⟨.keyword .withWord, s₁⟩ :: ts) =
      (withStatement (blockBody depth) inLoop >>= fun action => pure (.at s₁.line action))
        (⟨.keyword .withWord, s₁⟩ :: ts) := fun _ => rfl
  rw [bind_ok hbody, List.append_nil] at hstep
  simp only [ht, List.cons_append, List.nil_append]
  rw [hstatement, bind_ok hstep, hline]
  rfl

/-- The statement of a block is read off the code of its header and its bodies. -/
theorem Header.reads {header : Header} (hadmits : header.admits (clauses.map Prod.fst) = true)
    (hinner : ReadsBlock depth inner body) (hclauses : ReadsClauses depth tokens clauses)
    (p : Position) (s : Span) :
    Reads depth (Lexeme.tokens p header.lexemes ++ ⟨.newline, s⟩ :: (inner ++ tokens))
      (.at p.line (header.action body clauses)) := by
  have hnone : (clauses.map Prod.fst).isEmpty = true → tokens = [] ∧ clauses = [] := by
    cases hclauses with
    | nil => exact fun _ => ⟨rfl, rfl⟩
    | cons => exact fun h => by cases h
  cases header with
  | ifTrue n => exact reads_ifTrue n hadmits hinner hclauses p s
  | attempt => exact reads_attempt hadmits hinner hclauses p s
  | forEach v n =>
      obtain ⟨rfl, rfl⟩ := hnone hadmits
      rw [List.append_nil]
      exact reads_forEach v n hinner p s
  | whileTrue n =>
      obtain ⟨rfl, rfl⟩ := hnone hadmits
      rw [List.append_nil]
      exact reads_whileTrue n hinner p s
  | capture x =>
      obtain ⟨rfl, rfl⟩ := hnone hadmits
      rw [List.append_nil]
      exact reads_capture x hinner p s

end Statements

end TemplateEngine.Outline
