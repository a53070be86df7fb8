import TemplateEngine.Proofs.Syntax.Lexemes
import TemplateEngine.Proofs.Syntax.Consumption

/-!
# Reading statements

The parser runs on tokens whose kinds are known and whose places are not. A
statement is read off the front of its tokens when what comes after it continues
no block, and a block is read off a colon, the end of the line and the indented
tokens of its statements, or nothing where it is empty.
-/
namespace TemplateEngine.Parser

/-- The tokens that make a statement before them longer. -/
def continues : TokenKind → Bool
  | .indent | .keyword .elifWord | .keyword .elseWord => true
  | .keyword .exceptWord | .keyword .finallyWord => true
  | _ => false

/-- The tokens that statements start with. -/
def starts : TokenKind → Bool
  | .newline | .indent | .dedent | .endOfInput => false
  | .keyword .elifWord | .keyword .elseWord => false
  | .keyword .exceptWord | .keyword .finallyWord => false
  | _ => true

/-- Tokens are read as a statement, inside a loop or not, whatever comes next that does not
continue it. -/
structure ReadsIn (inLoop : Bool) (depth : Nat) (tokens : List Token) (stmt : Stmt) : Prop where
  starts : ∃ t ts, tokens = t :: ts ∧ starts t.kind = true
  reads : ∀ rest : List Token, continues (headToken rest).kind = false →
    statement (blockBody depth) inLoop (tokens ++ rest) = .ok (stmt, rest)

/-- Tokens are read as a statement wherever they stand. -/
structure Reads (depth : Nat) (tokens : List Token) (stmt : Stmt) : Prop where
  starts : ∃ t ts, tokens = t :: ts ∧ starts t.kind = true
  reads : ∀ (inLoop : Bool) (rest : List Token), continues (headToken rest).kind = false →
    statement (blockBody depth) inLoop (tokens ++ rest) = .ok (stmt, rest)

theorem Reads.within {depth : Nat} {tokens : List Token} {stmt : Stmt} (h : Reads depth tokens stmt)
    (inLoop : Bool) : ReadsIn inLoop depth tokens stmt := ⟨h.starts, h.reads inLoop⟩

/-- Tokens after a colon and the end of a line are read as a block, inside a loop or not. -/
def ReadsBlockIn (inLoop : Bool) (depth : Nat) (tokens : List Token) (b : Block) : Prop :=
  ∀ (s₁ s₂ : Span) (rest : List Token), (headToken rest).kind ≠ .indent →
    block (blockBody depth) inLoop (⟨.symbol .colon, s₁⟩ :: ⟨.newline, s₂⟩ :: (tokens ++ rest)) =
      .ok (b, rest)

/-- Tokens after a colon and the end of a line are read as a block wherever they stand. -/
def ReadsBlock (depth : Nat) (tokens : List Token) (b : Block) : Prop :=
  ∀ inLoop : Bool, ReadsBlockIn inLoop depth tokens b

theorem ne_of_continues {rest : List Token} (h : continues (headToken rest).kind = false)
    {k : TokenKind} (hk : continues k = true) : (headToken rest).kind ≠ k := by
  rintro heq
  rw [heq, hk] at h
  cases h

/-- The last clause of an attempt, if there is one, and what is done with it. -/
def cleanupThen (depth : Nat) (inLoop : Bool) (next : Option Block → Parser Action) :
    Parser Action := do
  if ← skip (.keyword .finallyWord) then
    let body ← block (blockBody depth) inLoop
    next (some body)
  else next none

theorem block_line (body : Bool → Parser Block) (inLoop : Bool) (s₁ s₂ : Span)
    (tokens : List Token) :
    block body inLoop (⟨.symbol .colon, s₁⟩ :: ⟨.newline, s₂⟩ :: tokens) =
      (skip .indent >>= fun indented => if indented then body inLoop else pure []) tokens := rfl

theorem readsBlock_nil (depth : Nat) : ReadsBlock depth [] [] := by
  intro inLoop s₁ s₂ rest hrest
  rw [List.nil_append, block_line, bind_skip_false hrest]
  rfl

theorem continues_of_starts {k : TokenKind} (h : Parser.starts k = true) :
    continues k = false := by
  cases k with
  | keyword word => cases word <;> first | rfl | cases h
  | indent => cases h
  | _ => rfl

/-- Tokens are read as statements, one after the other, inside a loop or not. -/
inductive ReadsAllIn (inLoop : Bool) (depth : Nat) : List Token → List Stmt → Prop
  | nil : ReadsAllIn inLoop depth [] []
  | cons {tokens others : List Token} {stmt : Stmt} {stmts : List Stmt} :
      ReadsIn inLoop depth tokens stmt → ReadsAllIn inLoop depth others stmts →
      ReadsAllIn inLoop depth (tokens ++ others) (stmt :: stmts)

/-- Tokens are read as statements, one after the other, wherever they stand. -/
inductive ReadsAll (depth : Nat) : List Token → List Stmt → Prop
  | nil : ReadsAll depth [] []
  | cons {tokens others : List Token} {stmt : Stmt} {stmts : List Stmt} :
      Reads depth tokens stmt → ReadsAll depth others stmts →
      ReadsAll depth (tokens ++ others) (stmt :: stmts)

section Loops

variable {inLoop : Bool} {depth : Nat} {tokens : List Token} {stmts : List Stmt}

/-- What comes after a statement: the next statement, or what ends them all. -/
theorem ReadsAllIn.head (h : ReadsAllIn inLoop depth tokens stmts) {rest : List Token}
    (hrest : continues (headToken rest).kind = false) :
    continues (headToken (tokens ++ rest)).kind = false := by
  cases h with
  | nil => exact hrest
  | cons hreads _ =>
      obtain ⟨t, ts, rfl, ht⟩ := hreads.starts
      exact continues_of_starts ht

theorem ReadsAllIn.length (h : ReadsAllIn inLoop depth tokens stmts) :
    stmts.length ≤ tokens.length := by
  induction h with
  | nil => simp
  | cons hreads _ ih =>
      obtain ⟨t, ts, rfl, -⟩ := hreads.starts
      simp only [List.length_cons, List.length_append]
      omega

theorem ReadsAll.within (h : ReadsAll depth tokens stmts) (inLoop : Bool) :
    ReadsAllIn inLoop depth tokens stmts := by
  induction h with
  | nil => exact .nil
  | cons hreads _ ih => exact .cons (hreads.within inLoop) ih

theorem ReadsAll.append {others : List Token} {rest : List Stmt} (h : ReadsAll depth tokens stmts)
    (h' : ReadsAll depth others rest) : ReadsAll depth (tokens ++ others) (stmts ++ rest) := by
  induction h with
  | nil => exact h'
  | cons hreads _ ih =>
      rw [List.append_assoc]
      exact .cons hreads ih

/-- One round of a loop over statements. -/
theorem blockLoop_step {body : Bool → Parser Block} {t : Token}
    (ht : Parser.starts t.kind = true) (ts : List Token) (fuel : Nat) :
    blockLoop body inLoop (fuel + 1) (t :: ts) =
      (statement body inLoop >>= fun first =>
        blockLoop body inLoop fuel >>= fun rest => pure (first :: rest)) (t :: ts) := by
  obtain ⟨kind, span⟩ := t
  cases kind with
  | newline | indent | dedent | endOfInput => cases ht
  | _ => rfl

theorem programLoop_step {t : Token} (ht : Parser.starts t.kind = true) (ts : List Token)
    (fuel : Nat) :
    programLoop (fuel + 1) (t :: ts) =
      (statement (blockBody maxBlockDepth) false >>= fun first =>
        programLoop fuel >>= fun rest => pure (first :: rest)) (t :: ts) := by
  obtain ⟨kind, span⟩ := t
  cases kind with
  | newline | indent | dedent | endOfInput => cases ht
  | _ => rfl

/-- The statements of an indented block are read up to the token that closes it. -/
theorem ReadsAllIn.blockLoop (h : ReadsAllIn inLoop depth tokens stmts) (s : Span)
    (rest : List Token) {fuel : Nat} (hfuel : stmts.length < fuel) :
    blockLoop (blockBody depth) inLoop fuel (tokens ++ ⟨.dedent, s⟩ :: rest) =
      .ok (stmts, rest) := by
  induction h generalizing fuel with
  | nil =>
      obtain ⟨fuel, rfl⟩ := Nat.exists_eq_add_one.mpr hfuel
      rfl
  | @cons tokens others stmt stmts hreads h ih =>
      obtain ⟨fuel, rfl⟩ := Nat.exists_eq_add_one.mpr (Nat.lt_of_le_of_lt (Nat.zero_le _) hfuel)
      have hnext : continues (headToken (others ++ ⟨.dedent, s⟩ :: rest)).kind = false :=
        h.head rfl
      have hfirst := hreads.reads _ hnext
      have hothers := ih (Nat.lt_of_succ_lt_succ hfuel)
      obtain ⟨t, ts, rfl, ht⟩ := hreads.starts
      rw [List.append_assoc, List.cons_append] at *
      rw [blockLoop_step ht, bind_ok hfirst, bind_ok hothers]
      rfl

/-- The statements of a program are read up to the end of input. -/
theorem ReadsAllIn.programLoop (h : ReadsAllIn false maxBlockDepth tokens stmts) (s : Span)
    {fuel : Nat} (hfuel : stmts.length < fuel) :
    programLoop fuel (tokens ++ [⟨.endOfInput, s⟩]) = .ok (stmts, [⟨.endOfInput, s⟩]) := by
  induction h generalizing fuel with
  | nil =>
      obtain ⟨fuel, rfl⟩ := Nat.exists_eq_add_one.mpr hfuel
      rfl
  | @cons tokens others stmt stmts hreads h ih =>
      obtain ⟨fuel, rfl⟩ := Nat.exists_eq_add_one.mpr (Nat.lt_of_le_of_lt (Nat.zero_le _) hfuel)
      have hnext : continues (headToken (others ++ [⟨.endOfInput, s⟩])).kind = false :=
        h.head rfl
      have hfirst := hreads.reads _ hnext
      have hothers := ih (Nat.lt_of_succ_lt_succ hfuel)
      obtain ⟨t, ts, rfl, ht⟩ := hreads.starts
      rw [List.append_assoc, List.cons_append] at *
      rw [programLoop_step ht, bind_ok hfirst, bind_ok hothers]
      rfl

/-- Indented statements are read as a block. -/
theorem ReadsAllIn.block (h : ReadsAllIn inLoop depth tokens stmts) (s s' : Span) :
    ReadsBlockIn inLoop (depth + 1) (⟨.indent, s⟩ :: (tokens ++ [⟨.dedent, s'⟩])) stmts := by
  intro s₁ s₂ rest hrest
  have hlength := h.length
  have hbody : blockBody (depth + 1) inLoop (tokens ++ ⟨.dedent, s'⟩ :: rest) =
      .ok (stmts, rest) := by
    refine h.blockLoop s' rest ?_
    simp only [List.length_append]
    omega
  rw [block_line, List.cons_append, List.append_assoc, List.singleton_append]
  exact hbody

theorem ReadsAll.block (h : ReadsAll depth tokens stmts) (s s' : Span) :
    ReadsBlock (depth + 1) (⟨.indent, s⟩ :: (tokens ++ [⟨.dedent, s'⟩])) stmts :=
  fun inLoop => (h.within inLoop).block s s'

/-- Statements and the end of input after them parse as a program. -/
theorem ReadsAllIn.parseProgram {source : Text} (h : ReadsAllIn false maxBlockDepth tokens stmts)
    {s : Span} (htokens : tokenize source = .ok (tokens ++ [⟨.endOfInput, s⟩])) :
    parseProgram source = .ok stmts := by
  have hfuel : stmts.length < (tokens ++ [(⟨.endOfInput, s⟩ : Token)]).length + 1 := by
    have hlength := h.length
    rw [List.length_append]
    omega
  have hprogram : looping Parser.programLoop (tokens ++ [⟨.endOfInput, s⟩]) = _ :=
    h.programLoop s hfuel
  rw [TemplateEngine.parseProgram, onSource, htokens]
  simp only [hprogram]

end Loops

end TemplateEngine.Parser
