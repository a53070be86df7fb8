import TemplateEngine.Proofs.Syntax.BlockReading
import TemplateEngine.Proofs.Syntax.Lines
import TemplateEngine.Proofs.Text.Replacement

/-!
# Reading a program back

The rows of a statement are code, the first one at the depth of the statement, so they
yield the tokens that the statement is read off. Blocks are closed by the indentation of
whatever follows them, so what is proved of a statement holds before every text that may
follow it, and the induction is on how statements are put together. A statement is read
with the line of its first row, which is found by counting the rows before it.
-/
namespace TemplateEngine

open Lexeme Parser Lexer

section Headers

variable {ls ms : List Lexeme}

theorem behind_sign {symbol : Symbol} (hsymbol : symbol = .colon ∨ symbol = .comma) :
    Behind [.sign symbol] where
  fits _ hrest := ⟨endsSign_of_ends hrest, trivial⟩
  balanced _ := by rcases hsymbol with rfl | rfl <;> rfl
  ends _ _ := by rcases hsymbol with rfl | rfl <;> exact ends_cons (by decide) _
  oneLine := by rcases hsymbol with rfl | rfl <;> decide

/-- Code behind a sign with blanks around it. -/
theorem Code.behindSign (h : Code ls) {symbol : Symbol}
    (hsymbol : ∀ brackets, Lexer.bracketsAfter? brackets symbol.first = some brackets) :
    Behind (.blank :: .sign symbol :: .blank :: ls) where
  fits rest hrest := ⟨fun _ hc => Option.some.inj hc ▸ by decide, h.fits rest hrest⟩
  balanced brackets := by
    have hblank : Lexeme.bracketsAfter? brackets (.blank :: .sign symbol :: .blank :: ls) =
        (Lexer.bracketsAfter? brackets symbol.first).bind fun next =>
          Lexeme.bracketsAfter? next ls := rfl
    rw [hblank, hsymbol]
    exact h.balanced brackets
  ends _ _ := ends_cons (by decide) _
  oneLine := newline_not_mem_cons (by decide) (newline_not_mem_cons (newline_not_mem_sign symbol)
    (newline_not_mem_cons (by decide) h.oneLine))

theorem Sound.behindSeparated (h : Sound ls) : Behind (Lexeme.separated ls) :=
  ⟨h.separated.fits, h.separated.balanced, fun _ hrest => ends_separated _ hrest,
    h.separated.oneLine⟩

theorem Code.header (h : Code ls) : Code (headerOf ls) := h.append (behind_sign (.inl rfl))

theorem Expr.Plain.code {e : Expr} (h : e.Plain) : Code e.print := h.grammatical.phrase.code

theorem code_printWith {w : Text} (hw : isWord w = true) {e : Expr} (he : e.Plain) :
    Code (printWith w e) := (code_word hw).append he.code.behind

theorem behind_printAlias {name : Option Text} (hname : ∀ n ∈ name, IsName n) :
    Behind (printAlias name) := by
  cases name with
  | none => exact ⟨fun _ _ => trivial, fun _ => rfl, fun _ h => h, by simp [printAlias]⟩
  | some n =>
      have has : isWord "as".toList = true := isWord_of_isLatin (by decide)
      exact ((code_word has).append (code_word (hname n rfl).1).behind).behind

theorem code_printRaise {exception : Option Expr} (h : ∀ e ∈ exception, e.Plain) :
    Code (printRaise exception) := by
  have hword : isWord "raise".toList = true := isWord_of_isLatin (by decide)
  cases exception with
  | none => exact code_word hword
  | some e => exact code_printWith hword (h e rfl)

theorem Handler.Plain.code {matcher : Option Expr} {name : Option Text} {body : List Stmt}
    {line : Nat} (h : (Handler.clause matcher name body line).Plain) :
    Code (printExcept matcher name) := by
  have hword : isWord "except".toList = true := isWord_of_isLatin (by decide)
  cases matcher with
  | none => exact code_word hword
  | some e => exact (code_printWith hword h.1).append (behind_printAlias h.2)

theorem code_names {n : Text} {names : List Text} (h : ∀ m ∈ n :: names, IsName m) :
    Code (printNames (n :: names)) := by
  have hothers : ∀ e ∈ names.map Expr.name, Phrase e.power e.print := by
    intro e he
    obtain ⟨m, hm, rfl⟩ := List.mem_map.mp he
    exact phrase_name (h m (List.mem_cons_of_mem n hm))
  exact (code_word (h n List.mem_cons_self).1).append
    (sound_printItems hothers sound_nil).behindSeparated

theorem Target.Plain.code {target : Target} (h : target.Plain) : Code target.print := by
  cases target with
  | name n => exact code_word h.1
  | index object key => exact (Expr.Grammatical.index h.1.grammatical h.2.grammatical).phrase.code
  | unpack names =>
      match names, h with
      | [], _ =>
          have hempty : (Expr.tuple []).Grammatical := .tuple (by simp)
          exact hempty.phrase.code
      | [n], h => exact (code_word (h n List.mem_cons_self).1).append (behind_sign (.inr rfl))
      | _ :: _ :: _, h => exact code_names h

theorem Target.Loops.plain {target : Target} (h : target.Loops) : target.Plain := by
  cases target with
  | name n => exact h
  | index object key => exact h.elim
  | unpack names => exact h.2

end Headers

namespace CodeRow

/-- Rows of code, the first one at the depth of whatever they belong to. -/
structure Placed (rows : List CodeRow) : Prop where
  code : ∀ row ∈ rows, Code row.code
  first : ∀ row ∈ rows.head?, row.depth = 0

variable {rows others : List CodeRow} {ls : List Lexeme} {depth : Nat} {tail : Text}

theorem placed_nil : Placed [] := ⟨by simp, by simp⟩

theorem placed_row (h : Code ls) : Placed [⟨0, ls⟩] := by
  refine ⟨fun row hrow => ?_, fun row hrow => ?_⟩
  · obtain rfl := List.mem_singleton.mp hrow
    exact h
  · obtain rfl : _ = row := Option.some.inj hrow
    rfl

theorem Placed.append (h : Placed rows) (h' : Placed others) : Placed (rows ++ others) := by
  constructor
  · intro row hrow
    rcases List.mem_append.mp hrow with hrow | hrow
    · exact h.code row hrow
    · exact h'.code row hrow
  · cases rows with
    | nil => exact h'.first
    | cons row rows => exact h.first

theorem Placed.block (h : Placed rows) (hheader : Code ls) : Placed (blockRows ls rows) := by
  constructor
  · intro row hrow
    rcases List.mem_cons.mp hrow with rfl | hrow
    · exact hheader.header
    · obtain ⟨inner, hinner, rfl⟩ := List.mem_map.mp hrow
      exact h.code inner hinner
  · intro row hrow
    obtain rfl : _ = row := Option.some.inj hrow
    rfl

theorem newlines_text {row : CodeRow} (h : Code row.code) (outer : Nat) :
    (row.text outer).newlines = 1 := by
  have hindentation : (Draft.indentation (outer + row.depth)).newlines = 0 := by
    simp [Draft.indentation, Text.times, Text.newlines, List.count_replicate]
  rw [text, Text.newlines_append, Text.newlines_append, hindentation,
    Text.newlines_eq_zero h.oneLine]
  rfl

theorem line_after_textAll (h : ∀ row ∈ rows, Code row.code) (outer : Nat) (p : Position) :
    (p.after (textAll outer rows)).line = p.line + rows.length := by
  induction rows generalizing p with
  | nil => rfl
  | cons row rows ih =>
      have hrow := newlines_text (h row List.mem_cons_self) outer
      have hrows := ih (fun r hr => h r (List.mem_cons_of_mem row hr)) (p.after (row.text outer))
      rw [textAll_cons, Position.after_append, hrows, Position.line_after, hrow,
        List.length_cons]
      omega

/-- Rows, or else the text after them, are no deeper than what they belong to. -/
theorem Placed.follows (h : Placed rows) (hfollows : Follows depth tail) :
    Follows depth (textAll depth rows ++ tail) := by
  cases rows with
  | nil => exact hfollows
  | cons row rows =>
      obtain ⟨c, s, hfirst, hc⟩ := (h.code row List.mem_cons_self).first
      have hdepth := h.first row rfl
      refine .inr (.inr ⟨depth, c, s ++ '\n' :: (textAll depth rows ++ tail), Nat.le_refl depth, ?_, hc⟩)
      rw [textAll_cons, text, hdepth, hfirst]
      simp

/-- The first token of code stands where the code starts. -/
theorem headToken_line (h : Code ls) (p : Position) :
    (headToken (Lexeme.tokens p ls)).span.line = p.line := by
  obtain ⟨c, s, hfirst, hc⟩ := h.first
  cases ls with
  | nil => cases hfirst
  | cons l ls =>
      cases l with
      | blank =>
          obtain rfl : ' ' = c := (List.cons.inj hfirst).1
          exact absurd List.mem_cons_self hc.1
      | word _ | mark _ _ | string _ _ | sign _ | number _ | quoted _ => rfl

theorem spells_tokens (p : Position) (ls : List Lexeme) : Spells ls (Lexeme.tokens p ls) := by
  induction ls generalizing p with
  | nil => rfl
  | cons l ls ih =>
      have hls := ih (p.after l.text)
      cases hl : l.kind? with
      | none =>
          rw [Spells, kinds, List.filterMap_cons_none hl, Lexeme.tokens, hl]
          exact hls
      | some kind =>
          rw [Spells, kinds, List.filterMap_cons_some hl, Lexeme.tokens, hl]
          exact congrArg (kind :: ·) hls

/-- A row yields the tokens of its code and the end of its line. -/
theorem yields_row (h : Code ls) (depth : Nat) (p : Position) (tail : Text) :
    ∃ us s, Spells ls us ∧ (headToken us).span.line = p.line ∧
      Yields depth p (text depth ⟨0, ls⟩) tail (us ++ [⟨.newline, s⟩]) := by
  obtain ⟨c, s, hfirst, hc⟩ := h.first
  have hrow := lexed_row hfirst hc tail (h.fits _ (ends_cons (by decide) tail)) (h.balanced [])
    p depth
  refine ⟨Lexeme.tokens (p.after (Draft.indentation depth)) ls, _, spells_tokens _ ls, ?_,
    Eq.trans ?_ hrow⟩
  · rw [headToken_line h, Position.line_after_indentation]
  · rw [text, Nat.add_zero]
    simp only [List.append_assoc, List.singleton_append]

end CodeRow

open CodeRow

/-- The rows of a statement are placed, and before any text that closes its blocks they are
read as the statement, with the lines of its rows. -/
structure Readable (inLoop : Bool) (action : Action) : Prop where
  placed : Placed action.rows
  reads : ∀ (k depth : Nat) (p : Position) (tail : Text), action.nesting ≤ k →
    Follows depth tail → ∃ tokens, Yields depth p (textAll depth action.rows) tail tokens ∧
      ReadsIn inLoop k tokens (.at p.line (action.numbered p.line))
  nonempty : action.rows ≠ []

theorem Stmt.rows_action (s : Stmt) : s.rows = s.action.rows := by
  cases s
  rfl

theorem Stmt.nesting_action (s : Stmt) : s.nesting = s.action.nesting := by
  cases s
  rfl

theorem Stmt.numbered_action (s : Stmt) (line : Nat) :
    s.numbered line = .at line (s.action.numbered line) := by
  cases s
  rfl

section Bodies

variable {inLoop : Bool} {body : List Stmt} {k : Nat}

theorem placed_stmtRows (h : ∀ s ∈ body, Readable inLoop s.action) : Placed (stmtRows body) := by
  induction body with
  | nil => exact placed_nil
  | cons s body ih =>
      rw [stmtRows, s.rows_action]
      exact (h s List.mem_cons_self).placed.append
        (ih fun r hr => h r (List.mem_cons_of_mem s hr))

/-- The rows of statements are read one after the other. -/
theorem reads_stmts (h : ∀ s ∈ body, Readable inLoop s.action) (hk : ∀ s ∈ body, s.nesting ≤ k)
    {depth : Nat} {tail : Text} (hfollows : Follows depth tail) (p : Position) :
    ∃ tokens, Yields depth p (textAll depth (stmtRows body)) tail tokens ∧
      ReadsAllIn inLoop k tokens (numberedStmts p.line body) := by
  induction body generalizing p with
  | nil => exact ⟨[], yields_nil depth p tail, .nil⟩
  | cons s body ih =>
      have hs := h s List.mem_cons_self
      have hbody : ∀ r ∈ body, Readable inLoop r.action := fun r hr =>
        h r (List.mem_cons_of_mem s hr)
      have hnesting : s.action.nesting ≤ k := s.nesting_action ▸ hk s List.mem_cons_self
      obtain ⟨ts, hts, hreads⟩ := hs.reads k depth p _ hnesting
        ((placed_stmtRows hbody).follows hfollows)
      obtain ⟨us, hus, hothers⟩ := ih hbody (fun r hr => hk r (List.mem_cons_of_mem s hr))
        (p.after (textAll depth s.action.rows))
      rw [line_after_textAll hs.placed.code] at hothers
      refine ⟨ts ++ us, ?_, ?_⟩
      · rw [stmtRows, s.rows_action, textAll_append]
        exact hts.append hus
      · rw [numberedStmts, s.numbered_action, s.rows_action]
        exact .cons hreads hothers

theorem nesting_le_of_block (hk : nestingBlock body ≤ k + 1) : ∀ s ∈ body, s.nesting ≤ k := by
  induction body with
  | nil => exact fun _ hs => nomatch hs
  | cons s body ih =>
      rw [nestingBlock] at hk
      intro r hr
      rcases List.mem_cons.mp hr with rfl | hr
      · omega
      · exact ih (by omega) r hr

/-- The rows of the statements of a block, one level deeper, are read as the block. -/
theorem reads_block (h : ∀ s ∈ body, Readable inLoop s.action) (hk : nestingBlock body ≤ k)
    {depth : Nat} {tail : Text} (hfollows : Follows depth tail) (p : Position) :
    ∃ inner, Yields depth p (textAll (depth + 1) (stmtRows body)) tail inner ∧
      ReadsBlockIn inLoop k inner (numberedStmts p.line body) := by
  cases body with
  | nil => exact ⟨[], yields_nil depth p tail, readsBlock_nil k inLoop⟩
  | cons s body =>
      obtain ⟨k, rfl⟩ : ∃ j, k = j + 1 := ⟨k - 1, by rw [nestingBlock] at hk; omega⟩
      obtain ⟨tokens, hyields, hreads⟩ := reads_stmts h (nesting_le_of_block hk)
        hfollows.succ p
      have hs := h s List.mem_cons_self
      obtain ⟨row, rows, hrows⟩ := List.exists_cons_of_ne_nil hs.nonempty
      obtain ⟨c, t, hfirst, hc⟩ := (hs.placed.code row (hrows ▸ List.mem_cons_self)).first
      have hdepth : row.depth = 0 := hs.placed.first row (by rw [hrows]; rfl)
      obtain ⟨u, hu⟩ : ∃ u, textAll (depth + 1) (stmtRows (s :: body)) ++ tail =
          Draft.indentation (depth + 1) ++ c :: u := by
        rw [stmtRows, s.rows_action, hrows, List.cons_append, textAll_cons, CodeRow.text, hdepth,
          hfirst]
        exact ⟨_, by simp only [List.append_assoc, List.cons_append, Nat.add_zero]; rfl⟩
      obtain ⟨place, hclose⟩ := lexed_close hfollows
        (p.after (textAll (depth + 1) (stmtRows (s :: body))))
      refine ⟨_, ?_, hreads.block ⟨p.after (Draft.indentation (depth + 1)),
        p.after (Draft.indentation (depth + 1))⟩ ⟨place, place⟩⟩
      rw [Lexer.Yields, hu, lexed_deeper hc, ← hu, hyields, hclose, Outcome.after_after,
        Outcome.after_after]
      rfl

/-- A header and the rows of its block, as their tokens are read. -/
theorem reads_headed {ls : List Lexeme} (hls : Code ls)
    (h : ∀ s ∈ body, Readable inLoop s.action) (hk : nestingBlock body ≤ k) {depth : Nat}
    {tail : Text} (hfollows : Follows depth tail) (p : Position) :
    ∃ us s inner, Spells (headerOf ls) us ∧ (headToken us).span.line = p.line ∧
      ReadsBlockIn inLoop k inner (numberedStmts (p.line + 1) body) ∧
        Yields depth p (textAll depth (blockRows ls (stmtRows body))) tail
          (us ++ ⟨.newline, s⟩ :: inner) := by
  obtain ⟨us, s, hus, hline, hrow⟩ := yields_row hls.header depth p
    (textAll (depth + 1) (stmtRows body) ++ tail)
  obtain ⟨inner, hinner, hreads⟩ := reads_block h hk hfollows (p.after (text depth ⟨0, headerOf ls⟩))
  rw [Position.line_after, newlines_text hls.header] at hreads
  have hall := hrow.append hinner
  refine ⟨us, s, inner, hus, hline, hreads, ?_⟩
  rw [List.append_assoc, List.singleton_append] at hall
  rw [blockRows, textAll_cons, textAll_inner]
  exact hall

/-- A block that may be absent. -/
theorem reads_option {word : Text} {block : Option (List Stmt)} (hword : isWord word = true)
    (h : ∀ body ∈ block, ∀ s ∈ body, Readable inLoop s.action) (hk : nestingOption block ≤ k)
    {depth : Nat} {tail : Text} (hfollows : Follows depth tail) (p : Position) :
    ∃ tokens, Yields depth p (textAll depth (optionRows word block)) tail tokens ∧
      ReadsOption inLoop k word tokens (numberedOption p.line block) := by
  cases block with
  | none => exact ⟨[], yields_nil depth p tail, .none⟩
  | some body =>
      obtain ⟨us, s, inner, hus, -, hinner, hyields⟩ :=
        reads_headed (code_word hword) (h body rfl) hk hfollows p
      exact ⟨_, hyields, .some s hus hinner⟩

theorem placed_optionRows {word : Text} {block : Option (List Stmt)} (hword : isWord word = true)
    (h : ∀ body ∈ block, ∀ s ∈ body, Readable inLoop s.action) :
    Placed (optionRows word block) := by
  cases block with
  | none => exact placed_nil
  | some body => exact (placed_stmtRows (h body rfl)).block (code_word hword)

theorem placed_branchRows {word : Text} {branches : List (Expr × List Stmt)}
    (hword : isWord word = true) (hconditions : ∀ b ∈ branches, b.1.Plain)
    (h : ∀ b ∈ branches, ∀ s ∈ b.2, Readable inLoop s.action) :
    Placed (branchRows word branches) := by
  induction branches generalizing word with
  | nil => exact placed_nil
  | cons branch branches ih =>
      obtain ⟨condition, body⟩ := branch
      have hhead := placed_stmtRows (h (condition, body) List.mem_cons_self)
      exact (hhead.block (code_printWith hword (hconditions _ List.mem_cons_self))).append
        (ih (isWord_of_isLatin (by decide)) (fun b hb => hconditions b (List.mem_cons_of_mem _ hb))
          fun b hb => h b (List.mem_cons_of_mem _ hb))

/-- The branches of a conditional after its first one. -/
theorem reads_branches {branches : List (Expr × List Stmt)}
    (hconditions : ∀ b ∈ branches, b.1.Plain)
    (h : ∀ b ∈ branches, ∀ s ∈ b.2, Readable inLoop s.action)
    (hk : nestingBranches branches ≤ k) {depth : Nat} {tail : Text}
    (hfollows : Follows depth tail) (p : Position) :
    ∃ tokens, Yields depth p (textAll depth (branchRows "elif".toList branches)) tail tokens ∧
      ReadsBranches inLoop k tokens (numberedBranches p.line branches) := by
  have hword : isWord "elif".toList = true := isWord_of_isLatin (by decide)
  induction branches generalizing p with
  | nil => exact ⟨[], yields_nil depth p tail, .nil⟩
  | cons branch branches ih =>
      obtain ⟨condition, body⟩ := branch
      rw [nestingBranches] at hk
      have hcondition := hconditions _ List.mem_cons_self
      have hbody := h _ List.mem_cons_self
      have hconditions' := fun b hb => hconditions b (List.mem_cons_of_mem (condition, body) hb)
      have hbodies := fun b hb => h b (List.mem_cons_of_mem (condition, body) hb)
      have hheader := code_printWith hword hcondition
      obtain ⟨us, s, inner, hus, -, hinner, hyields⟩ := reads_headed hheader hbody
        (show nestingBlock body ≤ k by omega)
        ((placed_branchRows hword hconditions' hbodies).follows hfollows) p
      obtain ⟨others, hothers, hreads⟩ := ih hconditions' hbodies (by omega) (p.after (textAll depth
        (blockRows (printWith "elif".toList condition) (stmtRows body))))
      rw [line_after_textAll ((placed_stmtRows hbody).block hheader).code, blockRows,
        List.length_cons, length_inner, ← Nat.add_assoc, Nat.add_right_comm] at hreads
      have hall := hyields.append hothers
      rw [List.append_assoc, List.cons_append] at hall
      refine ⟨_, ?_, .cons s hcondition hus hinner hreads⟩
      rw [branchRows, textAll_append]
      exact hall

theorem placed_handlerRows {handlers : List Handler} (hplain : ∀ handler ∈ handlers, handler.Plain)
    (h : ∀ handler ∈ handlers, ∀ s ∈ handler.body, Readable inLoop s.action) :
    Placed (handlerRows handlers) := by
  induction handlers with
  | nil => exact placed_nil
  | cons handler handlers ih =>
      obtain ⟨matcher, name, body, line⟩ := handler
      have hhead := placed_stmtRows (h (.clause matcher name body line) List.mem_cons_self)
      exact (hhead.block (hplain _ List.mem_cons_self).code).append
        (ih (fun c hc => hplain c (List.mem_cons_of_mem _ hc))
          fun c hc => h c (List.mem_cons_of_mem _ hc))

/-- The except clauses of an attempt. -/
theorem reads_handlers {handlers : List Handler} (hplain : ∀ handler ∈ handlers, handler.Plain)
    (h : ∀ handler ∈ handlers, ∀ s ∈ handler.body, Readable inLoop s.action)
    (hk : nestingHandlers handlers ≤ k) {depth : Nat} {tail : Text}
    (hfollows : Follows depth tail) (p : Position) :
    ∃ tokens, Yields depth p (textAll depth (handlerRows handlers)) tail tokens ∧
      ReadsHandlers inLoop k tokens (numberedHandlers p.line handlers) := by
  induction handlers generalizing p with
  | nil => exact ⟨[], yields_nil depth p tail, .nil⟩
  | cons handler handlers ih =>
      obtain ⟨matcher, name, body, line⟩ := handler
      rw [nestingHandlers] at hk
      have hhandler := hplain _ List.mem_cons_self
      have hbody : ∀ s ∈ body, Readable inLoop s.action :=
        h (.clause matcher name body line) List.mem_cons_self
      have hplain' : ∀ c ∈ handlers, c.Plain := fun c hc => hplain c (List.mem_cons_of_mem _ hc)
      have hbodies : ∀ c ∈ handlers, ∀ s ∈ c.body, Readable inLoop s.action :=
        fun c hc => h c (List.mem_cons_of_mem _ hc)
      obtain ⟨us, s, inner, hus, hline, hinner, hyields⟩ := reads_headed hhandler.code hbody
        (show nestingBlock body ≤ k by omega)
        ((placed_handlerRows hplain' hbodies).follows hfollows) p
      obtain ⟨others, hothers, hreads⟩ := ih hplain' hbodies (by omega) (p.after (textAll depth
        (blockRows (printExcept matcher name) (stmtRows body))))
      rw [line_after_textAll ((placed_stmtRows hbody).block hhandler.code).code, blockRows,
        List.length_cons, length_inner, ← Nat.add_assoc, Nat.add_right_comm] at hreads
      have hall := hyields.append hothers
      rw [List.append_assoc, List.cons_append] at hall
      have hclause : (Handler.clause matcher name (numberedStmts (p.line + 1) body)
          (headToken us).span.line).Plain := by
        cases matcher <;> exact hhandler
      have hreads := ReadsHandlers.cons s hclause hus hinner hreads
      rw [hline] at hreads
      refine ⟨_, ?_, hreads⟩
      rw [handlerRows, textAll_append]
      exact hall

end Bodies

section Actions

variable {inLoop : Bool}

/-- A simple statement is one row. -/
theorem readable_simple {action : Action} {ls : List Lexeme} (hls : Code ls)
    (hrows : action.rows = [⟨0, ls⟩]) (hnumbered : ∀ line, action.numbered line = action)
    (hreads : ∀ ts, Spells ls ts → ReadsSimple inLoop ts action) : Readable inLoop action where
  placed := hrows ▸ placed_row hls
  nonempty := hrows ▸ List.cons_ne_nil _ _
  reads k depth p tail _ _ := by
    obtain ⟨us, s, hus, hline, hrow⟩ := yields_row hls depth p tail
    have hstmt := (hreads us hus).row k s
    rw [hline] at hstmt
    refine ⟨us ++ [⟨.newline, s⟩], ?_, ?_⟩
    · rw [hrows, textAll_cons, textAll_nil, List.append_nil]
      exact hrow
    · rw [hnumbered]
      exact hstmt

/-- A statement that is a header and a block. -/
theorem readable_headed {loop : Bool} (action : List Stmt → Action) {ls : List Lexeme}
    {body : List Stmt} (hls : Code ls)
    (hbody : ∀ s ∈ body, Readable loop s.action)
    (hrows : (action body).rows = blockRows ls (stmtRows body))
    (hnumbered : ∀ line, (action body).numbered line = action (numberedStmts (line + 1) body))
    (hnesting : (action body).nesting = nestingBlock body)
    (hreads : ∀ (k : Nat) (us inner : List Token) (s : Span) (b : Block), Spells (headerOf ls) us →
      ReadsBlockIn loop k inner b → ReadsIn inLoop k (us ++ ⟨.newline, s⟩ :: inner)
        (.at (headToken us).span.line (action b))) : Readable inLoop (action body) where
  placed := hrows ▸ (placed_stmtRows hbody).block hls
  nonempty := hrows ▸ List.cons_ne_nil _ _
  reads k depth p tail hk hfollows := by
    obtain ⟨us, s, inner, hus, hline, hinner, hyields⟩ :=
      reads_headed hls hbody (hnesting ▸ hk) hfollows p
    have hstmt := hreads k us inner s _ hus hinner
    rw [hline] at hstmt
    refine ⟨_, hrows ▸ hyields, ?_⟩
    rw [hnumbered]
    exact hstmt

theorem readable_branch {branches : List (Expr × List Stmt)} {otherwise : Option (List Stmt)}
    (hbranches : branches ≠ []) (hconditions : ∀ b ∈ branches, b.1.Plain)
    (hbodies : ∀ b ∈ branches, ∀ s ∈ b.2, Readable inLoop s.action)
    (hotherwise : ∀ body ∈ otherwise, ∀ s ∈ body, Readable inLoop s.action) :
    Readable inLoop (.branch branches otherwise) := by
  have hif : isWord "if".toList = true := isWord_of_isLatin (by decide)
  have helif : isWord "elif".toList = true := isWord_of_isLatin (by decide)
  have helse : isWord "else".toList = true := isWord_of_isLatin (by decide)
  have hlast := placed_optionRows helse hotherwise
  obtain ⟨⟨condition, body⟩, branches, rfl⟩ := List.exists_cons_of_ne_nil hbranches
  have hcondition : condition.Plain := hconditions (condition, body) List.mem_cons_self
  have hconditions' : ∀ b ∈ branches, b.1.Plain := fun b hb =>
    hconditions b (List.mem_cons_of_mem _ hb)
  have hbodies' : ∀ b ∈ branches, ∀ s ∈ b.2, Readable inLoop s.action := fun b hb =>
    hbodies b (List.mem_cons_of_mem _ hb)
  have hbody : ∀ s ∈ body, Readable inLoop s.action := hbodies (condition, body) List.mem_cons_self
  have hheader := code_printWith hif hcondition
  have hfirst := (placed_stmtRows hbody).block hheader
  have hothers := placed_branchRows helif hconditions' hbodies'
  refine ⟨(hfirst.append hothers).append hlast, fun k depth p tail hk hfollows => ?_,
    List.cons_ne_nil _ _⟩
  rw [Action.nesting, nestingBranches] at hk
  have hafter := hlast.follows hfollows
  obtain ⟨us, s, inner, hus, hline, hinner, hyields⟩ := reads_headed hheader hbody
    (show nestingBlock body ≤ k by omega) (hothers.follows hafter) p
  obtain ⟨ts, hts, hreads⟩ := reads_branches hconditions' hbodies'
    (show nestingBranches branches ≤ k by omega) hafter
    (p.after (textAll depth (blockRows (printWith "if".toList condition) (stmtRows body))))
  obtain ⟨zs, hzs, hreads'⟩ := reads_option helse hotherwise
    (show nestingOption otherwise ≤ k by omega) hfollows
    (p.after (textAll depth (blockRows (printWith "if".toList condition) (stmtRows body) ++
      branchRows "elif".toList branches)))
  have hlines : (blockRows (printWith "if".toList condition) (stmtRows body)).length =
      1 + (stmtRows body).length := by
    rw [blockRows, List.length_cons, length_inner, Nat.add_comm]
  rw [line_after_textAll hfirst.code, hlines, ← Nat.add_assoc] at hreads
  rw [line_after_textAll (hfirst.append hothers).code] at hreads'
  have hstmt := reads_branch s hcondition hus hinner hreads hreads'
  rw [hline] at hstmt
  have hheaded := hyields.append hts
  rw [← textAll_append] at hheaded
  have hall := hheaded.append hzs
  rw [← textAll_append, List.append_assoc _ ts, List.append_assoc us, List.cons_append] at hall
  exact ⟨_, hall, hstmt⟩

theorem readable_attempt {body : List Stmt} {handlers : List Handler}
    {cleanup : Option (List Stmt)} (hclauses : handlers ≠ [] ∨ cleanup ≠ none)
    (hbody : ∀ s ∈ body, Readable inLoop s.action) (hplain : ∀ handler ∈ handlers, handler.Plain)
    (hhandlers : ∀ handler ∈ handlers, ∀ s ∈ handler.body, Readable inLoop s.action)
    (hcleanup : ∀ body ∈ cleanup, ∀ s ∈ body, Readable inLoop s.action) :
    Readable inLoop (.attempt body handlers cleanup) := by
  have htry : isWord "try".toList = true := isWord_of_isLatin (by decide)
  have hfinally : isWord "finally".toList = true := isWord_of_isLatin (by decide)
  have hfirst := (placed_stmtRows hbody).block (code_word htry)
  have hothers := placed_handlerRows hplain hhandlers
  have hlast := placed_optionRows hfinally hcleanup
  refine ⟨hfirst.append (hothers.append hlast), fun k depth p tail hk hfollows => ?_,
    List.cons_ne_nil _ _⟩
  rw [Action.nesting] at hk
  have hafter := hlast.follows hfollows
  obtain ⟨us, s, inner, hus, hline, hinner, hyields⟩ := reads_headed (code_word htry) hbody
    (show nestingBlock body ≤ k by omega) (hothers.follows hafter) p
  obtain ⟨ts, hts, hreads⟩ := reads_handlers hplain hhandlers
    (show nestingHandlers handlers ≤ k by omega) hafter
    (p.after (textAll depth (blockRows [.word "try".toList] (stmtRows body))))
  obtain ⟨zs, hzs, hreads'⟩ := reads_option hfinally hcleanup
    (show nestingOption cleanup ≤ k by omega) hfollows
    (p.after (textAll depth (blockRows [.word "try".toList] (stmtRows body) ++
      handlerRows handlers)))
  have hlines : (blockRows [.word "try".toList] (stmtRows body)).length =
      1 + (stmtRows body).length := by
    rw [blockRows, List.length_cons, length_inner, Nat.add_comm]
  rw [line_after_textAll hfirst.code, hlines, ← Nat.add_assoc] at hreads
  rw [line_after_textAll (hfirst.append hothers).code, List.length_append, hlines,
    ← Nat.add_assoc, ← Nat.add_assoc] at hreads'
  have hsome : ((numberedHandlers (p.line + 1 + (stmtRows body).length) handlers).isEmpty &&
      (numberedOption (p.line + 1 + (stmtRows body).length + (handlerRows handlers).length)
        cleanup).isNone) = false := by
    rcases hclauses with h | h
    · obtain ⟨⟨_, _, _, _⟩, _, rfl⟩ := List.exists_cons_of_ne_nil h
      rfl
    · obtain ⟨_, rfl⟩ := Option.ne_none_iff_exists'.mp h
      exact Bool.and_false _
  have hstmt := reads_attempt s hsome hus hinner hreads hreads'
  rw [hline] at hstmt
  have hheaded := hyields.append hts
  rw [← textAll_append] at hheaded
  have hall := hheaded.append hzs
  rw [← textAll_append, List.append_assoc _ ts, List.append_assoc us, List.cons_append,
    List.append_assoc] at hall
  exact ⟨_, hall, hstmt⟩

/-- What statements do is read back from their rows, if the grammar admits it. -/
theorem Action.Grammatical.readable {action : Action} (h : action.Grammatical inLoop) :
    Readable inLoop action := by
  have hlatin : ∀ w : Text, (!w.isEmpty && w.all Letter.isLatin) = true → isWord w = true :=
    fun _ hw => isWord_of_isLatin hw
  induction h with
  | expr hvalue =>
      exact readable_simple hvalue.code rfl (fun _ => rfl) fun _ hts => readsSimple_expr hvalue hts
  | assign htarget hvalue =>
      have hequals : Behind (.blank :: .sign .equals :: .blank :: _) :=
        hvalue.code.behindSign fun _ => rfl
      exact readable_simple (htarget.code.append hequals) rfl (fun _ => rfl) fun _ hts =>
        readsSimple_assign htarget hvalue hts
  | @augAssign _ target op value htarget hsingle hop hvalue =>
      obtain ⟨sign, hsign⟩ := Option.isSome_iff_exists.mp hop
      have hbrackets : ∀ brackets, Lexer.bracketsAfter? brackets sign.first = some brackets := by
        intro brackets
        cases op <;> cases hsign <;> rfl
      refine readable_simple (htarget.code.append (hvalue.code.behindSign hbrackets)) ?_
        (fun _ => rfl) fun _ hts => readsSimple_augAssign htarget hsingle hsign hvalue hts
      rw [Action.rows, hsign]
      rfl
  | branch hbranches hconditions _ _ ihbranches ihotherwise =>
      exact readable_branch hbranches hconditions ihbranches ihotherwise
  | @forEach _ target items body htarget hitems _ ih =>
      have hin := (code_printWith (hlatin "in".toList (by decide)) hitems).behind
      have hcode := (code_word (hlatin "for".toList (by decide))).append
        (htarget.plain.code.append hin).behind
      exact readable_headed (.forEach target items) hcode ih rfl (fun _ => rfl) rfl
        fun _ _ _ s _ hus hinner => reads_forEach s htarget hitems hus hinner
  | @whileTrue _ condition body hcondition _ ih =>
      exact readable_headed (.whileTrue condition)
        (code_printWith (hlatin _ (by decide)) hcondition) ih rfl (fun _ => rfl) rfl
        fun _ _ _ s _ hus hinner => reads_whileTrue s hcondition hus hinner
  | attempt hclauses _ hplain _ _ ihbody ihhandlers ihcleanup =>
      exact readable_attempt hclauses ihbody hplain ihhandlers ihcleanup
  | raise hexception =>
      exact readable_simple (code_printRaise hexception) rfl (fun _ => rfl)
        fun _ hts => readsSimple_raise hexception hts
  | @within _ context name body hcontext hname _ ih =>
      have hcode := (code_printWith (hlatin "with".toList (by decide)) hcontext).append
        (behind_printAlias hname)
      exact readable_headed (.within context name) hcode ih rfl (fun _ => rfl) rfl
        fun _ _ _ s _ hus hinner => reads_within s hcontext hname hus hinner
  | pass =>
      exact readable_simple (code_word (hlatin _ (by decide))) rfl (fun _ => rfl) fun _ hts =>
        readsSimple_word (show _ = TokenKind.keyword .passWord from rfl) (fun _ _ => rfl) rfl hts
  | breakLoop =>
      exact readable_simple (code_word (hlatin _ (by decide))) rfl (fun _ => rfl) fun _ hts =>
        readsSimple_word (show _ = TokenKind.keyword .breakWord from rfl) (fun _ _ => rfl) rfl hts
  | continueLoop =>
      exact readable_simple (code_word (hlatin _ (by decide))) rfl (fun _ => rfl) fun _ hts =>
        readsSimple_word (show _ = TokenKind.keyword .continueWord from rfl) (fun _ _ => rfl) rfl hts

end Actions

/-- The text of a program that the grammar admits reads back as the program, with each
statement and each except clause on the line that it is written on. -/
theorem parseProgram_text (program : Block) (h : program.Grammatical) :
    parseProgram program.text = .ok program.numbered := by
  have hreadable : ∀ s ∈ program, Readable false s.action := fun s hs =>
    (h.statements s hs).readable
  have hend : ([] : Text) = [] ∨ ([] : Text) = ['\n'] := .inl rfl
  obtain ⟨tokens, hyields, hreads⟩ := reads_stmts hreadable h.nesting
    (show Follows 0 [] from hend.imp id .inl) Position.start
  rw [Lexer.Yields, List.append_nil, lexed_end hend] at hyields
  have hlexed : Lexer.outcome program.text = _ := (outcome_eq_lexed _).trans hyields
  have htokens : tokenize program.text =
      .ok (tokens ++ [emptyToken (Position.start.after program.text) .endOfInput]) := by
    rw [tokenize, hlexed]
    rfl
  exact hreads.parseProgram htokens

theorem isName_of_isLatin {n : Text} (hlatin : (!n.isEmpty && n.all Letter.isLatin) = true)
    (hword : TokenKind.ofWord n = .identifier n) : IsName n := ⟨isWord_of_isLatin hlatin, hword⟩

theorem grammatical_name {n : Text} (hlatin : (!n.isEmpty && n.all Letter.isLatin) = true)
    (hword : TokenKind.ofWord n = .identifier n) : (Expr.name n).Grammatical :=
  .name (isName_of_isLatin hlatin hword)

/-- A loop with a conditional in it, whose second branch is empty, and a statement behind. -/
def loopProgram (first second third fourth : Nat) : Block :=
  [.at first (.forEach (.unpack ["k".toList, "v".toList]) (.name "d".toList)
    [.at second (.branch [(.name "v".toList, [.at third .continueLoop])] (some [])),
      .at fourth .pass])]

theorem parseProgram_text_loop : (loopProgram 0 0 0 0).Grammatical ∧
    parseProgram "for k, v in d:\n  if v:\n    continue\n  else:\n  pass\n".toList =
      .ok (loopProgram 1 2 3 5) := by
  have hk : IsName "k".toList := isName_of_isLatin (by decide) rfl
  have hv : IsName "v".toList := isName_of_isLatin (by decide) rfl
  have hd : (Expr.name "d".toList).Plain := ⟨grammatical_name (by decide) rfl, Nat.zero_le _⟩
  have htarget : (Target.unpack ["k".toList, "v".toList]).Loops := by
    refine ⟨Nat.le_refl 2, ?_⟩
    rintro n (_ | ⟨_, _ | ⟨_, ⟨⟩⟩⟩)
    · exact hk
    · exact hv
  have hbranch : (Action.branch [(.name "v".toList, [.at 0 .continueLoop])] (some [])).Grammatical
      true := by
    refine .branch (List.cons_ne_nil _ _) ?_ ?_ (by simp)
    · rintro b (_ | ⟨_, ⟨⟩⟩)
      exact ⟨.name hv, Nat.zero_le _⟩
    · rintro b (_ | ⟨_, ⟨⟩⟩) s (_ | ⟨_, ⟨⟩⟩)
      exact .continueLoop
  have hprogram : (loopProgram 0 0 0 0).Grammatical := by
    refine ⟨?_, by decide⟩
    rintro s (_ | ⟨_, ⟨⟩⟩)
    refine .forEach htarget hd ?_
    rintro s (_ | ⟨_, _ | ⟨_, ⟨⟩⟩⟩)
    · exact hbranch
    · exact .pass
  have htext : (loopProgram 0 0 0 0).text =
      "for k, v in d:\n  if v:\n    continue\n  else:\n  pass\n".toList := by decide
  have hparse := parseProgram_text _ hprogram
  rw [htext] at hparse
  exact ⟨hprogram, hparse⟩

/-- The tokens of code on one line, up to the end of input. -/
theorem lexed_code {ls : List Lexeme} (h : Code ls) : ∃ us s s', Spells ls us ∧
    tokenize (line ls) = .ok (us ++ [⟨.newline, s⟩, ⟨.endOfInput, s'⟩]) := by
  obtain ⟨c, t, hfirst, hc⟩ := h.first
  have hstart := lexed_sameDepth hc t Position.start 0
  have hline : lexed ⟨line ls ++ [], Position.start, [], [], false, true⟩ = _ :=
    lexed_line (h.fits [] rfl) (h.balanced [])
  have hend : ∀ p, lexed ⟨[], p, [], [], false, false⟩ =
      ⟨[emptyToken p .newline, emptyToken p .endOfInput], none, 0⟩ := fun p =>
    lexed_done rfl
  rw [tokens_ne_nil hfirst hc, Bool.and_false, hend, List.append_nil, hfirst] at hline
  have hlexed : Lexer.outcome (line ls) = _ :=
    (outcome_eq_lexed _).trans ((congrArg (fun t => (ofText t).lexed) hfirst).trans
      (hstart.trans hline))
  have htokens : tokenize (line ls) = .ok (Lexeme.tokens Position.start ls ++
      [emptyToken (Position.start.after (c :: t)) .newline,
        emptyToken (Position.start.after (c :: t)) .endOfInput]) := by
    rw [tokenize, hlexed]
    rfl
  exact ⟨_, _, _, spells_tokens Position.start ls, htokens⟩

/-- Code that is read whole as an expression is the text of that expression. -/
theorem parseExpression_of_completes {ls : List Lexeme} {e : Expr} (hls : Code ls)
    (he : Completes maxExprDepth ls e) : parseExpression (line ls) = .ok e := by
  obtain ⟨us, s, s', hus, htokens⟩ := lexed_code hls
  have hread : expression (us ++ [⟨.newline, s⟩, ⟨.endOfInput, s'⟩]) = .ok (e, _) :=
    he.expression hus rfl
  rw [parseExpression, onSource, htokens, onlyExpression]
  dsimp only
  rw [bind_ok hread]
  rfl

/-- A negated subscript, if a comparison of two words holds. -/
def conditionalExpr : Expr :=
  .conditional (.compare .notIn (.name "x".toList) (.name "b".toList))
    (.unary .neg (.index (.name "a".toList) (.constant (.int 0)))) (.constant (.str "c".toList))

end TemplateEngine
