import TemplateEngine.Proofs.Syntax.Lexemes
import TemplateEngine.Proofs.Syntax.Rounds
import TemplateEngine.Proofs.Syntax.Strings

/-!
# Lexing lines of lexemes

A line of lexemes that fits what comes after it yields one token for every
lexeme but the blanks. At the start of a line the indentation decides first
whether blocks are opened or closed; the widths of the open blocks of a
generated program are the even numbers up to that of its innermost block.
-/
namespace TemplateEngine

theorem Position.line_after (p : Position) (t : Text) :
    (p.after t).line = p.line + t.newlines := by
  induction t generalizing p with
  | nil => rfl
  | cons c t ih =>
      rw [Position.after_cons, ih]
      by_cases hc : c = '\n'
      · subst hc
        simp only [Position.step, if_true, Text.newlines, List.count_cons_self]
        omega
      · simp only [Position.step, if_neg hc, Text.newlines, List.count_cons_of_ne hc]

theorem Position.line_after_indentation (p : Position) (depth : Nat) :
    (p.after (Draft.indentation depth)).line = p.line := by
  rw [Position.line_after]
  simp [Draft.indentation, Text.times, Text.newlines, List.count_replicate]

namespace Lexeme

/-- The token of a lexeme, unless it is a blank. -/
def kind? : Lexeme → Option TokenKind
  | blank => none
  | word w => some (.ofWord w)
  | mark _ symbol => some (.symbol symbol)
  | string _ value => some (.string value)
  | sign symbol => some (.symbol symbol)
  | number n => some (.int n)
  | quoted t => some (.string t)

/-- The tokens of lexemes from a place on. -/
def tokens : Position → List Lexeme → List Token
  | _, [] => []
  | p, l :: ls =>
    (l.kind?.map fun kind => Token.mk kind ⟨p, p.after l.text⟩).toList ++
      tokens (p.after l.text) ls

/-- The brackets that are open after lexemes, unless one closes what is not open. -/
def bracketsAfter? (brackets : List Char) : List Lexeme → Option (List Char)
  | [] => some brackets
  | .mark c _ :: ls => (Lexer.bracketsAfter? brackets c).bind fun next => bracketsAfter? next ls
  | .sign symbol :: ls =>
    (Lexer.bracketsAfter? brackets symbol.first).bind fun next => bracketsAfter? next ls
  | _ :: ls => bracketsAfter? brackets ls

end Lexeme

namespace Lexer

/-- A character that no blank and no comment begins with. -/
def Visible (c : Char) : Prop := c ∉ [' ', '\t', '\r', '\x0c', '#', '\\'] ∧ c ≠ '\n'

theorem round_within {s : Lexer} (h : s.lineStart = false) : s.round = s.within := by
  rw [round, h]
  rfl

section Within

variable {p : Position} {indents : List Nat} {brackets : List Char} {ended : Bool}

theorem skipBlanks_of_visible {c : Char}
    (h : c ∉ [' ', '\t', '\r', '\x0c', '#', '\\']) (p : Position) (rest : Text) :
    skipBlanks false p (c :: rest) = (p, c :: rest) := by
  simp only [List.mem_cons, List.not_mem_nil, or_false, not_or] at h
  rw [skipBlanks.eq_def]
  simp [h]

theorem skipBlanks_blank (p : Position) (rest : Text) :
    skipBlanks false p (' ' :: rest) = skipBlanks false (p.step ' ') rest := by
  rw [skipBlanks.eq_def]
  simp

theorem lexed_blank (rest : Text) :
    lexed ⟨' ' :: rest, p, indents, brackets, false, ended⟩ =
      lexed ⟨rest, p.step ' ', indents, brackets, false, ended⟩ := by
  refine lexed_congr ?_
  rw [round_within rfl, round_within rfl, within, within]
  simp only [skipBlanks_blank]

/-- A visible character other than a line break starts a token. -/
theorem round_token {c : Char} (h : c ∉ [' ', '\t', '\r', '\x0c', '#', '\\']) (hc : c ≠ '\n')
    (rest : Text) :
    round ⟨c :: rest, p, indents, brackets, false, ended⟩ =
      token ⟨c :: rest, p, indents, brackets, false, ended⟩ c rest := by
  rw [round_within rfl, within]
  simp only [skipBlanks_of_visible h, if_neg hc]

theorem visible_of_continue {c : Char} (h : Letter.isIdentifierContinue c = true) :
    Visible c := by
  have hne : ∀ d, Letter.isMark d = true → c ≠ d := fun d hd =>
    Letter.ne_of_continue h hd
  refine ⟨?_, hne _ (by decide)⟩
  simp only [List.mem_cons, List.not_mem_nil, or_false, not_or]
  exact ⟨hne _ (by decide), hne _ (by decide), hne _ (by decide),
    hne _ (by decide), hne _ (by decide), hne _ (by decide)⟩

theorem visible_of_start {c : Char} (h : Letter.isIdentifierStart c = true) : Visible c :=
  visible_of_continue (Letter.isIdentifierContinue_of_start h)

theorem takeWhile_word {w rest : Text} (hw : w.all Letter.isIdentifierContinue = true)
    (hrest : Lexeme.endsWord rest) :
    (w ++ rest).takeWhile Letter.isIdentifierContinue = w ∧
      (w ++ rest).dropWhile Letter.isIdentifierContinue = rest := by
  have hstop : rest.takeWhile Letter.isIdentifierContinue = [] ∧
      rest.dropWhile Letter.isIdentifierContinue = rest := by
    cases rest with
    | nil => exact ⟨rfl, rfl⟩
    | cons c rest =>
        have hc : Letter.isIdentifierContinue c = false := hrest c rfl
        simp [hc]
  have hw' := List.all_eq_true.mp hw
  rw [List.takeWhile_append_of_pos hw', List.dropWhile_append_of_pos hw', hstop.1, hstop.2]
  exact ⟨List.append_nil w, rfl⟩

theorem lexed_word {w rest : Text} (hw : Lexeme.isWord w = true) (hrest : Lexeme.endsWord rest) :
    lexed ⟨w ++ rest, p, indents, brackets, false, ended⟩ =
      (lexed ⟨rest, p.after w, indents, brackets, false, false⟩).after
        [⟨.ofWord w, ⟨p, p.after w⟩⟩] := by
  cases w with
  | nil => cases hw
  | cons c w =>
      simp only [Lexeme.isWord, Bool.and_eq_true] at hw
      have hvisible := visible_of_continue (Letter.isIdentifierContinue_of_start hw.1)
      have htake := takeWhile_word hw.2 hrest
      refine lexed_more ?_
      rw [List.cons_append, round_token hvisible.1 hvisible.2, token]
      simp only [hw.1, if_true, htake.1, htake.2]
      rfl

theorem lexed_mark {c : Char} {symbol : Symbol} (hc : (c, symbol) ∈ Lexeme.marks)
    {next : List Char} (hbrackets : bracketsAfter? brackets c = some next) (rest : Text) :
    lexed ⟨c :: rest, p, indents, brackets, false, ended⟩ =
      (lexed ⟨rest, p.step c, indents, next, false, false⟩).after
        [⟨.symbol symbol, ⟨p, p.step c⟩⟩] := by
  have hsymbol : symbol? (c :: rest) = some (symbol, [c], rest) ∧
      c ∉ [' ', '\t', '\r', '\x0c', '#', '\\'] ∧ c ≠ '\n' ∧
        Letter.isIdentifierStart c = false ∧ c.isDigit = false ∧ ¬ (c = '"' ∨ c = '\'') := by
    simp only [Lexeme.marks, List.mem_cons, Prod.mk.injEq, List.not_mem_nil, or_false] at hc
    rcases hc with ⟨rfl, rfl⟩ | ⟨rfl, rfl⟩ | ⟨rfl, rfl⟩ | ⟨rfl, rfl⟩ <;>
      exact ⟨by cases rest <;> rfl, by decide, by decide, by decide, by decide, by decide⟩
  obtain ⟨hsymbol, hvisible, hnewline, hstart, hdigit, hquote⟩ := hsymbol
  refine lexed_more ?_
  rw [round_token hvisible hnewline, token]
  simp only [hstart, hdigit, Bool.false_eq_true, if_false, Bool.or_eq_true, decide_eq_true_eq,
    if_neg hquote, hsymbol, hbrackets]
  rfl

theorem lexed_string {written value : Text} (h : Lexeme.quotes value written) (rest : Text) :
    lexed ⟨written ++ rest, p, indents, brackets, false, ended⟩ =
      (lexed ⟨rest, p.after written, indents, brackets, false, false⟩).after
        [⟨.string value, ⟨p, p.after written⟩⟩] := by
  cases written with
  | nil => exact h.elim
  | cons c inside =>
      obtain ⟨rfl, hinside⟩ := h
      have hstart : Letter.isIdentifierStart '"' = false :=
        Letter.isIdentifierStart_of_isMark (by decide)
      refine lexed_more ?_
      rw [List.cons_append, round_token (by decide) (by decide), token]
      simp only [hstart, show Char.isDigit '"' = false from rfl, Bool.false_eq_true, if_false,
        decide_true, Bool.true_or, if_true, hinside]
      rfl

/-- A symbol is told from longer ones by what stands behind it. -/
theorem symbol?_text (symbol : Symbol) {rest : Text} (hrest : Lexeme.endsSign rest) :
    symbol? (symbol.text ++ rest) = some (symbol, symbol.text, rest) := by
  cases rest with
  | nil => cases symbol <;> rfl
  | cons c rest =>
      obtain ⟨hequals, hslash⟩ := hrest c rfl
      have hsingle : ∀ d, symbol? (d :: c :: rest) =
          (singleSymbols.lookup d).map fun mark => (mark, [d], c :: rest) := by
        intro d
        have hdouble : doubleSymbols.find? (fun entry => entry.1 = d && entry.2.1 = c) = none := by
          simp [doubleSymbols, hequals.symm, hslash.symm]
        simp only [symbol?, hdouble]
      cases symbol <;> first | exact hsingle _ | rfl

theorem lexed_sign (symbol : Symbol) {rest : Text} (hrest : Lexeme.endsSign rest)
    {next : List Char} (hbrackets : bracketsAfter? brackets symbol.first = some next) :
    lexed ⟨symbol.text ++ rest, p, indents, brackets, false, ended⟩ =
      (lexed ⟨rest, p.after symbol.text, indents, next, false, false⟩).after
        [⟨.symbol symbol, ⟨p, p.after symbol.text⟩⟩] := by
  have hsymbol := symbol?_text symbol hrest
  obtain ⟨after, htext, hvisible, hmark, hdigit, hquote⟩ : ∃ after,
      symbol.text = symbol.first :: after ∧ Visible symbol.first ∧
        Letter.isMark symbol.first = true ∧ symbol.first.isDigit = false ∧
          ¬ (symbol.first = '"' ∨ symbol.first = '\'') := by
    cases symbol <;> exact ⟨_, rfl, ⟨by decide, by decide⟩, by decide, by decide, by decide⟩
  rw [htext, List.cons_append] at hsymbol ⊢
  refine lexed_more ?_
  rw [round_token hvisible.1 hvisible.2, token]
  simp only [Letter.isIdentifierStart_of_isMark hmark, hdigit, Bool.false_eq_true, if_false,
    Bool.or_eq_true, decide_eq_true_eq, if_neg hquote, hsymbol, hbrackets]
  rfl

theorem lexed_number {n : Nat} (hn : Word.Fits n) {rest : Text} (hrest : Lexeme.endsNumber rest) :
    lexed ⟨Text.ofNat n ++ rest, p, indents, brackets, false, ended⟩ =
      (lexed ⟨rest, p.after (Text.ofNat n), indents, brackets, false, false⟩).after
        [⟨.int n, ⟨p, p.after (Text.ofNat n)⟩⟩] := by
  have hnumber := Literal.number_ofNat p hn hrest
  obtain ⟨c, after, htext, hc⟩ := Text.ofNat_first n
  have hvisible := visible_of_continue (Letter.isIdentifierContinue_of_isDigit hc)
  have hstart : Letter.isIdentifierStart c = false := Letter.isIdentifierStart_of_isDigit hc
  rw [htext, List.cons_append] at hnumber ⊢
  refine lexed_more ?_
  rw [round_token hvisible.1 hvisible.2, token]
  simp only [hstart, hc, Bool.false_eq_true, if_false, if_true, hnumber]
  rfl

theorem lexed_quoted (t : Text) {rest : Text} (hrest : Lexeme.endsQuoted rest) :
    lexed ⟨Quoted.encode t ++ rest, p, indents, brackets, false, ended⟩ =
      (lexed ⟨rest, p.after (Quoted.encode t), indents, brackets, false, false⟩).after
        [⟨.string t, ⟨p, p.after (Quoted.encode t)⟩⟩] := by
  have hstring := Literal.string_encode p t hrest
  obtain ⟨hvisible, hmark, hdigit, hquote⟩ : Visible (Quoted.mark t) ∧
      Letter.isMark (Quoted.mark t) = true ∧ (Quoted.mark t).isDigit = false ∧
        (Quoted.mark t = '"' ∨ Quoted.mark t = '\'') := by
    unfold Quoted.mark
    split <;> exact ⟨⟨by decide, by decide⟩, by decide, by decide, by decide⟩
  have htext : Quoted.encode t ++ rest = Quoted.mark t ::
      (t.flatMap (Quoted.encodeChar (Quoted.mark t)) ++ Quoted.mark t :: rest) := by
    simp [Quoted.encode]
  refine lexed_more ?_
  rw [htext, round_token hvisible.1 hvisible.2, token]
  simp only [Letter.isIdentifierStart_of_isMark hmark, hdigit, Bool.false_eq_true, if_false,
    Bool.or_eq_true, decide_eq_true_eq, if_pos hquote, hstring]
  rfl

/-- A line break outside brackets ends a line. -/
theorem lexed_newline (rest : Text) :
    lexed ⟨'\n' :: rest, p, indents, [], false, false⟩ =
      (lexed ⟨rest, p.step '\n', indents, [], true, true⟩).after
        [⟨.newline, ⟨p, p.step '\n'⟩⟩] := by
  refine lexed_more ?_
  rw [round_within rfl, within]
  simp only [skipBlanks_of_visible (c := '\n') (by decide)]
  rfl

/-- A line of lexemes yields their tokens. -/
theorem lexed_line {ls : List Lexeme} {rest : Text} (hfits : Lexeme.fits ls rest)
    {next : List Char} (hbrackets : Lexeme.bracketsAfter? brackets ls = some next) :
    lexed ⟨Lexeme.line ls ++ rest, p, indents, brackets, false, ended⟩ =
      (lexed ⟨rest, p.after (Lexeme.line ls), indents, next, false,
        ended && (Lexeme.tokens p ls).isEmpty⟩).after (Lexeme.tokens p ls) := by
  induction ls generalizing p brackets ended with
  | nil =>
      cases hbrackets
      simp [Lexeme.tokens]
  | cons l ls ih =>
      rw [Lexeme.line_cons, List.append_assoc]
      cases l with
      | blank =>
          rw [Lexeme.text, List.singleton_append, lexed_blank, ih hfits hbrackets]
          simp [Lexeme.tokens, Lexeme.kind?, Lexeme.text]
      | word w =>
          rw [Lexeme.text, lexed_word hfits.1 hfits.2.1, ih hfits.2.2 hbrackets]
          simp [Lexeme.tokens, Lexeme.kind?, Lexeme.text]
      | mark c symbol =>
          obtain ⟨mid, hmid, hnext⟩ := Option.bind_eq_some_iff.mp hbrackets
          rw [Lexeme.text, List.singleton_append, lexed_mark hfits.1 hmid, ih hfits.2 hnext]
          simp [Lexeme.tokens, Lexeme.kind?, Lexeme.text]
      | string written value =>
          rw [Lexeme.text, lexed_string hfits.1, ih hfits.2 hbrackets]
          simp [Lexeme.tokens, Lexeme.kind?, Lexeme.text]
      | sign symbol =>
          obtain ⟨mid, hmid, hnext⟩ := Option.bind_eq_some_iff.mp hbrackets
          rw [Lexeme.text, lexed_sign symbol hfits.1 hmid, ih hfits.2 hnext]
          simp [Lexeme.tokens, Lexeme.kind?, Lexeme.text]
      | number n =>
          rw [Lexeme.text, lexed_number hfits.1 hfits.2.1, ih hfits.2.2 hbrackets]
          simp [Lexeme.tokens, Lexeme.kind?, Lexeme.text]
      | quoted t =>
          rw [Lexeme.text, lexed_quoted t hfits.1, ih hfits.2 hbrackets]
          simp [Lexeme.tokens, Lexeme.kind?, Lexeme.text]

end Within

/-- The widths of a number of open blocks, innermost first. -/
def widths : Nat → List Nat
  | 0 => []
  | depth + 1 => 2 * (depth + 1) :: widths depth

@[simp] theorem length_widths (depth : Nat) : (widths depth).length = depth := by
  induction depth with
  | zero => rfl
  | succ depth ih => rw [widths, List.length_cons, ih]

theorem headD_widths (depth : Nat) : (widths depth).headD 0 = 2 * depth := by
  cases depth <;> rfl

/-- Closing down to the width of an outer block leaves the blocks up to it. -/
theorem closeTo_widths {inner outer : Nat} (h : outer ≤ inner) :
    closeTo (2 * outer) (widths inner) = widths outer := by
  induction inner with
  | zero =>
      obtain rfl : outer = 0 := by omega
      rfl
  | succ inner ih =>
      by_cases heq : outer = inner + 1
      · subst heq
        simp [closeTo, widths]
      · have hlt : 2 * outer < 2 * (inner + 1) := by omega
        have hinner := ih (by omega)
        simpa [closeTo, widths, hlt] using hinner

/-- The start of a line inside a number of blocks. -/
def lineState (rest : Text) (p : Position) (depth : Nat) : Lexer :=
  ⟨rest, p, widths depth, [], true, true⟩

theorem round_lineState (rest : Text) (p : Position) (depth : Nat) :
    round (lineState rest p depth) =
      match layout (lineState rest p depth) with
      | .error (error, openIndents) => .failed error openIndents
      | .ok ([], s) => s.within
      | .ok (tokens, s) => .more tokens s := rfl

theorem indentation_times (n width : Nat) (p : Position) {c : Char} (hc : Visible c)
    (rest : Text) :
    indentation false width p (Text.times n ' ' ++ c :: rest) =
      (width + n, p.after (Text.times n ' '), c :: rest) := by
  induction n generalizing width p with
  | zero =>
      obtain ⟨hblank, hnewline⟩ := hc
      simp only [List.mem_cons, List.not_mem_nil, or_false, not_or] at hblank
      simp [Text.times, indentation, hblank, hnewline]
  | succ n ih =>
      have htimes : Text.times (n + 1) ' ' = ' ' :: Text.times n ' ' := rfl
      rw [htimes, List.cons_append, indentation, if_neg (by decide), if_neg (by decide),
        if_pos rfl, ih, Position.after_cons, Nat.add_right_comm, Nat.add_assoc]

section Rows

variable {c : Char} (hc : Visible c) (rest : Text) (p : Position) (depth : Nat)
include hc

/-- The state behind the indentation of a line. -/
theorem layout_row (outer : Nat) :
    layout (lineState (Draft.indentation outer ++ c :: rest) p depth) =
    let s : Lexer := ⟨c :: rest, p.after (Draft.indentation outer), widths depth, [], false, true⟩
    if 2 * depth < 2 * outer then
      .ok ([emptyToken s.position .indent],
        { s with indents := 2 * outer :: widths depth, lineEnded := false })
    else if 2 * outer < 2 * depth then
      .ok (List.replicate (depth - outer) (emptyToken s.position .dedent),
        { s with indents := widths outer, lineEnded := false })
    else .ok ([], s) := by
  have hindentation := indentation_times (2 * outer) 0 p hc rest
  rw [Nat.zero_add] at hindentation
  rw [layout, lineState]
  simp only [Draft.indentation, hindentation, headD_widths, List.isEmpty_cons, Bool.false_eq_true,
    if_false]
  split
  · rfl
  · split
    · rename_i hlt
      rw [closeTo_widths (by omega), headD_widths, if_pos rfl, length_widths, length_widths]
    · rfl

/-- A line at the depth of the innermost block goes on with its first token. -/
theorem lexed_sameDepth :
    lexed (lineState (Draft.indentation depth ++ c :: rest) p depth) =
      lexed ⟨c :: rest, p.after (Draft.indentation depth), widths depth, [], false, true⟩ := by
  refine lexed_congr ?_
  have hlayout := layout_row hc rest p depth depth
  simp only [Nat.lt_irrefl, if_false] at hlayout
  rw [round_lineState, hlayout, round_within rfl]

/-- Whether a line has ended makes no difference to a token. -/
theorem lexed_ended (indents : List Nat) (ended : Bool) :
    lexed ⟨c :: rest, p, indents, [], false, ended⟩ =
      lexed ⟨c :: rest, p, indents, [], false, true⟩ := by
  refine lexed_congr ?_
  rw [round_token hc.1 hc.2, round_token hc.1 hc.2]
  rfl

/-- A line one block deeper opens a block. -/
theorem lexed_deeper :
    lexed (lineState (Draft.indentation (depth + 1) ++ c :: rest) p depth) =
      (lexed (lineState (Draft.indentation (depth + 1) ++ c :: rest) p (depth + 1))).after
        [emptyToken (p.after (Draft.indentation (depth + 1))) .indent] := by
  have hlayout := layout_row hc rest p depth (depth + 1)
  rw [if_pos (by omega)] at hlayout
  have hround := round_lineState (Draft.indentation (depth + 1) ++ c :: rest) p depth
  rw [hlayout] at hround
  rw [lexed_more hround, lexed_sameDepth hc, ← lexed_ended hc rest _ _ false]
  rfl

/-- A line of an outer block closes every block inside that one. -/
theorem lexed_shallower {outer : Nat} (h : outer < depth) :
    lexed (lineState (Draft.indentation outer ++ c :: rest) p depth) =
      (lexed (lineState (Draft.indentation outer ++ c :: rest) p outer)).after
        (List.replicate (depth - outer)
          (emptyToken (p.after (Draft.indentation outer)) .dedent)) := by
  have hlayout := layout_row hc rest p depth outer
  rw [if_neg (by omega), if_pos (by omega)] at hlayout
  have hround := round_lineState (Draft.indentation outer ++ c :: rest) p depth
  rw [hlayout] at hround
  obtain ⟨closed, hclosed⟩ : ∃ closed, depth - outer = closed + 1 := ⟨depth - outer - 1, by omega⟩
  rw [hclosed, List.replicate_succ] at hround ⊢
  rw [lexed_more hround, lexed_sameDepth hc, ← lexed_ended hc rest _ _ false]

end Rows

/-- What may come after a line of a block inside `depth` others: nothing but a blank line,
or a line of no deeper block. -/
def Follows (depth : Nat) (tail : Text) : Prop :=
  tail = [] ∨ tail = ['\n'] ∨ ∃ outer c rest, outer ≤ depth ∧
    tail = Draft.indentation outer ++ c :: rest ∧ Visible c

theorem Follows.succ {depth : Nat} {tail : Text} (h : Follows depth tail) :
    Follows (depth + 1) tail := by
  rcases h with h | h | ⟨outer, c, rest, houter, ht, hc⟩
  · exact .inl h
  · exact .inr (.inl h)
  · exact .inr (.inr ⟨outer, c, rest, by omega, ht, hc⟩)

/-- The end of a source closes every block. -/
theorem lexed_end {tail : Text} (h : tail = [] ∨ tail = ['\n']) (p : Position) (depth : Nat) :
    lexed (lineState tail p depth) =
      ⟨List.replicate depth (emptyToken (p.after tail) .dedent) ++
        [emptyToken (p.after tail) .endOfInput], none, 0⟩ := by
  refine lexed_done ?_
  rw [round_lineState]
  rcases h with rfl | rfl <;>
    simp [layout, lineState, indentation, within, skipBlanks, closing]

/-- What follows a block closes it. -/
theorem lexed_close {depth : Nat} {tail : Text} (h : Follows depth tail) (p : Position) :
    ∃ place, lexed (lineState tail p (depth + 1)) =
      (lexed (lineState tail p depth)).after [emptyToken place .dedent] := by
  have hend : tail = [] ∨ tail = ['\n'] → ∃ place, lexed (lineState tail p (depth + 1)) =
      (lexed (lineState tail p depth)).after [emptyToken place .dedent] := fun h =>
    ⟨_, by rw [lexed_end h, lexed_end h, List.replicate_succ]; rfl⟩
  rcases h with h | h | ⟨outer, c, rest, houter, rfl, hc⟩
  · exact hend (.inl h)
  · exact hend (.inr h)
  · refine ⟨p.after (Draft.indentation outer), ?_⟩
    rw [lexed_shallower hc rest p (depth + 1) (by omega)]
    rcases Nat.lt_or_eq_of_le houter with hlt | rfl
    · rw [lexed_shallower hc rest p depth hlt, Nat.succ_sub houter, List.replicate_succ,
        Outcome.after_after]
      rfl
    · rw [Nat.add_sub_cancel_left]
      rfl

/-- Tokens come of a text before another one, inside a number of blocks. -/
def Yields (depth : Nat) (p : Position) (text tail : Text) (tokens : List Token) : Prop :=
  lexed (lineState (text ++ tail) p depth) =
    (lexed (lineState tail (p.after text) depth)).after tokens

theorem Yields.append {depth : Nat} {p : Position} {s t tail : Text} {ts us : List Token}
    (h : Yields depth p s (t ++ tail) ts) (h' : Yields depth (p.after s) t tail us) :
    Yields depth p (s ++ t) tail (ts ++ us) := by
  rw [Yields, List.append_assoc, h, h', Outcome.after_after, Position.after_append]

theorem yields_nil (depth : Nat) (p : Position) (tail : Text) : Yields depth p [] tail [] := rfl

theorem tokens_ne_nil {ls : List Lexeme} {c : Char} {rest : Text}
    (hfirst : Lexeme.line ls = c :: rest) (hc : Visible c) (p : Position) :
    (Lexeme.tokens p ls).isEmpty = false := by
  cases ls with
  | nil => cases hfirst
  | cons l ls =>
      cases l with
      | blank =>
          obtain rfl : ' ' = c := (List.cons.inj hfirst).1
          exact absurd List.mem_cons_self hc.1
      | word _ | mark _ _ | string _ _ | sign _ | number _ | quoted _ => rfl

/-- A row of lexemes yields their tokens and the end of the line. -/
theorem lexed_row {ls : List Lexeme} {c : Char} {rest : Text} (hfirst : Lexeme.line ls = c :: rest)
    (hc : Visible c) (tail : Text)
    (hfits : Lexeme.fits ls ('\n' :: tail)) (hbrackets : Lexeme.bracketsAfter? [] ls = some [])
    (p : Position) (depth : Nat) :
    lexed (lineState (Draft.indentation depth ++ (Lexeme.line ls ++ '\n' :: tail)) p depth) =
      (lexed (lineState tail (p.after (Draft.indentation depth ++ Lexeme.line ls ++ ['\n']))
        depth)).after
        (Lexeme.tokens (p.after (Draft.indentation depth)) ls ++
          [⟨.newline, ⟨p.after (Draft.indentation depth ++ Lexeme.line ls),
            p.after (Draft.indentation depth ++ Lexeme.line ls ++ ['\n'])⟩⟩]) := by
  have hline : lexed ⟨Lexeme.line ls ++ '\n' :: tail, p.after (Draft.indentation depth),
      widths depth, [], false, true⟩ = _ := lexed_line hfits hbrackets
  rw [tokens_ne_nil hfirst hc, Bool.and_false, lexed_newline, Outcome.after_after] at hline
  rw [hfirst, List.cons_append] at hline ⊢
  rw [lexed_sameDepth hc, hline, lineState]
  simp only [Position.after_append, Position.after_cons, Position.after_nil]

end Lexer

end TemplateEngine
