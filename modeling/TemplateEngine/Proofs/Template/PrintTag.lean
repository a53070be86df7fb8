import Mathlib
import TemplateEngine.Proofs.Syntax.Levels
import TemplateEngine.Proofs.Template.Prints

/-!
# A print tag

The body of a print tag is put between the parentheses of two calls as it is. Whether the program
is then one call with one filtered argument is a matter of the tokens in between: they have to
close the brackets that they open and no others, with nothing else listed beside them.
-/
namespace TemplateEngine

open Draft Lexer TemplateEngine.Parser
open Outline (appendCall filterCall)

namespace Parser

/-- Ends of lines, up to the end of the input. -/
def isIdle : List TokenKind → Bool
  | [] => true
  | .newline :: kinds => isIdle kinds
  | k :: _ => k = .endOfInput

theorem isIdle_cons {k : TokenKind} {kinds : List TokenKind} (h : isIdle (k :: kinds) = true) :
    k = .endOfInput ∨ k = .newline ∧ isIdle kinds = true := by
  cases k with
  | newline => exact .inr ⟨rfl, h⟩
  | _ => exact .inl (of_decide_eq_true h)

/-- No expression goes on where a line ends. -/
theorem levelAfter?_of_isIdle {k : TokenKind} {kinds : List TokenKind}
    (h : isIdle (k :: kinds) = true) : levelAfter? false 0 k = none := by
  rcases isIdle_cons h with rfl | ⟨rfl, -⟩
  · rfl
  · rfl

theorem headToken_kind (X : List Token) :
    (headToken X).kind = (X.map Token.kind).headD .endOfInput := by
  cases X <;> rfl

theorem extendsStatement_of_isIdle {X : List Token} (h : isIdle (X.map Token.kind) = true) :
    extendsStatement (headToken X).kind = false := by
  cases X with
  | nil => rfl
  | cons t X =>
      obtain ⟨k, s⟩ := t
      rcases isIdle_cons h with rfl | ⟨rfl, -⟩
      · rfl
      · rfl

/-- No statement is where only ends of lines are. -/
theorem programLoop_eq_nil {fuel : Nat} {X W : List Token} {b : Block} (hfuel : X.length < fuel)
    (h : programLoop fuel X = .ok (b, W)) : b = [] ↔ isIdle (X.map Token.kind) = true := by
  induction fuel generalizing X with
  | zero => exact absurd hfuel (Nat.not_lt_zero _)
  | succ fuel ih =>
      cases X with
      | nil =>
          cases h
          exact ⟨fun _ => rfl, fun _ => rfl⟩
      | cons t X =>
          obtain ⟨k, s⟩ := t
          by_cases hend : k = .endOfInput
          · subst hend
            cases h
            exact ⟨fun _ => rfl, fun _ => rfl⟩
          · by_cases hnewline : k = .newline
            · subst hnewline
              exact ih (X := X) (Nat.lt_of_succ_lt_succ hfuel) h
            · have hat : (headToken (⟨k, s⟩ :: X)).kind ≠ .endOfInput := hend
              have hskip : (headToken (⟨k, s⟩ :: X)).kind ≠ .newline := hnewline
              rw [programLoop, atEnd, bind_at hat, if_neg Bool.false_ne_true,
                bind_skip_false hskip, if_neg Bool.false_ne_true] at h
              obtain ⟨first, X₁, -, h⟩ := exists_of_ok h
              obtain ⟨rest, X₂, -, h⟩ := exists_of_ok h
              cases h
              constructor
              · intro hnil
                cases hnil
              · intro hidle
                rcases isIdle_cons hidle with hk | ⟨hk, -⟩
                · exact absurd hk hend
                · exact absurd hk hnewline

/-- A line ends with a token of its own or with the input. -/
theorem of_lineEnd {X W : List Token} (h : lineEnd X = .ok ((), W)) :
    ((headToken X).kind = .newline ∨ (headToken X).kind = .endOfInput) ∧ W.length ≤ X.length ∧
      isIdle (X.map Token.kind) = isIdle (W.map Token.kind) := by
  unfold lineEnd at h
  by_cases hnewline : (headToken X).kind = .newline
  · obtain ⟨s, rest, rfl⟩ := exists_token hnewline (by simp)
    rw [bind_skip, if_pos rfl] at h
    cases h
    exact ⟨.inl hnewline, Nat.le_succ _, rfl⟩
  · rw [bind_skip_false hnewline, if_neg Bool.false_ne_true] at h
    obtain ⟨ended, X₁, hended, h⟩ := exists_of_ok h
    cases hended
    split at h
    · rename_i hend
      cases h
      exact ⟨.inr (of_decide_eq_true hend), Nat.le_refl _, rfl⟩
    · cases h

/-- A program that starts with a name is the expression that its first line holds and what the
lines behind it are, unless the first statement is a tuple or an assignment. -/
theorem exists_of_programLoop_name {fuel : Nat} {x : Text} {s : Span} {Y W : List Token} {b : Block}
    (hfuel : (⟨.identifier x, s⟩ :: Y).length < fuel)
    (h : programLoop fuel (⟨.identifier x, s⟩ :: Y) = .ok (b, W)) :
    ∃ v X e stmt stmts, ⟨.identifier x, s⟩ :: Y = v ++ X ∧
      Full (Derives maxExprDepth) (v.map Token.kind) e ∧ b = stmt :: stmts ∧
      (stmt = .at s.line (.expr e) ∧
          ((headToken X).kind = .newline ∨ (headToken X).kind = .endOfInput) ∧
          (stmts = [] ↔ isIdle (X.map Token.kind) = true) ∨
        extendsStatement (headToken X).kind = true ∧
          ∀ line value, stmt = .at line (.expr value) → ∃ items, value = .tuple items) := by
  obtain ⟨fuel, rfl⟩ := Nat.exists_eq_add_one.mpr (Nat.lt_of_le_of_lt (Nat.zero_le _) hfuel)
  rw [programLoop_step rfl] at h
  obtain ⟨stmt, X₁, hstmt, h⟩ := exists_of_ok h
  obtain ⟨stmts, X₂, hothers, h⟩ := exists_of_ok h
  cases h
  obtain ⟨e, X, hexpr, hends⟩ := exists_of_statement_name hstmt
  obtain ⟨v, hv, hfull⟩ := takes_expression _ _ _ trivial hexpr
  refine ⟨v, X, e, stmt, stmts, hv, hfull, rfl, hends.imp_left ?_⟩
  rintro ⟨hstmt, hend⟩
  obtain ⟨hhead, hlength, hidle⟩ := of_lineEnd hend
  refine ⟨hstmt, hhead, ?_⟩
  have hne : v ≠ [] := by
    rintro rfl
    exact (hfull.whole fun _ _ => Derives.whole).nonempty rfl
  have hpos := List.length_pos_of_ne_nil hne
  rw [hv, List.length_append] at hfuel
  rw [hidle]
  exact programLoop_eq_nil (by omega) hothers

section Printed

variable {Y W : List Token} {s₁ s₂ s₃ s₄ : Span} {b : Block}

/-- The tokens of a call that appends one filtered expression, with nothing behind it. -/
def PrintsOne (kinds : List TokenKind) : Prop :=
  ∃ u c d tail, Whole u ∧ OptionalComma c ∧ OptionalComma d ∧ isIdle tail = true ∧
    kinds = callTokens appendName (callTokens filterName (u ++ c) ++ d) ++ tail

/-- What is made of the tokens of a call that appends one filtered expression. -/
theorem Full.of_printed {depth : Nat} {e : Expr} {u c d : List TokenKind} (hu : Whole u)
    (hc : OptionalComma c) (hd : OptionalComma d)
    (h : Full (Derives depth) (callTokens appendName (callTokens filterName (u ++ c) ++ d)) e) :
    ∃ value, e = .call (.name appendName) [filterCall value] [] := by
  have hinner : Contained true (u ++ c) := hu.contained.toList.append hc.contained
  have hfilter : Whole (callTokens filterName (u ++ c)) := hinner.call
  obtain ⟨_, args, keywords, rfl, hargs⟩ :=
    h.of_call (hfilter.contained.toList.append hd.contained)
  obtain ⟨call, rfl, rfl, hcall⟩ := hargs.of_whole (fun _ _ => Derives.whole) hfilter hd
  obtain ⟨_, args, keywords, rfl, hvalues⟩ := hcall.of_call hinner
  obtain ⟨value, rfl, rfl, -⟩ := hvalues.of_whole (fun _ _ => Derives.whole) hu hc
  exact ⟨value, rfl⟩

/-- The tokens that a call which appends one filtered expression is made of, if they start with
the names of both functions. -/
theorem Full.to_printed {depth : Nat} {value : Expr} {v X Y : List TokenKind}
    (h : Full (Derives depth) v (.call (.name appendName) [filterCall value] []))
    (htokens : v ++ X = .identifier appendName :: .symbol .leftParen ::
      .identifier filterName :: Y) :
    ∃ u c d, Whole u ∧ OptionalComma c ∧ OptionalComma d ∧
      v = callTokens appendName (callTokens filterName (u ++ c) ++ d) := by
  obtain ⟨k, v, rfl⟩ := List.exists_cons_of_ne_nil (h.whole fun _ _ => Derives.whole).nonempty
  obtain ⟨rfl, -⟩ := List.cons.inj htokens
  obtain ⟨level, w, hv, hargs⟩ := h.to_call
  obtain ⟨v', d, rfl, hd, hcall⟩ := hargs.to_whole
  rw [hv]
  obtain ⟨k, v', rfl⟩ := List.exists_cons_of_ne_nil
    (hcall.whole fun _ _ => Derives.whole).nonempty
  rw [hv] at htokens
  obtain rfl : k = .identifier filterName := by
    simp [callTokens] at htokens
    exact htokens.1
  obtain ⟨level, w, hv', hargs⟩ := hcall.to_call
  obtain ⟨u, c, rfl, hc, hvalue⟩ := hargs.to_whole
  rw [hv']
  exact ⟨u, c, d, hvalue.whole fun _ _ => Derives.whole, hc, hd, rfl⟩

section Program

variable {fuel : Nat} (hfuel : (printTokens s₁ s₂ s₃ s₄ ++ Y).length < fuel)
  (h : programLoop fuel (printTokens s₁ s₂ s₃ s₄ ++ Y) = .ok (b, W))
include hfuel h

/-- The tokens of one call that prints make a program of one statement. -/
theorem eq_of_printsOne (hone : PrintsOne ((printTokens s₁ s₂ s₃ s₄ ++ Y).map Token.kind)) :
    ∃ e, b = [.at s₁.line (appendCall (filterCall e))] := by
  obtain ⟨u, c, d, tail, hu, hc, hd, hidle, hprint⟩ := hone
  obtain ⟨v, X, e, stmt, stmts, hv, hfull, rfl, hends⟩ := exists_of_programLoop_name hfuel h
  have hv : printTokens s₁ s₂ s₃ s₄ ++ Y = v ++ X := hv
  rw [hv, List.map_append] at hprint
  have hargs : Contained true (callTokens filterName (u ++ c) ++ d) :=
    (hu.contained.toList.append hc.contained).call.contained.toList.append hd.contained
  have htail : ∀ k rest, tail = k :: rest → levelAfter? false 0 k = none := by
    rintro k rest rfl
    exact levelAfter?_of_isIdle hidle
  have hwhole := hfull.whole fun _ _ => Derives.whole
  rcases hwhole.eq_of_call hargs htail hprint with ⟨-, hX⟩ | ⟨hcall, rfl⟩
  · -- The name of a function is no statement where its arguments follow.
    have hhead : (headToken X).kind = .symbol .leftParen := by
      rw [headToken_kind, hX]
      rfl
    rw [hhead] at hends
    rcases hends with ⟨-, hend | hend, -⟩ | ⟨hextends, -⟩
    · cases hend
    · cases hend
    · cases hextends
  · rw [hcall] at hfull
    obtain ⟨value, rfl⟩ := hfull.of_printed hu hc hd
    rcases hends with ⟨rfl, -, hnothing⟩ | ⟨hextends, -⟩
    · rw [hnothing.mpr hidle]
      exact ⟨value, rfl⟩
    · rw [extendsStatement_of_isIdle hidle] at hextends
      cases hextends

/-- A program of one statement that prints has the tokens of one call. -/
theorem printsOne_of_eq {line : Nat} {value : Expr}
    (hb : b = [.at line (appendCall (filterCall value))]) :
    line = s₁.line ∧ PrintsOne ((printTokens s₁ s₂ s₃ s₄ ++ Y).map Token.kind) := by
  obtain ⟨v, X, e, stmt, stmts, hv, hfull, rfl, hends⟩ := exists_of_programLoop_name hfuel h
  have hkinds : (printTokens s₁ s₂ s₃ s₄ ++ Y).map Token.kind =
      v.map Token.kind ++ X.map Token.kind := by
    rw [← List.map_append]
    exact congrArg _ hv
  cases hb
  rcases hends with ⟨hstmt, -, hnothing⟩ | ⟨-, htuple⟩
  · cases hstmt
    obtain ⟨u, c, d, hu, hc, hd, hprint⟩ := hfull.to_printed hkinds.symm
    rw [hkinds, hprint]
    exact ⟨rfl, u, c, d, _, hu, hc, hd, hnothing.mp rfl, rfl⟩
  · obtain ⟨items, htuple⟩ := htuple _ _ rfl
    cases htuple

end Program

end Printed

end Parser

/-- Statements that append one filtered value, and do nothing else. -/
def PrintsValue (b : Block) : Prop := ∃ line e, b = [.at line (appendCall (filterCall e))]

/-- The value that statements append through the filter, if they do nothing else. -/
def printedValue? : Block → Option Expr
  | [.at _ (.expr (.call (.name outer) [.call (.name inner) [e] []] []))] =>
    if outer = appendName ∧ inner = filterName then some e else none
  | _ => none

theorem isSome_printedValue? {b : Block} : (printedValue? b).isSome = true ↔ PrintsValue b := by
  constructor
  · intro h
    unfold printedValue? at h
    split at h
    · split at h
      · rename_i hnames
        obtain ⟨rfl, rfl⟩ := hnames
        exact ⟨_, _, rfl⟩
      · cases h
    · cases h
  · rintro ⟨line, e, rfl⟩
    simp [printedValue?, appendCall, filterCall]

instance (b : Block) : Decidable (PrintsValue b) := decidable_of_iff _ isSome_printedValue?

/-- A template with a blank print tag does not compile. -/
theorem visible_of_ofTemplate {t : Text} {tag : Tag} {generated : Generated}
    (hsegments : (Splitting.ofTemplate t).segments = [.tag tag]) (hkind : tag.kind = .print)
    (h : Generated.ofTemplate t = .ok generated) : Text.allBlank tag.body = false := by
  rw [Bool.eq_false_iff]
  intro hblank
  have hstep : ∀ d : Draft, d.segment (.tag tag) = .error (d.fault (.emptyPrint tag.line)) := by
    intro d
    unfold Draft.segment
    simp only [hkind]
    rw [Draft.print, if_pos hblank]
  unfold Generated.ofTemplate at h
  simp only [hsegments, List.foldlM_cons, hstep] at h
  cases h

/-- The program of a print tag is the body between the parentheses of the calls. -/
theorem source_of_ofTemplate {name t : Text} {tag : Tag} {p : Program}
    (hsegments : (Splitting.ofTemplate t).segments = [.tag tag]) (hkind : tag.kind = .print)
    (h : Program.ofTemplate name t = .ok p) :
    ∃ tail, (tail = [] ∨ tail = ['\n']) ∧
      p.source = printCall false tag.body ++ '\n' :: tail := by
  obtain ⟨generated, hgenerated, hsame, -⟩ := Program.exists_of_ofTemplate h
  have hrows : Segment.rows [.tag tag] = codeRows 0 tag.line (printCall false tag.body) := by
    simp [Segment.rows, Segment.line, Segment.code]
  have hlays : Outline.Lays (Splitting.ofTemplate t).segments 0
      (Segment.rows (Splitting.ofTemplate t).segments) 0 := by
    rw [hsegments, hrows]
    exact Segment.lays_print hkind (visible_of_ofTemplate hsegments hkind hgenerated)
  obtain ⟨tail, htail, hsource⟩ := Segment.source_of_lays hlays hgenerated
  rw [hsegments, Segment.codes_cons] at hsource
  exact ⟨tail, htail, hsame.trans hsource⟩

/-- The tokens of a line that prints start with the names of both functions. -/
theorem exists_printTokens {inner tail : Text} {tokens : List Token}
    (h : tokenize (printCall false inner ++ '\n' :: tail) = .ok tokens) :
    ∃ s₁ s₂ s₃ s₄ Y, s₁.line = 1 ∧ tokens = printTokens s₁ s₂ s₃ s₄ ++ Y := by
  obtain ⟨s₂, s₃, s₄, q, hlexed⟩ := lexed_printCall inner tail .start
  have hstart : (ofText (printCall false inner ++ '\n' :: tail)).lexed = _ := hlexed
  obtain ⟨-, rfl⟩ := tokenize_eq_ok.mp h
  rw [hstart]
  exact ⟨⟨.start, _⟩, s₂, s₃, s₄, _, rfl, rfl⟩

/-- The program of a print tag is one call with one filtered argument exactly if the tokens of the
body, between the parentheses of the calls, are those of one expression as far as brackets and
separators go. If the body is an expression on its own, then that is the argument. -/
theorem Program.ofTemplate_print {name t : Text} {tag : Tag} {p : Program}
    (hsegments : (Splitting.ofTemplate t).segments = [.tag tag]) (hkind : tag.kind = .print)
    (h : Program.ofTemplate name t = .ok p) :
    (∃ tail, (tail = [] ∨ tail = ['\n']) ∧
      p.source = printCall false tag.body ++ '\n' :: tail) ∧
    (PrintsValue p.body ↔
      ∃ tokens, tokenize p.source = .ok tokens ∧ PrintsOne (tokens.map Token.kind)) ∧
    ∀ e, parseExpression (Text.trim tag.body) = .ok e →
      p.body = [.at 1 (appendCall (filterCall e))] := by
  obtain ⟨-, -, -, hbody⟩ := exists_of_ofTemplate h
  obtain ⟨tail, htail, hsource⟩ := source_of_ofTemplate hsegments hkind h
  obtain ⟨tokens, W, htokens, hread⟩ := exists_of_parseProgram hbody
  rw [hsource] at htokens ⊢
  obtain ⟨s₁, s₂, s₃, s₄, Y, hline, rfl⟩ := exists_printTokens htokens
  have hfuel := Nat.lt_succ_self (printTokens s₁ s₂ s₃ s₄ ++ Y).length
  refine ⟨⟨tail, htail, rfl⟩, ⟨?_, ?_⟩, ?_⟩
  · rintro ⟨line, e, he⟩
    exact ⟨_, htokens, (printsOne_of_eq hfuel hread he).2⟩
  · rintro ⟨tokens, htokens', hprints⟩
    cases htokens.symm.trans htokens'
    obtain ⟨e, he⟩ := eq_of_printsOne hfuel hread hprints
    exact ⟨_, e, he⟩
  · intro e he
    have hprints : ∀ s ∈ (Splitting.ofTemplate t).segments, s.Prints (· = e) := by
      rw [hsegments]
      intro s hs
      cases List.mem_singleton.mp hs
      exact ⟨hkind, e, he, rfl⟩
    have hall := Segment.forall₂_of_ofTemplate hprints h
    rw [hsegments] at hall
    obtain ⟨stmt, ⟨line, action, rfl, happends⟩, hbody⟩ : ∃ stmt, (∃ line action,
        stmt = .at line action ∧ Segment.Appends (· = e) (.tag tag) action) ∧ p.body = [stmt] := by
      generalize p.body = b at hall
      cases hall with
      | cons hfirst hrest =>
          cases hrest
          exact ⟨_, hfirst, rfl⟩
    cases happends with
    | print _ hvalue =>
        subst hvalue
        obtain ⟨rfl, -⟩ := printsOne_of_eq hfuel hread hbody
        rw [← hline]
        exact hbody

/-- An item of a tuple is one expression, with commas inside of its brackets only. -/
theorem Program.ofTemplate_print_item :
    let item := Expr.index (.tuple [.constant (.int 1), .constant (.int 2)]) (.constant (.int 0))
    ∃ p, Program.ofTemplate "page" "<%= (1, 2)[0] %>" = .ok p ∧
      p.body = [.at 1 (appendCall (filterCall item))] ∧
      ∃ tokens, tokenize p.source = .ok tokens ∧ PrintsOne (tokens.map Token.kind) := by
  intro item
  have hsplit : (Splitting.ofTemplate "<%= (1, 2)[0] %>").segments =
      [.tag ⟨.print, " (1, 2)[0] ", 1, false, false⟩] := by decide
  have hitem : parseExpression (Text.trim " (1, 2)[0] ") = .ok item := by cbv
  have hsome : (Program.ofTemplate "page" "<%= (1, 2)[0] %>").toOption.isSome = true := by
    decide +kernel
  cases hp : Program.ofTemplate "page" "<%= (1, 2)[0] %>" with
  | error error =>
      rw [hp] at hsome
      cases hsome
  | ok p =>
      obtain ⟨-, hiff, hbody⟩ := ofTemplate_print hsplit rfl hp
      exact ⟨p, rfl, hbody item hitem, hiff.mp ⟨1, item, hbody item hitem⟩⟩

/-- A body that closes the call of the filter adds something to its value. -/
theorem Program.ofTemplate_print_open : ∃ tag p,
    (Splitting.ofTemplate "<%=a)+(b%>").segments = [.tag tag] ∧ tag.kind = .print ∧
      Program.ofTemplate "page" "<%=a)+(b%>" = .ok p ∧ ¬PrintsValue p.body := by
  have hsplit : (Splitting.ofTemplate "<%=a)+(b%>").segments =
      [.tag ⟨.print, "a)+(b", 1, false, false⟩] := by decide
  have hopen : (Program.ofTemplate "page" "<%=a)+(b%>").toOption.any
      (fun p => !decide (PrintsValue p.body)) = true := by decide +kernel
  cases hp : Program.ofTemplate "page" "<%=a)+(b%>" with
  | error error =>
      rw [hp] at hopen
      cases hopen
  | ok p =>
      rw [hp] at hopen
      exact ⟨_, p, hsplit, rfl, rfl, by simpa [Except.toOption] using hopen⟩

end TemplateEngine
