import Mathlib.Data.List.Chain
import TemplateEngine.Proofs.Syntax.Rounds

/-!
# The layout of tokens

The tokens of a source end lines, open and close blocks, and stand between brackets. What may
come next depends on the token before, on how many blocks are open, and on the brackets that
are still to be closed. Every round keeps to that, so the tokens of a whole source do, and the
widths of the open blocks grow inwards all the while.
-/
namespace TemplateEngine

namespace TokenKind

/-- Brackets that belong together. -/
def bracketPairs : List (Symbol × Symbol) :=
  [(.leftParen, .rightParen), (.leftBracket, .rightBracket), (.leftBrace, .rightBrace)]

/-- The tokens of lines and blocks. -/
def breaks : List TokenKind := [.newline, .indent, .dedent]

/-- A token that is neither a bracket nor a matter of layout. -/
def IsWithin : TokenKind → Prop
  | .symbol mark => ∀ pair ∈ bracketPairs, mark ≠ pair.1 ∧ mark ≠ pair.2
  | .newline | .indent | .dedent | .endOfInput => False
  | _ => True

/-- Tokens in which every bracket is closed by its own kind, in which lines and blocks
begin and end outside brackets only. -/
inductive Nested : Bool → List TokenKind → Prop where
  | nil {inside : Bool} : Nested inside []
  | within {inside : Bool} {k : TokenKind} {ks : List TokenKind} :
      k.IsWithin → Nested inside ks → Nested inside (k :: ks)
  | layout {k : TokenKind} {ks : List TokenKind} :
      k ∈ .endOfInput :: breaks → Nested false ks → Nested false (k :: ks)
  | group {inside : Bool} {opener closer : Symbol} {inner rest : List TokenKind} :
      (opener, closer) ∈ bracketPairs → Nested true inner → Nested inside rest →
        Nested inside (.symbol opener :: (inner ++ .symbol closer :: rest))

/-- What may come right after a token, as far as lines and blocks go. -/
structure MayFollow (previous next : TokenKind) : Prop where
  newline : next = .newline → previous ≠ .newline
  indent : next = .indent → previous = .newline
  dedent : next = .dedent → previous = .newline ∨ previous = .dedent

/-- Tokens up to the end of a source, with a number of blocks open, after a token, with
brackets to be closed. -/
inductive Follows : Nat → TokenKind → List Symbol → List TokenKind → Prop where
  | ends {previous : TokenKind} : Follows 0 previous [] [.endOfInput]
  | newline {depth : Nat} {previous : TokenKind} {ks : List TokenKind} : previous ≠ .newline →
      Follows depth .newline [] ks → Follows depth previous [] (.newline :: ks)
  | indent {depth : Nat} {ks : List TokenKind} :
      Follows (depth + 1) .indent [] ks → Follows depth .newline [] (.indent :: ks)
  | dedent {depth : Nat} {previous : TokenKind} {ks : List TokenKind} :
      previous = .newline ∨ previous = .dedent →
      Follows depth .dedent [] ks → Follows (depth + 1) previous [] (.dedent :: ks)
  | within {depth : Nat} {previous k : TokenKind} {closers : List Symbol} {ks : List TokenKind} :
      k.IsWithin → Follows depth k closers ks → Follows depth previous closers (k :: ks)
  | opener {depth : Nat} {previous : TokenKind} {opener closer : Symbol} {closers : List Symbol}
      {ks : List TokenKind} : (opener, closer) ∈ bracketPairs →
      Follows depth (.symbol opener) (closer :: closers) ks →
        Follows depth previous closers (.symbol opener :: ks)
  | closer {depth : Nat} {previous : TokenKind} {opener closer : Symbol} {closers : List Symbol}
      {ks : List TokenKind} : (opener, closer) ∈ bracketPairs →
      Follows depth (.symbol closer) closers ks →
        Follows depth previous (closer :: closers) (.symbol closer :: ks)

section Follows

variable {depth : Nat} {previous k : TokenKind} {closers : List Symbol} {ks : List TokenKind}

theorem IsWithin.ne_break (h : k.IsWithin) : k ∉ .endOfInput :: breaks := by
  rintro hk
  simp only [breaks, List.mem_cons, List.not_mem_nil, or_false] at hk
  obtain rfl | rfl | rfl | rfl := hk <;> exact h

/-- Another token than those of lines and blocks may follow any token. -/
theorem mayFollow_of_not_mem (h : k ∉ breaks) : MayFollow previous k := by
  simp only [breaks, List.mem_cons, List.not_mem_nil, or_false, not_or] at h
  exact ⟨fun hk => absurd hk h.1, fun hk => absurd hk h.2.1, fun hk => absurd hk h.2.2⟩

/-- The end of the source is the last token. -/
theorem Follows.ends_once (h : Follows depth previous closers ks) :
    ∃ before, ks = before ++ [.endOfInput] ∧ .endOfInput ∉ before := by
  have hcons {k : TokenKind} {ks : List TokenKind} (hk : k ≠ .endOfInput)
      (h : ∃ before, ks = before ++ [.endOfInput] ∧ .endOfInput ∉ before) :
      ∃ before, k :: ks = before ++ [.endOfInput] ∧ .endOfInput ∉ before := by
    obtain ⟨before, rfl, hbefore⟩ := h
    exact ⟨k :: before, rfl, by simp [hk.symm, hbefore]⟩
  induction h with
  | ends => exact ⟨[], rfl, List.not_mem_nil⟩
  | newline _ _ ih | indent _ ih | dedent _ _ ih => exact hcons nofun ih
  | within hk _ ih => exact hcons (fun hend => hk.ne_break (hend ▸ List.mem_cons_self)) ih
  | opener _ _ ih | closer _ _ ih => exact hcons nofun ih

/-- As many blocks are closed as are opened and open, and none before it is opened. -/
def Closes (depth : Nat) (ks : List TokenKind) : Prop :=
  ks.count .dedent = ks.count .indent + depth ∧
    ∀ before, before <+: ks → before.count .dedent ≤ before.count .indent + depth

theorem Closes.cons {depth' : Nat} (h : Closes depth' ks)
    (hdepth : depth' + [k].count .dedent = [k].count .indent + depth) :
    Closes depth (k :: ks) := by
  obtain ⟨htotal, hprefix⟩ := h
  have hcount (l : List TokenKind) (a : TokenKind) :
      (k :: l).count a = [k].count a + l.count a := by
    rw [← List.count_append, List.singleton_append]
  refine ⟨by rw [hcount ks, hcount ks, htotal]; omega, ?_⟩
  intro before hbefore
  cases before with
  | nil => exact Nat.zero_le _
  | cons a before =>
      obtain ⟨rfl, hshorter⟩ := List.cons_prefix_cons.mp hbefore
      have hle := hprefix before hshorter
      rw [hcount before, hcount before]
      omega

theorem IsWithin.count_eq_zero (h : k.IsWithin) {a : TokenKind} (ha : a ∈ breaks) :
    [k].count a = 0 := by
  rw [List.count_eq_zero, List.mem_singleton]
  rintro rfl
  exact h.ne_break (List.mem_cons_of_mem _ ha)

/-- In the end every block is closed. -/
theorem Follows.closes (h : Follows depth previous closers ks) : Closes depth ks := by
  induction h with
  | ends =>
      have hnone : Closes 0 [] := ⟨rfl, by simp⟩
      exact hnone.cons (by simp)
  | newline _ _ ih => exact ih.cons (by simp)
  | indent _ ih => exact ih.cons (by simp; omega)
  | dedent _ _ ih => exact ih.cons (by simp)
  | within hk _ ih =>
      refine ih.cons ?_
      rw [hk.count_eq_zero (by decide), hk.count_eq_zero (by decide), Nat.zero_add, Nat.add_zero]
  | opener _ _ ih | closer _ _ ih => exact ih.cons (by simp)

/-- Every token may follow the one before it. -/
theorem Follows.isChain (h : Follows depth previous closers ks) :
    (previous :: ks).IsChain MayFollow := by
  induction h with
  | ends => exact .cons_cons (mayFollow_of_not_mem (by decide)) (.singleton _)
  | newline hprevious _ ih => exact .cons_cons ⟨fun _ => hprevious, nofun, nofun⟩ ih
  | indent _ ih => exact .cons_cons ⟨nofun, fun _ => rfl, nofun⟩ ih
  | dedent hprevious _ ih => exact .cons_cons ⟨nofun, nofun, fun _ => hprevious⟩ ih
  | within hk _ ih =>
      exact .cons_cons (mayFollow_of_not_mem fun h => hk.ne_break (List.mem_cons_of_mem _ h)) ih
  | opener _ _ ih | closer _ _ ih =>
      exact .cons_cons (mayFollow_of_not_mem (by simp [breaks])) ih

/-- Tokens that close open brackets one after another, innermost first. -/
inductive ClosesAll : List Symbol → List TokenKind → Prop where
  | nil {ks : List TokenKind} : Nested false ks → ClosesAll [] ks
  | cons {closer : Symbol} {closers : List Symbol} {inner rest : List TokenKind} :
      Nested true inner → ClosesAll closers rest →
        ClosesAll (closer :: closers) (inner ++ .symbol closer :: rest)

theorem ClosesAll.within (h : ClosesAll closers ks) (hk : k.IsWithin) :
    ClosesAll closers (k :: ks) := by
  cases h with
  | nil hks => exact .nil (.within hk hks)
  | cons hinner hrest => exact .cons (.within hk hinner) hrest

theorem ClosesAll.opener {opener closer : Symbol} (hpair : (opener, closer) ∈ bracketPairs)
    (h : ClosesAll (closer :: closers) ks) : ClosesAll closers (.symbol opener :: ks) := by
  cases h with
  | @cons _ _ inner _ hinner hrest =>
      cases hrest with
      | nil hrest => exact .nil (.group hpair hinner hrest)
      | @cons next closers more rest hmore hrest =>
          have hgroup := Nested.group hpair hinner hmore
          have hparts :
              .symbol opener :: (inner ++ .symbol closer :: (more ++ .symbol next :: rest)) =
              (.symbol opener :: (inner ++ .symbol closer :: more)) ++ .symbol next :: rest := by
            simp
          rw [hparts]
          exact .cons hgroup hrest

/-- The brackets are closed, and outside the matters of layout. -/
theorem Follows.closesAll (h : Follows depth previous closers ks) : ClosesAll closers ks := by
  induction h with
  | ends => exact .nil (.layout (by decide) .nil)
  | newline _ _ ih | indent _ ih | dedent _ _ ih =>
      cases ih with
      | nil hks => exact .nil (.layout (by simp [breaks]) hks)
  | within hk _ ih => exact ih.within hk
  | opener hpair _ ih => exact ih.opener hpair
  | closer _ _ ih =>
      have hinner : Nested true [] := .nil
      exact .cons hinner ih

end Follows

end TokenKind

namespace Literal

theorem isWithin_number {p : Position} {t : Text} {found : Scanned} (h : number p t = .ok found) :
    found.kind.IsWithin := by
  unfold number at h
  simp only at h
  split at h
  · rename_i kind hkind
    cases h
    split at hkind <;> obtain ⟨_, -, rfl⟩ := Option.map_eq_some_iff.mp hkind <;> trivial
  · cases h

theorem isWithin_stringBody {start : Position} {quote : Char} {triple : Bool} {mode : StringMode}
    {p : Position} {value t : Text} {found : Scanned}
    (h : stringBody start quote triple mode p value t = .ok found) : found.kind.IsWithin := by
  fun_induction stringBody start quote triple mode p value t <;> grind [TokenKind.IsWithin]

theorem isWithin_string {p : Position} {quote : Char} {t : Text} {found : Scanned}
    (h : string p quote t = .ok found) : found.kind.IsWithin := by
  unfold string at h
  repeat' split at h
  all_goals exact isWithin_stringBody h

end Literal

theorem TokenKind.isWithin_ofWord (word : Text) : (TokenKind.ofWord word).IsWithin := by
  unfold TokenKind.ofWord
  repeat' split
  all_goals trivial

namespace Lexer

open TokenKind (Follows IsWithin bracketPairs)

/-- The bracket that closes one. -/
def closerOf (c : Char) : Symbol :=
  if c = '(' then .rightParen else if c = '[' then .rightBracket else .rightBrace

theorem symbol?_start {c : Char} {after lexeme rest : Text} {mark : Symbol}
    (h : symbol? (c :: after) = some (mark, lexeme, rest)) :
    (∃ d, (c, d, mark) ∈ doubleSymbols) ∨ (c, mark) ∈ singleSymbols := by
  have hsingle {found : Symbol × Text × Text} {lexeme rest : Text}
      (h : (singleSymbols.lookup c).map (fun mark => (mark, lexeme, rest)) = some found) :
      (c, found.1) ∈ singleSymbols := by
    obtain ⟨mark, hmark, rfl⟩ := Option.map_eq_some_iff.mp h
    obtain ⟨before, after, hparts, -⟩ := List.lookup_eq_some_iff.mp hmark
    rw [hparts]
    exact List.mem_append_right _ List.mem_cons_self
  cases after with
  | nil => exact .inr (hsingle h)
  | cons d after =>
      rw [symbol?] at h
      split at h
      · rename_i entry hentry
        cases h
        have hmem := List.mem_of_find?_eq_some hentry
        have hchars := List.find?_some hentry
        rw [Bool.and_eq_true, decide_eq_true_iff, decide_eq_true_iff] at hchars
        obtain ⟨rfl, -⟩ := hchars
        exact .inl ⟨_, hmem⟩
      · exact .inr (hsingle h)

/-- Whether a character opens a bracket. -/
def opensBracket (c : Char) : Bool := c = '(' || c = '[' || c = '\x7b'

/-- What a symbol does to the open brackets: nothing, or it opens one, or closes the innermost. -/
theorem bracketsAfter?_symbol {brackets brackets' : List Char} {c : Char} {after lexeme rest : Text}
    {mark : Symbol} (hsymbol : symbol? (c :: after) = some (mark, lexeme, rest))
    (h : bracketsAfter? brackets c = some brackets') :
    ((TokenKind.symbol mark).IsWithin ∧ brackets' = brackets) ∨
      ((mark, closerOf c) ∈ bracketPairs ∧ brackets' = c :: brackets) ∨
        ∃ opener symbol, (symbol, mark) ∈ bracketPairs ∧ mark = closerOf opener ∧
          brackets = opener :: brackets' := by
  have hdouble : ∀ entry ∈ doubleSymbols,
      opensBracket entry.1 = false ∧ openerOf? entry.1 = none ∧
        ∀ pair ∈ bracketPairs, entry.2.2 ≠ pair.1 ∧ entry.2.2 ≠ pair.2 := by
    decide
  have hopener : ∀ entry ∈ singleSymbols, opensBracket entry.1 = true →
      (entry.2, closerOf entry.1) ∈ bracketPairs := by
    decide
  have hcloser : ∀ entry ∈ singleSymbols, ∀ opener, openerOf? entry.1 = some opener →
      entry.2 = closerOf opener ∧ ∃ pair ∈ bracketPairs, pair.2 = entry.2 := by
    simp [singleSymbols, openerOf?, closerOf, bracketPairs]
  have hother : ∀ entry ∈ singleSymbols, opensBracket entry.1 = false →
      openerOf? entry.1 = none → ∀ pair ∈ bracketPairs, entry.2 ≠ pair.1 ∧ entry.2 ≠ pair.2 := by
    decide
  have hmark := symbol?_start hsymbol
  unfold bracketsAfter? at h
  split at h
  · rename_i hopen
    obtain ⟨d, hmem⟩ | hmem := hmark
    · exact absurd hopen (ne_true_of_eq_false (hdouble _ hmem).1)
    · exact .inr (.inl ⟨hopener _ hmem hopen, (Option.some.inj h).symm⟩)
  · rename_i hplain
    split at h
    · rename_i hnone
      refine .inl ⟨?_, (Option.some.inj h).symm⟩
      obtain ⟨d, hmem⟩ | hmem := hmark
      · exact (hdouble _ hmem).2.2
      · exact hother _ hmem (eq_false_of_ne_true hplain) hnone
    · rename_i opener hclose
      obtain ⟨d, hmem⟩ | hmem := hmark
      · rw [(hdouble _ hmem).2.1] at hclose
        cases hclose
      · obtain ⟨hmark, ⟨symbol, mark⟩, hpair, rfl⟩ := hcloser _ hmem opener hclose
        split at h
        · split at h
          · rename_i hmatch
            cases h
            rw [← hmatch] at hmark
            exact .inr (.inr ⟨_, symbol, hpair, hmark, rfl⟩)
          · cases h
        · cases h

/-- What may come of a state. -/
def Leads (s : Lexer) (ks : List TokenKind) : Prop :=
  ∀ previous, (previous = .newline ↔ s.lineEnded = true) →
    Follows s.indents.length previous (s.brackets.map closerOf) ks

/-- Where a line starts the last one has ended, outside brackets, and the widths of the open
blocks grow inwards. -/
structure Ordered (s : Lexer) : Prop where
  starts : s.lineStart = true → s.lineEnded = true ∧ s.brackets = []
  widths : (s.indents ++ [0]).IsChain (· > ·)

variable {s next : Lexer} {tokens : List Token} {ks : List TokenKind}

/-- The round of one token, which is none of the layout: the open brackets stay as they are, or
it opens one, or closes the innermost. -/
theorem token_cases {c : Char} {after : Text} (h : s.token c after = .more tokens next) :
    ∃ t, tokens = [t] ∧ (next.lineEnded = false ∧ next.indents = s.indents) ∧
      ((t.kind.IsWithin ∧ next.brackets = s.brackets) ∨
        (∃ mark opener, t.kind = .symbol mark ∧ (mark, closerOf opener) ∈ bracketPairs ∧
          next.brackets = opener :: s.brackets) ∨
        ∃ symbol mark opener, t.kind = .symbol mark ∧ (symbol, mark) ∈ bracketPairs ∧
          mark = closerOf opener ∧ s.brackets = opener :: next.brackets) := by
  unfold token at h
  simp only at h
  split at h
  · cases h
    exact ⟨_, rfl, ⟨rfl, rfl⟩, .inl ⟨TokenKind.isWithin_ofWord _, rfl⟩⟩
  · split at h
    · split at h
      · rename_i found hfound
        cases h
        exact ⟨_, rfl, ⟨rfl, rfl⟩, .inl ⟨Literal.isWithin_number hfound, rfl⟩⟩
      · cases h
    · split at h
      · split at h
        · rename_i found hfound
          cases h
          exact ⟨_, rfl, ⟨rfl, rfl⟩, .inl ⟨Literal.isWithin_string hfound, rfl⟩⟩
        · cases h
      · split at h
        · cases h
        · rename_i mark lexeme rest hsymbol
          split at h
          · cases h
          · rename_i brackets hbrackets
            cases h
            refine ⟨_, rfl, ⟨rfl, rfl⟩, ?_⟩
            obtain ⟨hmark, rfl⟩ | ⟨hpair, rfl⟩ | ⟨opener, symbol, hpair, hmark, hopen⟩ :=
              bracketsAfter?_symbol hsymbol hbrackets
            · exact .inl ⟨hmark, rfl⟩
            · exact .inr (.inl ⟨mark, c, rfl, hpair, rfl⟩)
            · exact .inr (.inr ⟨symbol, mark, opener, rfl, hpair, hmark, hopen⟩)

/-- A token that is none of the layout. -/
theorem token_leads {c : Char} {after : Text} (h : s.token c after = .more tokens next)
    (hnext : next.Leads ks) : s.Leads (tokens.map Token.kind ++ ks) := by
  obtain ⟨t, rfl, ⟨hended, hindents⟩, hcases⟩ := token_cases h
  intro previous _
  have hthere (hkind : t.kind ≠ .newline) :
      Follows s.indents.length t.kind (next.brackets.map closerOf) ks := by
    rw [← hindents]
    exact hnext t.kind ⟨fun h => absurd h hkind, fun h => absurd h (by simp [hended])⟩
  rw [List.map_singleton, List.singleton_append]
  obtain ⟨hwithin, hbrackets⟩ | ⟨mark, opener, hkind, hpair, hbrackets⟩ |
    ⟨symbol, mark, opener, hkind, hpair, rfl, hbrackets⟩ := hcases
  · rw [← hbrackets]
    refine .within hwithin (hthere ?_)
    intro hnewline
    rw [hnewline] at hwithin
    exact hwithin.elim
  · rw [hkind, hbrackets] at hthere
    rw [hkind]
    exact .opener hpair (hthere nofun)
  · rw [hkind] at hthere
    rw [hkind, hbrackets]
    exact .closer hpair (hthere nofun)

theorem follows_dedents {depth : Nat} (h : Follows depth .dedent [] ks) (n : Nat) :
    Follows (depth + n) .dedent [] (List.replicate n .dedent ++ ks) := by
  induction n with
  | zero => exact h
  | succ n ih => exact .dedent (.inr rfl) ih

theorem closing_leads (hbrackets : s.brackets = []) : s.Leads (s.closing.map Token.kind) := by
  have hdedents : ∀ n, Follows n .newline [] (List.replicate n .dedent ++ [.endOfInput]) := by
    rintro (_ | n)
    · exact .ends
    · have hrest := follows_dedents .ends n
      rw [Nat.zero_add] at hrest
      exact .dedent (.inl rfl) hrest
  intro previous hprevious
  rw [hbrackets, closing]
  simp only [List.map_append, List.map_replicate, emptyToken, List.map_cons, List.map_nil]
  split
  · rename_i hended
    rw [hprevious.mpr hended]
    exact hdedents _
  · rename_i hended
    exact .newline (fun h => hended (hprevious.mp h)) (hdedents _)

/-- A narrower line closes a block at least. -/
theorem exists_closed {width : Nat} {indents : List Nat} (h : width < indents.headD 0) :
    ∃ closed, closed ≠ [] ∧ indents = closed ++ closeTo width indents := by
  cases indents with
  | nil => exact absurd h (Nat.not_lt_zero _)
  | cons innermost outer =>
      have hfirst : decide (width < innermost) = true := decide_eq_true h
      refine ⟨_, ?_, List.takeWhile_append_dropWhile.symm⟩
      rw [List.takeWhile_cons, if_pos hfirst]
      exact List.cons_ne_nil _ _

/-- The start of a line opens no block, or one, or closes some. -/
theorem layout_cases (h : s.layout = .ok (tokens, next)) :
    (next.lineStart = false ∧ next.brackets = s.brackets) ∧
      ((tokens = [] ∧ next.indents = s.indents ∧ next.lineEnded = s.lineEnded) ∨
        (∃ width, s.indents.headD 0 < width ∧ tokens = [emptyToken next.position .indent] ∧
          next.indents = width :: s.indents ∧ next.lineEnded = false) ∨
        ∃ closed, closed ≠ [] ∧
          tokens = List.replicate closed.length (emptyToken next.position .dedent) ∧
          s.indents = closed ++ next.indents ∧ next.lineEnded = false) := by
  unfold layout at h
  simp only at h
  split at h
  · cases h
    exact ⟨⟨rfl, rfl⟩, .inl ⟨rfl, rfl, rfl⟩⟩
  · split at h
    · rename_i hwider
      cases h
      exact ⟨⟨rfl, rfl⟩, .inr (.inl ⟨_, hwider, rfl, rfl, rfl⟩)⟩
    · split at h
      · rename_i hnarrower
        split at h
        · cases h
          obtain ⟨closed, hclosed, hindents⟩ := exists_closed hnarrower
          have hlength := congrArg List.length hindents
          rw [List.length_append] at hlength
          exact ⟨⟨rfl, rfl⟩, .inr (.inr ⟨closed, hclosed,
            congrArg (List.replicate · _) (Nat.sub_eq_of_eq_add hlength), hindents, rfl⟩)⟩
        · cases h
      · cases h
        exact ⟨⟨rfl, rfl⟩, .inl ⟨rfl, rfl, rfl⟩⟩

theorem layout_leads (hs : s.Ordered) (hstart : s.lineStart = true)
    (h : s.layout = .ok (tokens, next)) (hnext : next.Leads ks) :
    s.Leads (tokens.map Token.kind ++ ks) := by
  obtain ⟨hended, hempty⟩ := hs.starts hstart
  obtain ⟨⟨-, hbrackets⟩, hcases⟩ := layout_cases h
  intro previous hprevious
  obtain rfl := hprevious.mpr hended
  rw [hempty] at hbrackets ⊢
  rw [Leads, hbrackets] at hnext
  obtain ⟨rfl, hindents, hsame⟩ | ⟨width, -, rfl, hindents, hopened⟩ |
    ⟨closed, hclosed, rfl, hindents, hopened⟩ := hcases
  · rw [← hindents]
    exact hnext _ (hsame ▸ hprevious)
  · have hthere := hnext .indent (by simp [hopened])
    rw [hindents] at hthere
    exact .indent hthere
  · have hthere := hnext .dedent (by simp [hopened])
    obtain ⟨n, hn⟩ := Nat.exists_eq_add_one.mpr (List.length_pos_of_ne_nil hclosed)
    rw [hindents, List.length_append, hn, List.map_replicate, Nat.add_comm, ← Nat.add_assoc]
    exact .dedent (.inl rfl) (follows_dedents hthere n)

theorem layout_ordered (hs : s.Ordered) (h : s.layout = .ok (tokens, next)) : next.Ordered := by
  obtain ⟨⟨hstart, -⟩, hcases⟩ := layout_cases h
  refine ⟨fun h => absurd h (by simp [hstart]), ?_⟩
  have hwidths := hs.widths
  obtain ⟨-, hindents, -⟩ | ⟨width, hwider, -, hindents, -⟩ | ⟨closed, -, -, hindents, -⟩ :=
    hcases
  · rwa [hindents]
  · rw [hindents]
    cases hopen : s.indents with
    | nil =>
        rw [hopen] at hwider
        exact .cons_cons hwider (.singleton 0)
    | cons innermost outer =>
        rw [hopen] at hwider hwidths
        exact .cons_cons hwider hwidths
  · rw [hindents, List.append_assoc] at hwidths
    exact hwidths.right_of_append

theorem token_ordered {c : Char} {after : Text} (hs : s.Ordered) (hstart : s.lineStart = false)
    (h : s.token c after = .more tokens next) : next.Ordered := by
  have hnext := (token_shorter h).2.trans hstart
  refine ⟨fun h => absurd h (by simp [hnext]), ?_⟩
  obtain ⟨t, -, ⟨-, hindents⟩, -⟩ := token_cases h
  rw [hindents]
  exact hs.widths

theorem within_leads (hs : s.Ordered) (hstart : s.lineStart = false)
    (h : s.within = .more tokens next) :
    next.Ordered ∧ ∀ ks, next.Leads ks → s.Leads (tokens.map Token.kind ++ ks) := by
  obtain ⟨p, c, after, -, hcases⟩ := within_cases h
  obtain ⟨-, -, rfl, rfl⟩ | ⟨-, hempty, hended, rfl, rfl⟩ | ⟨-, hempty, hended, rfl, rfl⟩ |
    ⟨-, htoken⟩ := hcases
  · exact ⟨⟨fun h => absurd h (by simp [hstart]), hs.widths⟩, fun ks hks => hks⟩
  · exact ⟨⟨fun _ => ⟨hended, hempty⟩, hs.widths⟩, fun ks hks => hks⟩
  · refine ⟨⟨fun _ => ⟨rfl, hempty⟩, hs.widths⟩, fun ks hks previous hprevious => ?_⟩
    have hthere := hks .newline (by simp)
    rw [hempty] at hthere ⊢
    refine .newline (fun h => ?_) hthere
    exact Bool.false_ne_true (hended.symm.trans (hprevious.mp h))
  · have hplace : Ordered { s with rest := c :: after, position := p } := ⟨hs.starts, hs.widths⟩
    refine ⟨token_ordered hplace hstart htoken, fun ks hks => ?_⟩
    have hleads := token_leads htoken hks
    exact hleads

/-- A round keeps the widths in order, and its tokens may come before those of the next state. -/
theorem round_leads (hs : s.Ordered) (h : s.round = .more tokens next) :
    next.Ordered ∧ ∀ ks, next.Leads ks → s.Leads (tokens.map Token.kind ++ ks) := by
  unfold round at h
  split at h
  · rename_i hstart
    rw [Bool.and_eq_true] at hstart
    split at h
    · cases h
    · rename_i mid hlayout
      obtain ⟨hordered, hleads⟩ :=
        within_leads (layout_ordered hs hlayout) (layout_cases hlayout).1.1 h
      refine ⟨hordered, fun ks hks => ?_⟩
      have hthere := layout_leads hs hstart.1 hlayout (hleads ks hks)
      exact hthere
    · rename_i mid hlayout
      cases h
      exact ⟨layout_ordered hs hlayout, fun ks hks => layout_leads hs hstart.1 hlayout hks⟩
  · rename_i hinside
    have hstart : s.lineStart = false := by
      rw [Bool.eq_false_iff]
      intro hstart
      exact hinside (by rw [hstart, (hs.starts hstart).2]; rfl)
    exact within_leads hs hstart h

theorem within_done (h : s.within = .done tokens) : s.Leads (tokens.map Token.kind) := by
  obtain ⟨p, -, hbrackets, rfl⟩ := exists_of_within_done h
  have hleads := closing_leads (s := { s with rest := [], position := p }) hbrackets
  exact hleads

theorem round_done (hs : s.Ordered) (h : s.round = .done tokens) :
    s.Leads (tokens.map Token.kind) := by
  unfold round at h
  split at h
  · rename_i hstart
    rw [Bool.and_eq_true] at hstart
    split at h
    · cases h
    · rename_i mid hlayout
      have hthere := layout_leads hs hstart.1 hlayout (within_done h)
      exact hthere
    · cases h
  · exact within_done h

/-- The tokens of a state that can be cut whole may come of it. -/
theorem lexed_leads (hs : s.Ordered) (hwhole : s.lexed.failure = none) :
    s.Leads (s.lexed.tokens.map Token.kind) := by
  induction hleft : s.roundsLeft using Nat.strongRecOn generalizing s with
  | ind left ih =>
      subst hleft
      cases hround : s.round with
      | failed error openIndents =>
          rw [lexed_failed hround] at hwhole
          cases hwhole
      | done tokens =>
          rw [lexed_done hround]
          exact round_done hs hround
      | more tokens next =>
          obtain ⟨hnext, hleads⟩ := round_leads hs hround
          rw [lexed_more hround] at hwhole ⊢
          have hlater := ih _ (round_fewer hround) hnext hwhole rfl
          have hround := hleads _ hlater
          rw [← List.map_append] at hround
          exact hround

theorem ofText_ordered (source : Text) : (ofText source).Ordered :=
  ⟨fun _ => ⟨rfl, rfl⟩, .singleton 0⟩

/-- The states that cutting a source goes through, up to its end or the first error. -/
inductive Reached (source : Text) : Lexer → Prop where
  | start : Reached source (ofText source)
  | layout {s mid : Lexer} {tokens : List Token} : Reached source s →
      (s.lineStart && s.brackets.isEmpty) = true → s.layout = .ok (tokens, mid) →
        Reached source mid
  | round {s next : Lexer} {tokens : List Token} : Reached source s →
      s.round = .more tokens next → Reached source next

theorem Reached.ordered {source : Text} (h : Reached source s) : s.Ordered := by
  induction h with
  | start => exact ofText_ordered source
  | layout _ _ hlayout ih => exact layout_ordered ih hlayout
  | round _ hround ih => exact (round_leads ih hround).1

/-- The widths of the open blocks from the margin inwards, also while blocks are closed. -/
theorem Ordered.widths_increase (hs : s.Ordered) (closed : Nat) :
    (0 :: (s.indents.drop closed).reverse).Pairwise (· < ·) := by
  have hchain : (s.indents.drop closed ++ [0]).IsChain (· > ·) := by
    have hparts : s.indents ++ [0] =
        s.indents.take closed ++ (s.indents.drop closed ++ [0]) := by
      rw [← List.append_assoc, List.take_append_drop]
    have hwidths := hs.widths
    rw [hparts] at hwidths
    exact hwidths.right_of_append
  rw [List.isChain_iff_pairwise] at hchain
  have hreverse := List.pairwise_reverse.mpr hchain
  rwa [List.reverse_append] at hreverse

end Lexer

open TokenKind (MayFollow Nested)

/-- The kinds of the tokens of a source, laid out well. -/
structure LaidOut (kinds : List TokenKind) : Prop where
  ends : ∃ before, kinds = before ++ [.endOfInput] ∧ .endOfInput ∉ before
  balanced : kinds.count .indent = kinds.count .dedent
  opened : ∀ before, before <+: kinds → before.count .dedent ≤ before.count .indent
  indents : ∀ before after, kinds = before ++ .indent :: after →
    before = [] ∨ before.getLast? = some .newline
  dedents : ∀ before after, kinds = before ++ .dedent :: after →
    before.getLast? = some .newline ∨ before.getLast? = some .dedent
  newlines : ∀ before after, kinds = before ++ .newline :: after →
    before.getLast? ≠ some .newline
  nested : Nested false kinds

/-- Tokens after the start of a source, where a line may begin. -/
theorem TokenKind.Follows.laidOut {kinds : List TokenKind} (h : Follows 0 .newline [] kinds) :
    LaidOut kinds := by
  obtain ⟨hbalanced, hopened⟩ := h.closes
  -- the token before one that is not the first
  have hprevious {before after : List TokenKind} {k : TokenKind}
      (hk : kinds = before ++ k :: after) :
      before = [] ∨ ∃ previous, before.getLast? = some previous ∧ MayFollow previous k := by
    obtain rfl | ⟨front, previous, rfl⟩ := before.eq_nil_or_concat'
    · exact .inl rfl
    · have hchain := h.isChain
      rw [hk, ← List.cons_append, List.isChain_append] at hchain
      have hlast : (TokenKind.newline :: (front ++ [previous])).getLast? = some previous := by
        rw [← List.cons_append, List.getLast?_concat]
      exact .inr ⟨previous, List.getLast?_concat, hchain.2.2 _ hlast k rfl⟩
  refine ⟨h.ends_once, hbalanced.symm, hopened, ?indents, ?dedents, ?newlines, ?nested⟩
  case indents =>
    intro before after hkinds
    obtain hfirst | ⟨previous, hlast, hmay⟩ := hprevious hkinds
    · exact .inl hfirst
    · exact .inr (hmay.indent rfl ▸ hlast)
  case dedents =>
    intro before after hkinds
    obtain rfl | ⟨previous, hlast, hmay⟩ := hprevious hkinds
    · have hfirst := hopened [.dedent] ⟨after, hkinds.symm⟩
      simp at hfirst
    · rw [hlast, Option.some.injEq, Option.some.injEq]
      exact hmay.dedent rfl
  case newlines =>
    intro before after hkinds
    obtain rfl | ⟨previous, hlast, hmay⟩ := hprevious hkinds
    · nofun
    · rw [hlast, ne_eq, Option.some.injEq]
      exact hmay.newline rfl
  case nested =>
    cases h.closesAll with
    | nil hnested => exact hnested

/-- The tokens of a source are laid out well, and the widths of its open blocks, from the margin
inwards, increase in every state that cutting it goes through. -/
theorem tokenize_laidOut {source : Text} {tokens : List Token}
    (h : tokenize source = .ok tokens) :
    LaidOut (tokens.map Token.kind) ∧
      ∀ s, Lexer.Reached source s → ∀ closed,
        (0 :: (s.indents.drop closed).reverse).Pairwise (· < ·) := by
  obtain ⟨hwhole, rfl⟩ := tokenize_eq_ok.mp h
  have hleads := Lexer.lexed_leads (Lexer.ofText_ordered source) hwhole
  exact ⟨(hleads .newline (by simp [Lexer.ofText])).laidOut,
    fun s hs => hs.ordered.widths_increase⟩

/-- A block with a bracket over two lines and a blank line in it. -/
def blockSource : Text := "if x:\n  f(a,\n\n b)\n\n  y\nz".toList

theorem tokenize_laidOut_block : ∃ tokens, tokenize blockSource = .ok tokens ∧
    LaidOut (tokens.map Token.kind) := by
  have hok : (tokenize blockSource).isOk = true := by decide +kernel
  cases htokens : tokenize blockSource with
  | error error =>
      rw [htokens] at hok
      cases hok
  | ok tokens => exact ⟨tokens, rfl, (tokenize_laidOut htokens).1⟩

end TemplateEngine
