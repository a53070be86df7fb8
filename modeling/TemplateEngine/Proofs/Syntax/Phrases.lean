import TemplateEngine.Proofs.Syntax.ExpressionText
import TemplateEngine.Proofs.Syntax.Gaps

/-!
# Phrases

The text of an expression ends every lexeme in it, wherever the expression stands, and
closes the brackets that it opens. Its first token is one that an expression starts
with. The pieces of an expression keep these properties when they are put together, so
they hold of every expression that the grammar admits.
-/
namespace TemplateEngine

namespace Lexeme

/-- The characters that stand behind an expression, but for the point. -/
def closers : List Char := [' ', '\n', ',', ':', '(', ')', '[', ']', '\x7d']

/-- A text that no lexeme of an expression before it goes on with. -/
def ends : Text → Bool
  | [] => true
  | c :: rest => closers.contains c || (c = '.' && !Literal.startsWithDigit rest)

theorem ends_cons {c : Char} (hc : c ∈ closers) (rest : Text) : ends (c :: rest) = true := by
  have hcontains : closers.contains c = true := List.contains_iff_mem.mpr hc
  rw [ends, hcontains]
  rfl

theorem head_of_ends {rest : Text} (h : ends rest = true) : ∀ c ∈ rest.head?, c ∈ '.' :: closers := by
  intro c hc
  cases rest with
  | nil => cases hc
  | cons d rest =>
      cases hc
      rw [ends, Bool.or_eq_true, Bool.and_eq_true, decide_eq_true_eq] at h
      rcases h with h | ⟨rfl, -⟩
      · exact List.mem_cons_of_mem _ (List.contains_iff_mem.mp h)
      · exact List.mem_cons_self

theorem endsWord_of_ends {rest : Text} (h : ends rest = true) : endsWord rest := by
  have hmarks : ('.' :: closers).all Letter.isMark = true := by decide
  exact fun c hc => Letter.isIdentifierContinue_of_isMark
    (List.all_eq_true.mp hmarks c (head_of_ends h c hc))

theorem endsSign_of_ends {rest : Text} (h : ends rest = true) : endsSign rest := by
  have hother : ('.' :: closers).all (fun c => c != '=' && c != '/') = true := by decide
  intro c hc
  simpa using List.all_eq_true.mp hother c (head_of_ends h c hc)

theorem endsQuoted_of_ends {rest : Text} (h : ends rest = true) : endsQuoted rest := by
  have hother : ('.' :: closers).all (fun c => c != '\'' && c != '"') = true := by decide
  intro c hc
  simpa using List.all_eq_true.mp hother c (head_of_ends h c hc)

theorem endsNumber_of_ends {rest : Text} (h : ends rest = true) : endsNumber rest := by
  refine ⟨endsWord_of_ends h, ?_⟩
  cases rest with
  | nil => rfl
  | cons c rest =>
      by_cases hpoint : c = '.'
      · subst hpoint
        have hdigit : Literal.startsWithDigit rest = false := by simpa [ends, closers] using h
        simp [Literal.fraction, hdigit]
      · exact Literal.fraction_of_ne hpoint rest

theorem endsSign_append {s t : Text} (hs : endsSign s) (ht : endsSign t) : endsSign (s ++ t) := by
  cases s with
  | nil => exact ht
  | cons c s => exact hs

theorem fits_append {ls ms : List Lexeme} {rest : Text} (hls : fits ls (line ms ++ rest))
    (hms : fits ms rest) : fits (ls ++ ms) rest := by
  induction ls with
  | nil => exact hms
  | cons l ls ih =>
      have hline : line (ls ++ ms) ++ rest = line ls ++ (line ms ++ rest) := by
        rw [line_append, List.append_assoc]
      rw [List.cons_append]
      cases l with
      | blank => exact ih hls
      | mark c symbol => exact ⟨hls.1, ih hls.2⟩
      | string written value => exact ⟨hls.1, ih hls.2⟩
      | sign symbol => exact ⟨hline ▸ hls.1, ih hls.2⟩
      | quoted t => exact ⟨hline ▸ hls.1, ih hls.2⟩
      | word w => exact ⟨hls.1, hline ▸ hls.2.1, ih hls.2.2⟩
      | number n => exact ⟨hls.1, hline ▸ hls.2.1, ih hls.2.2⟩

theorem bracketsAfter?_append (brackets : List Char) (ls ms : List Lexeme) :
    bracketsAfter? brackets (ls ++ ms) =
      (bracketsAfter? brackets ls).bind fun next => bracketsAfter? next ms := by
  induction ls generalizing brackets with
  | nil => rfl
  | cons l ls ih =>
      cases l with
      | mark c symbol =>
          simp only [List.cons_append, bracketsAfter?, Option.bind_assoc]
          exact congrArg _ (funext fun next => ih next)
      | sign symbol =>
          simp only [List.cons_append, bracketsAfter?, Option.bind_assoc]
          exact congrArg _ (funext fun next => ih next)
      | _ => exact ih brackets

theorem newline_not_mem_word {w : Text} (hw : isWord w = true) : '\n' ∉ w := fun h =>
  Letter.ne_of_continue (continues_of_isWord hw _ h) (by decide) rfl

theorem newline_not_mem_encode (t : Text) : '\n' ∉ Quoted.encode t := by
  have hmark := Literal.mark_mem t
  have hquote : ∀ quote ∈ ['\'', '"'], '\n' ≠ quote := by simp
  have hchar : ∀ c ∈ t, '\n' ∉ Quoted.encodeChar (Quoted.mark t) c := by
    intro c _
    unfold Quoted.encodeChar
    repeat' split
    all_goals simp_all [eq_comm]
  simp only [Quoted.encode, List.cons_append, List.mem_cons, List.mem_append, List.mem_flatMap,
    List.not_mem_nil, or_false, not_or, not_exists, not_and]
  exact ⟨hquote _ hmark, hchar, hquote _ hmark⟩

theorem newline_not_mem_append {ls ms : List Lexeme} (hls : '\n' ∉ line ls) (hms : '\n' ∉ line ms) :
    '\n' ∉ line (ls ++ ms) := by
  rw [line_append, List.mem_append]
  exact not_or.mpr ⟨hls, hms⟩

theorem newline_not_mem_cons {l : Lexeme} {ls : List Lexeme} (hl : '\n' ∉ l.text)
    (hls : '\n' ∉ line ls) : '\n' ∉ line (l :: ls) := by
  rw [line_cons, List.mem_append]
  exact not_or.mpr ⟨hl, hls⟩

theorem newline_not_mem_sign (symbol : Symbol) : '\n' ∉ text (.sign symbol) := by
  cases symbol <;> decide

/-- What lexemes are as tokens. -/
def kinds (ls : List Lexeme) : List TokenKind := ls.filterMap kind?

@[simp] theorem kinds_append (ls ms : List Lexeme) : kinds (ls ++ ms) = kinds ls ++ kinds ms :=
  List.filterMap_append

end Lexeme

open Lexeme Parser

/-- The tokens that an expression starts with. -/
def TokenKind.begins : TokenKind → Bool
  | .int _ | .string _ | .bool _ | .noneWord | .identifier _ | .keyword .notWord => true
  | .symbol .leftParen | .symbol .leftBracket | .symbol .leftBrace => true
  | .symbol .plus | .symbol .minus => true
  | _ => false

/-- Lexemes on one line that read back where an expression or a bracket may end them, that
close the brackets they open, and that may stand behind a symbol. -/
structure Sound (ls : List Lexeme) : Prop where
  fits : ∀ rest, ends rest = true → fits ls rest
  balanced : ∀ brackets, bracketsAfter? brackets ls = some brackets
  apart : endsSign (line ls)
  oneLine : '\n' ∉ line ls

/-- Lexemes that may stand behind an expression. -/
structure Behind (ls : List Lexeme) : Prop where
  fits : ∀ rest, ends rest = true → fits ls rest
  balanced : ∀ brackets, bracketsAfter? brackets ls = some brackets
  ends : ∀ rest, ends rest = true → ends (line ls ++ rest) = true
  oneLine : '\n' ∉ line ls

/-- Lexemes that may stand behind an expression and belong to the same one: they do not turn
it into a name with an equals sign behind it. -/
structure Tail (ls : List Lexeme) : Prop extends Behind ls where
  next : (kinds ls).head? ≠ some (.symbol .equals)

/-- The lexemes of an expression whose operators bind with some power. -/
structure Phrase (power : Nat) (ls : List Lexeme) : Prop extends Sound ls where
  first : ∃ c s, line ls = c :: s ∧ Lexer.Visible c
  begins : ∃ kind others, kinds ls = kind :: others ∧ kind.begins = true ∧
    (kind = .keyword .notWord → power ≤ notPower) ∧
      ∀ n, kind = .identifier n → others.head? ≠ some (.symbol .equals)

section Pieces

variable {ls ms : List Lexeme} {power other : Nat}

theorem sound_nil : Sound [] where
  fits _ _ := trivial
  balanced _ := rfl
  apart := by simp [endsSign]
  oneLine := by simp

theorem Sound.append (hls : Sound ls) (hms : Sound ms)
    (hends : ∀ rest, ends rest = true → ends (line ms ++ rest) = true) : Sound (ls ++ ms) where
  fits rest hrest := Lexeme.fits_append (hls.fits _ (hends rest hrest)) (hms.fits rest hrest)
  balanced brackets := by rw [bracketsAfter?_append, hls.balanced]; exact hms.balanced brackets
  apart := by
    rw [line_append]
    exact endsSign_append hls.apart hms.apart
  oneLine := newline_not_mem_append hls.oneLine hms.oneLine

theorem Sound.separated (h : Sound ls) : Sound (separated ls) := by
  unfold Lexeme.separated
  split
  · exact sound_nil
  · exact ⟨fun rest hrest => ⟨fun _ hc => Option.some.inj hc ▸ by decide, h.fits rest hrest⟩,
      h.balanced, fun _ hc => Option.some.inj hc ▸ by decide,
      newline_not_mem_cons (by decide) (newline_not_mem_cons (by decide) h.oneLine)⟩

theorem ends_separated (ls : List Lexeme) {rest : Text} (hrest : ends rest = true) :
    ends (line (separated ls) ++ rest) = true := by
  unfold Lexeme.separated
  split
  · exact hrest
  · exact ends_cons (by decide) _

theorem Behind.append (hls : Behind ls) (hms : Behind ms) : Behind (ls ++ ms) where
  fits rest hrest := Lexeme.fits_append (hls.fits _ (hms.ends rest hrest)) (hms.fits rest hrest)
  balanced brackets := by rw [bracketsAfter?_append, hls.balanced]; exact hms.balanced brackets
  ends rest hrest := by
    rw [line_append, List.append_assoc]
    exact hls.ends _ (hms.ends rest hrest)
  oneLine := newline_not_mem_append hls.oneLine hms.oneLine

theorem Tail.append (hls : Tail ls) (hms : Tail ms) : Tail (ls ++ ms) where
  toBehind := hls.toBehind.append hms.toBehind
  next := by
    rw [kinds_append, List.head?_append]
    intro h
    cases hls' : (kinds ls).head? with
    | none =>
        rw [hls'] at h
        exact hms.next h
    | some kind =>
        rw [hls'] at h
        exact hls.next (hls'.trans h)

/-- An expression goes on with a tail. -/
theorem Phrase.append (h : Phrase power ls) (hms : Tail ms)
    (hpower : power ≤ notPower → other ≤ notPower) : Phrase other (ls ++ ms) where
  fits rest hrest := Lexeme.fits_append (h.fits _ (hms.ends rest hrest)) (hms.fits rest hrest)
  balanced brackets := by rw [bracketsAfter?_append, h.balanced]; exact hms.balanced brackets
  apart := by
    rw [line_append]
    obtain ⟨c, s, hfirst, -⟩ := h.first
    have hapart := h.apart
    rw [hfirst] at hapart ⊢
    exact hapart
  oneLine := newline_not_mem_append h.oneLine hms.oneLine
  first := by
    obtain ⟨c, s, hfirst, hc⟩ := h.first
    exact ⟨c, s ++ line ms, by rw [line_append, hfirst, List.cons_append], hc⟩
  begins := by
    obtain ⟨kind, others, hkinds, hbegins, hnot, hname⟩ := h.begins
    refine ⟨kind, others ++ kinds ms, by rw [kinds_append, hkinds, List.cons_append], hbegins,
      fun hkind => hpower (hnot hkind), fun n hn => ?_⟩
    cases others with
    | nil => exact hms.next
    | cons k others => exact hname n hn

/-- Lexemes of a row: they read back on one line and start with something visible. -/
structure Code (ls : List Lexeme) : Prop where
  fits : ∀ rest, Lexeme.ends rest = true → fits ls rest
  balanced : ∀ brackets, bracketsAfter? brackets ls = some brackets
  first : ∃ c s, line ls = c :: s ∧ Lexer.Visible c
  oneLine : '\n' ∉ line ls

theorem Phrase.code (h : Phrase power ls) : Code ls := ⟨h.fits, h.balanced, h.first, h.oneLine⟩

theorem Code.append (h : Code ls) (hms : Behind ms) : Code (ls ++ ms) where
  fits rest hrest := Lexeme.fits_append (h.fits _ (hms.ends rest hrest)) (hms.fits rest hrest)
  balanced brackets := by rw [bracketsAfter?_append, h.balanced]; exact hms.balanced brackets
  first := by
    obtain ⟨c, s, hfirst, hc⟩ := h.first
    exact ⟨c, s ++ line ms, by rw [line_append, hfirst, List.cons_append], hc⟩
  oneLine := newline_not_mem_append h.oneLine hms.oneLine

theorem code_word {w : Text} (hw : isWord w = true) : Code [.word w] where
  fits _ hrest := ⟨hw, endsWord_of_ends hrest, trivial⟩
  balanced _ := rfl
  first := by
    obtain ⟨c, s, rfl⟩ := List.exists_cons_of_ne_nil (ne_nil_of_isWord hw)
    exact ⟨c, s, by simp [text],
      Lexer.visible_of_continue (continues_of_isWord hw c List.mem_cons_self)⟩
  oneLine := newline_not_mem_cons (newline_not_mem_word hw) (by simp)

/-- Code behind a blank. -/
theorem Code.behind (h : Code ls) : Behind (.blank :: ls) where
  fits := h.fits
  balanced := h.balanced
  ends _ _ := ends_cons (by decide) _
  oneLine := newline_not_mem_cons (by decide) h.oneLine

/-- The brackets that go together. -/
def bracketPairs : List (Symbol × Symbol) :=
  [(.leftParen, .rightParen), (.leftBracket, .rightBracket), (.leftBrace, .rightBrace)]

theorem oneLine_group (opening closing : Symbol) (h : Sound ls) :
    '\n' ∉ line (.sign opening :: (ls ++ [.sign closing])) :=
  newline_not_mem_cons (newline_not_mem_sign opening)
    (newline_not_mem_append h.oneLine
      (newline_not_mem_cons (newline_not_mem_sign closing) (by simp)))

section Group

variable {opening closing : Symbol} (hpair : (opening, closing) ∈ bracketPairs)
include hpair

theorem fits_group (h : Sound ls) {rest : Text} (hrest : endsSign rest) :
    fits (.sign opening :: (ls ++ [.sign closing])) rest := by
  have hclosing : Lexeme.ends closing.text = true ∧ ∀ t, Lexeme.ends (closing.text ++ t) = true := by
    simp only [bracketPairs, List.mem_cons, Prod.mk.injEq, List.not_mem_nil, or_false] at hpair
    rcases hpair with ⟨-, rfl⟩ | ⟨-, rfl⟩ | ⟨-, rfl⟩ <;>
      exact ⟨by decide, fun t => ends_cons (by decide) t⟩
  refine ⟨?_, Lexeme.fits_append ?_ ⟨hrest, trivial⟩⟩
  · rw [line_append, List.append_assoc]
    refine endsSign_append h.apart ?_
    rw [line_cons, line_nil, List.append_nil]
    exact endsSign_of_ends (hclosing.2 rest)
  · rw [line_cons, line_nil, List.append_nil]
    exact h.fits _ (hclosing.2 rest)

theorem balanced_group (h : Sound ls) (brackets : List Char) :
    bracketsAfter? brackets (.sign opening :: (ls ++ [.sign closing])) = some brackets := by
  simp only [bracketPairs, List.mem_cons, Prod.mk.injEq, List.not_mem_nil, or_false] at hpair
  rcases hpair with ⟨rfl, rfl⟩ | ⟨rfl, rfl⟩ | ⟨rfl, rfl⟩ <;>
    · rw [bracketsAfter?]
      change bracketsAfter? (_ :: brackets) _ = _
      rw [bracketsAfter?_append, h.balanced]
      rfl

/-- Brackets around sound lexemes make an expression of them. -/
theorem Sound.group (h : Sound ls) :
    Phrase postfixPower (.sign opening :: (ls ++ [.sign closing])) where
  fits rest hrest := fits_group hpair h (endsSign_of_ends hrest)
  balanced := balanced_group hpair h
  apart := by
    simp only [bracketPairs, List.mem_cons, Prod.mk.injEq, List.not_mem_nil, or_false] at hpair
    rcases hpair with ⟨rfl, -⟩ | ⟨rfl, -⟩ | ⟨rfl, -⟩ <;>
      exact fun _ hc => Option.some.inj hc ▸ by decide
  oneLine := oneLine_group opening closing h
  first := by
    simp only [bracketPairs, List.mem_cons, Prod.mk.injEq, List.not_mem_nil, or_false] at hpair
    rcases hpair with ⟨rfl, -⟩ | ⟨rfl, -⟩ | ⟨rfl, -⟩ <;>
      exact ⟨_, _, rfl, by decide, by decide⟩
  begins := by
    refine ⟨.symbol opening, kinds (ls ++ [.sign closing]), rfl, ?_, (by simp),
      by simp⟩
    simp only [bracketPairs, List.mem_cons, Prod.mk.injEq, List.not_mem_nil, or_false] at hpair
    rcases hpair with ⟨rfl, -⟩ | ⟨rfl, -⟩ | ⟨rfl, -⟩ <;> rfl

end Group

/-- Parentheses or square brackets behind an expression. -/
theorem Sound.trailer (h : Sound ls) {opening closing : Symbol}
    (hpair : (opening, closing) ∈ bracketPairs) (hopening : opening ≠ .leftBrace) :
    Tail (.sign opening :: (ls ++ [.sign closing])) where
  fits rest hrest := fits_group hpair h (endsSign_of_ends hrest)
  balanced := balanced_group hpair h
  ends rest _ := by
    simp only [bracketPairs, List.mem_cons, Prod.mk.injEq, List.not_mem_nil, or_false] at hpair
    rcases hpair with ⟨rfl, -⟩ | ⟨rfl, -⟩ | ⟨rfl, -⟩
    · exact ends_cons (by decide) _
    · exact ends_cons (by decide) _
    · exact absurd rfl hopening
  oneLine := oneLine_group opening closing h
  next := by
    intro hnext
    cases hnext
    simp [bracketPairs] at hpair

/-- Parentheses where they are needed make an operand of at least some power. -/
theorem Phrase.within (h : Phrase power ls) {least : Nat} (hleast : least ≤ postfixPower) :
    ∃ inner, least ≤ inner ∧ Phrase inner (enclosed (power < least) ls) := by
  unfold enclosed
  split
  · exact ⟨postfixPower, hleast, h.toSound.group (by decide)⟩
  · rename_i hpower
    rw [decide_eq_true_eq, Nat.not_lt] at hpower
    exact ⟨power, hpower, h⟩

/-- A word that an expression can be or start with. -/
theorem phrase_word {w : Text} (hw : isWord w = true) (hbegins : (TokenKind.ofWord w).begins = true)
    (hnot : TokenKind.ofWord w = .keyword .notWord → power ≤ notPower) : Phrase power [.word w] where
  fits := (code_word hw).fits
  balanced := (code_word hw).balanced
  apart := by
    obtain ⟨c, s, rfl⟩ := List.exists_cons_of_ne_nil (ne_nil_of_isWord hw)
    have hc := continues_of_isWord hw c List.mem_cons_self
    exact fun _ hd => Option.some.inj hd ▸
      ⟨Letter.ne_of_continue hc (by decide), Letter.ne_of_continue hc (by decide)⟩
  oneLine := (code_word hw).oneLine
  first := (code_word hw).first
  begins := ⟨_, [], rfl, hbegins, hnot, by simp⟩

theorem phrase_name {n : Text} (hn : IsName n) : Phrase power [.word n] :=
  phrase_word hn.1 (by rw [hn.2]; rfl) fun h => by rw [hn.2] at h; cases h

theorem phrase_constant {c : Constant} (hc : c.Plain) : Phrase power c.print := by
  cases c with
  | none => exact phrase_word (isWord_of_isLatin (by decide)) (by decide) (fun h => by cases h)
  | bool b =>
      cases b <;>
        exact phrase_word (isWord_of_isLatin (by decide)) (by decide) (fun h => by cases h)
  | int n =>
      obtain ⟨c, s, htext, hdigit⟩ := Text.ofNat_first n.toNat
      have hcontinue := Letter.isIdentifierContinue_of_isDigit hdigit
      have hline : line (Constant.int n).print = c :: s := by
        simp [Constant.print, text, htext]
      have hnewline : '\n' ∉ Text.ofNat n.toNat := fun h => by
        have hdigit := Text.isDigit_of_mem_ofNat h
        cases hdigit
      refine ⟨⟨fun rest hrest => ⟨?_, endsNumber_of_ends hrest, trivial⟩, fun _ => rfl, ?_,
          newline_not_mem_cons hnewline (by simp)⟩,
        ⟨c, s, hline, Lexer.visible_of_continue hcontinue⟩,
        ⟨_, [], rfl, rfl, (by simp), by simp⟩⟩
      · rw [Int.toNat_of_nonneg hc.1]
        exact hc.2
      · rw [hline]
        exact fun _ hd => Option.some.inj hd ▸
          ⟨Letter.ne_of_continue hcontinue (by decide), Letter.ne_of_continue hcontinue (by decide)⟩
  | float x => exact hc.elim
  | str t =>
      obtain ⟨hvisible, hother⟩ : Lexer.Visible (Quoted.mark t) ∧
          (Quoted.mark t ≠ '=' ∧ Quoted.mark t ≠ '/') := by
        unfold Quoted.mark
        split <;> exact ⟨⟨by decide, by decide⟩, by decide, by decide⟩
      have hline : line (Constant.str t).print = Quoted.mark t ::
          (t.flatMap (Quoted.encodeChar (Quoted.mark t)) ++ [Quoted.mark t]) := by
        simp [Constant.print, text, Quoted.encode]
      refine ⟨⟨fun rest hrest => ⟨endsQuoted_of_ends hrest, trivial⟩, fun _ => rfl, ?_,
          newline_not_mem_cons (newline_not_mem_encode t) (by simp)⟩,
        ⟨_, _, hline, hvisible⟩, ⟨_, [], rfl, rfl, (by simp), by simp⟩⟩
      rw [hline]
      exact fun _ hd => Option.some.inj hd ▸ hother

/-- The attribute behind an expression. -/
theorem tail_attribute {n : Text} (hn : IsName n) : Tail [.sign .dot, .word n] := by
  have hphrase : Phrase postfixPower [.word n] := phrase_name hn
  obtain ⟨c, s, rfl⟩ := List.exists_cons_of_ne_nil (ne_nil_of_isWord hn.1)
  have hdigit : c.isDigit = false := by
    have hstart := (Bool.and_eq_true_iff.mp hn.1).1
    rw [Bool.eq_false_iff]
    intro hc
    rw [Letter.isIdentifierStart_of_isDigit hc] at hstart
    cases hstart
  refine ⟨⟨fun rest hrest => ⟨endsSign_append hphrase.apart (endsSign_of_ends hrest),
    hphrase.fits rest hrest⟩, fun _ => rfl, fun rest _ => ?_,
    newline_not_mem_cons (by decide) hphrase.oneLine⟩, fun h => by cases h⟩
  simp [Lexeme.ends, text, Symbol.text, Literal.startsWithDigit, hdigit]

/-- A word behind an expression and another expression behind the word. -/
theorem Phrase.behind (h : Phrase power ls) {w : Text} (hw : isWord w = true)
    (hnext : TokenKind.ofWord w ≠ .symbol .equals) : Tail (.blank :: .word w :: .blank :: ls) where
  toBehind := ((code_word hw).append h.code.behind).behind
  next heq := hnext (Option.some.inj heq)

theorem fits_connective (op : Connective) (rest : Text) : fits op.print (' ' :: rest) := by
  have hsign : ∀ symbol, fits [.sign symbol] (' ' :: rest) := fun symbol =>
    ⟨fun _ hc => Option.some.inj hc ▸ by decide, trivial⟩
  cases op with
  | or | and => exact ⟨isWord_of_isLatin (by decide), endsWord_cons (by decide) _, trivial⟩
  | binary op => exact hsign op.sign
  | compare op =>
      cases op with
      | isIn | is => exact ⟨isWord_of_isLatin (by decide), endsWord_cons (by decide) _, trivial⟩
      | notIn | isNot =>
          exact ⟨isWord_of_isLatin (by decide), endsWord_cons (by decide) _,
            isWord_of_isLatin (by decide), endsWord_cons (by decide) _, trivial⟩
      | _ => exact hsign _

theorem balanced_connective (op : Connective) (brackets : List Char) :
    bracketsAfter? brackets op.print = some brackets := by
  cases op with
  | or | and => rfl
  | compare op => cases op <;> rfl
  | binary op => cases op <;> rfl

theorem newline_not_mem_connective (op : Connective) : '\n' ∉ line op.print := by
  cases op with
  | or | and => decide
  | compare op => cases op <;> decide
  | binary op => cases op <;> decide

theorem kinds_connective (op : Connective) : ∃ kind others, kinds op.print = kind :: others ∧
    kind ≠ .symbol .equals := by
  cases op with
  | or | and => exact ⟨_, _, rfl, by decide⟩
  | compare op => cases op <;> exact ⟨_, _, rfl, by decide⟩
  | binary op => cases op <;> exact ⟨_, _, rfl, by decide⟩

/-- An infix operator between two expressions. -/
theorem Phrase.between (hls : Phrase power ls) (hms : Phrase other ms) (op : Connective) :
    Phrase op.power (op.between power ls other ms) := by
  obtain ⟨left, hleft, hlhs⟩ := hls.within (Nat.le_of_lt op.power_lt.2)
  obtain ⟨right, -, hrhs⟩ := hms.within op.power_lt.2
  refine hlhs.append ⟨⟨fun rest hrest => ?_, fun brackets => ?_, fun _ _ => ends_cons (by decide) _,
    newline_not_mem_cons (by decide) (newline_not_mem_append (newline_not_mem_connective op)
      (newline_not_mem_cons (by decide) hrhs.oneLine))⟩, ?_⟩ (by omega)
  · exact Lexeme.fits_append (fits_connective op _) (hrhs.fits rest hrest)
  · rw [bracketsAfter?, bracketsAfter?_append, balanced_connective]
    · exact hrhs.balanced brackets
    · simp
    · simp
  · obtain ⟨kind, others, hkinds, hne⟩ := kinds_connective op
    change (kinds (op.print ++ _)).head? ≠ _
    rw [kinds_append, hkinds]
    exact fun h => hne (Option.some.inj h)

theorem Phrase.unary (h : Phrase power ls) (op : UnaryOp) :
    Phrase unaryPower (.sign op.sign :: enclosed (power < unaryPower) ls) := by
  obtain ⟨inner, -, hinner⟩ := h.within (show unaryPower ≤ postfixPower by decide)
  refine ⟨⟨fun rest hrest => ⟨endsSign_append hinner.apart (endsSign_of_ends hrest),
    hinner.fits rest hrest⟩, fun brackets => ?_, ?_,
    newline_not_mem_cons (newline_not_mem_sign op.sign) hinner.oneLine⟩, ?_, ?_⟩
  · cases op <;> exact hinner.balanced brackets
  · cases op <;> exact fun _ hc => Option.some.inj hc ▸ by decide
  · cases op <;> exact ⟨_, _, rfl, by decide, by decide⟩
  · cases op <;> exact ⟨_, _, rfl, rfl, (by simp), by simp⟩

theorem Phrase.not (h : Phrase power ls) :
    Phrase notPower (.word "not".toList :: .blank :: enclosed (power < notPower) ls) := by
  obtain ⟨inner, -, hinner⟩ := h.within (show notPower ≤ postfixPower by decide)
  refine ⟨⟨fun rest hrest => ⟨isWord_of_isLatin (by decide), endsWord_cons (by decide) _,
    hinner.fits rest hrest⟩, hinner.balanced, fun _ hc => Option.some.inj hc ▸ by decide,
    newline_not_mem_cons (by decide) (newline_not_mem_cons (by decide) hinner.oneLine)⟩,
    ⟨_, _, rfl, by decide, by decide⟩,
    ⟨_, _, rfl, by decide, (fun _ => Nat.le_refl _), fun _ h => by cases h⟩⟩

end Pieces

section Lists

/-- Items with commas between them, and sound lexemes behind another comma. -/
theorem sound_printItems {items : List Expr} (hitems : ∀ e ∈ items, Phrase e.power e.print)
    {others : List Lexeme} (hothers : Sound others) : Sound (printItems items others) := by
  induction items with
  | nil => exact hothers
  | cons e items ih =>
      have hrest := ih fun d hd => hitems d (List.mem_cons_of_mem e hd)
      rw [printItems]
      exact (hitems e List.mem_cons_self).toSound.append hrest.separated
        fun _ h => ends_separated _ h

theorem sound_printEntries {entries : List (Expr × Expr)}
    (hkeys : ∀ entry ∈ entries, Phrase entry.1.power entry.1.print)
    (hvalues : ∀ entry ∈ entries, Phrase entry.2.power entry.2.print) :
    Sound (printEntries entries) := by
  induction entries with
  | nil => exact sound_nil
  | cons entry entries ih =>
      obtain ⟨key, value⟩ := entry
      have hrest := ih (fun d hd => hkeys d (List.mem_cons_of_mem _ hd))
        fun d hd => hvalues d (List.mem_cons_of_mem _ hd)
      have hvalue := (hvalues _ List.mem_cons_self).toSound.append hrest.separated
        fun _ h => ends_separated _ h
      rw [printEntries]
      refine (hkeys _ List.mem_cons_self).toSound.append ⟨fun rest hrest =>
        ⟨fun _ hc => Option.some.inj hc ▸ by decide, hvalue.fits rest hrest⟩, hvalue.balanced,
        (fun _ hc => Option.some.inj hc ▸ by decide),
        newline_not_mem_cons (by decide) (newline_not_mem_cons (by decide) hvalue.oneLine)⟩
        fun _ _ => ends_cons (by decide) _

theorem sound_printKeywords {keywords : List (Text × Expr)}
    (hnames : ∀ keyword ∈ keywords, IsName keyword.1)
    (hvalues : ∀ keyword ∈ keywords, Phrase keyword.2.power keyword.2.print) :
    Sound (printKeywords keywords) := by
  induction keywords with
  | nil => exact sound_nil
  | cons keyword keywords ih =>
      obtain ⟨n, value⟩ := keyword
      have hrest := ih (fun d hd => hnames d (List.mem_cons_of_mem _ hd))
        fun d hd => hvalues d (List.mem_cons_of_mem _ hd)
      have hvalue := (hvalues _ List.mem_cons_self).toSound.append hrest.separated
        fun _ h => ends_separated _ h
      have hn := hnames _ List.mem_cons_self
      have hname : Phrase postfixPower [.word n] := phrase_name hn
      have hapart := hname.apart
      rw [line_cons, line_nil, List.append_nil] at hapart
      rw [printKeywords]
      refine ⟨fun rest hrest => ⟨hn.1, endsWord_cons (by decide) _,
        endsSign_append hvalue.apart (endsSign_of_ends hrest), hvalue.fits rest hrest⟩,
        hvalue.balanced, ?_, newline_not_mem_cons (newline_not_mem_word hn.1)
          (newline_not_mem_cons (by decide) hvalue.oneLine)⟩
      rw [line_cons]
      obtain ⟨c, s, rfl⟩ := List.exists_cons_of_ne_nil (ne_nil_of_isWord hn.1)
      exact hapart

theorem sound_printBound {bound : Option Expr} (h : ∀ e ∈ bound, Phrase e.power e.print) :
    Sound (printBound bound) := by
  cases bound with
  | none => exact sound_nil
  | some e => exact (h e rfl).toSound

end Lists

/-- The text of an expression that the grammar admits is a phrase. -/
theorem Expr.Grammatical.phrase {e : Expr} (h : e.Grammatical) : Phrase e.power e.print := by
  induction h with
  | constant hc => exact phrase_constant hc
  | name hn => exact phrase_name hn
  | list _ ih => exact (sound_printItems ih sound_nil).group (by decide)
  | @tuple items _ ih =>
      have hitems := sound_printItems ih sound_nil
      have hcomma : Sound [.sign .comma] :=
        ⟨fun _ h => ⟨endsSign_of_ends h, trivial⟩, fun _ => rfl,
          (fun _ hc => Option.some.inj hc ▸ by decide), by decide⟩
      have hinner : Sound (printItems items [] ++
          if items.length = 1 then [.sign .comma] else []) := by
        split
        · exact hitems.append hcomma fun _ _ => ends_cons (by decide) _
        · rw [List.append_nil]
          exact hitems
      exact hinner.group (by decide)
  | dict _ _ ihkeys ihvalues => exact (sound_printEntries ihkeys ihvalues).group (by decide)
  | member _ hn ih =>
      obtain ⟨inner, hinner, hobject⟩ := ih.within (Nat.le_refl postfixPower)
      exact hobject.append (tail_attribute hn) fun h => absurd (Nat.le_trans hinner h) (by decide)
  | index _ _ ihobject ihkey =>
      obtain ⟨inner, hinner, hobject⟩ := ihobject.within (Nat.le_refl postfixPower)
      exact hobject.append (ihkey.toSound.trailer (by decide) (by decide))
        fun h => absurd (Nat.le_trans hinner h) (by decide)
  | slice _ _ _ ihobject ihstart ihstop =>
      obtain ⟨inner, hinner, hobject⟩ := ihobject.within (Nat.le_refl postfixPower)
      have hstop := sound_printBound ihstop
      have hbounds := (sound_printBound ihstart).append
        (show Sound (.sign .colon :: printBound _) from ⟨fun rest hrest =>
          ⟨endsSign_append hstop.apart (endsSign_of_ends hrest), hstop.fits rest hrest⟩,
          hstop.balanced, (fun _ hc => Option.some.inj hc ▸ by decide),
          newline_not_mem_cons (by decide) hstop.oneLine⟩) fun _ _ => ends_cons (by decide) _
      exact hobject.append (hbounds.trailer (by decide) (by decide))
        fun h => absurd (Nat.le_trans hinner h) (by decide)
  | call _ _ hnames _ _ ihfunction ihargs ihkeywords =>
      obtain ⟨inner, hinner, hfunction⟩ := ihfunction.within (Nat.le_refl postfixPower)
      have hargs := sound_printItems ihargs (sound_printKeywords hnames ihkeywords)
      exact hfunction.append (hargs.trailer (by decide) (by decide))
        fun h => absurd (Nat.le_trans hinner h) (by decide)
  | unary _ ih => exact ih.unary _
  | @connective op _ _ _ _ ihlhs ihrhs =>
      rw [op.power_apply, op.print_apply]
      exact ihlhs.between ihrhs op
  | not _ ih => exact ih.not
  | conditional _ _ _ ihcondition ihthen ihelse =>
      obtain ⟨_, -, hvalue⟩ := ihthen.within (show orPower ≤ postfixPower by decide)
      obtain ⟨_, -, hcondition⟩ := ihcondition.within (show orPower ≤ postfixPower by decide)
      have hif := hcondition.behind (w := "if".toList) (isWord_of_isLatin (by decide)) (by decide)
      have helse := ihelse.behind (w := "else".toList) (isWord_of_isLatin (by decide)) (by decide)
      have hpower : conditionalPower ≤ notPower := by decide
      exact hvalue.append (hif.append helse) fun _ => hpower

end TemplateEngine
