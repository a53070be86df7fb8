import TemplateEngine.Proofs.Syntax.Strings
import TemplateEngine.Proofs.Template.Splitting

/-!
# Lines of an outline

The code that a part of an outline is laid out as, and the lexemes it is written
with: a call that appends a text or a name to the output, a header, or a clause.
A closing tag has no code.
-/
namespace TemplateEngine.Outline

open Lexeme (isWord endsWord line fits isWord_of_isLatin)

theorem Name.isWord_text (n : Name) : isWord n.text = true := by
  simp only [Name.text, isWord, n.starts, Bool.true_and, List.all_eq_true]
  exact n.goesOn

namespace Header

/-- The lexemes of a header. -/
def lexemes : Header → List Lexeme
  | ifTrue n => [.word "if".toList, .blank, .word n.text, .mark ':' .colon]
  | forEach v n =>
    [.word "for".toList, .blank, .word v.text, .blank, .word "in".toList, .blank, .word n.text,
      .mark ':' .colon]
  | whileTrue n => [.word "while".toList, .blank, .word n.text, .mark ':' .colon]
  | attempt => [.word "try".toList, .mark ':' .colon]
  | capture x =>
    [.word "with".toList, .blank, .word "capture".toList, .mark '(' .leftParen,
      .string ('"' :: (x.text ++ ['"'])) x.text, .mark ')' .rightParen, .mark ':' .colon]

end Header

namespace Clause

/-- The lexemes of a clause. -/
def lexemes : Clause → List Lexeme
  | elif n => [.word "elif".toList, .blank, .word n.text, .mark ':' .colon]
  | otherwise => [.word "else".toList, .mark ':' .colon]
  | except k v =>
    [.word "except".toList, .blank, .word k.text, .blank, .word "as".toList, .blank, .word v.text,
      .mark ':' .colon]
  | cleanup => [.word "finally".toList, .mark ':' .colon]

end Clause

theorem Header.line_lexemes (header : Header) : line header.lexemes = header.code := by
  cases header with
  | ifTrue n =>
      rw [code_ifTrue]
      show line [.word "if".toList, .blank, .word n.text, .mark ':' .colon] = _
      simp [Lexeme.text]
  | forEach v n =>
      rw [code_forEach]
      show line [.word "for".toList, .blank, .word v.text, .blank, .word "in".toList, .blank,
        .word n.text, .mark ':' .colon] = _
      simp [Lexeme.text]
  | whileTrue n =>
      rw [code_whileTrue]
      show line [.word "while".toList, .blank, .word n.text, .mark ':' .colon] = _
      simp [Lexeme.text]
  | attempt => rfl
  | capture x =>
      rw [code_capture]
      show line [.word "with".toList, .blank, .word "capture".toList, .mark '(' .leftParen,
        .string ('"' :: (x.text ++ ['"'])) x.text, .mark ')' .rightParen, .mark ':' .colon] = _
      simp [Lexeme.text]

theorem Clause.line_lexemes (clause : Clause) : line clause.lexemes = clause.code := by
  cases clause with
  | elif n =>
      rw [code_elif]
      show line [.word "elif".toList, .blank, .word n.text, .mark ':' .colon] = _
      simp [Lexeme.text]
  | except k v =>
      rw [code_except]
      show line [.word "except".toList, .blank, .word k.text, .blank, .word "as".toList, .blank,
        .word v.text, .mark ':' .colon] = _
      simp [Lexeme.text]
  | otherwise | cleanup => rfl

namespace Part

/-- The code of a part. -/
def code : Part → Text
  | text t => Draft.literalCall t
  | print raw n => Draft.printCall raw (if raw then n.text ++ [' '] else ' ' :: n.text ++ [' '])
  | opening header => header.code
  | clause c => c.code
  | closing _ => []

/-- The lexemes of a part. -/
def lexemes : Part → List Lexeme
  | text t =>
    [.word Draft.appendName, .mark '(' .leftParen, .string (Lexeme.tripleQuoted t) t,
      .mark ')' .rightParen]
  | print true n =>
    [.word Draft.appendName, .mark '(' .leftParen, .word n.text, .blank, .mark ')' .rightParen]
  | print false n =>
    [.word Draft.appendName, .mark '(' .leftParen, .word Draft.filterName, .mark '(' .leftParen,
      .blank, .word n.text, .blank, .mark ')' .rightParen, .mark ')' .rightParen]
  | opening header => header.lexemes
  | clause c => c.lexemes
  | closing _ => []

theorem line_lexemes (part : Part) : line part.lexemes = part.code := by
  cases part with
  | text t => simp [lexemes, code, Lexeme.text, Draft.literalCall, Lexeme.tripleQuoted]
  | print raw n => cases raw <;> simp [lexemes, code, Lexeme.text, Draft.printCall]
  | opening header => exact header.line_lexemes
  | clause c => exact c.line_lexemes
  | closing _ => rfl

end Part

theorem Name.quotes_text (n : Name) : Lexeme.quotes n.text ('"' :: (n.text ++ ['"'])) :=
  Lexeme.quotes_plain (List.cons_ne_nil _ _) fun _ hc =>
    ⟨n.ne hc (by decide), n.ne hc (by decide), n.ne hc (by decide)⟩

theorem endsWord_blank (rest : Text) : endsWord (' ' :: rest) :=
  Lexeme.endsWord_cons (by decide) rest

theorem endsWord_open (rest : Text) : endsWord ('(' :: rest) :=
  Lexeme.endsWord_cons (by decide) rest

theorem endsWord_colon (rest : Text) : endsWord (':' :: rest) :=
  Lexeme.endsWord_cons (by decide) rest

theorem Header.fits_lexemes (header : Header) (rest : Text) : fits header.lexemes rest := by
  cases header with
  | ifTrue n =>
      exact ⟨isWord_of_isLatin (by decide), endsWord_blank _, n.isWord_text, endsWord_colon _,
        by decide, trivial⟩
  | forEach v n =>
      exact ⟨isWord_of_isLatin (by decide), endsWord_blank _, v.isWord_text, endsWord_blank _,
        isWord_of_isLatin (by decide), endsWord_blank _, n.isWord_text, endsWord_colon _, by decide,
        trivial⟩
  | whileTrue n =>
      exact ⟨isWord_of_isLatin (by decide), endsWord_blank _, n.isWord_text, endsWord_colon _,
        by decide, trivial⟩
  | attempt =>
      exact ⟨isWord_of_isLatin (by decide), endsWord_colon _, by decide, trivial⟩
  | capture x =>
      exact ⟨isWord_of_isLatin (by decide), endsWord_blank _, isWord_of_isLatin (by decide),
        endsWord_open _, by decide, x.quotes_text, by decide, by decide, trivial⟩

theorem Clause.fits_lexemes (clause : Clause) (rest : Text) : fits clause.lexemes rest := by
  cases clause with
  | elif n =>
      exact ⟨isWord_of_isLatin (by decide), endsWord_blank _, n.isWord_text, endsWord_colon _,
        by decide, trivial⟩
  | except k v =>
      exact ⟨isWord_of_isLatin (by decide), endsWord_blank _, k.isWord_text, endsWord_blank _,
        isWord_of_isLatin (by decide), endsWord_blank _, v.isWord_text, endsWord_colon _, by decide,
        trivial⟩
  | otherwise | cleanup =>
      exact ⟨isWord_of_isLatin (by decide), endsWord_colon _, by decide, trivial⟩

/-- The code of a part reads back, whatever comes after it. -/
theorem Part.fits_lexemes (part : Part) (rest : Text) : fits part.lexemes rest := by
  cases part with
  | text t =>
      exact ⟨isWord_of_isLatin (by decide), endsWord_open _, by decide,
        Lexeme.quotes_tripleQuoted t, by decide, trivial⟩
  | print raw n =>
      cases raw with
      | false =>
          exact ⟨isWord_of_isLatin (by decide), endsWord_open _, by decide,
            isWord_of_isLatin (by decide), endsWord_open _, by decide, n.isWord_text,
            endsWord_blank _, by decide, by decide, trivial⟩
      | true =>
          exact ⟨isWord_of_isLatin (by decide), endsWord_open _, by decide, n.isWord_text,
            endsWord_blank _, by decide, trivial⟩
  | opening header => exact header.fits_lexemes rest
  | clause c => exact c.fits_lexemes rest
  | closing _ => exact trivial

end TemplateEngine.Outline
