import TemplateEngine.Syntax.Literal
import TemplateEngine.Text.Letter.Identifier

/-!
# Cutting a source into tokens

Tokens come in rounds. At the start of a line outside brackets a round measures
the indentation of the next line that holds code and closes or opens blocks;
otherwise it passes over blanks and comments and takes one token. A line break
counts only outside brackets and only once, and the end of the source closes
the line and every open block. Every round consumes characters or at least
leaves the start of a line, so there are at most two rounds per character.
-/
namespace TemplateEngine

/-- Where one is in a source: the text ahead and its position, the widths of the open
blocks and the open brackets, innermost first, whether a line is about to start, and
whether the last token ended one. -/
structure Lexer where
  rest : Text
  position : Position
  indents : List Nat
  brackets : List Char
  lineStart : Bool
  lineEnded : Bool

namespace Lexer

/-- The start of a source. -/
def ofText (source : Text) : Lexer := ⟨source, .start, [], [], true, true⟩

/-- Columns between tab stops. -/
def tabWidth : Nat := 8

/-- The width of the indentation of the next line that holds more than blanks and a
comment, with the place and the text from there. -/
def indentation (comment : Bool) (width : Nat) (p : Position) : Text → Nat × Position × Text
  | [] => (width, p, [])
  | c :: rest =>
    if c = '\n' then indentation false 0 (p.step c) rest
    else if comment then indentation true width (p.step c) rest
    else if c = ' ' then indentation false (width + 1) (p.step c) rest
    else if c = '\t' then indentation false ((width / tabWidth + 1) * tabWidth) (p.step c) rest
    else if c = '\r' || c = '\x0c' then indentation false width (p.step c) rest
    else if c = '#' then indentation true width (p.step c) rest
    else (width, p, c :: rest)

/-- The place and the text after blanks, comments and continued lines. -/
def skipBlanks (comment : Bool) (p : Position) : Text → Position × Text
  | [] => (p, [])
  | c :: rest =>
    if comment then
      if c = '\n' then (p, c :: rest) else skipBlanks true (p.step c) rest
    else if c = ' ' || c = '\t' || c = '\r' || c = '\x0c' then skipBlanks false (p.step c) rest
    else if c = '#' then skipBlanks true (p.step c) rest
    else if c = '\\' then
      match rest with
      | '\n' :: after => skipBlanks false ((p.step c).step '\n') after
      | _ => (p, c :: rest)
    else (p, c :: rest)

/-- A token that takes no characters. -/
def emptyToken (p : Position) (kind : TokenKind) : Token := ⟨kind, ⟨p, p⟩⟩

/-- The open blocks after those wider than `width` are closed. -/
def closeTo (width : Nat) (indents : List Nat) : List Nat :=
  indents.dropWhile fun open_ => width < open_

/-- What one round yields. -/
inductive Round where
  | more (tokens : List Token) (next : Lexer)
  | done (tokens : List Token)
  | failed (error : LexError) (openIndents : Nat)

/-- The blocks that a line of the given width opens or closes. -/
def layout (s : Lexer) : Except (LexError × Nat) (List Token × Lexer) :=
  let (width, p, rest) := indentation false 0 s.position s.rest
  let s := { s with rest := rest, position := p, lineStart := false }
  if rest.isEmpty then .ok ([], s)
  else
    let current := s.indents.headD 0
    if current < width then
      .ok ([emptyToken p .indent], { s with indents := width :: s.indents, lineEnded := false })
    else if width < current then
      let kept := closeTo width s.indents
      if kept.headD 0 = width then
        let closed := s.indents.length - kept.length
        .ok (List.replicate closed (emptyToken p .dedent),
          { s with indents := kept, lineEnded := false })
      else .error (.inconsistentDedent p, kept.length)
    else .ok ([], s)

/-- The tokens at the end of a source. -/
def closing (s : Lexer) : List Token :=
  (if s.lineEnded then [] else [emptyToken s.position .newline]) ++
    List.replicate s.indents.length (emptyToken s.position .dedent) ++
      [emptyToken s.position .endOfInput]

/-- The opening bracket that a closing one belongs to. -/
def openerOf? (c : Char) : Option Char :=
  if c = ')' then some '(' else if c = ']' then some '[' else if c = '\x7d' then some '\x7b'
  else none

/-- Symbols of two characters. -/
def doubleSymbols : List (Char × Char × Symbol) :=
  [('+', '=', .plusEquals), ('-', '=', .minusEquals), ('*', '=', .starEquals),
   ('/', '/', .slashSlash), ('=', '=', .equalsEquals), ('!', '=', .notEquals),
   ('<', '=', .lessEquals), ('>', '=', .greaterEquals)]

/-- Symbols of one character. -/
def singleSymbols : List (Char × Symbol) :=
  [('+', .plus), ('-', .minus), ('*', .star), ('/', .slash), ('%', .percent), ('=', .equals),
   ('<', .less), ('>', .greater), ('(', .leftParen), (')', .rightParen), ('[', .leftBracket),
   (']', .rightBracket), ('\x7b', .leftBrace), ('\x7d', .rightBrace), (',', .comma),
   (':', .colon), ('.', .dot)]

/-- The symbol at the start of a text, with its characters and the text after it. -/
def symbol? : Text → Option (Symbol × Text × Text)
  | [] => none
  | [c] => (singleSymbols.lookup c).map fun mark => (mark, [c], [])
  | c :: d :: rest =>
    match doubleSymbols.find? fun entry => entry.1 = c && entry.2.1 = d with
    | some entry => some (entry.2.2, [c, d], rest)
    | none => (singleSymbols.lookup c).map fun mark => (mark, [c], d :: rest)

/-- The brackets that are open after a character, or `none` if it closes one that is
not the innermost. -/
def bracketsAfter? (brackets : List Char) (c : Char) : Option (List Char) :=
  if c = '(' || c = '[' || c = '\x7b' then some (c :: brackets)
  else
    match openerOf? c with
    | none => some brackets
    | some opener =>
      match brackets with
      | innermost :: outer => if innermost = opener then some outer else none
      | [] => none

/-- The state after a token that ends at `p`. -/
def pass (s : Lexer) (p : Position) (rest : Text) : Lexer :=
  { s with rest := rest, position := p, lineEnded := false }

/-- The round of one token that starts with the character `c` here. -/
def token (s : Lexer) (c : Char) (after : Text) : Round :=
  let p := s.position
  let literal (scanned : Except LexError Literal.Scanned) : Round :=
    match scanned with
    | .ok found => .more [⟨found.kind, ⟨p, found.stop⟩⟩] (s.pass found.stop found.rest)
    | .error error => .failed error s.indents.length
  if Letter.isIdentifierStart c then
    let word := c :: after.takeWhile Letter.isIdentifierContinue
    let stop := p.after word
    .more [⟨.ofWord word, ⟨p, stop⟩⟩] (s.pass stop (after.dropWhile Letter.isIdentifierContinue))
  else if c.isDigit then literal (Literal.number p (c :: after))
  else if c = '"' || c = '\'' then literal (Literal.string p c after)
  else
    match symbol? (c :: after) with
    | none => .failed (.unexpectedChar c p) s.indents.length
    | some (mark, lexeme, rest) =>
      match bracketsAfter? s.brackets c with
      | none => .failed (.unmatchedBracket c p) s.indents.length
      | some brackets =>
        let stop := p.after lexeme
        .more [⟨.symbol mark, ⟨p, stop⟩⟩] { s.pass stop rest with brackets := brackets }

/-- The round from a place within a line. -/
def within (s : Lexer) : Round :=
  let (p, rest) := skipBlanks false s.position s.rest
  let s := { s with rest := rest, position := p }
  match rest with
  | [] =>
    match s.brackets with
    | innermost :: _ => .failed (.unmatchedBracket innermost p) s.indents.length
    | [] => .done s.closing
  | c :: after =>
    if c = '\n' then
      let s := { s with rest := after, position := p.step c }
      if !s.brackets.isEmpty then .more [] s
      else if s.lineEnded then .more [] { s with lineStart := true }
      else
        .more [⟨.newline, ⟨p, p.step c⟩⟩] { s with lineStart := true, lineEnded := true }
    else s.token c after

/-- One round. -/
def round (s : Lexer) : Round :=
  if s.lineStart && s.brackets.isEmpty then
    match s.layout with
    | .error (error, openIndents) => .failed error openIndents
    | .ok ([], s) => s.within
    | .ok (tokens, s) => .more tokens s
  else s.within

/-- All tokens of a source, up to its end or the first error, and how many blocks are
open then. -/
structure Outcome where
  tokens : List Token
  failure : Option LexError
  openIndents : Nat

/-- Rounds as long as there is fuel. -/
def run : Nat → Lexer → Outcome
  | 0, s => ⟨[], none, s.indents.length⟩
  | fuel + 1, s =>
    match s.round with
    | .more tokens next =>
      let rest := run fuel next
      { rest with tokens := tokens ++ rest.tokens }
    | .done tokens => ⟨tokens, none, 0⟩
    | .failed error openIndents => ⟨[], some error, openIndents⟩

/-- The outcome for a whole source. -/
def outcome (source : Text) : Outcome := run (2 * source.length + 2) (ofText source)

end Lexer

/-- The tokens of a source, ending with that of its end. -/
def tokenize (source : Text) : Except LexError (List Token) :=
  let outcome := Lexer.outcome source
  match outcome.failure with
  | some error => .error error
  | none => .ok outcome.tokens

end TemplateEngine
