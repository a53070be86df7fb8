import TemplateEngine.Number.Decimal
import TemplateEngine.Text.Basic

/-!
# Tokens

The words of the script language, each with the stretch of source it came from.
Line structure is a matter of tokens as well: a line break ends a statement, and
a change of indentation opens or closes blocks. The names of words and symbols
are those that syntax errors use.
-/

/-!
## Positions in a text

A position counts lines and columns from one and bytes from zero. It is what
one reaches by stepping over the characters before it, so the position after a
text is a fold and the position after two texts is the fold continued.
-/
namespace TemplateEngine

/-- A place in a text: line and column count from one, the byte offset from zero. -/
structure Position where
  line : Nat
  column : Nat
  offset : Nat
  deriving DecidableEq, Repr, Inhabited

namespace Position

/-- The place of the first character. -/
def start : Position := ⟨1, 1, 0⟩

/-- The place after one more character. -/
def step (p : Position) (c : Char) : Position :=
  if c = '\n' then ⟨p.line + 1, 1, p.offset + c.utf8Size⟩
  else ⟨p.line, p.column + 1, p.offset + c.utf8Size⟩

/-- The place after a whole text. -/
def after (p : Position) (t : Text) : Position := t.foldl step p

@[simp] theorem after_nil (p : Position) : p.after [] = p := rfl

@[simp] theorem after_cons (p : Position) (c : Char) (t : Text) :
    p.after (c :: t) = (p.step c).after t := rfl

@[simp] theorem after_append (p : Position) (s t : Text) :
    p.after (s ++ t) = (p.after s).after t := by
  simp [after]

/-- Line and column, joined by a colon. -/
def render (p : Position) : Text :=
  Text.ofNat p.line ++ ':' :: Text.ofNat p.column

end Position

/-- The stretch from one place up to another. -/
structure Span where
  start : Position
  stop : Position
  deriving DecidableEq, Repr, Inhabited

namespace Span

/-- The line a stretch starts on. -/
def line (s : Span) : Nat := s.start.line

/-- Both ends, in brackets. -/
def render (s : Span) : Text :=
  '[' :: s.start.render ++ " - " ++ s.stop.render ++ "]"

end Span

/-! ## Words -/

/-- A reserved word. -/
inductive Keyword where
  | ifWord | elifWord | elseWord | forWord | inWord | whileWord | tryWord | exceptWord
  | finallyWord | raiseWord | passWord | breakWord | continueWord | withWord | asWord | andWord
  | orWord | notWord | isWord
  deriving DecidableEq, Repr

namespace Keyword

/-- The reserved words as they are spelled. -/
def spellings : List (String × Keyword) :=
  [("if", ifWord), ("elif", elifWord), ("else", elseWord), ("for", forWord), ("in", inWord),
   ("while", whileWord), ("try", tryWord), ("except", exceptWord), ("finally", finallyWord),
   ("raise", raiseWord), ("pass", passWord), ("break", breakWord), ("continue", continueWord),
   ("with", withWord), ("as", asWord), ("and", andWord), ("or", orWord), ("not", notWord),
   ("is", isWord)]

/-- The name of a reserved word in syntax errors. -/
def name : Keyword → String
  | ifWord => "KwIf"
  | elifWord => "KwElif"
  | elseWord => "KwElse"
  | forWord => "KwFor"
  | inWord => "KwIn"
  | whileWord => "KwWhile"
  | tryWord => "KwTry"
  | exceptWord => "KwExcept"
  | finallyWord => "KwFinally"
  | raiseWord => "KwRaise"
  | passWord => "KwPass"
  | breakWord => "KwBreak"
  | continueWord => "KwContinue"
  | withWord => "KwWith"
  | asWord => "KwAs"
  | andWord => "KwAnd"
  | orWord => "KwOr"
  | notWord => "KwNot"
  | isWord => "KwIs"

end Keyword

/-- An operator or a delimiter. -/
inductive Symbol where
  | plus | minus | star | slash | slashSlash | percent
  | equals | equalsEquals | notEquals | less | lessEquals | greater | greaterEquals
  | plusEquals | minusEquals | starEquals
  | leftParen | rightParen | leftBracket | rightBracket | leftBrace | rightBrace
  | comma | colon | dot
  deriving DecidableEq, Repr

namespace Symbol

/-- The name of a symbol in syntax errors. -/
def name : Symbol → String
  | plus => "Plus"
  | minus => "Minus"
  | star => "Star"
  | slash => "Slash"
  | slashSlash => "SlashSlash"
  | percent => "Percent"
  | equals => "Eq"
  | equalsEquals => "EqEq"
  | notEquals => "Neq"
  | less => "Lt"
  | lessEquals => "Le"
  | greater => "Gt"
  | greaterEquals => "Ge"
  | plusEquals => "PlusEq"
  | minusEquals => "MinusEq"
  | starEquals => "StarEq"
  | leftParen => "LParen"
  | rightParen => "RParen"
  | leftBracket => "LBracket"
  | rightBracket => "RBracket"
  | leftBrace => "LBrace"
  | rightBrace => "RBrace"
  | comma => "Comma"
  | colon => "Colon"
  | dot => "Dot"

end Symbol

/-- What a token is. -/
inductive TokenKind where
  | keyword (word : Keyword)
  | symbol (mark : Symbol)
  | identifier (name : Text)
  | int (n : Nat)
  | float (x : Float)
  | string (t : Text)
  | bool (b : Bool)
  | noneWord
  | newline
  | indent
  | dedent
  | endOfInput
  deriving DecidableEq, Repr, Inhabited

namespace TokenKind

/-- A token as syntax errors describe it. -/
def describe : TokenKind → Text
  | keyword word => word.name.toList
  | symbol mark => mark.name.toList
  | identifier name => "name '".toList ++ name ++ ['\'']
  | int n => "number ".toList ++ Text.ofNat n
  | float x => "number ".toList ++ Double.plainText x
  | string _ => "string literal"
  | bool true => "BoolLiteral(true)"
  | bool false => "BoolLiteral(false)"
  | noneWord => "NoneLiteral"
  | newline => "end of line"
  | indent => "indent"
  | dedent => "dedent"
  | endOfInput => "end of input"

/-- The token of a word: a reserved word, a constant, or an identifier. -/
def ofWord (word : Text) : TokenKind :=
  match Keyword.spellings.find? fun entry => entry.1.toList = word with
  | some entry => keyword entry.2
  | none =>
    if word = "True".toList || word = "true".toList then bool true
    else if word = "False".toList || word = "false".toList then bool false
    else if word = "None".toList || word = "none".toList then noneWord
    else identifier word

end TokenKind

/-- A token and the stretch of source it came from. -/
structure Token where
  kind : TokenKind
  span : Span
  deriving DecidableEq, Repr, Inhabited

/-- Why a source cannot be cut into tokens, and where. -/
inductive LexError where
  | unterminatedString (position : Position)
  | invalidEscape (sequence : Text) (position : Position)
  | invalidNumber (literal : Text) (position : Position)
  | unexpectedChar (c : Char) (position : Position)
  | unmatchedBracket (c : Char) (position : Position)
  | inconsistentDedent (position : Position)
  deriving DecidableEq, Repr

namespace LexError

/-- Where the error was found. -/
def position : LexError → Position
  | unterminatedString p | invalidEscape _ p | invalidNumber _ p | unexpectedChar _ p
  | unmatchedBracket _ p | inconsistentDedent p => p

/-- The wording of an error. -/
def message : LexError → Text
  | unterminatedString p => "unterminated string starting at ".toList ++ p.render
  | invalidEscape sequence _ => "invalid escape sequence: ".toList ++ sequence
  | invalidNumber literal _ => "invalid number literal: ".toList ++ literal
  | unexpectedChar c _ => "unexpected character: '".toList ++ [c, '\'']
  | unmatchedBracket c _ => "unmatched '".toList ++ [c, '\'']
  | inconsistentDedent _ => "unindent does not match any outer indentation level"

end LexError

end TemplateEngine
