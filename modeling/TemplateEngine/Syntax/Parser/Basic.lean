import TemplateEngine.Syntax.Lexer
import TemplateEngine.Syntax.Tree

/-!
# Reading tokens

A parser takes tokens off the front of a list. The list ends with the token of
the end of input, which is never taken, so there is always a current token, and
every error points at it.
-/
namespace TemplateEngine

/-- Why tokens in the right order may still be no program. -/
inductive SyntaxFault where
  | expressionTooDeep
  | indentationTooDeep
  | unmatchedClause (word : Keyword)
  | unexpectedIndent
  | breakOutsideLoop
  | continueOutsideLoop
  | illegalAugmentedTarget
  | illegalTarget
  | bareTry
  | repeatedKeyword (name : Text)
  | positionalAfterKeyword
  | emptySubscript
  deriving DecidableEq, Repr

/-- The wording of a fault. -/
def SyntaxFault.message : SyntaxFault → Text
  | expressionTooDeep => "expression is nested too deeply"
  | indentationTooDeep => "too many levels of indentation"
  | unmatchedClause word =>
    let spelled := match Keyword.spellings.find? fun entry => entry.2 = word with
      | some entry => entry.1.toList
      | none => []
    '\'' :: spelled ++ "' without a matching block"
  | unexpectedIndent => "unexpected indent"
  | breakOutsideLoop => "'break' outside loop"
  | continueOutsideLoop => "'continue' outside loop"
  | illegalAugmentedTarget => "illegal expression for augmented assignment"
  | illegalTarget => "cannot assign to expression"
  | bareTry => "expected 'except' or 'finally' block"
  | repeatedKeyword name => "keyword argument repeated: ".toList ++ name
  | positionalAfterKeyword => "positional argument follows keyword argument"
  | emptySubscript => "empty subscript"

/-- What was to come next. -/
inductive Wanted where
  | token (kind : TokenKind)
  | expression
  | name
  | lineEnd
  deriving DecidableEq, Repr

/-- The description of what was to come. -/
def Wanted.describe : Wanted → Text
  | token kind => kind.describe
  | expression => "expression"
  | name => "name"
  | lineEnd => "end of line"

/-- Why a source is no program, and where. -/
inductive ParseError where
  | wanted (wanted : Wanted) (found : TokenKind) (span : Span)
  | unexpected (found : TokenKind) (span : Span)
  | fault (cause : SyntaxFault) (span : Span)
  | lexical (error : LexError)
  deriving DecidableEq, Repr

namespace ParseError

/-- The wording of an error. -/
def message : ParseError → Text
  | wanted what found _ => "expected ".toList ++ what.describe ++ ", found " ++ found.describe
  | unexpected found _ => "unexpected ".toList ++ found.describe
  | .fault cause _ => cause.message
  | lexical error => error.message

/-- The line an error points at. -/
def line : ParseError → Nat
  | wanted _ _ span | unexpected _ span | fault _ span => span.line
  | lexical error => error.position.line

end ParseError

/-- A parser of values of a type. -/
abbrev Parser := StateT (List Token) (Except ParseError)

namespace Parser

/-- The current token of a list. -/
def headToken (tokens : List Token) : Token :=
  tokens.headD ⟨.endOfInput, ⟨⟨0, 0, 0⟩, ⟨0, 0, 0⟩⟩⟩

/-- What the current token is. -/
def kind : Parser TokenKind := fun tokens => .ok ((headToken tokens).kind, tokens)

/-- What the token after the current one is. -/
def nextKind : Parser TokenKind := fun tokens => .ok ((headToken tokens.tail).kind, tokens)

/-- The line of the current token. -/
def line : Parser Nat := fun tokens => .ok ((headToken tokens).span.line, tokens)

/-- Takes the current token. -/
def bump : Parser Unit := fun tokens => .ok ((), tokens.tail)

/-- Whether the current token is of a kind. -/
def at_ (k : TokenKind) : Parser Bool := fun tokens => .ok ((headToken tokens).kind = k, tokens)

/-- Takes the current token if it is of a kind. -/
def skip (k : TokenKind) : Parser Bool := fun tokens =>
  if (headToken tokens).kind = k then .ok (true, tokens.tail) else .ok (false, tokens)

/-- Fails for something else that was to come. -/
def failWanted {α : Type} (what : Wanted) : Parser α := fun tokens =>
  .error (.wanted what (headToken tokens).kind (headToken tokens).span)

/-- Fails because of the current token. -/
def failUnexpected {α : Type} : Parser α := fun tokens =>
  .error (.unexpected (headToken tokens).kind (headToken tokens).span)

/-- Fails for a fault at the current token. -/
def fail {α : Type} (fault : SyntaxFault) : Parser α := fun tokens =>
  .error (.fault fault (headToken tokens).span)

/-- Takes a token of a kind, which has to come. -/
def expect (k : TokenKind) : Parser Unit := fun tokens =>
  if (headToken tokens).kind = k then .ok ((), tokens.tail)
  else .error (.wanted (.token k) (headToken tokens).kind (headToken tokens).span)

/-- Takes a symbol, which has to come. -/
def expectSymbol (mark : Symbol) : Parser Unit := expect (.symbol mark)

/-- Takes a symbol if it is there. -/
def skipSymbol (mark : Symbol) : Parser Bool := skip (.symbol mark)

/-- Takes an identifier, which has to come. -/
def identifier : Parser Text := fun tokens =>
  match (headToken tokens).kind with
  | .identifier name => .ok (name, tokens.tail)
  | found => .error (.wanted .name found (headToken tokens).span)

/-- Runs a loop with as much fuel as there are tokens, and one more. -/
def looping {α : Type} (loop : Nat → Parser α) : Parser α := fun tokens =>
  loop (tokens.length + 1) tokens

end Parser

end TemplateEngine
