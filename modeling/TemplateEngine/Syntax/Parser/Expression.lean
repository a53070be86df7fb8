import TemplateEngine.Syntax.Parser.Basic

/-!
# Parsing expressions

Operators bind by power: `or` least, then `and`, `not`, comparisons, sums,
products and signs. Connective operators group to the left; the conditional stands
below all of them and groups to the right. An operand of a given power is a
prefix followed by infix operators of at least that power. Operands nest at most
a hundred deep, and the recursion is on what is left of that depth; chains at
one depth consume a token for every step.
-/
namespace TemplateEngine.Parser

/-- An infix operator. -/
inductive Connective where
  | or
  | and
  | compare (op : CompareOp)
  | binary (op : BinaryOp)
  deriving DecidableEq, Repr

/-- Binding powers, weakest first. -/
def orPower : Nat := 2
def andPower : Nat := 3
def notPower : Nat := 4
def comparisonPower : Nat := 5
def termPower : Nat := 6
def factorPower : Nat := 7
def unaryPower : Nat := 8

/-- How deep operands may nest. -/
def maxExprDepth : Nat := 100

/-- The infix operator at a token, given the one after it: its power, the operator, and
the number of tokens it takes. -/
def connectiveAt? (current next : TokenKind) : Option (Nat × Connective × Nat) :=
  match current with
  | .keyword .orWord => some (orPower, .or, 1)
  | .keyword .andWord => some (andPower, .and, 1)
  | .symbol .equalsEquals => some (comparisonPower, .compare .eq, 1)
  | .symbol .notEquals => some (comparisonPower, .compare .ne, 1)
  | .symbol .less => some (comparisonPower, .compare .lt, 1)
  | .symbol .lessEquals => some (comparisonPower, .compare .le, 1)
  | .symbol .greater => some (comparisonPower, .compare .gt, 1)
  | .symbol .greaterEquals => some (comparisonPower, .compare .ge, 1)
  | .keyword .inWord => some (comparisonPower, .compare .isIn, 1)
  | .keyword .notWord =>
    if next = .keyword .inWord then some (comparisonPower, .compare .notIn, 2) else none
  | .keyword .isWord =>
    if next = .keyword .notWord then some (comparisonPower, .compare .isNot, 2)
    else some (comparisonPower, .compare .is, 1)
  | .symbol .plus => some (termPower, .binary .add, 1)
  | .symbol .minus => some (termPower, .binary .sub, 1)
  | .symbol .star => some (factorPower, .binary .mul, 1)
  | .symbol .slash => some (factorPower, .binary .div, 1)
  | .symbol .slashSlash => some (factorPower, .binary .floorDiv, 1)
  | .symbol .percent => some (factorPower, .binary .mod, 1)
  | _ => none

/-- An infix operator applied to its operands. -/
def Connective.apply : Connective → Expr → Expr → Expr
  | .or, lhs, rhs => .or lhs rhs
  | .and, lhs, rhs => .and lhs rhs
  | .compare op, lhs, rhs => .compare op lhs rhs
  | .binary op, lhs, rhs => .binary op lhs rhs

/-- Whether a token can never start an expression. -/
def endsExpression : TokenKind → Bool
  | .newline | .endOfInput => true
  | .symbol .rightParen | .symbol .rightBracket | .symbol .rightBrace => true
  | .symbol .colon | .symbol .equals | .keyword .inWord => true
  | _ => false

section Depth

-- Parses an operand one level deeper, of at least the given power.
variable (operand : Nat → Parser Expr)

/-- A full expression: an operand, or a conditional whose last part is a full
expression again. -/
def conditionalLoop : Nat → Parser Expr
  | 0 => failWanted .expression
  | fuel + 1 => do
    let value ← operand orPower
    if ← at_ (.keyword .ifWord) then
      bump
      let condition ← operand orPower
      expect (.keyword .elseWord)
      let otherwise ← conditionalLoop fuel
      return .conditional condition value otherwise
    else return value

/-- A full expression. -/
def expressionWith : Parser Expr := looping (conditionalLoop operand)

/-- Expressions separated by commas, up to a closing symbol. -/
def itemsLoop (close : Symbol) : Nat → Parser (List Expr)
  | 0 => pure []
  | fuel + 1 => do
    if ← at_ (.symbol close) then return []
    let item ← expressionWith operand
    if ← skipSymbol .comma then
      let items ← itemsLoop close fuel
      return item :: items
    else return [item]

/-- Expressions separated by commas, and the closing symbol. -/
def itemsUntil (close : Symbol) : Parser (List Expr) := do
  let items ← looping (itemsLoop operand close)
  expectSymbol close
  return items

/-- Further items of a tuple, each after a comma. -/
def tupleLoop (stop : TokenKind → Bool) : Nat → Parser (List Expr)
  | 0 => pure []
  | fuel + 1 => do
    if ← skipSymbol .comma then
      if stop (← kind) then return []
      let item ← expressionWith operand
      let items ← tupleLoop stop fuel
      return item :: items
    else return []

/-- What follows an opening parenthesis: nothing, one expression, or a tuple. -/
def parenthesized : Parser Expr := do
  if ← skipSymbol .rightParen then return .tuple []
  let first ← expressionWith operand
  if ← skipSymbol .rightParen then return first
  let items ← looping (tupleLoop operand fun k => k = .symbol .rightParen)
  expectSymbol .rightParen
  return .tuple (first :: items)

/-- The entries of a dict, up to its closing brace. -/
def entriesLoop : Nat → Parser (List (Expr × Expr))
  | 0 => pure []
  | fuel + 1 => do
    if ← at_ (.symbol .rightBrace) then return []
    let key ← expressionWith operand
    expectSymbol .colon
    let value ← expressionWith operand
    if ← skipSymbol .comma then
      let entries ← entriesLoop fuel
      return (key, value) :: entries
    else return [(key, value)]

/-- Adjacent strings are one. -/
def stringsLoop : Nat → Parser Text
  | 0 => pure []
  | fuel + 1 => do
    match ← kind with
    | .string t => do
      bump
      let rest ← stringsLoop fuel
      return t ++ rest
    | _ => return []

/-- An expression without operators. -/
def atom : Parser Expr := do
  match ← kind with
  | .int n => bump; return .constant (.int n)
  | .float x => bump; return .constant (.float x)
  | .bool b => bump; return .constant (.bool b)
  | .noneWord => bump; return .constant .none
  | .string _ => return .constant (.str (← looping stringsLoop))
  | .identifier name => bump; return .name name
  | .symbol .leftParen => bump; parenthesized operand
  | .symbol .leftBracket => bump; return .list (← itemsUntil operand .rightBracket)
  | .symbol .leftBrace =>
    bump
    let entries ← looping (entriesLoop operand)
    expectSymbol .rightBrace
    return .dict entries
  | _ => failWanted .expression

/-- The arguments of a call, up to the closing parenthesis: positional ones first, then
named ones, each name once. -/
def argumentsLoop (args : List Expr) (keywords : List (Text × Expr)) :
    Nat → Parser (List Expr × List (Text × Expr))
  | 0 => pure (args, keywords)
  | fuel + 1 => do
    if ← at_ (.symbol .rightParen) then return (args, keywords)
    match ← kind, ← nextKind with
    | .identifier name, .symbol .equals => do
      bump
      bump
      let value ← expressionWith operand
      if keywords.any fun entry => entry.1 = name then fail (.repeatedKeyword name)
      let keywords := keywords ++ [(name, value)]
      if ← skipSymbol .comma then argumentsLoop args keywords fuel else return (args, keywords)
    | _, _ => do
      if !keywords.isEmpty then fail .positionalAfterKeyword
      let arg ← expressionWith operand
      let args := args ++ [arg]
      if ← skipSymbol .comma then argumentsLoop args keywords fuel else return (args, keywords)

/-- An index or a slice of an object, after the opening bracket. -/
def subscript (object : Expr) : Parser Expr := do
  let start ←
    if ← at_ (.symbol .colon) then pure none
    else do let e ← expressionWith operand; pure (some e)
  if ← skipSymbol .colon then
    let stop ←
      if ← at_ (.symbol .rightBracket) then pure none
      else do let e ← expressionWith operand; pure (some e)
    expectSymbol .rightBracket
    return .slice object start stop
  expectSymbol .rightBracket
  match start with
  | some index => return .index object index
  | none => fail .emptySubscript

/-- Calls, subscripts and attributes after an expression. -/
def trailersLoop (e : Expr) : Nat → Parser Expr
  | 0 => pure e
  | fuel + 1 => do
    match ← kind with
    | .symbol .leftParen => do
      bump
      let (args, keywords) ← looping (argumentsLoop operand [] [])
      expectSymbol .rightParen
      trailersLoop (.call e args keywords) fuel
    | .symbol .leftBracket => do
      bump
      trailersLoop (← subscript operand e) fuel
    | .symbol .dot => do
      bump
      let name ← identifier
      trailersLoop (.attribute e name) fuel
    | _ => return e

/-- A prefix operator with its operand, or an atom with what follows it. -/
def headed : Parser Expr := do
  match ← kind with
  | .keyword .notWord => bump; return .not (← operand notPower)
  | .symbol .minus => bump; return .unary .neg (← operand unaryPower)
  | .symbol .plus => bump; return .unary .pos (← operand unaryPower)
  | _ => do
    let e ← atom operand
    looping (trailersLoop operand e)

/-- Takes a number of tokens. -/
def bumps : Nat → Parser Unit
  | 0 => pure ()
  | n + 1 => do bump; bumps n

/-- Connective operators of at least a power after an expression. -/
def chainLoop (least : Nat) (lhs : Expr) : Nat → Parser Expr
  | 0 => pure lhs
  | fuel + 1 => do
    match connectiveAt? (← kind) (← nextKind) with
    | none => return lhs
    | some (power, op, width) =>
      if power < least then return lhs
      else do
        bumps width
        let rhs ← operand (power + 1)
        chainLoop least (op.apply lhs rhs) fuel

end Depth

/-- An operand of at least a power, with operands inside it nested at most `depth` deep. -/
def operand : (depth : Nat) → (least : Nat) → Parser Expr
  | 0, _ => fail .expressionTooDeep
  | depth + 1, least => do
    let e ← headed (operand depth)
    looping (chainLoop (operand depth) least e)

/-- A full expression. -/
def expression : Parser Expr := expressionWith (operand maxExprDepth)

/-- Full expressions separated by commas; two of them, or one with a comma, are a tuple. -/
def expressionList : Parser Expr := do
  let first ← expression
  if ← at_ (.symbol .comma) then
    let items ← looping (tupleLoop (operand maxExprDepth) endsExpression)
    return .tuple (first :: items)
  else return first

end TemplateEngine.Parser
