import TemplateEngine.Syntax.Parser.Expression

/-!
# Parsing statements

A block is a colon and then either one simple statement on the same line, or an
indented run of statements, or nothing at all. Blocks nest at most a hundred
deep, and the recursion is on what is left of that depth. Breaks and continues
are accepted inside loops only.
-/
namespace TemplateEngine.Parser

/-- How deep indented blocks may nest. -/
def maxBlockDepth : Nat := 100

/-- Whether the tokens are at their end. -/
def atEnd : Parser Bool := at_ .endOfInput

/-- Takes the end of a line, unless the input ends. -/
def lineEnd : Parser Unit := do
  if ← skip .newline then return
  if ← atEnd then return
  failWanted .lineEnd

/-- The operator of an augmented assignment. -/
def augmentedOp? : TokenKind → Option BinaryOp
  | .symbol .plusEquals => some .add
  | .symbol .minusEquals => some .sub
  | .symbol .starEquals => some .mul
  | _ => none

/-- The names of a tuple of names. -/
def names? : List Expr → Option (List Text)
  | [] => some []
  | .name n :: rest => (names? rest).map (n :: ·)
  | _ :: _ => none

/-- What an expression on the left of an assignment binds. -/
def targetOf? : Expr → Option Target
  | .name n => some (.name n)
  | .index object index => some (.index object index)
  | .tuple items => (names? items).map .unpack
  | _ => none

/-- The target that an expression is, which it has to be. -/
def target (e : Expr) : Parser Target :=
  match targetOf? e with
  | some t => pure t
  | none => fail .illegalTarget

/-- A statement that fits on one line. -/
def simple (inLoop : Bool) : Parser Action := do
  match ← kind with
  | .keyword .passWord => bump; return .pass
  | .keyword .breakWord =>
    if inLoop then bump; return .breakLoop else fail .breakOutsideLoop
  | .keyword .continueWord =>
    if inLoop then bump; return .continueLoop else fail .continueOutsideLoop
  | .keyword .raiseWord => do
    bump
    if ← at_ .newline then return .raise none
    if ← atEnd then return .raise none
    return .raise (some (← expression))
  | _ => do
    let e ← expressionList
    if ← skipSymbol .equals then
      let target ← target e
      let value ← expressionList
      return .assign target value
    match augmentedOp? (← kind) with
    | some op => do
      bump
      match ← target e with
      | .unpack _ => fail .illegalAugmentedTarget
      | target => do
        let value ← expression
        return .augAssign target op value
    | none => return .expr e

section Depth

-- Parses the statements of an indented block, after its first token.
variable (body : Bool → Parser Block)

/-- A colon and a block. -/
def block (inLoop : Bool) : Parser Block := do
  expectSymbol .colon
  if ← at_ .newline then
    bump
    if ← skip .indent then body inLoop else return []
  else
    let line ← line
    let action ← simple inLoop
    lineEnd
    return [.at line action]

/-- Further branches of a conditional statement. -/
def branchesLoop (inLoop : Bool) : Nat → Parser (List (Expr × Block) × Option Block)
  | 0 => pure ([], none)
  | fuel + 1 => do
    if ← skip (.keyword .elifWord) then
      let condition ← expression
      let inner ← block body inLoop
      let (branches, otherwise) ← branchesLoop inLoop fuel
      return ((condition, inner) :: branches, otherwise)
    if ← skip (.keyword .elseWord) then
      let inner ← block body inLoop
      return ([], some inner)
    return ([], none)

/-- A conditional statement. -/
def ifStatement (inLoop : Bool) : Parser Action := do
  expect (.keyword .ifWord)
  let condition ← expression
  let inner ← block body inLoop
  let (branches, otherwise) ← looping (branchesLoop body inLoop)
  return .branch ((condition, inner) :: branches) otherwise

/-- Further names of a loop, each after a comma. -/
def namesLoop : Nat → Parser (List Text)
  | 0 => pure []
  | fuel + 1 => do
    if ← skipSymbol .comma then
      let name ← identifier
      let names ← namesLoop fuel
      return name :: names
    return []

/-- A loop over items. -/
def forStatement : Parser Action := do
  expect (.keyword .forWord)
  let first ← identifier
  let others ← looping namesLoop
  let target := if others.isEmpty then Target.name first else .unpack (first :: others)
  expect (.keyword .inWord)
  let items ← expressionList
  let inner ← block body true
  return .forEach target items inner

/-- A loop with a condition. -/
def whileStatement : Parser Action := do
  expect (.keyword .whileWord)
  let condition ← expression
  let inner ← block body true
  return .whileTrue condition inner

/-- The name after `as`, if there is one. -/
def alias? : Parser (Option Text) := do
  if ← skip (.keyword .asWord) then
    let name ← identifier
    return some name
  return none

/-- Except clauses. -/
def handlersLoop (inLoop : Bool) : Nat → Parser (List Handler)
  | 0 => pure []
  | fuel + 1 => do
    if ← at_ (.keyword .exceptWord) then
      let line ← line
      bump
      let matcher ←
        if ← at_ (.symbol .colon) then pure none
        else do let e ← expression; pure (some e)
      let name ← alias?
      let inner ← block body inLoop
      let handlers ← handlersLoop inLoop fuel
      return .clause matcher name inner line :: handlers
    return []

/-- A statement that handles exceptions. -/
def tryStatement (inLoop : Bool) : Parser Action := do
  expect (.keyword .tryWord)
  let inner ← block body inLoop
  let handlers ← looping (handlersLoop body inLoop)
  let cleanup ←
    if ← skip (.keyword .finallyWord) then do let b ← block body inLoop; pure (some b)
    else pure none
  if handlers.isEmpty && cleanup.isNone then fail .bareTry
  return .attempt inner handlers cleanup

/-- A statement with a context. -/
def withStatement (inLoop : Bool) : Parser Action := do
  expect (.keyword .withWord)
  let context ← expression
  let name ← alias?
  let inner ← block body inLoop
  return .within context name inner

/-- One statement. -/
def statement (inLoop : Bool) : Parser Stmt := do
  let line ← line
  match ← kind with
  | .keyword .ifWord => return .at line (← ifStatement body inLoop)
  | .keyword .forWord => return .at line (← forStatement body)
  | .keyword .whileWord => return .at line (← whileStatement body)
  | .keyword .tryWord => return .at line (← tryStatement body inLoop)
  | .keyword .withWord => return .at line (← withStatement body inLoop)
  | .keyword .elifWord => fail (.unmatchedClause .elifWord)
  | .keyword .elseWord => fail (.unmatchedClause .elseWord)
  | .keyword .exceptWord => fail (.unmatchedClause .exceptWord)
  | .keyword .finallyWord => fail (.unmatchedClause .finallyWord)
  | .indent => fail .unexpectedIndent
  | .dedent => failUnexpected
  | _ => do
    let action ← simple inLoop
    lineEnd
    return .at line action

/-- Statements up to the end of an indented block. -/
def blockLoop (inLoop : Bool) : Nat → Parser Block
  | 0 => pure []
  | fuel + 1 => do
    if ← skip .dedent then return []
    if ← atEnd then return []
    if ← skip .newline then blockLoop inLoop fuel
    else
      let first ← statement body inLoop
      let rest ← blockLoop inLoop fuel
      return first :: rest

end Depth

/-- The statements of an indented block, with blocks inside it nested at most `depth`
deep, itself included. -/
def blockBody : (depth : Nat) → (inLoop : Bool) → Parser Block
  | 0, _ => fail .indentationTooDeep
  | depth + 1, inLoop => looping (blockLoop (blockBody depth) inLoop)

/-- Statements up to the end of input. -/
def programLoop : Nat → Parser Block
  | 0 => pure []
  | fuel + 1 => do
    if ← atEnd then return []
    if ← skip .newline then programLoop fuel
    else
      let first ← statement (blockBody maxBlockDepth) false
      let rest ← programLoop fuel
      return first :: rest

/-- A single expression and nothing after it. -/
def onlyExpression : Parser Expr := do
  let e ← expression
  let _ ← skip .newline
  if ← atEnd then return e
  failUnexpected

/-- The value of a parser on the tokens of a source. -/
def onSource {α : Type} (p : Parser α) (source : Text) : Except ParseError α :=
  match tokenize source with
  | .error error => .error (.lexical error)
  | .ok tokens =>
    match p tokens with
    | .ok (value, _) => .ok value
    | .error error => .error error

end TemplateEngine.Parser

namespace TemplateEngine

/-- The program that a source is. -/
def parseProgram (source : Text) : Except ParseError Block :=
  Parser.onSource (Parser.looping Parser.programLoop) source

/-- The expression that a source is. -/
def parseExpression (source : Text) : Except ParseError Expr :=
  Parser.onSource Parser.onlyExpression source

end TemplateEngine
