import TemplateEngine.Proofs.Syntax.Lines
import TemplateEngine.Syntax.Parser.Expression

/-!
# The text of an expression

An expression is written with parentheses only where the binding powers of its
operators require them: around a left operand that binds less than its operator, and
around a right operand that does not bind more. Strings are written as they are
printed. The text of an expression that the grammar admits is cut into the lexemes it
was made of, whatever follows that does not make its last word or number longer.
-/
namespace TemplateEngine

open Lexeme

/-- A word that is neither reserved nor a constant. -/
def IsName (n : Text) : Prop := isWord n = true ∧ TokenKind.ofWord n = .identifier n

/-- A constant that a program can name: no double, and no negative number. -/
def Constant.Plain : Constant → Prop
  | int n => 0 ≤ n ∧ Word.Fits n
  | float _ => False
  | _ => True

/-- A constant as it is written. -/
def Constant.print : Constant → List Lexeme
  | none => [.word "None".toList]
  | bool true => [.word "True".toList]
  | bool false => [.word "False".toList]
  | int n => [.number n.toNat]
  | float _ => []
  | str t => [.quoted t]

/-- The sign of an arithmetic operator. -/
def BinaryOp.sign : BinaryOp → Symbol
  | add => .plus
  | sub => .minus
  | mul => .star
  | div => .slash
  | floorDiv => .slashSlash
  | mod => .percent

/-- A comparison as it is written. -/
def CompareOp.print : CompareOp → List Lexeme
  | eq => [.sign .equalsEquals]
  | ne => [.sign .notEquals]
  | lt => [.sign .less]
  | le => [.sign .lessEquals]
  | gt => [.sign .greater]
  | ge => [.sign .greaterEquals]
  | isIn => [.word "in".toList]
  | notIn => [.word "not".toList, .blank, .word "in".toList]
  | is => [.word "is".toList]
  | isNot => [.word "is".toList, .blank, .word "not".toList]

/-- The sign of an operator before its operand. -/
def UnaryOp.sign : UnaryOp → Symbol
  | neg => .minus
  | pos => .plus

namespace Parser

/-- The power of a conditional, which binds less than every operator. -/
def conditionalPower : Nat := 1

/-- The power of calls, subscripts, attributes and everything without operators. -/
def postfixPower : Nat := 9

/-- The power of an infix operator. -/
def Connective.power : Connective → Nat
  | .or => orPower
  | .and => andPower
  | .compare _ => comparisonPower
  | .binary .add | .binary .sub => termPower
  | .binary _ => factorPower

/-- An infix operator as it is written. -/
def Connective.print : Connective → List Lexeme
  | .or => [.word "or".toList]
  | .and => [.word "and".toList]
  | .compare op => op.print
  | .binary op => [.sign op.sign]

theorem Connective.power_mem (op : Connective) :
    op.power ∈ [orPower, andPower, comparisonPower, termPower, factorPower] := by
  cases op with
  | or | and => decide
  | compare _ => simp [power]
  | binary op => cases op <;> decide

/-- Infix operators bind less than everything without operators. -/
theorem Connective.power_lt (op : Connective) : orPower ≤ op.power ∧ op.power < postfixPower := by
  have hbounds : ∀ power ∈ [orPower, andPower, comparisonPower, termPower, factorPower],
      orPower ≤ power ∧ power < postfixPower := by decide
  exact hbounds op.power op.power_mem

end Parser

open Parser

/-- The power that the outermost operator of an expression binds with. -/
def Expr.power : Expr → Nat
  | .conditional _ _ _ => conditionalPower
  | .or _ _ => Connective.or.power
  | .and _ _ => Connective.and.power
  | .not _ => notPower
  | .compare op _ _ => (Connective.compare op).power
  | .binary op _ _ => (Connective.binary op).power
  | .unary _ _ => unaryPower
  | _ => postfixPower

theorem Expr.power_le (e : Expr) : e.power ≤ postfixPower := by
  cases e with
  | binary op _ _ => exact Nat.le_of_lt (Connective.binary op).power_lt.2
  | compare op _ _ => exact Nat.le_of_lt (Connective.compare op).power_lt.2
  | and _ _ => exact Nat.le_of_lt Connective.and.power_lt.2
  | or _ _ => exact Nat.le_of_lt Connective.or.power_lt.2
  | not _ => exact (by decide : notPower ≤ postfixPower)
  | unary _ _ => exact (by decide : unaryPower ≤ postfixPower)
  | conditional _ _ _ => exact (by decide : conditionalPower ≤ postfixPower)
  | _ => exact Nat.le_refl postfixPower

/-- Lexemes in parentheses, if there have to be any. -/
def Lexeme.enclosed (loose : Bool) (ls : List Lexeme) : List Lexeme :=
  if loose then .sign .leftParen :: (ls ++ [.sign .rightParen]) else ls

/-- Lexemes behind a comma, if there are any. -/
def Lexeme.separated (ls : List Lexeme) : List Lexeme :=
  if ls.isEmpty then [] else .sign .comma :: .blank :: ls

/-- An infix operator between its operands, which are given with their powers. -/
def Parser.Connective.between (op : Connective) (left : Nat) (ls : List Lexeme) (right : Nat)
    (rs : List Lexeme) : List Lexeme :=
  enclosed (left < op.power) ls ++
    .blank :: (op.print ++ .blank :: enclosed (right < op.power + 1) rs)

mutual

/-- An expression as it is written. -/
def Expr.print (e : Expr) : List Lexeme :=
  match e with
  | .constant c => c.print
  | .name n => [.word n]
  | .list items => .sign .leftBracket :: (printItems items [] ++ [.sign .rightBracket])
  | .tuple items =>
    let comma := if items.length = 1 then [.sign .comma] else []
    .sign .leftParen :: (printItems items [] ++ comma ++ [.sign .rightParen])
  | .dict entries => .sign .leftBrace :: (printEntries entries ++ [.sign .rightBrace])
  | .attribute object n =>
    enclosed (object.power < postfixPower) object.print ++ [.sign .dot, .word n]
  | .index object key =>
    enclosed (object.power < postfixPower) object.print ++
      .sign .leftBracket :: (key.print ++ [.sign .rightBracket])
  | .slice object start stop =>
    enclosed (object.power < postfixPower) object.print ++
      .sign .leftBracket :: (printBound start ++ .sign .colon :: printBound stop ++
        [.sign .rightBracket])
  | .call function args keywords =>
    enclosed (function.power < postfixPower) function.print ++
      .sign .leftParen :: (printItems args (printKeywords keywords) ++ [.sign .rightParen])
  | .unary op operand =>
    .sign op.sign :: enclosed (operand.power < unaryPower) operand.print
  | .binary op lhs rhs =>
    (Connective.binary op).between lhs.power lhs.print rhs.power rhs.print
  | .compare op lhs rhs =>
    (Connective.compare op).between lhs.power lhs.print rhs.power rhs.print
  | .and lhs rhs => Connective.and.between lhs.power lhs.print rhs.power rhs.print
  | .or lhs rhs => Connective.or.between lhs.power lhs.print rhs.power rhs.print
  | .not operand =>
    .word "not".toList :: .blank :: enclosed (operand.power < notPower) operand.print
  | .conditional condition thenValue elseValue =>
    enclosed (thenValue.power < orPower) thenValue.print ++
      .blank :: .word "if".toList :: .blank ::
        (enclosed (condition.power < orPower) condition.print ++
          .blank :: .word "else".toList :: .blank :: elseValue.print)
  termination_by structural e

/-- Expressions with commas between them, and further lexemes behind another comma. -/
def printItems (items : List Expr) (others : List Lexeme) : List Lexeme :=
  match items with
  | [] => others
  | e :: items => e.print ++ separated (printItems items others)
  termination_by structural items

/-- The entries of a dict with commas between them. -/
def printEntries (entries : List (Expr × Expr)) : List Lexeme :=
  match entries with
  | [] => []
  | (key, value) :: entries =>
    key.print ++ .sign .colon :: .blank :: (value.print ++ separated (printEntries entries))
  termination_by structural entries

/-- Named arguments with commas between them. -/
def printKeywords (keywords : List (Text × Expr)) : List Lexeme :=
  match keywords with
  | [] => []
  | (n, value) :: keywords =>
    .word n :: .sign .equals :: (value.print ++ separated (printKeywords keywords))
  termination_by structural keywords

/-- A bound of a slice, if there is one. -/
def printBound (bound : Option Expr) : List Lexeme :=
  match bound with
  | none => []
  | some e => e.print
  termination_by structural bound

end

/-- The expressions that the grammar admits and that hold no doubles. -/
inductive Expr.Grammatical : Expr → Prop
  | constant {c : Constant} : c.Plain → Grammatical (.constant c)
  | name {n : Text} : IsName n → Grammatical (.name n)
  | list {items : List Expr} : (∀ e ∈ items, Grammatical e) → Grammatical (.list items)
  | tuple {items : List Expr} : (∀ e ∈ items, Grammatical e) → Grammatical (.tuple items)
  | dict {entries : List (Expr × Expr)} : (∀ entry ∈ entries, Grammatical entry.1) →
      (∀ entry ∈ entries, Grammatical entry.2) → Grammatical (.dict entries)
  | member {object : Expr} {n : Text} : Grammatical object → IsName n →
      Grammatical (.attribute object n)
  | index {object key : Expr} : Grammatical object → Grammatical key →
      Grammatical (.index object key)
  | slice {object : Expr} {start stop : Option Expr} : Grammatical object →
      (∀ e ∈ start, Grammatical e) → (∀ e ∈ stop, Grammatical e) →
      Grammatical (.slice object start stop)
  | call {function : Expr} {args : List Expr} {keywords : List (Text × Expr)} :
      Grammatical function → (∀ e ∈ args, Grammatical e) →
      (∀ keyword ∈ keywords, IsName keyword.1) →
      (∀ keyword ∈ keywords, Grammatical keyword.2) → (keywords.map Prod.fst).Nodup →
      Grammatical (.call function args keywords)
  | unary {op : UnaryOp} {operand : Expr} : Grammatical operand → Grammatical (.unary op operand)
  | connective {op : Connective} {lhs rhs : Expr} : Grammatical lhs → Grammatical rhs →
      Grammatical (op.apply lhs rhs)
  | not {operand : Expr} : Grammatical operand → Grammatical (.not operand)
  | conditional {condition thenValue elseValue : Expr} : Grammatical condition →
      Grammatical thenValue → Grammatical elseValue →
      Grammatical (.conditional condition thenValue elseValue)

mutual

/-- The number of steps from an expression to the deepest one inside it. -/
def Expr.height (e : Expr) : Nat :=
  match e with
  | .constant _ => 0
  | .name _ => 0
  | .list items => heightItems items
  | .tuple items => heightItems items
  | .dict entries => heightEntries entries
  | .attribute object _ => object.height + 1
  | .index object key => max object.height key.height + 1
  | .slice object start stop =>
    max (object.height + 1) (max (heightBound start) (heightBound stop))
  | .call function args keywords =>
    max (function.height + 1) (max (heightItems args) (heightKeywords keywords))
  | .unary _ operand => operand.height + 1
  | .binary _ lhs rhs => max lhs.height rhs.height + 1
  | .compare _ lhs rhs => max lhs.height rhs.height + 1
  | .and lhs rhs => max lhs.height rhs.height + 1
  | .or lhs rhs => max lhs.height rhs.height + 1
  | .not operand => operand.height + 1
  | .conditional condition thenValue elseValue =>
    max condition.height (max thenValue.height elseValue.height) + 1
  termination_by structural e

/-- The height of something that holds expressions. -/
def heightItems (items : List Expr) : Nat :=
  match items with
  | [] => 0
  | e :: items => max (e.height + 1) (heightItems items)
  termination_by structural items

/-- The height of something that holds the entries of a dict. -/
def heightEntries (entries : List (Expr × Expr)) : Nat :=
  match entries with
  | [] => 0
  | (key, value) :: entries =>
    max (max key.height value.height + 1) (heightEntries entries)
  termination_by structural entries

/-- The height of something that holds named arguments. -/
def heightKeywords (keywords : List (Text × Expr)) : Nat :=
  match keywords with
  | [] => 0
  | (_, value) :: keywords => max (value.height + 1) (heightKeywords keywords)
  termination_by structural keywords

/-- The height of something that holds a bound, if there is one. -/
def heightBound (bound : Option Expr) : Nat :=
  match bound with
  | none => 0
  | some e => e.height + 1
  termination_by structural bound

end

namespace Parser.Connective

variable (op : Connective) (lhs rhs : Expr)

@[simp] theorem power_apply : (op.apply lhs rhs).power = op.power := by cases op <;> rfl

@[simp] theorem print_apply :
    (op.apply lhs rhs).print = op.between lhs.power lhs.print rhs.power rhs.print := by
  cases op <;> rfl

@[simp] theorem height_apply : (op.apply lhs rhs).height = max lhs.height rhs.height + 1 := by
  cases op <;> rfl

end Parser.Connective

end TemplateEngine
