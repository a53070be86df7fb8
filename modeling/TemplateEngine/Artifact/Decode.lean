import TemplateEngine.Json.Reader
import TemplateEngine.Syntax.Tree

/-!
# Syntax trees from JSON

Reading the kept form of a syntax tree. A field may stand anywhere in its object
and fields with other names are passed over, but no field may stand twice; an
absent field is an error unless it may be absent in the tree. Fields may also be
given as an array, all of them and in order. The nesting of the JSON bounds the
recursion.
-/
namespace TemplateEngine

namespace Json

/-- An alternative: its name, and its content unless it stands alone. -/
def alternative? : Json → Option (Text × Option Json)
  | .string tag => some (tag, none)
  | .object [(tag, content)] => some (tag, some content)
  | _ => none

/-- The alternative without content that a value names. -/
def bareOf? {α : Type} (alternatives : List (String × α)) (j : Json) : Option α :=
  match alternative? j with
  | some (tag, none) | some (tag, some .null) =>
    (alternatives.find? fun entry => entry.1.toList = tag).map (·.2)
  | _ => none

/-- The values of the named fields, in the order of the names. -/
def fields? (names : List String) (j : Json) : Option (List (Option Json)) :=
  match j with
  | .array items => if items.length = names.length then some (items.map some) else none
  | .object members =>
    names.mapM fun name =>
      match members.filter fun entry => entry.1 = name.toList with
      | [] => some none
      | [(_, value)] => some (some value)
      | _ => none
  | _ => none

/-- A text. -/
def text? : Json → Option Text
  | .string t => some t
  | _ => none

/-- A line number, which is a machine word without a sign. -/
def line? : Json → Option Nat
  | .int n => if 0 ≤ n && n < 0x10000000000000000 then some n.toNat else none
  | _ => none

/-- A list of values. -/
def listOf? {α : Type} (decode : Json → Option α) : Json → Option (List α)
  | .array items => items.mapM decode
  | _ => none

/-- A pair of values. -/
def pairOf? {α β : Type} (first : Json → Option α) (second : Json → Option β) :
    Json → Option (α × β)
  | .array [a, b] => do return (← first a, ← second b)
  | _ => none

/-- A value that may be null or left out. -/
def optionalOf? {α : Type} (decode : Json → Option α) : Option Json → Option (Option α)
  | none | some .null => some none
  | some j => (decode j).map some

end Json

open Json (alternative? bareOf? fields? text? line? listOf? pairOf? optionalOf?)

/-- A constant from JSON. -/
def Constant.ofJson? (j : Json) : Option Constant := do
  let (tag, content) ← alternative? j
  match String.ofList tag, content with
  | "None", .none | "None", some .null => return .none
  | "Bool", some (.bool b) => return .bool b
  | "Int", some (.int n) => (Word.checked? n).map .int
  | "Float", some (.float x) => return .float x
  | "Float", some (.int n) => return .float (Double.ofInt n)
  | "Str", some (.string t) => return .str t
  | _, _ => failure

/-- An operator before its operand, from JSON. -/
def UnaryOp.ofJson? : Json → Option UnaryOp := bareOf? [("Neg", .neg), ("Pos", .pos)]

/-- An arithmetic operator from JSON. -/
def BinaryOp.ofJson? : Json → Option BinaryOp :=
  bareOf? [("Add", .add), ("Sub", .sub), ("Mul", .mul), ("Div", .div), ("FloorDiv", .floorDiv),
    ("Mod", .mod)]

/-- A comparison from JSON. -/
def CompareOp.ofJson? : Json → Option CompareOp :=
  bareOf? [("Eq", .eq), ("Ne", .ne), ("Lt", .lt), ("Le", .le), ("Gt", .gt), ("Ge", .ge),
    ("In", .isIn), ("NotIn", .notIn), ("Is", .is), ("IsNot", .isNot)]

/-- An expression from JSON nested at most so deep. -/
def Expr.ofJson? : Nat → Json → Option Expr
  | 0, _ => none
  | depth + 1, j => do
    let (tag, content) ← alternative? j
    let content ← content
    match String.ofList tag with
    | "Literal" => return .constant (← Constant.ofJson? content)
    | "Name" => return .name (← text? content)
    | "List" => return .list (← listOf? (ofJson? depth) content)
    | "Tuple" => return .tuple (← listOf? (ofJson? depth) content)
    | "Dict" => return .dict (← listOf? (pairOf? (ofJson? depth) (ofJson? depth)) content)
    | "Attribute" =>
      match ← fields? ["object", "name"] content with
      | [some object, some field] => return .attribute (← ofJson? depth object) (← text? field)
      | _ => none
    | "Index" =>
      match ← fields? ["object", "index"] content with
      | [some object, some key] => return .index (← ofJson? depth object) (← ofJson? depth key)
      | _ => none
    | "Slice" =>
      match ← fields? ["object", "start", "end"] content with
      | [some object, start, stop] =>
        return .slice (← ofJson? depth object) (← optionalOf? (ofJson? depth) start)
          (← optionalOf? (ofJson? depth) stop)
      | _ => none
    | "Call" =>
      match ← fields? ["func", "args", "kwargs"] content with
      | [some function, some args, some keywords] =>
        return .call (← ofJson? depth function) (← listOf? (ofJson? depth) args)
          (← listOf? (pairOf? text? (ofJson? depth)) keywords)
      | _ => none
    | "Unary" =>
      match ← fields? ["op", "operand"] content with
      | [some op, some operand] => return .unary (← UnaryOp.ofJson? op) (← ofJson? depth operand)
      | _ => none
    | "Binary" =>
      match ← fields? ["op", "lhs", "rhs"] content with
      | [some op, some lhs, some rhs] =>
        return .binary (← BinaryOp.ofJson? op) (← ofJson? depth lhs) (← ofJson? depth rhs)
      | _ => none
    | "Compare" =>
      match ← fields? ["op", "lhs", "rhs"] content with
      | [some op, some lhs, some rhs] =>
        return .compare (← CompareOp.ofJson? op) (← ofJson? depth lhs) (← ofJson? depth rhs)
      | _ => none
    | "And" =>
      let (lhs, rhs) ← pairOf? (ofJson? depth) (ofJson? depth) content
      return .and lhs rhs
    | "Or" =>
      let (lhs, rhs) ← pairOf? (ofJson? depth) (ofJson? depth) content
      return .or lhs rhs
    | "Not" => return .not (← ofJson? depth content)
    | "Conditional" =>
      match ← fields? ["condition", "then", "otherwise"] content with
      | [some condition, some thenValue, some elseValue] =>
        return .conditional (← ofJson? depth condition) (← ofJson? depth thenValue)
          (← ofJson? depth elseValue)
      | _ => none
    | _ => none

/-- An expression from JSON of any nesting that text can have. -/
def Expr.decode? (j : Json) : Option Expr := Expr.ofJson? Json.maxDepth j

/-- A target from JSON. -/
def Target.ofJson? (j : Json) : Option Target := do
  let (tag, content) ← alternative? j
  let content ← content
  match String.ofList tag with
  | "Name" => return .name (← text? content)
  | "Index" =>
    match ← fields? ["object", "index"] content with
    | [some object, some key] => return .index (← Expr.decode? object) (← Expr.decode? key)
    | _ => none
  | "Unpack" => return .unpack (← listOf? text? content)
  | _ => none

/-- An except clause from JSON, for a reader of blocks. -/
def Handler.ofJson? (block : Json → Option Block) (j : Json) : Option Handler := do
  match ← fields? ["matcher", "name", "body", "line"] j with
  | [matcher, name, some body, some line] =>
    return .clause (← optionalOf? Expr.decode? matcher) (← optionalOf? text? name) (← block body)
      (← line? line)
  | _ => none

/-- What a statement does, from JSON, for a reader of blocks. -/
def Action.ofJson? (block : Json → Option Block) (j : Json) : Option Action := do
  let (tag, content) ← alternative? j
  match String.ofList tag, content with
  | "Pass", none | "Pass", some .null => return .pass
  | "Break", none | "Break", some .null => return .breakLoop
  | "Continue", none | "Continue", some .null => return .continueLoop
  | "Expr", some content => return .expr (← Expr.decode? content)
  | "Assign", some content =>
    match ← fields? ["target", "value"] content with
    | [some target, some value] =>
      return .assign (← Target.ofJson? target) (← Expr.decode? value)
    | _ => none
  | "AugAssign", some content =>
    match ← fields? ["target", "op", "value"] content with
    | [some target, some op, some value] =>
      return .augAssign (← Target.ofJson? target) (← BinaryOp.ofJson? op) (← Expr.decode? value)
    | _ => none
  | "If", some content =>
    match ← fields? ["branches", "orelse"] content with
    | [some branches, otherwise] =>
      return .branch (← listOf? (pairOf? Expr.decode? block) branches)
        (← optionalOf? block otherwise)
    | _ => none
  | "For", some content =>
    match ← fields? ["target", "iter", "body"] content with
    | [some target, some items, some body] =>
      return .forEach (← Target.ofJson? target) (← Expr.decode? items) (← block body)
    | _ => none
  | "While", some content =>
    match ← fields? ["condition", "body"] content with
    | [some condition, some body] => return .whileTrue (← Expr.decode? condition) (← block body)
    | _ => none
  | "Try", some content =>
    match ← fields? ["body", "handlers", "finally"] content with
    | [some body, some handlers, cleanup] =>
      return .attempt (← block body) (← listOf? (Handler.ofJson? block) handlers)
        (← optionalOf? block cleanup)
    | _ => none
  | "Raise", some content => return .raise (← optionalOf? Expr.decode? (some content))
  | "With", some content =>
    match ← fields? ["context", "name", "body"] content with
    | [some context, name, some body] =>
      return .within (← Expr.decode? context) (← optionalOf? text? name) (← block body)
    | _ => none
  | _, _ => none

/-- A statement from JSON nested at most so deep. -/
def Stmt.ofJson? : Nat → Json → Option Stmt
  | 0, _ => none
  | depth + 1, j => do
    match ← fields? ["kind", "line"] j with
    | [some kind, some line] =>
      return .at (← line? line)
        (← Action.ofJson? (listOf? (ofJson? depth)) kind)
    | _ => none

/-- A block from JSON of any nesting that text can have. -/
def Block.decode? : Json → Option Block := listOf? (Stmt.ofJson? Json.maxDepth)

end TemplateEngine
