import TemplateEngine.Json.Basic
import TemplateEngine.Syntax.Tree

/-!
# Syntax trees as JSON

The form in which compiled programs are kept. A choice among alternatives is an
object with one member, named for the alternative, or just that name if the
alternative has no content. Fields stand under their names, what is absent is
null, and pairs are arrays of two.
-/
namespace TemplateEngine

namespace Json

/-- An alternative with its content. -/
def tagged (tag : String) (content : Json) : Json := .object [(tag.toList, content)]

/-- An alternative without content. -/
def bare (tag : String) : Json := .string tag.toList

/-- Fields under their names. -/
def fields (entries : List (String × Json)) : Json :=
  .object (entries.map fun entry => (entry.1.toList, entry.2))

/-- A value that may be absent. -/
def optional {α : Type} (encode : α → Json) : Option α → Json
  | none => .null
  | some a => encode a

end Json

open Json (tagged bare fields optional)

/-- A constant as JSON. -/
def Constant.toJson : Constant → Json
  | none => bare "None"
  | bool b => tagged "Bool" (.bool b)
  | int n => tagged "Int" (.int n)
  | float x => tagged "Float" (.float x)
  | str t => tagged "Str" (.string t)

/-- The name of an operator before its operand. -/
def UnaryOp.tag : UnaryOp → String
  | neg => "Neg"
  | pos => "Pos"

/-- The name of an arithmetic operator. -/
def BinaryOp.tag : BinaryOp → String
  | add => "Add"
  | sub => "Sub"
  | mul => "Mul"
  | div => "Div"
  | floorDiv => "FloorDiv"
  | mod => "Mod"

/-- The name of a comparison. -/
def CompareOp.tag : CompareOp → String
  | eq => "Eq"
  | ne => "Ne"
  | lt => "Lt"
  | le => "Le"
  | gt => "Gt"
  | ge => "Ge"
  | isIn => "In"
  | notIn => "NotIn"
  | is => "Is"
  | isNot => "IsNot"

mutual

/-- An expression as JSON. -/
def Expr.toJson (e : Expr) : Json :=
  match e with
  | .constant value => tagged "Literal" value.toJson
  | .name name => tagged "Name" (.string name)
  | .list items => tagged "List" (.array (exprsToJson items))
  | .tuple items => tagged "Tuple" (.array (exprsToJson items))
  | .dict entries => tagged "Dict" (.array (entriesToJson entries))
  | .attribute object name =>
    tagged "Attribute" (fields [("object", object.toJson), ("name", .string name)])
  | .index object index =>
    tagged "Index" (fields [("object", object.toJson), ("index", index.toJson)])
  | .slice object start stop =>
    tagged "Slice" (fields [("object", object.toJson), ("start", boundToJson start),
      ("end", boundToJson stop)])
  | .call function args keywords =>
    tagged "Call" (fields [("func", function.toJson), ("args", .array (exprsToJson args)),
      ("kwargs", .array (keywordsToJson keywords))])
  | .unary op operand =>
    tagged "Unary" (fields [("op", bare op.tag), ("operand", operand.toJson)])
  | .binary op lhs rhs =>
    tagged "Binary" (fields [("op", bare op.tag), ("lhs", lhs.toJson), ("rhs", rhs.toJson)])
  | .compare op lhs rhs =>
    tagged "Compare" (fields [("op", bare op.tag), ("lhs", lhs.toJson), ("rhs", rhs.toJson)])
  | .and lhs rhs => tagged "And" (.array [lhs.toJson, rhs.toJson])
  | .or lhs rhs => tagged "Or" (.array [lhs.toJson, rhs.toJson])
  | .not operand => tagged "Not" operand.toJson
  | .conditional condition thenValue elseValue =>
    tagged "Conditional" (fields [("condition", condition.toJson), ("then", thenValue.toJson),
      ("otherwise", elseValue.toJson)])
  termination_by structural e

/-- Expressions as JSON. -/
def exprsToJson (es : List Expr) : List Json :=
  match es with
  | [] => []
  | e :: es => e.toJson :: exprsToJson es
  termination_by structural es

/-- The entries of a dict as JSON. -/
def entriesToJson (entries : List (Expr × Expr)) : List Json :=
  match entries with
  | [] => []
  | (key, value) :: entries => .array [key.toJson, value.toJson] :: entriesToJson entries
  termination_by structural entries

/-- Named arguments as JSON. -/
def keywordsToJson (keywords : List (Text × Expr)) : List Json :=
  match keywords with
  | [] => []
  | (name, value) :: keywords => .array [.string name, value.toJson] :: keywordsToJson keywords
  termination_by structural keywords

/-- A bound of a slice as JSON. -/
def boundToJson (bound : Option Expr) : Json :=
  match bound with
  | none => .null
  | some e => e.toJson
  termination_by structural bound

end

/-- A target as JSON. -/
def Target.toJson : Target → Json
  | .name n => tagged "Name" (.string n)
  | .index object key =>
    tagged "Index" (fields [("object", object.toJson), ("index", key.toJson)])
  | .unpack names => tagged "Unpack" (.array (names.map .string))

mutual

/-- A statement as JSON. -/
def Stmt.toJson (s : Stmt) : Json :=
  match s with
  | .at line action => fields [("kind", action.toJson), ("line", .int line)]
  termination_by structural s

/-- What a statement does, as JSON. -/
def Action.toJson (a : Action) : Json :=
  match a with
  | .expr value => tagged "Expr" value.toJson
  | .assign target value =>
    tagged "Assign" (fields [("target", target.toJson), ("value", value.toJson)])
  | .augAssign target op value =>
    tagged "AugAssign" (fields [("target", target.toJson), ("op", bare op.tag),
      ("value", value.toJson)])
  | .branch branches otherwise =>
    tagged "If" (fields [("branches", .array (branchesToJson branches)),
      ("orelse", blockToJson? otherwise)])
  | .forEach target items body =>
    tagged "For" (fields [("target", target.toJson), ("iter", items.toJson),
      ("body", .array (stmtsToJson body))])
  | .whileTrue condition body =>
    tagged "While" (fields [("condition", condition.toJson), ("body", .array (stmtsToJson body))])
  | .attempt body handlers cleanup =>
    tagged "Try" (fields [("body", .array (stmtsToJson body)),
      ("handlers", .array (handlersToJson handlers)), ("finally", blockToJson? cleanup)])
  | .raise exception => tagged "Raise" (optional Expr.toJson exception)
  | .within context name body =>
    tagged "With" (fields [("context", context.toJson), ("name", optional .string name),
      ("body", .array (stmtsToJson body))])
  | .pass => bare "Pass"
  | .breakLoop => bare "Break"
  | .continueLoop => bare "Continue"
  termination_by structural a

/-- Statements as JSON. -/
def stmtsToJson (stmts : List Stmt) : List Json :=
  match stmts with
  | [] => []
  | s :: stmts => s.toJson :: stmtsToJson stmts
  termination_by structural stmts

/-- The branches of a conditional statement as JSON. -/
def branchesToJson (branches : List (Expr × List Stmt)) : List Json :=
  match branches with
  | [] => []
  | (condition, body) :: branches =>
    .array [condition.toJson, .array (stmtsToJson body)] :: branchesToJson branches
  termination_by structural branches

/-- Except clauses as JSON. -/
def handlersToJson (handlers : List Handler) : List Json :=
  match handlers with
  | [] => []
  | h :: handlers => handlerToJson h :: handlersToJson handlers
  termination_by structural handlers

/-- An except clause as JSON. -/
def handlerToJson (h : Handler) : Json :=
  match h with
  | .clause matcher name body line =>
    fields [("matcher", optional Expr.toJson matcher), ("name", optional .string name),
      ("body", .array (stmtsToJson body)), ("line", .int line)]
  termination_by structural h

/-- A block that may be absent, as JSON. -/
def blockToJson? (block : Option (List Stmt)) : Json :=
  match block with
  | none => .null
  | some body => .array (stmtsToJson body)
  termination_by structural block

end

end TemplateEngine
