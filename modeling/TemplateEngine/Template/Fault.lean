import TemplateEngine.Syntax.Parser.Statement

/-!
# Faults in the structure of a template

A template whose tags, blocks or statements do not fit together is reported with
a line of the generated program, or of the template if a tag never closes, and
with the numbered lines up to that one.
-/

/-!
## Numbered excerpts

Failures are reported together with the lines around them. A row is a line
number of at least four digits, a separator and the text of the line; rows are
clamped to the lines that exist.
-/
namespace TemplateEngine.Excerpt

/-- A numbered row. -/
def row (number : Nat) (line : Text) : Text :=
  Text.padLeft 4 '0' (Text.ofNat number) ++ " : " ++ line

/-- Numbered rows, the first of them numbered `number`. -/
def rows : Nat → List Text → List Text
  | _, [] => []
  | number, line :: rest => row number line :: rows (number + 1) rest

/-- The lines from the zero-based `first` up to but excluding `stop`, numbered. -/
def between (text : Text) (first stop : Nat) : Text :=
  let lines := text.lines
  let stop := min stop lines.length
  let first := min first stop
  Text.join ['\n'] (rows (first + 1) ((lines.take stop).drop first))

/-- Lines one to `line`, numbered. -/
def through (text : Text) (line : Nat) : Text := between text 0 line

/-- The lines around a line: `radius` of them after it and one fewer before it. -/
def window (text : Text) (line radius : Nat) : Text :=
  between text (line - radius) (line + radius)

/-- A line, counted from one. -/
def line? (text : Text) (line : Nat) : Option Text :=
  if line = 0 then none else text.lines[line - 1]?

end TemplateEngine.Excerpt

/-! ## Faults -/

namespace TemplateEngine

/-- What is wrong with the structure of a template. -/
inductive StructuralFault where
  | unterminatedTag (line : Nat)
  | emptyPrint (line : Nat)
  | unexpectedEnd (line : Nat)
  | strayContinuation (word : Text) (line : Nat)
  | unclosedBlocks (count : Nat)
  | ungrammatical (error : ParseError)
  deriving DecidableEq, Repr

/-- The wording of a fault. -/
def StructuralFault.message : StructuralFault → Text
  | unterminatedTag line => "unterminated tag opened at line ".toList ++ Text.ofNat line
  | emptyPrint line =>
    "empty expression in print tag at template line ".toList ++ Text.ofNat line
  | unexpectedEnd line => "unexpected block end at template line ".toList ++ Text.ofNat line
  | strayContinuation word line =>
    '\'' :: word ++ "' outside of a block at template line " ++ Text.ofNat line
  | unclosedBlocks count =>
    Text.ofNat count ++ " unclosed block" ++ (if count = 1 then "" else "s").toList
  | ungrammatical error => error.message

/-- A fault with the line it was found at and the numbered lines up to it. -/
structure StructuralError where
  fault : StructuralFault
  line : Nat
  excerpt : Text
  deriving DecidableEq, Repr

/-- A fault found at a line of a source. If there is nothing to show, a blank row stands
for the line being built. -/
def StructuralFault.at (fault : StructuralFault) (line : Nat) (source : Text) : StructuralError :=
  let rows := Excerpt.through source line
  ⟨fault, line, if rows.isEmpty then Excerpt.row (max line 1) [] else rows⟩

end TemplateEngine
