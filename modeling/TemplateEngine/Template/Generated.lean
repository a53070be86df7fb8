import TemplateEngine.Template.Fault
import TemplateEngine.Template.Fragment

/-!
# Generated programs

The source of the program that a template stands for. Literal text and prints
become calls that append to the output, and code is laid out by the blocks that
it opens and closes: a line of code that ends in a colon opens a block, a header
that continues a block closes one and opens the next, and an empty tag closes
one. Every row of the program remembers the template line it came from. A row
that is still blank when the next one starts is used again.
-/
namespace TemplateEngine

/-- The source of a program, and for each of its lines the template line it came from. -/
structure Generated where
  source : Text
  lineMap : List Nat
  deriving DecidableEq, Repr

/-- A line of a program and the template line it came from. -/
structure Row where
  code : Text
  line : Nat
  deriving DecidableEq, Repr

/-- A program being laid out: its rows, the last one first, and the number of open blocks. -/
structure Draft where
  rows : List Row
  depth : Nat
  deriving DecidableEq, Repr

namespace Draft

/-- Nothing laid out yet. -/
def empty : Draft := ⟨[], 0⟩

/-- The name of the function that appends to the output. -/
def appendName : Text := "__buffer_append"

/-- The name of the function that filters printed values. -/
def filterName : Text := "__filter"

/-- The indentation of a number of open blocks. -/
def indentation (depth : Nat) : Text := Text.times (2 * depth) ' '

/-- The draft with a row of its own for what comes next. -/
def newRow (line : Nat) (d : Draft) : Draft :=
  let row := Row.mk (indentation d.depth) line
  match d.rows with
  | [] => { d with rows := [row] }
  | last :: others =>
    if Text.allBlank last.code then { d with rows := row :: others }
    else { d with rows := row :: last :: others }

/-- Rows for the later lines of a text, put before the rows there are. -/
def moreRows (line : Nat) : List Text → List Row → List Row
  | [], rows => rows
  | piece :: pieces, rows => moreRows (line + 1) pieces (⟨piece, line⟩ :: rows)

/-- The draft with a text at its end. Line breaks in the text start rows without
indentation. -/
def push (text : Text) (line : Nat) (d : Draft) : Draft :=
  let d := if d.rows.isEmpty then d.newRow line else d
  match d.rows, Text.cutAt '\n' text with
  | last :: others, first :: pieces =>
    { d with rows := moreRows (line + 1) pieces (⟨last.code ++ first, last.line⟩ :: others) }
  | _, _ => d

/-- The draft inside one more block. -/
def indent (d : Draft) : Draft := { d with depth := d.depth + 1 }

/-- The text of the rows. -/
def source (d : Draft) : Text := Text.join ['\n'] (d.rows.reverse.map Row.code)

/-- A fault at the row being built. -/
def fault (cause : StructuralFault) (d : Draft) : StructuralError :=
  cause.at (max d.rows.length 1) d.source

/-- The draft outside its innermost block, or the fault that there is none. -/
def dedent (cause : StructuralFault) (d : Draft) : Except StructuralError Draft :=
  match d.depth with
  | 0 => .error (d.fault cause)
  | depth + 1 => .ok { d with depth := depth }

/-- Text as it is written between the quotes of a string. -/
def escapeLiteral (t : Text) : Text :=
  t.flatMap fun c => if c = '\\' || c = '"' then ['\\', c] else [c]

/-- The call that appends a literal text to the output. -/
def literalCall (t : Text) : Text :=
  appendName ++ "(\"\"\"" ++ escapeLiteral t ++ "\"\"\")"

/-- The call that appends a printed value to the output. -/
def printCall (raw : Bool) (body : Text) : Text :=
  if raw then appendName ++ "(" ++ body ++ ")"
  else appendName ++ "(" ++ filterName ++ "(" ++ body ++ "))"

/-- Whether a line of code opens a block. -/
def opensBlock (code : Text) : Bool :=
  code.head? != some '#' && (Text.trimEnd code).getLast? == some ':'

/-- The draft with one line of a piece of code. A line that goes on with a quoted run
keeps the blanks at its end, and its colon opens nothing. -/
def codeLine (line : Nat) (goesOn : Bool) (piece : Text) (d : Draft) : Draft :=
  let piece := Text.dropLastIf '\r' piece
  let code := if goesOn then Text.trimStart piece else Text.trim piece
  let d := d.push code line
  if !goesOn && opensBlock code then d.indent else d

/-- The draft with the lines of a piece of code; `goesOn` says that a quoted run follows. -/
def codeLines (goesOn : Bool) : Nat → List Text → Draft → Draft
  | _, [], d => d
  | line, [piece], d => d.codeLine line goesOn piece
  | line, piece :: pieces, d =>
    codeLines goesOn (line + 1) pieces ((d.codeLine line false piece).newRow (line + 1))

/-- The draft with one fragment of a tag on template line `base`; `next` is the kind of
the fragment after it. -/
def fragment (base : Nat) (next : Option FragmentKind) (f : Fragment) (d : Draft) :
    Except StructuralError Draft := do
  let line := base + f.line
  match f.kind with
  | .quoted => return d.push f.text line
  | .code => return codeLines (next == some .quoted) line (Text.cutAt '\n' f.text) d
  | .blockOpen => return (d.push [':'] line).indent.newRow line
  | .blockClose =>
    let d ← d.dedent (.unexpectedEnd line)
    return d.newRow line
  | .separator => return d.newRow line
  | .continuation =>
    let d ← d.dedent (.strayContinuation (f.text.takeWhile Char.isAlpha) line)
    return ((d.newRow line).push f.text line).indent

/-- The draft with the fragments of a tag on template line `base`. -/
def fragments (base : Nat) : List Fragment → Draft → Except StructuralError Draft
  | [], d => .ok d
  | f :: rest, d => do
    let d ← d.fragment base (rest.head?.map Fragment.kind) f
    fragments base rest d

/-- The draft with a print tag. -/
def print (raw : Bool) (tag : Tag) (d : Draft) : Except StructuralError Draft :=
  if Text.allBlank tag.body then .error (d.fault (.emptyPrint tag.line))
  else .ok ((d.newRow tag.line).push (printCall raw tag.body) tag.line)

/-- The draft with a statement tag. -/
def statement (tag : Tag) (d : Draft) : Except StructuralError Draft :=
  if Text.allBlank tag.body then do
    let d ← d.dedent (.unexpectedEnd tag.line)
    return d.newRow tag.line
  else fragments tag.line (Fragment.ofBody tag.body) (d.newRow tag.line)

/-- The draft with one more segment of the template. -/
def segment (d : Draft) : Segment → Except StructuralError Draft
  | .literal text line => .ok ((d.newRow line).push (literalCall text) line)
  | .tag tag =>
    match tag.kind with
    | .print => d.print false tag
    | .rawPrint => d.print true tag
    | .statement => d.statement tag

/-- The finished program, if every block is closed. -/
def finish (d : Draft) : Except StructuralError Generated :=
  if d.depth = 0 then .ok ⟨d.source ++ ['\n'], d.rows.reverse.map Row.line⟩
  else .error (d.fault (.unclosedBlocks d.depth))

end Draft

/-- The program of a template. -/
def Generated.ofTemplate (t : Text) : Except StructuralError Generated := do
  let splitting := Splitting.ofTemplate t
  let draft ← splitting.segments.foldlM Draft.segment Draft.empty
  match splitting.unclosed with
  | some line => throw (StructuralFault.at (.unterminatedTag line) line t)
  | none => draft.finish

end TemplateEngine
