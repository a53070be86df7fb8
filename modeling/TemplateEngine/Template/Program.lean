import TemplateEngine.Files.Error
import TemplateEngine.Script.Exception
import TemplateEngine.Template.Fault
import TemplateEngine.Template.Generated

/-!
# Compiled programs

A template is compiled by generating a program and parsing it. The compiled
program keeps its source and the template line of every line of it, so that a
failure can be traced back.
-/

/-!
## Template errors

Everything that can go wrong between a template and its output: the template
cannot be read or decoded, its structure is wrong, or its program raises an
exception that nothing catches.
-/
namespace TemplateEngine

/-- An exception that escaped a program, with the line of the program, the template line
it came from, and the numbered lines around it. -/
structure RuntimeFailure where
  name : Text
  kind : ExceptionKind
  message : Text
  line : Nat
  templateLine : Option Nat
  window : Text
  deriving DecidableEq, Repr

/-- Why a template has no output. -/
inductive TemplateError where
  | structural (name : Text) (error : StructuralError)
  | runtime (failure : RuntimeFailure)
  | unreadable (path : Text) (cause : FileError)
  | undecodable (name encoding : Text)
  | unknownEncoding (label : Text)
  deriving DecidableEq, Repr

namespace TemplateError

/-- The wording of an exception that escaped a program. -/
def runtimeMessage (f : RuntimeFailure) : Text :=
  let suffix := match f.templateLine with
    | some line => ", template line ".toList ++ Text.ofNat line
    | none => []
  f.name ++ ": " ++ f.kind.name ++ ": " ++ f.message ++ " (generated line " ++ Text.ofNat f.line ++
    suffix ++ ")"

/-- The wording of an error. -/
def message : TemplateError → Text
  | structural name error =>
    name ++ ": " ++ error.fault.message ++ " (line " ++ Text.ofNat error.line ++ ")"
  | runtime failure => runtimeMessage failure
  | unreadable path cause => "cannot read ".toList ++ path ++ ": " ++ cause.message
  | undecodable name encoding => "template ".toList ++ name ++ " is not valid " ++ encoding
  | unknownEncoding label => "unknown encoding: ".toList ++ label

/-- The numbered lines that come with an error. -/
def context? : TemplateError → Option Text
  | structural _ error => some error.excerpt
  | runtime failure => some failure.window
  | _ => none

end TemplateError

/-! ## Programs -/

/-- A compiled template. -/
structure Program where
  name : Text
  source : Text
  body : Block
  lineMap : List Nat

namespace Program

/-- The name of a template that has none of its own. -/
def anonymous : Text := "<string>"

/-- How many lines around a failure are shown. -/
def windowRadius : Nat := 5

/-- The template line that a line of the program came from. -/
def templateLine? (p : Program) (line : Nat) : Option Nat :=
  if line = 0 then none else p.lineMap[line - 1]?

/-- The numbered lines of the program around a line. -/
def window (p : Program) (line : Nat) : Text := Excerpt.window p.source line windowRadius

/-- The program of a template. -/
def ofTemplate (name text : Text) : Except TemplateError Program :=
  match Generated.ofTemplate text with
  | .error error => .error (.structural name error)
  | .ok generated =>
    match parseProgram generated.source with
    | .error error =>
      .error (.structural name
        (StructuralFault.at (.ungrammatical error) (max error.line 1) generated.source))
    | .ok body => .ok ⟨name, generated.source, body, generated.lineMap⟩

end Program

end TemplateEngine
