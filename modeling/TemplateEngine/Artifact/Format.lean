import TemplateEngine.Artifact.Decode
import TemplateEngine.Artifact.Encode
import TemplateEngine.Encoding.Unicode
import TemplateEngine.Json.Writer
import TemplateEngine.Template.Program

/-!
# Artifacts

A compiled program is kept as JSON, together with the format it was written in. A
reader takes what it understands and never looks at the format itself.
-/
namespace TemplateEngine

open Json (fields fields? text? line? listOf?)

namespace Program

/-- A program as JSON. -/
def toJson (p : Program) : Json :=
  fields [("name", .string p.name), ("source", .string p.source),
    ("body", .array (stmtsToJson p.body)),
    ("line_map", .array (p.lineMap.map fun (n : Nat) => .int n))]

/-- A program from JSON. -/
def ofJson? (j : Json) : Option Program := do
  match ← fields? ["name", "source", "body", "line_map"] j with
  | [some name, some source, some body, some lineMap] =>
    return ⟨← text? name, ← text? source, ← Block.decode? body, ← listOf? line? lineMap⟩
  | _ => none

end Program

/-- A program with the format it is kept in. -/
structure Artifact where
  format : Text
  program : Program

namespace Artifact

/-- An artifact as JSON. -/
def toJson (a : Artifact) : Json :=
  fields [("format", .string a.format), ("program", a.program.toJson)]

/-- An artifact from JSON. -/
def ofJson? (j : Json) : Option Artifact := do
  match ← fields? ["format", "program"] j with
  | [some format, some program] => return ⟨← text? format, ← Program.ofJson? program⟩
  | _ => none

/-- The bytes of an artifact. -/
def encode (a : Artifact) : Bytes := Utf8.encode a.toJson.text

/-- The artifact that bytes hold. -/
def decode? (bytes : Bytes) : Option Artifact := do
  ofJson? (← Json.ofText? (← Utf8.decode? bytes))

end Artifact

end TemplateEngine
