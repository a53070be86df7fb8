import TemplateEngine.Encoding.Basic
import TemplateEngine.Files.Tree
import TemplateEngine.Template.Program

/-!
# Template sources

The text of a template with what a cache has to know: the identity under which its
program may be kept, and the time of its last change. Text without an identity is
never kept.
-/
namespace TemplateEngine

/-- The text of a template, and where it came from. -/
structure Source where
  text : Text
  identity : Option Text
  stamp : Option Nat
  encoding : Encoding
  deriving DecidableEq, Repr

namespace Source

/-- Text that is given as such. -/
def ofText (text : Text) : Source := ⟨text, none, none, .utf8⟩

/-- Bytes of an encoding, under an identity. -/
def ofBytes (identity : Text) (bytes : Bytes) (encoding : Encoding) :
    Except TemplateError Source :=
  match encoding.decode? bytes with
  | some text => .ok ⟨text, some identity, none, encoding⟩
  | none => .error (.undecodable identity encoding.label)

/-- The file that a path leads to; the path is its identity. -/
def ofFile (files : FileTree) (path : Text) (encoding : Encoding) :
    Except TemplateError Source :=
  match files.read path with
  | .error cause => .error (.unreadable path cause)
  | .ok bytes =>
    (ofBytes path bytes encoding).map fun source =>
      { source with stamp := (files.stamp path).toOption }

/-- The identity, or the name of what has none. -/
def name (s : Source) : Text := s.identity.getD Program.anonymous

/-- The program of a source, compiled anew. -/
def compile (s : Source) : Except TemplateError Program := Program.ofTemplate s.name s.text

end Source

end TemplateEngine
