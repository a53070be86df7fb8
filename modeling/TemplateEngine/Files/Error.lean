import TemplateEngine.Text.Basic

/-!
# Why a file cannot be read

A path may lead nowhere, to a directory, or through something that is no
directory. The wording ends in the number that the system gives the failure.
-/
namespace TemplateEngine

/-- Why a file cannot be read. -/
inductive FileError where
  | missing
  | isDirectory
  | notDirectory
  deriving DecidableEq, Repr

/-- The wording of a failure. -/
def FileError.message : FileError → Text
  | missing => "No such file or directory (os error 2)"
  | isDirectory => "Is a directory (os error 21)"
  | notDirectory => "Not a directory (os error 20)"

end TemplateEngine
