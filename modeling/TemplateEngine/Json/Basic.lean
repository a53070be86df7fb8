import TemplateEngine.Number.Decimal

/-!
# JSON values

The tree of a JSON text. Integers of up to 64 bits, with or without a sign, stay
integers; every other number is a double. An object keeps its members in the
order of the text, also those of one name.
-/
namespace TemplateEngine

/-- A JSON value. -/
inductive Json where
  | null
  | bool (b : Bool)
  | int (n : Int)
  | float (x : Float)
  | string (t : Text)
  | array (items : List Json)
  | object (members : List (Text × Json))
  deriving Repr, Inhabited

namespace Json

/-- The arrays and objects allowed inside each other in text that is read. -/
def maxDepth : Nat := 127

end Json

end TemplateEngine
