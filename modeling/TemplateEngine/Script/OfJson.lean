import TemplateEngine.Json.Basic
import TemplateEngine.Script.Heap

/-!
# Values from JSON

Arrays become lists and objects dicts. An integer that is no machine integer becomes
a double, and of members with one name the last one counts, at the place of the
first.
-/
namespace TemplateEngine

mutual

/-- The value of a JSON value. -/
def Value.ofJson (j : Json) : Effect Value :=
  match j with
  | .null => return .none
  | .bool b => return .bool b
  | .int n => return if decide (Word.Fits n) then .int n else .float (Double.ofInt n)
  | .float x => return .float x
  | .string t => return .str t
  | .array items => do Effect.newList (← valuesOfJson items)
  | .object members => do Effect.newDict (← entriesOfJson [] members)
  termination_by structural j

/-- The values of JSON values. -/
def valuesOfJson (items : List Json) : Effect (List Value) :=
  match items with
  | [] => return []
  | j :: items => do
    let v ← Value.ofJson j
    return v :: (← valuesOfJson items)
  termination_by structural items

/-- The entries of members put into what there is. -/
def entriesOfJson (known : Entries Value) (members : List (Text × Json)) :
    Effect (Entries Value) :=
  match members with
  | [] => return known
  | (name, j) :: members => do
    let v ← Value.ofJson j
    entriesOfJson (Entries.put name v known) members
  termination_by structural members

end

end TemplateEngine
