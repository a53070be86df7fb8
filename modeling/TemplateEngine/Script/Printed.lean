import TemplateEngine.Script.Heap

/-!
# The text of values

Every value has a written form, from which a script could build it again where
that is possible at all, and a text to print. The two differ for text, which is
printed as it is, and for exceptions, whose text is their message. As with
comparisons, the depth of the heap bounds how far containers are followed.
-/
namespace TemplateEngine

namespace Heap

/-- The written form of a value down to a depth. -/
def reprTo (h : Heap) : Nat → Value → Text
  | 0, _ => []
  | depth + 1, v =>
    match v with
    | .none => "None"
    | .bool true => "True"
    | .bool false => "False"
    | .int n => Text.ofInt n
    | .float x => Double.text x
    | .str t => Quoted.encode t
    | .markup t => "Markup(".toList ++ Quoted.encode t ++ ")"
    | .list p => '[' :: Text.join ", " ((h.list p).map (reprTo h depth)) ++ [']']
    | .tuple p =>
      match h.tuple p with
      | [item] => '(' :: reprTo h depth item ++ ",)"
      | items => '(' :: Text.join ", " (items.map (reprTo h depth)) ++ [')']
    | .dict p =>
      let entry (e : Text × Value) : Text := Quoted.encode e.1 ++ ": " ++ reprTo h depth e.2
      '\x7b' :: Text.join ", " ((h.dict p).map entry) ++ ['\x7d']
    | .function f => "<built-in function ".toList ++ f.name ++ ">"
    | .exceptionClass kind => "<class '".toList ++ kind.name ++ "'>"
    | .exception _ kind message => kind.name.toList ++ "(" ++ Quoted.encode message ++ ")"
    | .capture name => "<capture ".toList ++ Quoted.encode name ++ ">"
    | .range r => r.text

/-- The written form of a value. -/
def repr (h : Heap) (v : Value) : Text := h.reprTo h.depth v

/-- The text of a value as it is printed. -/
def display (h : Heap) : Value → Text
  | .str t | .markup t => t
  | .exception _ _ message => message
  | v => h.repr v

/-- Whether a value counts as true. -/
def truthy (h : Heap) : Value → Bool
  | .none => false
  | .bool b => b
  | .int n => n != 0
  | .float x => x != 0.0
  | .str t | .markup t => !t.isEmpty
  | .list p => !(h.list p).isEmpty
  | .tuple p => !(h.tuple p).isEmpty
  | .dict p => !(h.dict p).isEmpty
  | .range r => r.length != 0
  | _ => true

/-- The items that one gets by going through a value. -/
def iterate (h : Heap) : Value → Except Cause (List Value)
  | .range r =>
    if Range.maxItems < r.length then .error (.rangeTooLong r.text)
    else .ok (r.toList.map .int)
  | .str t | .markup t => .ok (t.map fun c => .str [c])
  | .list p => .ok (h.list p)
  | .tuple p => .ok (h.tuple p)
  | .dict p => .ok ((Entries.names (h.dict p)).map .str)
  | other => .error (.notIterable other.typeName)

end Heap

end TemplateEngine
