import TemplateEngine.Json.Number

/-!
# Writing JSON

The compact text of a JSON value. Quotes, backslashes and control characters are
escaped, everything else stands for itself, and a double that is not finite is
written as null.
-/
namespace TemplateEngine.Json

/-- A hexadecimal digit. -/
def hexDigit (n : Nat) : Char := Nat.digitChar n

/-- A character inside a string. -/
def encodeChar (c : Char) : Text :=
  if c = '"' then ['\\', '"']
  else if c = '\\' then ['\\', '\\']
  else if c = '\x08' then ['\\', 'b']
  else if c = '\x0c' then ['\\', 'f']
  else if c = '\n' then ['\\', 'n']
  else if c = '\r' then ['\\', 'r']
  else if c = '\t' then ['\\', 't']
  else if c.toNat < 0x20 then
    ['\\', 'u', '0', '0', hexDigit (c.toNat / 16), hexDigit (c.toNat % 16)]
  else [c]

/-- A string with its quotes. -/
def stringText (t : Text) : Text := '"' :: t.flatMap encodeChar ++ ['"']

mutual

/-- The text of a value. -/
def text (j : Json) : Text :=
  match j with
  | .null => "null"
  | .bool true => "true"
  | .bool false => "false"
  | .int n => Text.ofInt n
  | .float x => if x.isFinite then floatText x else "null"
  | .string t => stringText t
  | .array [] => "[]"
  | .array (item :: items) => '[' :: text item ++ itemsText items ++ [']']
  | .object [] => ['\x7b', '\x7d']
  | .object ((name, value) :: members) =>
    '\x7b' :: stringText name ++ ':' :: text value ++ membersText members ++ ['\x7d']
  termination_by structural j

/-- The text of further items, each after a comma. -/
def itemsText (items : List Json) : Text :=
  match items with
  | [] => []
  | item :: items => ',' :: text item ++ itemsText items
  termination_by structural items

/-- The text of further members, each after a comma. -/
def membersText (members : List (Text × Json)) : Text :=
  match members with
  | [] => []
  | (name, value) :: members =>
    ',' :: stringText name ++ ':' :: text value ++ membersText members
  termination_by structural members

end

end TemplateEngine.Json
