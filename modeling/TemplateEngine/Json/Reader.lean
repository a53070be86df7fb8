import TemplateEngine.Json.Number

/-!
# Reading JSON

A reader takes a value off the start of a text and returns it with the rest. The
nesting of arrays and objects is bounded, and the bound is what the recursion is
on; the items of one array are read with as much fuel as there is text. Text
after the value other than blanks is an error.
-/
namespace TemplateEngine.Json

/-- Whether a character is a blank between JSON tokens. -/
def isBlank (c : Char) : Bool := c = ' ' || c = '\n' || c = '\t' || c = '\r'

/-- The text without blanks at its start. -/
def skip (t : Text) : Text := t.dropWhile isBlank

/-- The value of a hexadecimal digit. -/
def hexDigit? (c : Char) : Option Nat :=
  if c.isDigit then some (c.toNat - 48)
  else if 'a' ≤ c && c ≤ 'f' then some (c.toNat - 87)
  else if 'A' ≤ c && c ≤ 'F' then some (c.toNat - 55)
  else none

/-- The unit of four hexadecimal digits. -/
def unit? (a b c d : Char) : Option Nat := do
  let w ← hexDigit? a
  let x ← hexDigit? b
  let y ← hexDigit? c
  let z ← hexDigit? d
  return ((w * 16 + x) * 16 + y) * 16 + z

/-- The character after a backslash, other than a unit. -/
def escaped? (c : Char) : Option Char :=
  ([('"', '"'), ('\\', '\\'), ('/', '/'), ('b', '\x08'), ('f', '\x0c'), ('n', '\n'), ('r', '\r'),
    ('t', '\t')] : List (Char × Char)).lookup c

/-- The rest of a string after its opening quote, with the text after it. -/
def stringBody? : Text → Option (Text × Text)
  | [] => none
  | '"' :: rest => some ([], rest)
  | '\\' :: 'u' :: a :: b :: c :: d :: rest =>
    match unit? a b c d with
    | none => none
    | some high =>
      if high < 0xD800 || 0xE000 ≤ high then
        (stringBody? rest).map fun (t, rest) => (Char.ofNat high :: t, rest)
      else if 0xDC00 ≤ high then none
      else
        match rest with
        | '\\' :: 'u' :: a :: b :: c :: d :: rest =>
          match unit? a b c d with
          | none => none
          | some low =>
            if 0xDC00 ≤ low && low < 0xE000 then
              let n := 0x10000 + (high - 0xD800) * 0x400 + (low - 0xDC00)
              (stringBody? rest).map fun (t, rest) => (Char.ofNat n :: t, rest)
            else none
        | _ => none
  | '\\' :: c :: rest =>
    match escaped? c with
    | none => none
    | some c => (stringBody? rest).map fun (t, rest) => (c :: t, rest)
  | c :: rest =>
    if c = '\\' || c.toNat < 0x20 then none
    else (stringBody? rest).map fun (t, rest) => (c :: t, rest)

/-- The items of an array up to its closing bracket, for a reader of one item. -/
def items? (item : Text → Option (Json × Text)) : Nat → Text → Option (List Json × Text)
  | 0, _ => none
  | fuel + 1, t =>
    (item (skip t)).bind fun (value, rest) =>
      match skip rest with
      | ',' :: rest => (items? item fuel rest).map fun (values, rest) => (value :: values, rest)
      | ']' :: rest => some ([value], rest)
      | _ => none

/-- The members of an object up to its closing brace, for a reader of one value. -/
def members? (item : Text → Option (Json × Text)) :
    Nat → List (Text × Json) → Text → Option (List (Text × Json) × Text)
  | 0, _, _ => none
  | fuel + 1, known, t =>
    match skip t with
    | '"' :: rest =>
      (stringBody? rest).bind fun (name, rest) =>
        match skip rest with
        | ':' :: rest =>
          (item (skip rest)).bind fun (value, rest) =>
            let known := known ++ [(name, value)]
            match skip rest with
            | ',' :: rest => members? item fuel known rest
            | '}' :: rest => some (known, rest)
            | _ => none
        | _ => none
    | _ => none

/-- The value at the start of a text, with at most `depth` arrays and objects inside
each other. Members of one name are all kept. -/
def value? : Nat → Text → Option (Json × Text)
  | depth, t =>
    match t with
    | 'n' :: 'u' :: 'l' :: 'l' :: rest => some (.null, rest)
    | 't' :: 'r' :: 'u' :: 'e' :: rest => some (.bool true, rest)
    | 'f' :: 'a' :: 'l' :: 's' :: 'e' :: rest => some (.bool false, rest)
    | '"' :: rest => (stringBody? rest).map fun (t, rest) => (.string t, rest)
    | '[' :: rest =>
      match depth with
      | 0 => none
      | depth + 1 =>
        match skip rest with
        | ']' :: rest => some (.array [], rest)
        | rest => (items? (value? depth) rest.length rest).map fun (items, rest) =>
            (.array items, rest)
    | '{' :: rest =>
      match depth with
      | 0 => none
      | depth + 1 =>
        match skip rest with
        | '}' :: rest => some (.object [], rest)
        | rest => (members? (value? depth) rest.length [] rest).map fun (members, rest) =>
            (.object members, rest)
    | t => number? t

/-- The value that a text holds, if it holds one and nothing else. -/
def ofText? (t : Text) : Option Json :=
  (value? maxDepth (skip t)).bind fun (value, rest) =>
    if (skip rest).isEmpty then some value else none

end TemplateEngine.Json
