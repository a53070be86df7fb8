import TemplateEngine.Toml.Scalar

/-!
# Reading TOML

A document is a list of lines: settings, headers of tables, comments and nothing.
Lists may go over several lines, tables written as values may not. The nesting of
values is bounded, and the bound is what the recursion is on.
-/
namespace TemplateEngine.Toml

/-- How deep values may be nested. -/
def maxDepth : Nat := 80

/-- The text after a comment, if there is one. -/
def skipComment (t : Text) : Text :=
  match t with
  | '#' :: rest => rest.dropWhile inComment
  | _ => t

/-- The text after blanks, comments and line breaks. The number bounds the lines. -/
def skipLines : Nat → Text → Text
  | 0, t => t
  | fuel + 1, t =>
    let rest := skipComment (skip t)
    match newline? rest with
    | some rest => skipLines fuel rest
    | none => rest

/-- The items of a list up to its closing bracket, for a reader of one. -/
def items? (value : Text → Option (Toml × Text)) : Nat → Text → Option (List Toml × Text)
  | 0, _ => none
  | fuel + 1, t =>
    match skipLines t.length t with
    | ']' :: rest => some ([], rest)
    | start =>
      (value start).bind fun (item, rest) =>
        match skipLines rest.length rest with
        | ',' :: rest => (items? value fuel rest).map fun (items, rest) => (item :: items, rest)
        | ']' :: rest => some ([item], rest)
        | _ => none

/-- The members of a table written as a value, up to its closing brace, for a reader of one
value. -/
def members? (value : Text → Option (Toml × Text)) :
    Nat → Members → Text → Option (Members × Text)
  | 0, _, _ => none
  | fuel + 1, known, t =>
    (key? maxDepth t).bind fun (parts, rest) =>
      match rest with
      | '=' :: rest =>
        (value (skip rest)).bind fun (item, rest) =>
          (insertKey? (parts.getLast?.getD []) item parts.dropLast known).bind fun known =>
            match skip rest with
            | ',' :: rest => members? value fuel known rest
            | '\x7d' :: rest => some (known, rest)
            | _ => none
      | _ => none

/-- The value at the start of a text. -/
def value? : Nat → Text → Option (Toml × Text)
  | 0, _ => none
  | depth + 1, t =>
    match t with
    | '"' :: _ | '\'' :: _ => (string? t).map fun (s, rest) => (.text s, rest)
    | '[' :: rest =>
      (items? (value? depth) (rest.length + 1) rest).map fun (items, rest) => (.array items, rest)
    | '\x7b' :: rest =>
      match skip rest with
      | '\x7d' :: rest => some (.table .literal [], rest)
      | rest =>
        (members? (value? depth) rest.length [] rest).map fun (members, rest) =>
          (.table .literal members, rest)
    | t => scalar? t

/-- A document that is read so far, and the header that is in force. -/
structure Document where
  members : Members
  header : List Text

/-- The document with one more setting. -/
def setting? (d : Document) (t : Text) : Option (Document × Text) :=
  (key? maxDepth t).bind fun (parts, rest) =>
    match rest with
    | '=' :: rest =>
      (value? maxDepth (skip rest)).bind fun (value, rest) =>
        (within? (insertKey? (parts.getLast?.getD []) value parts.dropLast) d.header d.members).map
          fun members => ({ d with members := members }, rest)
    | _ => none

/-- The document with one more header. -/
def header? (d : Document) (open? : Text → Members → Option Members) (close : Text) (t : Text) :
    Option (Document × Text) :=
  (key? maxDepth t).bind fun (parts, rest) =>
    if close.isPrefixOf rest then
      (within? (open? (parts.getLast?.getD [])) parts.dropLast d.members).map fun members =>
        (⟨members, parts⟩, rest.drop close.length)
    else none

/-- The document with what one line holds, and the text after that. -/
def line (d : Document) (t : Text) : Option (Document × Text) :=
  match t with
  | '[' :: '[' :: rest => header? d openItem? "]]" rest
  | '[' :: rest => header? d openTable? "]" rest
  | [] => some (d, [])
  | c :: rest =>
    if c = '#' || c = '\n' || c = '\r' then some (d, c :: rest) else setting? d (c :: rest)

/-- The document of the lines of a text. The number bounds the lines. -/
def lines : Nat → Document → Text → Option Document
  | 0, _, _ => none
  | fuel + 1, d, t =>
    (line d (skip t)).bind fun (d, rest) =>
      match skipComment (skip rest) with
      | [] => some d
      | rest => (newline? rest).bind fun rest => lines fuel d rest

/-- The members of a document. A byte order mark may come first. -/
def ofText? (t : Text) : Option Members :=
  let t := match t with
    | '\ufeff' :: rest => rest
    | t => t
  (lines (t.length + 1) ⟨[], []⟩ t).map Document.members

end TemplateEngine.Toml
