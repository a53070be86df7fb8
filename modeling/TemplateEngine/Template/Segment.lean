import TemplateEngine.Text.Blank

/-!
# Segments of a template

A template is literal text with tags in it. A tag opens with a less-than sign
and a percent sign and closes with a percent sign and a greater-than sign; what
follows the opening signs decides what the tag does. Doubling the percent sign
takes the meaning of either delimiter away. Inside a tag a quoted run is opaque,
and a quote that is never closed is an ordinary character. A closing hyphen
drops the line break after the tag, an opening hyphen the indentation before it.
-/
namespace TemplateEngine

/-- What a tag does with its body. -/
inductive TagKind where
  /-- The value of the body is printed through the filter. -/
  | print
  /-- The value of the body is printed as it is. -/
  | rawPrint
  /-- The body is code. -/
  | statement
  deriving DecidableEq, Repr

/-- A tag, with the line of its opener and the trimming that took place. -/
structure Tag where
  kind : TagKind
  body : Text
  line : Nat
  trimsIndentation : Bool
  trimsNewline : Bool
  deriving DecidableEq, Repr

/-- A piece of a template. -/
inductive Segment where
  | literal (text : Text) (line : Nat)
  | tag (tag : Tag)
  deriving DecidableEq, Repr

namespace Segment

/-- Whether a character is a quote. -/
def isQuote (c : Char) : Bool := c = '"' || c = '\''

/-- How many characters after an opening quote belong to its run, the closing quote
included. A backslash takes the meaning of the character after it away. -/
def closing? (quote : Char) : Text → Option Nat
  | [] => none
  | '\\' :: _ :: rest => (closing? quote rest).map (· + 2)
  | c :: rest => if c = quote then some 1 else (closing? quote rest).map (· + 1)

/-- How many characters after `c` belong to a quoted run that `c` opens. -/
def quotedAfter (c : Char) (rest : Text) : Nat :=
  if isQuote c then (closing? c rest).getD 0 else 0

/-- The text before the next opener, and the text from that opener on. -/
def beforeOpener : Text → Text × Text
  | [] => ([], [])
  | '<' :: '%' :: '%' :: rest =>
    let (piece, rest) := beforeOpener rest
    ('<' :: '%' :: '%' :: piece, rest)
  | '<' :: '%' :: rest => ([], '<' :: '%' :: rest)
  | c :: rest =>
    let (piece, rest) := beforeOpener rest
    (c :: piece, rest)

/-- What the characters after the opening signs make of a tag: its kind, whether it
trims the indentation before it, and the text of the body on. -/
def opener : Text → TagKind × Bool × Text
  | '=' :: 'r' :: ' ' :: rest => (.rawPrint, false, rest)
  | '=' :: rest => (.print, false, rest)
  | '-' :: rest => (.statement, true, rest)
  | rest => (.statement, false, rest)

/-- The body of a tag up to its closer, whether the closer has a hyphen, and the text
after it. The first argument counts the characters of a quoted run still to come. -/
def body? : Nat → Text → Option (Text × Bool × Text)
  | _, [] => none
  | skip + 1, c :: rest => (body? skip rest).map fun (body, after) => (c :: body, after)
  | 0, '%' :: '%' :: '>' :: rest =>
    (body? 0 rest).map fun (body, after) => ('%' :: '>' :: body, after)
  | 0, '-' :: '%' :: '>' :: rest => some ([], true, rest)
  | 0, '%' :: '>' :: rest => some ([], false, rest)
  | 0, c :: rest =>
    (body? (quotedAfter c rest) rest).map fun (body, after) => (c :: body, after)

/-- The text without one line break at its start, and whether there was one. -/
def dropNewline : Text → Bool × Text
  | '\r' :: '\n' :: rest => (true, rest)
  | '\n' :: rest => (true, rest)
  | rest => (false, rest)

/-- The text before a tag without the indentation it ends in, if that indentation
begins a line. `fresh` says that the text itself begins one. -/
def withoutIndentation? (fresh : Bool) (piece : Text) : Option Text :=
  let kept := Text.trimEndWhile (fun c => c = ' ' || c = '\t') piece
  match kept.getLast? with
  | none => if fresh then some [] else none
  | some last => if last = '\n' then some kept else none

/-- Literal text with the doubled percent signs of delimiters made single. -/
def unescapeLiteral (t : Text) : Text :=
  Text.replace "%%>".toList "%>".toList (Text.replace "<%%".toList "<%".toList t)

/-- The segment of a piece of literal text, unless it is empty. -/
def ofLiteral (piece : Text) (line : Nat) : List Segment :=
  if piece.isEmpty then [] else [.literal (unescapeLiteral piece) line]

end Segment

/-- The segments of a template up to a tag that is never closed, and the line of that
tag. -/
structure Splitting where
  segments : List Segment
  unclosed : Option Nat
  deriving DecidableEq, Repr

namespace Splitting

open Segment

/-- The splitting of text that starts on `line`. Every round ends behind a closer, so
a round per character is more than enough. -/
def run : Nat → (fresh : Bool) → (line : Nat) → Text → Splitting
  | 0, _, _, _ => ⟨[], none⟩
  | fuel + 1, fresh, line, t =>
    match beforeOpener t with
    | (piece, '<' :: '%' :: inside) =>
      let (kind, trimsIndentation, inside) := opener inside
      let tagLine := line + piece.newlines
      match body? 0 inside with
      | none => ⟨[], some tagLine⟩
      | some (body, trimsNewline, after) =>
        let (newline, rest) := if trimsNewline then dropNewline after else (false, after)
        let kept? := if trimsIndentation then withoutIndentation? fresh piece else none
        let tag := Tag.mk kind body tagLine kept?.isSome trimsNewline
        let next := tagLine + body.newlines + (if newline then 1 else 0)
        let others := run fuel newline next rest
        { others with
          segments := ofLiteral (kept?.getD piece) line ++ .tag tag :: others.segments }
    | (piece, _) => ⟨ofLiteral piece line, none⟩

/-- The splitting of a template. -/
def ofTemplate (t : Text) : Splitting := run (t.length + 1) true 1 t

end Splitting

end TemplateEngine
