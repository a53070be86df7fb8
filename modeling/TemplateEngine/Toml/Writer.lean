import TemplateEngine.Text.Basic

/-!
# Writing TOML strings

A text is written between double quotes with escapes, or between single quotes as it
stands where that saves escapes and is possible. A text with line breaks goes over
several lines, between three quotes.
-/
namespace TemplateEngine.Toml

/-- How a text is quoted. -/
inductive Quoting where
  /-- Between quotes on one line. -/
  | line
  /-- Between three quotes on one line. -/
  | wide
  /-- Between three quotes, with a line break after the first three. -/
  | lines
  deriving DecidableEq, Repr

/-- The quotes before a text. -/
def Quoting.opening (quote : Char) : Quoting → Text
  | line => [quote]
  | wide => [quote, quote, quote]
  | lines => [quote, quote, quote, '\n']

/-- The quotes after a text. -/
def Quoting.closing (quote : Char) : Quoting → Text
  | line => [quote]
  | _ => [quote, quote, quote]

/-- Whether a character has no place in a string without an escape. -/
def isControl (c : Char) : Bool := c.toNat < 0x20 || c = '\x7f'

/-- Whether a text can stand between single quotes, and should because it holds what
double quotes would escape. -/
def fitsLiteral (t : Text) : Bool :=
  t.any (fun c => c = '"' || c = '\\') &&
    !t.any (fun c => isControl c && c ≠ '\t' && c ≠ '\n') &&
    !Text.hasPiece "'''" t && t.getLast? ≠ some '\''

/-- A character between double quotes. -/
def escapeChar (quoting : Quoting) (c : Char) : Text :=
  match c with
  | '\x08' => "\\b"
  | '\t' => "\\t"
  | '\n' => if quoting = .lines then "\n" else "\\n"
  | '\x0c' => "\\f"
  | '\r' => "\\r"
  | '"' => "\\\""
  | '\\' => "\\\\"
  | c =>
    if isControl c then
      "\\u".toList ++ Text.padLeft 4 '0' ((Nat.toDigits 16 c.toNat).map Char.toUpper)
    else [c]

/-- A text as a TOML string. -/
def quoted (t : Text) : Text :=
  let plain := if t.contains '\n' then Quoting.lines else .line
  if fitsLiteral t then
    let quoting := if plain = .line && t.contains '\'' then Quoting.wide else plain
    quoting.opening '\'' ++ t ++ quoting.closing '\''
  else plain.opening '"' ++ t.flatMap (escapeChar plain) ++ plain.closing '"'

end TemplateEngine.Toml
