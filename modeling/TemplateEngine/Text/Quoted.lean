import TemplateEngine.Text.Basic

/-!
# Quoted text

The written form of a string. A single quote surrounds it unless the text holds
single quotes and no double quotes. Inside, the backslash, the surrounding
quote, line breaks, carriage returns and tabs are written with a backslash;
every other character stands for itself.
-/
namespace TemplateEngine.Quoted

/-- The quote that surrounds a text. -/
def mark (t : Text) : Char :=
  if t.contains '\'' && !t.contains '"' then '"' else '\''

/-- One character inside quotes of the given kind. -/
def encodeChar (quote c : Char) : Text :=
  if c = '\\' then ['\\', '\\']
  else if c = '\n' then ['\\', 'n']
  else if c = '\r' then ['\\', 'r']
  else if c = '\t' then ['\\', 't']
  else if c = quote then ['\\', c]
  else [c]

/-- The written form of a text. -/
def encode (t : Text) : Text :=
  mark t :: t.flatMap (encodeChar (mark t)) ++ [mark t]

end TemplateEngine.Quoted
