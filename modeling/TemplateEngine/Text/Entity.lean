import TemplateEngine.Text.Basic

/-!
# Markup entities

Five characters have a meaning of their own in markup, and escaping writes each
as an entity. Reading entities back knows exactly these five; every other
ampersand stands for itself.
-/
namespace TemplateEngine.Entity

/-- The characters that markup reserves, with the entity for each. -/
def table : List (Char × Text) :=
  [('&', "&amp;".toList), ('<', "&lt;".toList), ('>', "&gt;".toList),
   ('\'', "&#39;".toList), ('"', "&quot;".toList)]

/-- A character as it is written in markup. -/
def encodeChar (c : Char) : Text :=
  match table.lookup c with
  | some entity => entity
  | none => [c]

/-- Text with every reserved character written as its entity. -/
def escape (t : Text) : Text := t.flatMap encodeChar

@[simp] theorem escape_nil : escape [] = [] := rfl

@[simp] theorem escape_append (s t : Text) : escape (s ++ t) = escape s ++ escape t := by
  simp [escape]

/-- The entity at the start of a text: its character and its length. -/
def leading? (t : Text) : Option (Char × Nat) :=
  (table.find? fun entry => entry.2.isPrefixOf t).map fun entry => (entry.1, entry.2.length)

/-- The work of `unescape`: `skip` characters of an entity are still to be passed over. -/
def unescapeLoop : Nat → Text → Text
  | _, [] => []
  | skip + 1, _ :: rest => unescapeLoop skip rest
  | 0, c :: rest =>
    match leading? (c :: rest) with
    | some (char, length) => char :: unescapeLoop (length - 1) rest
    | none => c :: unescapeLoop 0 rest

/-- Text with the five entities read back; other ampersands are left alone. -/
def unescape (t : Text) : Text := unescapeLoop 0 t

end TemplateEngine.Entity
