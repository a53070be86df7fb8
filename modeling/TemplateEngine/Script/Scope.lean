import TemplateEngine.Script.Heap
import TemplateEngine.Text.Entity

/-!
# The scope of a page

A name means what the program assigned to it; failing that, what the caller gave
the page; failing that, what all pages share; failing that, a helper. The two
functions that generated programs call mean themselves, whatever is assigned. The
output is kept in chunks, so that everything after a mark can be taken back.
-/
namespace TemplateEngine

/-- What is done to printed text that is not known to be safe. -/
abbrev Filter := Text → Text

/-- What the pages of one renderer share: global names and a filter. -/
structure Site where
  globals : Entries Value
  filter : Option Filter

/-- The names and the output of one page. -/
structure Scope where
  locals : Entries Value
  vars : Entries Value
  globals : Entries Value
  filter : Option Filter
  filterIdentity : Nat
  chunks : Array Text

namespace Scope

/-- The scope of a page that has not begun. -/
def start (site : Site) (vars : Entries Value) (filterIdentity : Nat) : Scope :=
  ⟨[], vars, site.globals, site.filter, filterIdentity, #[]⟩

/-- The helper of a name. -/
def helper? (name : Text) : Option Value :=
  (Helper.all.find? fun f => f.name.toList = name).map fun f => .function (.helper f)

/-- What a name means, unless it means the dict of helpers. -/
def resolve? (s : Scope) (name : Text) : Option Value :=
  if name = Helper.append.name.toList then some (.function (.helper .append))
  else if name = "__filter".toList then some (.function (.filter s.filterIdentity))
  else
    (Entries.get? name s.locals).or
      ((Entries.get? name s.vars).or
        ((Entries.get? name s.globals).or (helper? name)))

/-- The entries of the dict of helpers. -/
def helperEntries : Entries Value :=
  Helper.forAuthors.map fun f => (f.name.toList, .function (.helper f))

/-- What a name means. The dict of helpers is made anew each time. -/
def lookup (s : Scope) (name : Text) : Effect (Option Value) :=
  match s.resolve? name with
  | some v => return some v
  | none =>
    if name = "h".toList then do return some (← Effect.newDict helperEntries) else return none

/-- The scope with a name assigned. -/
def assign (name : Text) (v : Value) (s : Scope) : Scope :=
  { s with locals := Entries.put name v s.locals }

/-- The scope with one more chunk of output. -/
def append (t : Text) (s : Scope) : Scope := { s with chunks := s.chunks.push t }

/-- The number of chunks so far, to come back to. -/
def mark (s : Scope) : Nat := s.chunks.size

/-- The output after a mark, and the scope without it. -/
def takeSince (mark : Nat) (s : Scope) : Text × Scope :=
  ((s.chunks.toList.drop mark).flatten, { s with chunks := s.chunks.take mark })

/-- The output. -/
def output (s : Scope) : Text := s.chunks.toList.flatten

/-- What the caller gave the page and what the page assigned since. -/
def visible (s : Scope) : Entries Value := Entries.putAll s.locals s.vars

/-- Text as the filter lets it through: safe text as it is, other text filtered and then
safe, and without a filter plain. -/
def filtered (s : Scope) (display : Text) (v : Value) : Value :=
  match v with
  | .markup t => .markup t
  | _ =>
    match s.filter with
    | some filter => .markup (filter display)
    | none => .str display

end Scope

end TemplateEngine
