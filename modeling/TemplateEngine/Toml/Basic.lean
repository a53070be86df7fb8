import TemplateEngine.Text.Entries

/-!
# TOML values

The tree of a TOML document, as far as settings need it: text, lists and tables keep
what they hold, and every other value is only known to be a date or a plain value. A
table knows how it came about, because that decides what may still be added to it.
-/
namespace TemplateEngine

/-- How a table came about. -/
inductive TableOrigin where
  /-- Only tables inside it were named so far. -/
  | implied
  /-- It has a header of its own. -/
  | header
  /-- It was made by a key of several parts. -/
  | dotted
  /-- It was written as a value. -/
  | literal
  deriving DecidableEq, Repr

/-- A TOML value. -/
inductive Toml where
  | text (t : Text)
  /-- A number or a truth value. -/
  | plain
  /-- A date, a time of the day, or both. -/
  | date
  | array (items : List Toml)
  | table (origin : TableOrigin) (members : List (Text × Toml))
  /-- A list of tables, each with a header; the last one can still grow. -/
  | tables (earlier : List Toml) (last : List (Text × Toml))
  deriving Repr, Inhabited

namespace Toml

/-- The members of a table. -/
abbrev Members := Entries Toml

/-- Puts a value under a new name. -/
def insertNew? (name : Text) (value : Toml) (members : Members) : Option Members :=
  match Entries.get? name members with
  | none => some (members ++ [(name, value)])
  | some _ => none

/-- Puts a value under a key of one part or more. A table that the parts before the last
one lead to must have been made by such keys. -/
def insertKey? (name : Text) (value : Toml) : List Text → Members → Option Members
  | [], members => insertNew? name value members
  | part :: parts, members =>
    match Entries.get? part members with
    | none =>
      (insertKey? name value parts []).map fun inner =>
        members ++ [(part, .table .dotted inner)]
    | some (.table .dotted inner) =>
      (insertKey? name value parts inner).map fun inner =>
        Entries.put part (.table .dotted inner) members
    | some (.table .implied inner) =>
      if parts.isEmpty then none
      else
        (insertKey? name value parts inner).map fun inner =>
          Entries.put part (.table .implied inner) members
    | some (.tables earlier last) =>
      if parts.isEmpty then none
      else
        (insertKey? name value parts last).map fun last =>
          Entries.put part (.tables earlier last) members
    | some _ => none

/-- Changes the members of the table that a header names. -/
def within? (f : Members → Option Members) : List Text → Members → Option Members
  | [], members => f members
  | part :: parts, members =>
    match Entries.get? part members with
    | none =>
      (within? f parts []).map fun inner => members ++ [(part, .table .implied inner)]
    | some (.table .literal _) => none
    | some (.table origin inner) =>
      (within? f parts inner).map fun inner => Entries.put part (.table origin inner) members
    | some (.tables earlier last) =>
      (within? f parts last).map fun last => Entries.put part (.tables earlier last) members
    | some _ => none

/-- Opens the table of a header. It must be new, or only be implied so far. -/
def openTable? (name : Text) (members : Members) : Option Members :=
  match Entries.get? name members with
  | none => some (members ++ [(name, .table .header [])])
  | some (.table .implied inner) => some (Entries.put name (.table .header inner) members)
  | some _ => none

/-- Opens one more table of a list. -/
def openItem? (name : Text) (members : Members) : Option Members :=
  match Entries.get? name members with
  | none => some (members ++ [(name, .tables [] [])])
  | some (.tables earlier last) =>
    some (Entries.put name (.tables (earlier ++ [.table .header last]) []) members)
  | some _ => none

end Toml

end TemplateEngine
