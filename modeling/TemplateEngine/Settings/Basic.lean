import TemplateEngine.Toml.Reader
import TemplateEngine.Toml.Writer

/-!
# Settings

What a run can be told beforehand: where programs are kept, how templates are encoded,
whether printed values are escaped, and how much is logged. Settings are read from a
TOML document. What the document leaves out has its default, and what it holds beyond
the settings is ignored.
-/

/-!
## Log levels

How much a run says about itself. Users may write a level in capitals and may call a
warning by its full name.
-/
namespace TemplateEngine

/-- How much is logged, from everything to errors only. -/
inductive LogLevel where
  | trace
  | debug
  | info
  | warn
  | error
  deriving DecidableEq, Repr

namespace LogLevel

/-- The levels. -/
def all : List LogLevel := [trace, debug, info, warn, error]

/-- The name of a level. -/
def name : LogLevel → Text
  | trace => "trace"
  | debug => "debug"
  | info => "info"
  | warn => "warn"
  | error => "error"

/-- The level of a name. -/
def ofName? (t : Text) : Option LogLevel := all.find? fun level => level.name = t

theorem ofName?_name (level : LogLevel) : ofName? level.name = some level := by
  cases level <;> decide

/-- The level that a user means, or the name that is none. -/
def ofText (t : Text) : Except Text LogLevel :=
  let name := t.map Char.toLower
  if name = "warning".toList then .ok warn
  else
    match ofName? name with
    | some level => .ok level
    | none => .error name

/-- The wording for a name that is no level. -/
def unknownMessage (name : Text) : Text := "unknown log level: ".toList ++ name

end LogLevel

/-! ## All settings -/

/-- Whether printed values are escaped for HTML. -/
inductive Escaping where
  | html
  | none
  deriving DecidableEq, Repr

namespace Escaping

/-- The name of a way of escaping. -/
def name : Escaping → Text
  | html => "html"
  | none => "none"

/-- The way of escaping of a name. -/
def ofName? (t : Text) : Option Escaping := [html, none].find? fun e => e.name = t

theorem ofName?_name (e : Escaping) : ofName? e.name = some e := by cases e <;> decide

end Escaping

/-- Settings for rendering. -/
structure RenderSettings where
  cacheDir : Option Text
  encoding : Text
  escaping : Escaping
  deriving DecidableEq, Repr

/-- Settings for logging. -/
structure LogSettings where
  level : LogLevel
  deriving DecidableEq, Repr

/-- What a run can be told beforehand. -/
structure Settings where
  render : RenderSettings
  log : LogSettings
  deriving DecidableEq, Repr

/-- Rendering where nothing is set. -/
def RenderSettings.default : RenderSettings := ⟨none, "utf-8", .html⟩

/-- Logging where nothing is set. -/
def LogSettings.default : LogSettings := ⟨.info⟩

/-- What holds where nothing is set. -/
def Settings.default : Settings := ⟨.default, .default⟩

namespace Toml

/-- The text of a value that is one. -/
def text? : Toml → Option Text
  | text t => some t
  | _ => none

/-- Whether a value holds nothing. -/
def isEmpty : Toml → Bool
  | array items => items.isEmpty
  | table _ members => members.isEmpty
  | _ => false

/-- The name that chooses one of several: a text, or a table with an empty value under
that name alone. -/
def choice? : Toml → Option Text
  | text t => some t
  | table _ [(name, value)] => if isEmpty value then some name else none
  | _ => none

/-- Whether a value can be a section of settings. A date can, and sets nothing. -/
def isSection : Toml → Bool
  | text _ | plain => false
  | _ => true

/-- The value of a section for one of its fields: by name in a table, by position in a
list. -/
def field? (position : Nat) (name : Text) : Toml → Option Toml
  | table _ members => Entries.get? name members
  | array items => items[position]?
  | tables earlier last => (earlier ++ [.table .header last])[position]?
  | _ => none

/-- What a field is set to, or its default. -/
def setting {α : Type} (read : Toml → Option α) (default : α) : Option Toml → Option α
  | some value => read value
  | none => some default

end Toml

namespace RenderSettings

/-- Settings for rendering from their section. -/
def ofToml? (t : Toml) : Option RenderSettings := do
  guard t.isSection
  return {
    cacheDir := ← Toml.setting (fun t => t.text?.map some) none (t.field? 0 "cache_dir")
    encoding := ← Toml.setting Toml.text? RenderSettings.default.encoding (t.field? 1 "encoding")
    escaping :=
      ← Toml.setting (fun t => t.choice?.bind Escaping.ofName?) .html (t.field? 2 "escape") }

/-- The section of settings for rendering. -/
def toToml (s : RenderSettings) : Text :=
  let cacheDir := match s.cacheDir with
    | some dir => "cache_dir = ".toList ++ Toml.quoted dir ++ "\n"
    | none => []
  "[render]\n".toList ++ cacheDir ++ "encoding = " ++ Toml.quoted s.encoding ++ "\nescape = " ++
    Toml.quoted s.escaping.name ++ "\n"

end RenderSettings

namespace LogSettings

/-- Settings for logging from their section. -/
def ofToml? (t : Toml) : Option LogSettings := do
  guard t.isSection
  return ⟨← Toml.setting (fun t => t.choice?.bind LogLevel.ofName?) .info (t.field? 0 "level")⟩

/-- The section of settings for logging. -/
def toToml (s : LogSettings) : Text :=
  "[log]\nlevel = ".toList ++ Toml.quoted s.level.name ++ "\n"

end LogSettings

namespace Settings

/-- The settings that a TOML document makes. -/
def ofText? (t : Text) : Option Settings := do
  let members ← Toml.ofText? t
  return {
    render := ← Toml.setting RenderSettings.ofToml? .default (Entries.get? "render" members)
    log := ← Toml.setting LogSettings.ofToml? .default (Entries.get? "log" members) }

/-- The TOML document of settings. -/
def toText (s : Settings) : Text := s.render.toToml ++ "\n" ++ s.log.toToml

end Settings

end TemplateEngine
