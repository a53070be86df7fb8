import TemplateEngine.Files.Tree
import TemplateEngine.Settings.Basic

/-!
# Where settings are

Settings are read from one file: the one that the user names, else the one of the
project, else the one of the user. Without any of them the defaults hold.
-/
namespace TemplateEngine

/-- Names with values that a run is started with. -/
abbrev Environment := Entries Text

/-- Why settings cannot be read. -/
inductive SettingsError where
  | unreadable (path cause : Text)
  | malformed
  deriving DecidableEq, Repr

/-- The wordings of an error, from the outermost to its causes. -/
def SettingsError.messages : SettingsError → List Text
  | unreadable path cause => ["cannot read config ".toList ++ path ++ ": " ++ cause, cause]
  | malformed => ["config parse error"]

namespace Settings

/-- The settings file of a project. -/
def projectFile : Text := "weft.toml"

/-- The path below a directory that parts lead along. -/
def below (dir : Text) (parts : List Text) : Text := parts.foldl Path.join dir

/-- The settings file of the user. -/
def userFile? (environment : Environment) : Option Text :=
  match Entries.get? "XDG_CONFIG_HOME" environment with
  | some dir => some (below dir ["weft", "config.toml"])
  | none =>
    match Entries.get? "HOME" environment with
    | some dir => some (below dir [".config", "weft", "config.toml"])
    | none =>
      (Entries.get? "APPDATA" environment).map fun dir => below dir ["weft", "config.toml"]

/-- The settings in a file. -/
def ofFile (files : FileTree) (path : Text) : Except SettingsError Settings :=
  match files.read path with
  | .error cause => .error (.unreadable path cause.message)
  | .ok bytes =>
    match Utf8.decode? bytes with
    | none => .error (.unreadable path "stream did not contain valid UTF-8")
    | some t =>
      match ofText? t with
      | some settings => .ok settings
      | none => .error .malformed

/-- The settings of a run. -/
def load (files : FileTree) (environment : Environment) (named : Option Text) :
    Except SettingsError Settings :=
  let found := (projectFile :: (userFile? environment).toList).find? files.exists?
  match named.orElse fun _ => found with
  | some path => ofFile files path
  | none => .ok .default

end Settings

end TemplateEngine
