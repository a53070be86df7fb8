import TemplateEngine.CommandLine.Command
import TemplateEngine.Render.Renderer
import TemplateEngine.Script.OfJson
import TemplateEngine.Settings.Location
import TemplateEngine.Text.Blank
import TemplateEngine.Text.Entity

/-!
# Runs

What a command prints, how it ends, and what it leaves in the files. A failure is told
on one line, from what was tried to the innermost cause, and below it stand the lines
of the template's program that it concerns.
-/
namespace TemplateEngine.CommandLine

/-- What a run is started with. -/
structure Surroundings where
  files : FileTree
  environment : Environment
  now : Nat

/-- How a run ended. -/
structure Outcome where
  exitCode : Nat
  output : Text
  errors : Text
  files : FileTree

/-- Why a run failed: wordings from what was tried to the innermost cause, and the program
lines that belong to them. -/
structure Failure where
  wordings : List Text
  context : Option Text
  deriving DecidableEq, Repr

namespace Failure

/-- A failure with one wording. -/
def saying (wording : Text) : Failure := ⟨[wording], none⟩

/-- The failure of a template. What keeps a file from being read is a cause of its own. -/
def ofTemplate (e : TemplateError) : Failure :=
  let causes := match e with
    | .unreadable _ cause => [cause.message]
    | _ => []
  ⟨e.message :: causes, e.context?⟩

/-- The failure of a render. -/
def ofRender : RenderFailure → Failure
  | .template e => ofTemplate e
  | .outOfFuel => saying "the render does not end"

/-- The failure as one of what was tried. -/
def trying (what : Text) (f : Failure) : Failure := { f with wordings := what :: f.wordings }

end Failure

/-- A step of a run, which may change the files. -/
abbrev Step := EStateM Failure FileTree

/-- The result of something that can fail, with its failure in other words. -/
def orFail {ε α : Type} (failure : ε → Failure) : Except ε α → Step α
  | .ok a => return a
  | .error e => throw (failure e)

/-- The encoding that is asked for, or else the one of the settings. -/
def encoding (settings : Settings) (asked : Option Text) : Except TemplateError Encoding :=
  let label := asked.getD settings.render.encoding
  match Encoding.ofLabel? label with
  | some e => .ok e
  | none => .error (.unknownEncoding label)

/-- The members of the JSON object that holds variables. -/
def members : Option Text → Except Failure (List (Text × Json))
  | none => .ok []
  | some t =>
    match Json.ofText? t with
    | some (.object members) => .ok members
    | some _ => .error (.saying "--vars must be a JSON object")
    | none => .error (.saying "--vars is not valid JSON")

/-- The name and the value around the first equals sign. -/
def pair (t : Text) : Except Failure (Text × Value) :=
  let name := t.takeWhile (· ≠ '=')
  if name.length < t.length then .ok (Text.trim name, .str (t.drop (name.length + 1)))
  else .error (.saying ("--var expects KEY=VALUE, got '".toList ++ t ++ "'"))

/-- The variables of a render: those of the JSON object, and then each pair. -/
def vars (request : RenderRequest) : Except Failure (Effect (Entries Value)) := do
  let members ← members request.json
  let pairs ← request.pairs.mapM pair
  return do
    let entries ← entriesOfJson [] members
    return Entries.putAll pairs entries

/-- The output of a template. -/
def render (settings : Settings) (now : Nat) (request : RenderRequest) : Step Text := do
  let vars ← orFail id (vars request)
  let encoding ← orFail .ofTemplate (encoding settings request.encoding)
  let escaped := !request.plain && settings.render.escaping = .html
  let options : RendererOptions := {
    templateDir := none
    cacheDir := request.cacheDir.or settings.render.cacheDir
    globals := []
    filter := if escaped then some Entity.escape else none
    encoding := encoding }
  let prepared : Effect (Entries Value × Renderer) :=
    return (← vars, ← Renderer.create options)
  let ((vars, renderer), heap) ←
    orFail (fun cause => .saying cause.message) (prepared Heap.empty)
  let files ← get
  match renderer.renderFile request.file vars ⟨heap, .ofFiles files now⟩ with
  | .ok output shared =>
    set shared.world.files
    return output
  | .error failure shared =>
    set shared.world.files
    throw ((Failure.ofRender failure).trying ("Failed to render: ".toList ++ request.file))

/-- The program of a template, for a command that compiles it. -/
def program (settings : Settings) (what file : Text) (asked : Option Text) : Step Program := do
  let encoding ← orFail .ofTemplate (encoding settings asked)
  let source ← orFail .ofTemplate (Source.ofFile (← get) file encoding)
  orFail (fun e => (Failure.ofTemplate e).trying (what ++ file)) source.compile

/-- The name and the number of this program. -/
def versionLine : Text := "weft 0.3.2\n"

/-- Text in bold and in a colour. -/
def bold (colour : Nat) (t : Text) : Text :=
  "\x1b[1m\x1b[".toList ++ Text.ofNat colour ++ "m" ++ t ++ "\x1b[39m\x1b[0m"

/-- A line under a heading in a colour. -/
def headed (colour : Nat) (heading line : Text) : Text :=
  bold colour heading ++ " " ++ line ++ "\n"

/-- What a failure prints. -/
def Failure.render (f : Failure) : Text :=
  let context := match f.context with
    | some lines => lines ++ "\n".toList
    | none => []
  headed 31 "error:" (Text.join ": " f.wordings) ++ context

/-- What a command prints, as output and beside it. -/
def Command.run (settings : Settings) (now : Nat) : Command → Step (Text × Text)
  | .render request => return (← CommandLine.render settings now request, [])
  | .compile file asked =>
    return ((← program settings "Failed to compile: " file asked).source, [])
  | .check file asked => do
    let _ ← program settings "Failed to check: " file asked
    return ([], headed 32 "ok:" file)
  | .version => return (versionLine, [])

/-- What an invocation prints. Settings are read first. -/
def Invocation.run (environment : Environment) (now : Nat) (invocation : Invocation) :
    Step (Text × Text) := do
  let failure (e : SettingsError) : Failure :=
    ⟨"Failed to load configuration".toList :: e.messages, none⟩
  let settings ← orFail failure (Settings.load (← get) environment invocation.settingsFile)
  invocation.command.run settings now

/-- How the program is used. -/
def usage : Text :=
  "Usage: weft [--config PATH] [-v] COMMAND\n\nCommands:\n".toList ++
  "  render FILE [--var KEY=VALUE]... [--vars JSON] [--cache-dir DIR] [--encoding ENCODING]\n" ++
  "              [--no-escape]\n" ++
  "  compile FILE [--encoding ENCODING]\n" ++
  "  check FILE [--encoding ENCODING]\n" ++
  "  version\n"

/-- What a run that only explains itself prints. -/
def Notice.outcome (files : FileTree) : Notice → Outcome
  | help => ⟨0, usage, [], files⟩
  | version => ⟨0, versionLine, [], files⟩
  | misuse => ⟨2, [], usage, files⟩

/-- The run of the program with its arguments. -/
def run (surroundings : Surroundings) (arguments : List Text) : Outcome :=
  match Invocation.ofArguments arguments with
  | .error notice => notice.outcome surroundings.files
  | .ok invocation =>
    match invocation.run surroundings.environment surroundings.now surroundings.files with
    | .ok (output, notes) files => ⟨0, output, notes, files⟩
    | .error failure files => ⟨1, [], failure.render, files⟩

end TemplateEngine.CommandLine
