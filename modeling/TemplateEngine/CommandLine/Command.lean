import TemplateEngine.CommandLine.Options

/-!
# Commands

What a run is asked to do. The command is the first operand; some options belong to it
and must follow it, and others may come before it as well, where the last one counts.
-/
namespace TemplateEngine.CommandLine

/-- How a template is to be rendered. -/
structure RenderRequest where
  file : Text
  /-- Variables, each as a name, an equals sign and a text. -/
  pairs : List Text
  /-- More variables, as a JSON object. -/
  json : Option Text
  cacheDir : Option Text
  encoding : Option Text
  plain : Bool
  deriving DecidableEq, Repr

/-- What a run does. -/
inductive Command where
  | render (request : RenderRequest)
  /-- Prints the program of a template. -/
  | compile (file : Text) (encoding : Option Text)
  /-- Only says whether a template compiles. -/
  | check (file : Text) (encoding : Option Text)
  | version
  deriving DecidableEq, Repr

/-- What a run is asked to do, and the file of settings that it names. -/
structure Invocation where
  settingsFile : Option Text
  command : Command
  deriving DecidableEq, Repr

/-- The options that every command takes. Nothing is logged, so there is nothing that a
verbose run adds. -/
def sharedRules : List OptionRule :=
  [⟨"config", none, .path⟩, ⟨"verbose", some 'v', .switch⟩, ⟨"help", some 'h', .notice .help⟩]

/-- The options before a command. -/
def leadingRules : List OptionRule := ⟨"version", some 'V', .notice .version⟩ :: sharedRules

/-- The option that says how a template is encoded. -/
def encodingRule : OptionRule := ⟨"encoding", none, .text⟩

/-- The options of the command that renders. -/
def renderRules : List OptionRule :=
  [⟨"var", none, .texts⟩, ⟨"vars", none, .text⟩, ⟨"cache-dir", none, .path⟩, encodingRule,
    ⟨"no-escape", none, .switch⟩] ++ sharedRules

/-- The one file among the operands. -/
def onlyFile (g : Given) : Except Notice Text :=
  match g.operands with
  | [file] => if file.isEmpty then .error .misuse else .ok file
  | _ => .error .misuse

/-- The command of a name, with what is given to it. -/
def Command.ofName (name : Text) (arguments : List Text) : Except Notice (Command × Given) :=
  if name = "render".toList then do
    let g ← givenOnce renderRules true arguments
    let request : RenderRequest := {
      file := ← onlyFile g
      pairs := g.values "var"
      json := g.value? "vars"
      cacheDir := g.value? "cache-dir"
      encoding := g.value? "encoding"
      plain := g.has "no-escape" }
    return (.render request, g)
  else if name = "compile".toList then do
    let g ← givenOnce (encodingRule :: sharedRules) true arguments
    return (.compile (← onlyFile g) (g.value? "encoding"), g)
  else if name = "check".toList then do
    let g ← givenOnce (encodingRule :: sharedRules) true arguments
    return (.check (← onlyFile g) (g.value? "encoding"), g)
  else if name = "version".toList then do
    let g ← givenOnce sharedRules true arguments
    if g.operands.isEmpty then return (.version, g) else throw .misuse
  else if name = "help".toList then .error .help
  else .error .misuse

/-- What arguments ask for. -/
def Invocation.ofArguments (arguments : List Text) : Except Notice Invocation := do
  let leading ← givenOnce leadingRules false arguments
  match leading.operands with
  | [] => throw .misuse
  | name :: arguments =>
    let (command, own) ← Command.ofName name arguments
    return ⟨(own.value? "config").or (leading.value? "config"), command⟩

end TemplateEngine.CommandLine
