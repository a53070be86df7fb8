import TemplateEngine.Text.Entries

/-!
# Options

Arguments of a command line are options and operands. A long option starts with two
hyphens and may have its value after an equals sign or as the next argument; a single
hyphen starts options of one letter. After two hyphens alone, every argument is an
operand.
-/
namespace TemplateEngine.CommandLine

/-- What a run that only explains itself tells. -/
inductive Notice where
  | help
  | version
  /-- The arguments are none that the program takes. -/
  | misuse
  deriving DecidableEq, Repr

/-- What an option is good for. -/
inductive OptionKind where
  /-- It is given or not. -/
  | switch
  /-- It has a text. -/
  | text
  /-- It has a path, which is not empty. -/
  | path
  /-- It has a text, and may be given more than once. -/
  | texts
  /-- The run does nothing but tell this. -/
  | notice (n : Notice)
  deriving DecidableEq, Repr

/-- An option that a command takes. -/
structure OptionRule where
  name : Text
  letter : Option Char
  kind : OptionKind
  deriving DecidableEq, Repr

/-- Options with their values, and operands, in the order in which they were given. -/
structure Given where
  options : Entries Text
  operands : List Text
  deriving DecidableEq, Repr

namespace Given

/-- Nothing. -/
def nothing : Given := ⟨[], []⟩

/-- With an option before the others. -/
def withOption (name value : Text) (g : Given) : Given :=
  { g with options := (name, value) :: g.options }

/-- With an operand before the others. -/
def withOperand (operand : Text) (g : Given) : Given :=
  { g with operands := operand :: g.operands }

/-- Whether an option is given. -/
def has (g : Given) (name : Text) : Bool := g.options.any fun entry => entry.1 = name

/-- The value of an option. -/
def value? (g : Given) (name : Text) : Option Text := Entries.get? name g.options

/-- All values of an option. -/
def values (g : Given) (name : Text) : List Text :=
  (g.options.filter fun entry => entry.1 = name).map (·.2)

end Given

/-- Whether an argument is an option rather than a value or an operand. -/
def isOption (argument : Text) : Bool :=
  match argument with
  | '-' :: _ :: _ => true
  | _ => false

/-- Options of one letter each. -/
def letters (rules : List OptionRule) : Text → Except Notice (Entries Text)
  | [] => .ok []
  | c :: rest =>
    match rules.find? fun rule => rule.letter = some c with
    | some ⟨name, _, .switch⟩ => do return (name, []) :: (← letters rules rest)
    | some ⟨_, _, .notice n⟩ => .error n
    | _ => .error .misuse

/-- The value of an option, if the option takes it. -/
def accept (rule : OptionRule) (value : Text) : Except Notice Text :=
  if rule.kind = .path && value.isEmpty then .error .misuse else .ok value

/-- The options and operands of arguments. Unless operands stand among the options, the
first operand and all that follows it are taken as they are. -/
def given (rules : List OptionRule) (among : Bool) : List Text → Except Notice Given
  | [] => .ok .nothing
  | argument :: rest =>
    if argument = "--".toList then
      if among then .ok ⟨[], rest⟩ else .error .misuse
    else if "--".toList.isPrefixOf argument then
      let body := argument.drop 2
      let name := body.takeWhile (· ≠ '=')
      match rules.find? fun rule => rule.name = name with
      | none => .error .misuse
      | some rule =>
        let attached := name.length < body.length
        match rule.kind with
        | .switch =>
          if attached then .error .misuse
          else do return (← given rules among rest).withOption name []
        | .notice n => .error (if attached then .misuse else n)
        | _ =>
          if attached then do
            let value ← accept rule (body.drop (name.length + 1))
            return (← given rules among rest).withOption name value
          else
            match rest with
            | [] => .error .misuse
            | next :: rest =>
              if isOption next then .error .misuse
              else do
                let value ← accept rule next
                return (← given rules among rest).withOption name value
    else if isOption argument then do
      let switches ← letters rules (argument.drop 1)
      let g ← given rules among rest
      return { g with options := switches ++ g.options }
    else if among then do return (← given rules among rest).withOperand argument
    else .ok ⟨[], argument :: rest⟩

/-- Whether an option is given twice that may not. -/
def hasRepeats (rules : List OptionRule) (g : Given) : Bool :=
  rules.any fun rule => rule.kind ≠ .texts && 1 < (g.values rule.name).length

/-- The options and operands of arguments, if no option is given twice that may not. -/
def givenOnce (rules : List OptionRule) (among : Bool) (arguments : List Text) :
    Except Notice Given := do
  let g ← given rules among arguments
  if hasRepeats rules g then throw .misuse
  return g

end TemplateEngine.CommandLine
