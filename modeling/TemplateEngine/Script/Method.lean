import TemplateEngine.Script.Arguments
import TemplateEngine.Script.Relation
import TemplateEngine.Script.Subscript
import TemplateEngine.Text.Blank
import TemplateEngine.Text.Letter.Case

/-!
# Attributes and methods

Text, lists and dicts have methods. Reading one binds it to its receiver; reading
any other name of a dict reads the entry of that name. Changing the case of safe
text, or trimming it, keeps it safe; every other method of text gives plain text.
A method checks everything before it changes anything.
-/
namespace TemplateEngine

namespace TextMethod

/-- Whether a method keeps safe text safe. -/
def keepsSafe : TextMethod → Bool
  | upper | lower | title | strip | lstrip | rstrip => true
  | _ => false

/-- The text that a method without arguments other than characters to strip gives. -/
def trimmed (method : TextMethod) (p : Char → Bool) (t : Text) : Text :=
  match method with
  | lstrip => Text.trimStartWhile p t
  | rstrip => Text.trimEndWhile p t
  | _ => Text.trimEndWhile p (Text.trimStartWhile p t)

/-- The characters that a strip takes away. -/
def stripped (method : TextMethod) (args : Arguments) : Except Cause (Char → Bool) := do
  args.check method.name.toList 0 (some 1) []
  match args.at? 0 with
  | none | some .none => return Text.isBlank
  | some v => return (← textArgument method.name.toList v).contains

/-- The pieces of a text between separators, or between blanks if none is given. -/
def pieces (args : Arguments) (t : Text) : Except Cause (List Text) := do
  args.check "split" 0 (some 1) []
  match args.at? 0 with
  | none | some .none => return t.words
  | some v =>
    let separator ← textArgument "split" v
    if separator.isEmpty then throw .emptySeparator
    return Text.splitOn separator t

/-- Texts joined by a text. -/
def joined (h : Heap) (args : Arguments) (t : Text) : Except Cause Text := do
  let items ← h.iterate (← args.single "join")
  return Text.join t (← items.mapM (textArgument "join"))

/-- A text with one piece replaced by another. -/
def replaced (args : Arguments) (t : Text) : Except Cause Text := do
  args.check "replace" 2 (some 2) []
  let old ← textArgument "replace" ((args.at? 0).getD .none)
  let new ← textArgument "replace" ((args.at? 1).getD .none)
  return Text.replace old new t

/-- Whether a text starts or ends with one of the texts given. -/
def meets (h : Heap) (method : TextMethod) (test : Text → Bool) (args : Arguments) :
    Except Cause Bool := do
  let candidates := match ← args.single method.name.toList with
    | .tuple p => h.tuple p
    | v => [v]
  return (← candidates.mapM (textArgument method.name.toList)).any test

/-- The text that a method gives, for those that give one. -/
def text? (h : Heap) (method : TextMethod) (args : Arguments) (t : Text) :
    Option (Except Cause Text) :=
  let plain (f : Text → Text) : Except Cause Text := do
    args.check method.name.toList 0 (some 0) []
    return f t
  match method with
  | upper => some (plain Letter.upper)
  | lower => some (plain Letter.lower)
  | title => some (plain Letter.title)
  | strip | lstrip | rstrip => some do return trimmed method (← stripped method args) t
  | join => some (joined h args t)
  | replace => some (replaced args t)
  | _ => none

/-- The result of a method of text. -/
def call (method : TextMethod) (safe : Bool) (t : Text) (args : Arguments) : Effect Value :=
  fun h =>
    match text? h method args t with
    | some result =>
      result.map fun t => (if safe && method.keepsSafe then .markup t else .str t, h)
    | none =>
      match method with
      | split => (pieces args t).bind fun pieces => Effect.newList (pieces.map .str) h
      | startswith => (meets h method (·.isPrefixOf t) args).map fun b => (.bool b, h)
      | _ => (meets h method (·.isSuffixOf t) args).map fun b => (.bool b, h)

end TextMethod

namespace ListMethod

/-- The place that a list is popped at. -/
def popPlace (items : List Value) (args : Arguments) : Except Cause Nat := do
  if items.isEmpty then throw .popFromEmpty
  let index ← match args.at? 0 with
    | some v => integerArgument "pop" v
    | none => pure (-1)
  match Subscript.place? index items.length with
  | some place => return place
  | none => throw .popOutOfRange

/-- The place of the first item that equals the argument. -/
def placeOf (h : Heap) (items : List Value) (v : Value) : Except Cause Value :=
  match items.findIdx? fun item => h.equal item v with
  | some place => .ok (.int place)
  | none => .error (.notInList (h.repr v))

/-- The result of a method of a list. -/
def call (method : ListMethod) (place : Nat) (args : Arguments) : Effect Value := do
  let items ← Effect.reading (·.list place)
  match method with
  | append =>
    let item ← Effect.ofExcept (args.single "append")
    Effect.setList place (items ++ [item])
    return .none
  | extend =>
    let source ← Effect.ofExcept (args.single "extend")
    let more ← Effect.checking fun h => h.iterate source
    Effect.setList place (items ++ more)
    return .none
  | pop =>
    Effect.ofExcept (args.check "pop" 0 (some 1) [])
    let popped ← Effect.ofExcept (popPlace items args)
    Effect.setList place (items.eraseIdx popped)
    return items[popped]?.getD .none
  | index =>
    let v ← Effect.ofExcept (args.single "index")
    Effect.checking fun h => placeOf h items v

end ListMethod

namespace DictMethod

/-- The result of a method of a dict. -/
def call (method : DictMethod) (place : Nat) (args : Arguments) : Effect Value := do
  let entries ← Effect.reading (·.dict place)
  match method with
  | get =>
    Effect.ofExcept (args.check "get" 1 (some 2) [])
    let name ← Effect.ofExcept (Subscript.key ((args.at? 0).getD .none))
    return (Entries.get? name entries).getD ((args.at? 1).getD .none)
  | keys =>
    Effect.ofExcept (args.check "keys" 0 (some 0) [])
    Effect.newList (entries.map fun entry => .str entry.1)
  | values =>
    Effect.ofExcept (args.check "values" 0 (some 0) [])
    Effect.newList (entries.map (·.2))
  | items =>
    Effect.ofExcept (args.check "items" 0 (some 0) [])
    let pairs ← entries.mapM fun entry => Effect.newTuple [.str entry.1, entry.2]
    Effect.newList pairs

end DictMethod

namespace BoundMethod

/-- The result of a bound method. -/
def call (method : BoundMethod) (args : Arguments) : Effect Value :=
  match method with
  | text m safe t => m.call safe t args
  | list m place => m.call place args
  | dict m place => m.call place args

/-- The method that a value has under a name. -/
def ofName? (object : Value) (name : Text) : Option BoundMethod :=
  match object with
  | .str t => (TextMethod.all.find? fun m => m.name.toList = name).map fun m => .text m false t
  | .markup t => (TextMethod.all.find? fun m => m.name.toList = name).map fun m => .text m true t
  | .list p => (ListMethod.all.find? fun m => m.name.toList = name).map fun m => .list m p
  | .dict p => (DictMethod.all.find? fun m => m.name.toList = name).map fun m => .dict m p
  | _ => none

end BoundMethod

/-- What reading an attribute gives. -/
def readAttribute (object : Value) (name : Text) : Effect Value := do
  match BoundMethod.ofName? object name with
  | some method => return .function (.method (← Effect.newIdentity) method)
  | none =>
    let found ← Effect.reading fun h =>
      match object with
      | .dict p => Entries.get? name (h.dict p)
      | _ => none
    Effect.orFail (.noAttribute object.typeName name) found

end TemplateEngine
