import TemplateEngine.Text.Basic

/-!
# Classes of exceptions

The classes form a tree with one root. A handler for a class catches the
exceptions of that class and of every class below it.
-/
namespace TemplateEngine

/-- A class of exceptions. -/
inductive ExceptionKind where
  | exception
  | valueError
  | typeError
  | keyError
  | indexError
  | nameError
  | zeroDivisionError
  | runtimeError
  | overflowError
  | attributeError
  | lookupError
  | arithmeticError
  deriving DecidableEq, Repr

namespace ExceptionKind

/-- Every class, in the order in which scripts get to know them. -/
def all : List ExceptionKind :=
  [exception, valueError, typeError, keyError, indexError, nameError, zeroDivisionError,
   runtimeError, overflowError, attributeError, lookupError, arithmeticError]

/-- The name of a class. -/
def name : ExceptionKind → String
  | exception => "Exception"
  | valueError => "ValueError"
  | typeError => "TypeError"
  | keyError => "KeyError"
  | indexError => "IndexError"
  | nameError => "NameError"
  | zeroDivisionError => "ZeroDivisionError"
  | runtimeError => "RuntimeError"
  | overflowError => "OverflowError"
  | attributeError => "AttributeError"
  | lookupError => "LookupError"
  | arithmeticError => "ArithmeticError"

/-- The class of a name. -/
def ofName? (t : Text) : Option ExceptionKind := all.find? fun kind => kind.name.toList = t

/-- The class right above a class. -/
def parent? : ExceptionKind → Option ExceptionKind
  | exception => none
  | keyError | indexError => some lookupError
  | zeroDivisionError | overflowError => some arithmeticError
  | _ => some exception

/-- Whether a handler for the first class catches exceptions of the second. No class is
more than two steps below the root. -/
def catches (handler raised : ExceptionKind) : Bool :=
  let parent := raised.parent?
  raised = handler || parent = some handler || parent.bind parent? = some handler

end ExceptionKind

end TemplateEngine
