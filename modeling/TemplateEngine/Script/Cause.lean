import TemplateEngine.Number.Decimal
import TemplateEngine.Script.Exception
import TemplateEngine.Text.Quoted

/-!
# Causes of exceptions

Everything that can go wrong while a script runs, apart from what a script raises
itself. A cause fixes the class of the exception and its message.
-/
namespace TemplateEngine

/-- A division, named as its message names it. -/
inductive Division where
  | true
  | floor
  | remainder
  deriving DecidableEq, Repr

/-- A kind of sequence, named as messages name it. -/
inductive SequenceKind where
  | string
  | list
  | tuple
  | range
  deriving DecidableEq, Repr

/-- The name of a kind of sequence. -/
def SequenceKind.name : SequenceKind → String
  | string => "string"
  | list => "list"
  | tuple => "tuple"
  | range => "range object"

/-- A number in the description of a conversion. -/
inductive FormatField where
  | width
  | precision
  deriving DecidableEq, Repr

/-- Why an exception is raised. Types are given by their names. -/
inductive Cause where
  -- calls
  | argumentCount (function : Text) (least : Nat) (most : Option Nat) (given : Nat)
  | unexpectedKeyword (function keyword : Text)
  | notCallable (type : Text)
  | notText (function type : Text)
  | notIntegerArgument (function type : Text)
  | variablesNotDict (function type : Text)
  -- names and attributes
  | undefinedName (name : Text)
  | noAttribute (type name : Text)
  | uncapturedName (name : Text)
  -- operators
  | unsupportedOperands (operator left right : Text)
  | unsupportedOperand (operator type : Text)
  | unorderable (operator left right : Text)
  | unorderableNumber
  | overflow
  | divisionByZero (division : Division) (ofFloats : Bool)
  | repeatTooLong (sequence : SequenceKind)
  -- sequences and dicts
  | notIterable (type : Text)
  | notContainer (type : Text)
  | notTextInText (type : Text)
  | notSubscriptable (type : Text)
  | noItemAssignment (type : Text)
  | notIntegerIndex (container type : Text)
  | notIntegerBound
  | notTextKey (type : Text)
  | missingKey (key : Text)
  | indexOutOfRange (sequence : SequenceKind)
  | assignmentOutOfRange
  | popFromEmpty
  | popOutOfRange
  | notInList (item : Text)
  | noLength (type : Text)
  | rangeTooLong (range : Text)
  | rangeLengthTooLong
  | zeroStep
  | tooManyValues (wanted : Nat)
  | notEnoughValues (wanted given : Nat)
  | emptySequence (function : Text)
  | sumOfText
  | emptySeparator
  -- conversions
  | notNumberText (t : Text)
  | notFloatText (written : Text)
  | notNumberArgument (function type : Text)
  | noAbsoluteValue (type : Text)
  | notIntegral (x : Float)
  -- formatting
  | incompleteFormat
  | fieldTooBig (field : FormatField)
  | notEnoughFormatted
  | notAllFormatted
  | unknownConversion (c : Char)
  | notRealNumber (conversion : Char) (type : Text)
  | notRealFixed (type : Text)
  -- statements
  | illegalAugmentedTarget
  | notException (type : Text)
  | notMatcher (type : Text)
  | nothingToReraise
  | notContext (type : Text)
  | notCaptureName (type : Text)
  -- other templates
  | noRenderer
  | nestedTooDeeply
  | inTemplate (name : Text) (kind : ExceptionKind) (message : Text)
  | brokenTemplate (message : Text)
  -- raised by the script itself
  | raised (kind : ExceptionKind) (message : Text)
  deriving DecidableEq, Repr

namespace Cause

/-- The class of the exception. -/
def kind : Cause → ExceptionKind
  | undefinedName _ => .nameError
  | noAttribute _ _ => .attributeError
  | uncapturedName _ | missingKey _ => .keyError
  | indexOutOfRange _ | assignmentOutOfRange | popFromEmpty | popOutOfRange => .indexError
  | divisionByZero _ _ => .zeroDivisionError
  | overflow | repeatTooLong _ | rangeTooLong _ | rangeLengthTooLong | notIntegral _ =>
    .overflowError
  | unorderableNumber | notInList _ | zeroStep | tooManyValues _ | notEnoughValues _ _
  | emptySequence _ | emptySeparator | notNumberText _ | notFloatText _ | incompleteFormat
  | fieldTooBig _ | unknownConversion _ => .valueError
  | nothingToReraise | noRenderer | nestedTooDeeply | brokenTemplate _ => .runtimeError
  | inTemplate _ kind _ => kind
  | raised kind _ => kind
  | _ => .typeError

/-- A text in single quotes, written as it is. -/
def quote (t : Text) : Text := '\'' :: t ++ ['\'']

/-- How many arguments a function takes, as messages say it. -/
def expectedCount (least : Nat) (most : Option Nat) (given : Nat) : Text :=
  if some least = most then "exactly ".toList ++ Text.ofNat least
  else if given < least then "at least ".toList ++ Text.ofNat least
  else "at most ".toList ++ Text.ofNat (most.getD 0)

/-- The message of a division by zero. -/
def divisionMessage : Division → Bool → Text
  | .true, false => "division by zero"
  | .floor, false => "integer division or modulo by zero"
  | .remainder, false => "integer modulo by zero"
  | .true, true => "float division by zero"
  | .floor, true => "float floor division by zero"
  | .remainder, true => "float modulo by zero"

/-- The message of the exception. -/
def message : Cause → Text
  | argumentCount function least most given =>
    let expected := expectedCount least most given
    let noun := if " 1".toList.isSuffixOf expected then "argument" else "arguments"
    function ++ "() takes " ++ expected ++ " " ++ noun ++ " (" ++ Text.ofNat given ++ " given)"
  | unexpectedKeyword function keyword =>
    function ++ "() got an unexpected keyword argument " ++ quote keyword
  | notCallable type => quote type ++ " object is not callable"
  | notText function type => function ++ "() argument must be str, not " ++ type
  | notIntegerArgument function type =>
    quote type ++ " object cannot be interpreted as an integer in " ++ function ++ "()"
  | variablesNotDict function type => function ++ "() variables must be a dict, not " ++ type
  | undefinedName name => "name ".toList ++ quote name ++ " is not defined"
  | noAttribute type name => quote type ++ " object has no attribute " ++ quote name
  | uncapturedName name => Quoted.encode name
  | unsupportedOperands operator left right =>
    "unsupported operand type(s) for ".toList ++ operator ++ ": " ++ quote left ++ " and " ++
      quote right
  | unsupportedOperand operator type =>
    "bad operand type for unary ".toList ++ operator ++ ": " ++ quote type
  | unorderable operator left right =>
    quote operator ++ " not supported between instances of " ++ quote left ++ " and " ++ quote right
  | unorderableNumber => "cannot order NaN"
  | overflow => "integer overflow"
  | divisionByZero division ofFloats => divisionMessage division ofFloats
  | repeatTooLong sequence => "repeated ".toList ++ sequence.name ++ " is too long"
  | notIterable type => quote type ++ " object is not iterable"
  | notContainer type => "argument of type ".toList ++ quote type ++ " is not iterable"
  | notTextInText type =>
    "'in <string>' requires string as left operand, not ".toList ++ type
  | notSubscriptable type => quote type ++ " object is not subscriptable"
  | noItemAssignment type => quote type ++ " object does not support item assignment"
  | notIntegerIndex container type => container ++ " indices must be integers, not " ++ type
  | notIntegerBound => "slice indices must be integers or None"
  | notTextKey type => "dict keys must be str, not ".toList ++ type
  | missingKey key => Quoted.encode key
  | indexOutOfRange sequence => sequence.name.toList ++ " index out of range"
  | assignmentOutOfRange => "list assignment index out of range"
  | popFromEmpty => "pop from empty list"
  | popOutOfRange => "pop index out of range"
  | notInList item => item ++ " is not in list"
  | noLength type => "object of type ".toList ++ quote type ++ " has no len()"
  | rangeTooLong range => range ++ " is too long to materialize"
  | rangeLengthTooLong => "range length does not fit an int"
  | zeroStep => "range() arg 3 must not be zero"
  | tooManyValues wanted =>
    "too many values to unpack (expected ".toList ++ Text.ofNat wanted ++ ")"
  | notEnoughValues wanted given =>
    "not enough values to unpack (expected ".toList ++ Text.ofNat wanted ++ ", got " ++
      Text.ofNat given ++ ")"
  | emptySequence function => function ++ "() arg is an empty sequence"
  | sumOfText => "sum() can't sum strings"
  | emptySeparator => "empty separator"
  | notNumberText t => "invalid literal for int() with base 10: ".toList ++ Quoted.encode t
  | notFloatText written => "could not convert string to float: ".toList ++ written
  | notNumberArgument function type =>
    function ++ "() argument must be a string or a number, not " ++ quote type
  | noAbsoluteValue type => "bad operand type for abs(): ".toList ++ quote type
  | notIntegral x => "cannot convert float ".toList ++ Double.text x ++ " to integer"
  | incompleteFormat => "incomplete format"
  | fieldTooBig .width => "width too big"
  | fieldTooBig .precision => "precision too big"
  | notEnoughFormatted => "not enough arguments for format string"
  | notAllFormatted => "not all arguments converted during string formatting"
  | unknownConversion c => "unsupported format character ".toList ++ quote [c]
  | notRealNumber conversion type =>
    '%' :: conversion :: " format: a real number is required, not ".toList ++ type
  | notRealFixed type => "must be real number, not ".toList ++ type
  | illegalAugmentedTarget => "illegal expression for augmented assignment"
  | notException type => "exceptions must derive from Exception, not ".toList ++ quote type
  | notMatcher type =>
    "catching ".toList ++ quote type ++ " objects is not allowed; expected an exception class"
  | nothingToReraise => "No active exception to reraise"
  | notContext type => quote type ++ " object does not support the context manager protocol"
  | notCaptureName type => "capture() name must be str, not ".toList ++ type
  | noRenderer => "renderer is gone"
  | nestedTooDeeply => "templates are nested too deeply"
  | inTemplate name _ message => name ++ ": " ++ message
  | brokenTemplate message => message
  | raised _ message => message

end Cause

/-- An exception on its way, with the line of the statement it came from; the line is zero
until a statement is known. -/
structure Raised where
  cause : Cause
  line : Nat
  deriving DecidableEq, Repr

namespace Raised

/-- The class of an exception. -/
def kind (r : Raised) : ExceptionKind := r.cause.kind

/-- The message of an exception. -/
def message (r : Raised) : Text := r.cause.message

/-- The exception with a line, unless it has one. -/
def atLine (line : Nat) (r : Raised) : Raised := if r.line = 0 then { r with line := line } else r

end Raised

end TemplateEngine
