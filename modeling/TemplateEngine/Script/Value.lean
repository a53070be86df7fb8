import TemplateEngine.Number.Decimal
import TemplateEngine.Number.Word
import TemplateEngine.Script.Exception

/-!
# Values of scripts

Lists, tuples and dicts live on a heap and a value holds the place of one, so
that every holder of a list sees a change to it, and two tuples with equal items
can still be told apart. Functions are named, not closed over code: a built-in
function, a helper of the page, a way to render another template, the filter of a
page, or a method bound to its receiver. What is made anew each time and compared
by identity carries a number of its own.
-/

/-!
## Ranges

A range is stepped through and never built as a list. It has a start, a bound it
does not reach, and a step other than zero. All of its items lie between start
and bound, so every item of a range of machine integers is one.
-/
namespace TemplateEngine

/-- The integers from a start, by a step, up to but excluding a bound. -/
structure Range where
  start : Int
  stop : Int
  step : Int
  deriving DecidableEq, Repr

namespace Range

/-- The number of items. -/
def length (r : Range) : Nat :=
  if 0 < r.step && r.start < r.stop then ((r.stop - r.start - 1) / r.step + 1).toNat
  else if r.step < 0 && r.stop < r.start then ((r.start - r.stop - 1) / -r.step + 1).toNat
  else 0

/-- The item at a place, counted from zero. -/
def item (r : Range) (i : Nat) : Int := r.start + i * r.step

/-- The items, in order. -/
def toList (r : Range) : List Int := (List.range r.length).map r.item

/-- Whether an integer is an item. -/
def hasItem (r : Range) (n : Int) : Bool :=
  (if 0 < r.step then r.start ≤ n && n < r.stop else r.stop < n && n ≤ r.start) &&
    (n - r.start) % r.step == 0

/-- Whether two ranges have the same items. -/
def same (r s : Range) : Bool :=
  r.length == s.length &&
    (r.length == 0 || (r.start == s.start && (r.length == 1 || r.step == s.step)))

/-- The most items that a range may have to be built as a list. -/
def maxItems : Nat := 0x1000000

/-- The text of a range; a step of one is left out. -/
def text (r : Range) : Text :=
  let ends := Text.ofInt r.start ++ ", " ++ Text.ofInt r.stop
  if r.step = 1 then "range(".toList ++ ends ++ ")"
  else "range(".toList ++ ends ++ ", " ++ Text.ofInt r.step ++ ")"

end Range

/-! ## Values -/

/-- A built-in function. -/
inductive Builtin where
  | len | str | repr | int | float | bool | range | enumerate | list | sorted | min | max | sum
  | abs | markup
  deriving DecidableEq, Repr

namespace Builtin

/-- The built-in functions, in the order in which scripts get to know them. -/
def all : List Builtin :=
  [len, str, repr, int, float, bool, range, enumerate, list, sorted, min, max, sum, abs, markup]

/-- The name of a built-in function. -/
def name : Builtin → String
  | len => "len"
  | str => "str"
  | repr => "repr"
  | int => "int"
  | float => "float"
  | bool => "bool"
  | range => "range"
  | enumerate => "enumerate"
  | list => "list"
  | sorted => "sorted"
  | min => "min"
  | max => "max"
  | sum => "sum"
  | abs => "abs"
  | markup => "markup"

end Builtin

/-- A helper that every page has. -/
inductive Helper where
  | append | capture | concat | captured | htmlquote
  deriving DecidableEq, Repr

namespace Helper

/-- The helpers. -/
def all : List Helper := [append, capture, concat, captured, htmlquote]

/-- The helpers for authors, in the order in which `h` lists them. -/
def forAuthors : List Helper := [capture, concat, captured, htmlquote]

/-- The name of a helper. -/
def name : Helper → String
  | append => "__buffer_append"
  | capture => "capture"
  | concat => "concat"
  | captured => "captured"
  | htmlquote => "htmlquote"

end Helper

/-- A way for a page to render another template. -/
inductive Inclusion where
  | render | renderString | withLayout
  deriving DecidableEq, Repr

namespace Inclusion

/-- The ways to render another template. -/
def all : List Inclusion := [render, renderString, withLayout]

/-- The name of a way to render another template. -/
def name : Inclusion → String
  | render => "render"
  | renderString => "render_string"
  | withLayout => "with_layout"

end Inclusion

/-- A method of text. -/
inductive TextMethod where
  | upper | lower | strip | lstrip | rstrip | split | join | replace | startswith | endswith
  | title
  deriving DecidableEq, Repr

namespace TextMethod

/-- The methods of text. -/
def all : List TextMethod :=
  [upper, lower, strip, lstrip, rstrip, split, join, replace, startswith, endswith, title]

/-- The name of a method of text. -/
def name : TextMethod → String
  | upper => "upper"
  | lower => "lower"
  | strip => "strip"
  | lstrip => "lstrip"
  | rstrip => "rstrip"
  | split => "split"
  | join => "join"
  | replace => "replace"
  | startswith => "startswith"
  | endswith => "endswith"
  | title => "title"

end TextMethod

/-- A method of lists. -/
inductive ListMethod where
  | append | extend | pop | index
  deriving DecidableEq, Repr

namespace ListMethod

/-- The methods of lists. -/
def all : List ListMethod := [append, extend, pop, index]

/-- The name of a method of lists. -/
def name : ListMethod → String
  | append => "append"
  | extend => "extend"
  | pop => "pop"
  | index => "index"

end ListMethod

/-- A method of dicts. -/
inductive DictMethod where
  | get | keys | values | items
  deriving DecidableEq, Repr

namespace DictMethod

/-- The methods of dicts. -/
def all : List DictMethod := [get, keys, values, items]

/-- The name of a method of dicts. -/
def name : DictMethod → String
  | get => "get"
  | keys => "keys"
  | values => "values"
  | items => "items"

end DictMethod

/-- A method with the receiver it was read from. -/
inductive BoundMethod where
  | text (method : TextMethod) (safe : Bool) (receiver : Text)
  | list (method : ListMethod) (receiver : Nat)
  | dict (method : DictMethod) (receiver : Nat)
  deriving DecidableEq, Repr

/-- The name of a bound method. -/
def BoundMethod.name : BoundMethod → String
  | text method _ _ => method.name
  | list method _ => method.name
  | dict method _ => method.name

/-- Anything that runs when it is called, other than a class of exceptions. -/
inductive Function where
  | builtin (function : Builtin)
  | helper (helper : Helper)
  | inclusion (inclusion : Inclusion)
  | filter (identity : Nat)
  | method (identity : Nat) (method : BoundMethod)
  deriving DecidableEq, Repr

/-- The name of a function. -/
def Function.name : Function → String
  | .builtin f => f.name
  | .helper f => f.name
  | .inclusion f => f.name
  | .filter _ => "__filter"
  | .method _ m => m.name

/-- Whether two functions are the same. A method is read anew each time, and every page
has a filter of its own. -/
def Function.same : Function → Function → Bool
  | filter i, filter j => i == j
  | method i _, method j _ => i == j
  | f, g => f = g

/-- A value of a script. -/
inductive Value where
  | none
  | bool (b : Bool)
  | int (n : Int)
  | float (x : Float)
  | str (t : Text)
  /-- Text that is safe to print as it is. -/
  | markup (t : Text)
  | list (place : Nat)
  | tuple (place : Nat)
  | dict (place : Nat)
  | function (function : Function)
  | exceptionClass (kind : ExceptionKind)
  | exception (identity : Nat) (kind : ExceptionKind) (message : Text)
  /-- What diverts output into a name. -/
  | capture (name : Text)
  | range (r : Range)
  deriving DecidableEq, Repr, Inhabited

/-- A number as arithmetic sees it. -/
inductive Number where
  | int (n : Int)
  | float (x : Float)
  deriving DecidableEq, Repr

/-- A number as a double. -/
def Number.toFloat : Number → Float
  | int n => Double.ofInt n
  | float x => x

namespace Value

/-- The name of the type of a value. -/
def typeName : Value → Text
  | none => "NoneType"
  | bool _ => "bool"
  | int _ => "int"
  | float _ => "float"
  | str _ => "str"
  | markup _ => "Markup"
  | list _ => "list"
  | tuple _ => "tuple"
  | dict _ => "dict"
  | function _ => "builtin_function_or_method"
  | exceptionClass _ => "type"
  | exception _ kind _ => kind.name.toList
  | capture _ => "capture"
  | range _ => "range"

/-- The number that a value is; a truth value counts as one or zero. -/
def number? : Value → Option Number
  | bool b => some (.int (if b then 1 else 0))
  | int n => some (.int n)
  | float x => some (.float x)
  | _ => Option.none

/-- The integer that a value is; a truth value counts as one or zero. -/
def integer? : Value → Option Int
  | bool b => some (if b then 1 else 0)
  | int n => some n
  | _ => Option.none

/-- The text that a value is, safe or not. -/
def text? : Value → Option Text
  | str t => some t
  | markup t => some t
  | _ => Option.none

/-- Text of the same kind as a value. -/
def textLike (v : Value) (t : Text) : Value :=
  match v with
  | markup _ => markup t
  | _ => str t

end Value

end TemplateEngine
