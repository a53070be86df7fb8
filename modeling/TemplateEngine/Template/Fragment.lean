import TemplateEngine.Template.Segment

/-!
# Fragments of a statement tag

The body of a statement tag is cut into quoted runs, the markers that open and
close blocks, the headers that continue a block, separators, and the code
between them. First every character of code is a piece of its own; then
neighbouring pieces of code are joined, and every piece learns how many line
breaks come before it. The pieces are the body, in order.
-/
namespace TemplateEngine

/-- What a piece of a statement tag is. -/
inductive FragmentKind where
  /-- A quoted run. -/
  | quoted
  /-- The header of a clause that continues a block, up to its colon. -/
  | continuation
  /-- The marker that opens a block. -/
  | blockOpen
  /-- A marker that closes a block. -/
  | blockClose
  /-- The mark between two statements on a line. -/
  | separator
  /-- Any other code. -/
  | code
  deriving DecidableEq, Repr

/-- A piece of a statement tag, with the number of line breaks before it. -/
structure Fragment where
  kind : FragmentKind
  text : Text
  line : Nat
  deriving DecidableEq, Repr

namespace Fragment

open Segment (isQuote closing?)

/-- The words that continue a block. -/
def continuationWords : List Text :=
  ["else".toList, "elif".toList, "except".toList, "finally".toList]

/-- Whether a character would make a word longer. -/
def extendsWord (c : Char) : Bool := c.isAlphanum || c = '_' || 0x80 ≤ c.toNat

/-- The word that a text starts with, if it is one that continues a block. -/
def leadingWord? (t : Text) : Option Text :=
  continuationWords.find? fun word =>
    word.isPrefixOf t && !(t.drop word.length).head?.any extendsWord

/-- How many characters reach up to and include the colon that ends a header. It is the
first one outside quotes and brackets, and no line break outside them comes before
it. The arguments are the characters of a quoted run still to come and the number of
open brackets. -/
def headerLength? : Nat → Nat → Text → Option Nat
  | _, _, [] => none
  | skip + 1, depth, _ :: rest => (headerLength? skip depth rest).map (· + 1)
  | 0, depth, c :: rest =>
    if isQuote c then
      (closing? c rest).bind fun run => (headerLength? run depth rest).map (· + 1)
    else if c = '(' || c = '[' || c = '{' then (headerLength? 0 (depth + 1) rest).map (· + 1)
    else if c = ')' || c = ']' || c = '}' then (headerLength? 0 (depth - 1) rest).map (· + 1)
    else if depth = 0 && c = '\n' then none
    else if depth = 0 && c = ':' then some 1
    else (headerLength? 0 depth rest).map (· + 1)

/-- The length of a header that continues a block, at the start of a text. -/
def continuationLength? (t : Text) : Option Nat :=
  (leadingWord? t).bind fun word =>
    (headerLength? 0 0 (t.drop word.length)).map (word.length + ·)

/-- Whether a character sets words apart. -/
def isBoundary (c : Char) : Bool := c = ';' || Text.isPlainBlank c

/-- Whether a text starts with the closing word, apart from what is before and after it. -/
def startsWithEnd (before : Option Char) (t : Text) : Bool :=
  "end".toList.isPrefixOf t && before.all isBoundary && (t.drop 3).head?.all isBoundary

/-- The piece of one character or more that a text starts with, other than a header,
and whether a statement starts after it. -/
def piece (before : Option Char) (fresh : Bool) (c : Char) (rest : Text) :
    FragmentKind × Nat × Bool :=
  if isQuote c then
    match closing? c rest with
    | some run => (.quoted, run + 1, false)
    | none => (.code, rest.length + 1, false)
  else if c = '{' && rest.head? = some ':' then (.blockOpen, 2, true)
  else if c = ':' && rest.head? = some '}' then (.blockClose, 2, true)
  else if startsWithEnd before (c :: rest) then (.blockClose, 3, true)
  else if c = ';' then (.separator, 1, true)
  else if c = '\n' then (.code, 1, true)
  else (.code, 1, fresh && Text.isPlainBlank c)

/-- The piece that a text starts with. A header that continues a block is one only where
a statement starts. -/
def leading (before : Option Char) (fresh : Bool) (c : Char) (rest : Text) :
    FragmentKind × Nat × Bool :=
  if fresh && Text.isPlainBlank c then (.code, 1, true)
  else
    match if fresh then continuationLength? (c :: rest) else none with
    | some length => (.continuation, length, false)
    | none => piece before fresh c rest

/-- The pieces of a body. The arguments are the characters of a piece still to be
passed over, the character before, and whether a statement starts here. -/
def pieces : Nat → Option Char → Bool → Text → List (FragmentKind × Text)
  | _, _, _, [] => []
  | skip + 1, _, fresh, c :: rest => pieces skip (some c) fresh rest
  | 0, before, fresh, c :: rest =>
    let (kind, length, fresh) := leading before fresh c rest
    (kind, (c :: rest).take length) :: pieces (length - 1) (some c) fresh rest

/-- Neighbouring pieces of code joined. -/
def joinCode : List (FragmentKind × Text) → List (FragmentKind × Text)
  | [] => []
  | (kind, text) :: rest =>
    match kind, joinCode rest with
    | .code, (.code, more) :: others => (.code, text ++ more) :: others
    | kind, others => (kind, text) :: others

/-- Pieces with the number of line breaks before each, from a number to start with. -/
def number : Nat → List (FragmentKind × Text) → List Fragment
  | _, [] => []
  | line, (kind, text) :: rest => ⟨kind, text, line⟩ :: number (line + text.newlines) rest

/-- The fragments of the body of a statement tag. -/
def ofBody (body : Text) : List Fragment := number 0 (joinCode (pieces 0 none true body))

end Fragment

end TemplateEngine
