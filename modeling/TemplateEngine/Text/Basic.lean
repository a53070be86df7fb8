/-!
# Text

Text is a list of characters, so that every operation on it is a plain list
function and every statement about it a statement about lists. This module
holds the operations that the rest of the library shares: cutting text at a
separator, replacing one piece by another, and joining pieces. Positions,
excerpts, blanks and quoting have modules of their own.
-/
namespace TemplateEngine

/-- Text, character by character. -/
abbrev Text := List Char

instance : Coe String Text := ⟨String.toList⟩

namespace Text

/-- Whether `piece` occurs somewhere in the text. -/
def hasPiece (piece : Text) : Text → Bool
  | [] => piece.isEmpty
  | c :: rest => piece.isPrefixOf (c :: rest) || hasPiece piece rest

/-- The pieces between the occurrences of `mark`; `n` marks give `n + 1` pieces. -/
def cutAt (mark : Char) : Text → List Text
  | [] => [[]]
  | c :: rest =>
    if c = mark then [] :: cutAt mark rest
    else
      match cutAt mark rest with
      | [] => [[c]]
      | piece :: pieces => (c :: piece) :: pieces

/-- There is always a first piece. -/
theorem cutAt_ne_nil (mark : Char) (t : Text) : cutAt mark t ≠ [] := by
  cases t with
  | nil => simp [cutAt]
  | cons c rest =>
    by_cases h : c = mark
    · simp [cutAt, h]
    · simp only [cutAt, h, if_false]
      split <;> simp

/-- The work of `splitOn`: `skip` characters of a separator are still to be passed
over, and `piece` holds the piece being read, reversed. -/
def splitOnLoop (separator : Text) : Nat → Text → Text → List Text
  | _, piece, [] => [piece.reverse]
  | skip + 1, piece, _ :: rest => splitOnLoop separator skip piece rest
  | 0, piece, c :: rest =>
    if separator.isPrefixOf (c :: rest) then
      piece.reverse :: splitOnLoop separator (separator.length - 1) [] rest
    else splitOnLoop separator 0 (c :: piece) rest

/-- The pieces between the occurrences of a separator, read from the left. The
separator is not empty. -/
def splitOn (separator t : Text) : List Text := splitOnLoop separator 0 [] t

/-- The work of `replace`: `skip` characters of a replaced piece are still to be
passed over. -/
def replaceLoop (old new : Text) : Nat → Text → Text
  | _, [] => []
  | skip + 1, _ :: rest => replaceLoop old new skip rest
  | 0, c :: rest =>
    if old.isPrefixOf (c :: rest) then new ++ replaceLoop old new (old.length - 1) rest
    else c :: replaceLoop old new 0 rest

/-- Every occurrence of `old`, read from the left, becomes `new`. The empty text
occurs before every character and at the end. -/
def replace (old new t : Text) : Text :=
  if old.isEmpty then new ++ t.flatMap (fun c => c :: new)
  else replaceLoop old new 0 t

/-- Pieces joined by a separator. -/
def join (separator : Text) (pieces : List Text) : Text :=
  List.intercalate separator pieces

/-- The number of line breaks in a text. -/
def newlines (t : Text) : Nat := t.count '\n'

@[simp] theorem newlines_nil : newlines [] = 0 := rfl

@[simp] theorem newlines_append (s t : Text) :
    newlines (s ++ t) = newlines s + newlines t := by
  simp [newlines]

/-- The text without one trailing `c`, if it ends in one. -/
def dropLastIf (c : Char) (t : Text) : Text :=
  if t.getLast? = some c then t.dropLast else t

/-- The lines of a text: a line break ends a line, together with one carriage
return right before it, and nothing follows the last line break. -/
def lines (t : Text) : List Text :=
  let pieces := cutAt '\n' t
  let closed := pieces.dropLast.map (dropLastIf '\r')
  match pieces.getLast? with
  | some last => if last.isEmpty then closed else closed ++ [last]
  | none => closed

/-- `ch`, written `n` times. -/
def times (n : Nat) (ch : Char) : Text := List.replicate n ch

/-- The text, filled up on the left to a width. -/
def padLeft (width : Nat) (fill : Char) (t : Text) : Text :=
  times (width - t.length) fill ++ t

/-- Decimal digits of a natural number. -/
def ofNat (n : Nat) : Text := Nat.toDigits 10 n

/-- Decimal text of an integer; only negative numbers have a sign. -/
def ofInt (n : Int) : Text :=
  if n < 0 then '-' :: ofNat n.natAbs else ofNat n.natAbs

end Text

end TemplateEngine
