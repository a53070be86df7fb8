import TemplateEngine.Script.Printed

/-!
# Percent formatting

A format is cut into plain characters and conversions before any value is looked
at. Each conversion then takes the next value. A format that is cut off, or asks
for an enormous field, fails only when everything before it has been converted.
-/
namespace TemplateEngine.Format

/-- How a conversion fills its field. -/
structure Field where
  leftAligned : Bool
  zeroFilled : Bool
  width : Nat
  precision : Option Nat
  deriving DecidableEq, Repr

/-- A piece of a format. -/
inductive Piece where
  | plain (c : Char)
  | conversion (field : Field) (conversion : Char)
  | broken (cause : Cause)
  deriving DecidableEq, Repr

/-- Where the reading of a format stands. -/
inductive Reading where
  | text
  | opened
  | flags (field : Field)
  | width (field : Field)
  | precision (field : Field) (places : Nat)
  deriving DecidableEq, Repr

/-- The greatest width or precision. -/
def maxField : Nat := 0x10000

/-- A conversion without flags, width and precision. -/
def plainField : Field := ⟨false, false, 0, none⟩

/-- What one character after the flags does: the pieces it completes, and where the
reading stands then, unless it has failed. -/
def stepWidth (field : Field) (c : Char) : List Piece × Option Reading :=
  if c.isDigit then
    let width := field.width * 10 + (c.toNat - 48)
    if width ≤ maxField then ([], some (.width { field with width := width }))
    else ([.broken (.fieldTooBig .width)], none)
  else if c = '.' then ([], some (.precision field 0))
  else ([.conversion field c], some .text)

/-- What one character does. -/
def step : Reading → Char → List Piece × Option Reading
  | .text, c => if c = '%' then ([], some .opened) else ([.plain c], some .text)
  | .opened, c =>
    if c = '%' then ([.plain '%'], some .text)
    else if c = '-' then ([], some (.flags { plainField with leftAligned := true }))
    else if c = '0' then ([], some (.flags { plainField with zeroFilled := true }))
    else stepWidth plainField c
  | .flags field, c =>
    if c = '-' then ([], some (.flags { field with leftAligned := true }))
    else if c = '0' then ([], some (.flags { field with zeroFilled := true }))
    else stepWidth field c
  | .width field, c => stepWidth field c
  | .precision field places, c =>
    if c.isDigit then
      let places := places * 10 + (c.toNat - 48)
      if places ≤ maxField then ([], some (.precision field places))
      else ([.broken (.fieldTooBig .precision)], none)
    else ([.conversion { field with precision := some places } c], some .text)

/-- The pieces of the rest of a format. -/
def piecesFrom : Reading → Text → List Piece
  | .text, [] => []
  | _, [] => [.broken .incompleteFormat]
  | reading, c :: rest =>
    match step reading c with
    | (pieces, some reading) => pieces ++ piecesFrom reading rest
    | (pieces, none) => pieces

/-- The pieces of a format. -/
def pieces (format : Text) : List Piece := piecesFrom .text format

/-- The integer that a double has before its point, if it is a machine integer. -/
def integerPart (x : Float) : Except Cause Int :=
  if x.isFinite && decide (Word.Fits (Double.truncate x)) then .ok (Double.truncate x)
  else .error (.notIntegral x)

/-- The text of a value under a conversion, and whether it is a number's. -/
def convert (h : Heap) (field : Field) (conversion : Char) (v : Value) :
    Except Cause (Text × Bool) :=
  if conversion = 's' then
    let text := h.display v
    .ok (match field.precision with
      | some places => text.take places
      | none => text, false)
  else if conversion = 'r' then .ok (h.repr v, false)
  else if conversion = 'd' || conversion = 'i' then
    match v.number? with
    | some (.int n) => .ok (Text.ofInt n, true)
    | some (.float x) => (integerPart x).map fun n => (Text.ofInt n, true)
    | none => .error (.notRealNumber conversion v.typeName)
  else if conversion = 'f' || conversion = 'F' then
    match v.number? with
    | some n => .ok (Double.fixed (field.precision.getD 6) n.toFloat, true)
    | none => .error (.notRealFixed v.typeName)
  else .error (.unknownConversion conversion)

/-- A text filled up to the width of its field. Zeros go between the sign of a number and
its digits. -/
def pad (field : Field) (isNumber : Bool) (t : Text) : Text :=
  let fill := field.width - t.length
  if field.leftAligned then t ++ Text.times fill ' '
  else if field.zeroFilled && isNumber then
    match t with
    | '-' :: digits => '-' :: Text.times fill '0' ++ digits
    | _ => Text.times fill '0' ++ t
  else Text.times fill ' ' ++ t

/-- The text of pieces whose conversions take values one after the other. All values have
to be taken. -/
def fill (h : Heap) : List Piece → List Value → Except Cause Text
  | [], [] => .ok []
  | [], _ :: _ => .error .notAllFormatted
  | .plain c :: rest, values => (fill h rest values).map fun t => c :: t
  | .broken cause :: _, _ => .error cause
  | .conversion _ _ :: _, [] => .error .notEnoughFormatted
  | .conversion field conversion :: rest, v :: values => do
    let (text, isNumber) ← convert h field conversion v
    let more ← fill h rest values
    return pad field isNumber text ++ more

/-- The text of a format with the values of a tuple, or with any other value alone. -/
def apply (h : Heap) (format : Text) (v : Value) : Except Cause Text :=
  match v with
  | .tuple p => fill h (pieces format) (h.tuple p)
  | v => fill h (pieces format) [v]

end TemplateEngine.Format
